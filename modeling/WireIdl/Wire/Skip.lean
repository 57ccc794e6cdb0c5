import WireIdl.Wire.Reader

/-!
Skipping: one value of a given wire type is read and thrown away, so that a reader can pass over
fields it does not know.
-/

namespace WireIdl.Reader

/-- Skips a value whose containers and structs are nested less than `levels` deep. -/
def skipWithin : Nat → Tag → Reader Unit
  | 0, _ => throw (.depthLimit maxFrames)
  | levels + 1, tag =>
      match WireType.ofTag? tag with
      | some .bool | some .byte => discard rawByte
      | some .i16 => discard i16
      | some .i32 | some .enum => discard i32
      | some .i64 => discard i64
      | some .double => discard double
      | some .string => discard binary
      | some .struct => frame (fun header _ => skipWithin levels header.tag) ()
      | some .list | some .set => do
          let header ← itemsHeader
          times (skipWithin levels header.element) header.size
      | some .map => do
          let header ← entriesHeader
          times (do skipWithin levels header.key; skipWithin levels header.value) header.size
      | none => throw (.unknownType tag)

def skip (tag : Tag) : Reader Unit :=
  skipWithin maxFrames tag

end WireIdl.Reader

import WireIdl.Emit.TypeText
import WireIdl.Record.Parts
import WireIdl.Value.Basic
import WireIdl.Wire.Encoding

/-!
The bytes of a value. The shape of the value gives the tags of elements, keys and fields.
-/

namespace WireIdl

variable {n : Census}

namespace Shape

def tag (shape : Shape n) : Tag :=
  match shape.wireType? with
  | some w => w.onWire.tag
  | none => Tag.void

end Shape

namespace Schema

mutual

def encode (s : Schema n) (shape : Shape n) : Value → Output
  | .bool v => .ok (Encoding.bool v)
  | .byte v => .ok (Bytes.ofI8 v)
  | .ubyte v => .ok [v]
  | .i16 v => .ok (Bytes.ofI16 v)
  | .i32 v => .ok (Bytes.ofI32 v)
  | .i64 v => .ok (Bytes.ofI64 v)
  | .double v => .ok (Bytes.ofDouble v)
  | .string _ v => Encoding.string v
  | .binary v => Encoding.binary v
  | .enum v => .ok (Bytes.ofI32 v)
  | .option none => .ok []
  | .option (some v) => s.encode shape v
  | .pointer _ v => s.encode shape v
  | .seq _ items | .set _ items =>
      Encoding.sized items.length fun size =>
        .ok (Encoding.itemsHeader shape.element.tag size) ++ s.encodeItems shape.element items
  | .map _ entries =>
      Encoding.sized entries.length fun size =>
        .ok (Encoding.entriesHeader shape.key.tag shape.value.tag size) ++
          s.encodeEntries shape.key shape.value entries
  | .record slots => s.encodeFields (shape.fields s) slots

def encodeItems (s : Schema n) (shape : Shape n) : List Value → Output
  | [] => .ok []
  | item :: items => s.encode shape item ++ s.encodeItems shape items

def encodeEntries (s : Schema n) (keyShape valueShape : Shape n) :
    List (Value × Value) → Output
  | [] => .ok []
  | (key, value) :: entries =>
      s.encode keyShape key ++ s.encode valueShape value ++
        s.encodeEntries keyShape valueShape entries

/-- The fields that are present, each with its header, and a stop. -/
def encodeFields (s : Schema n) (fields : List (Field n)) : Slots → Output
  | [] => .ok Encoding.fieldStop
  | none :: slots => s.encodeFields fields.tail slots
  | some v :: slots =>
      match fields with
      | [] => .ok Encoding.fieldStop
      | field :: fields =>
          let shape := s.shape field.ty
          .ok (Encoding.fieldHeader field.id shape.tag) ++ s.encode shape v ++
            s.encodeFields fields slots

end

def encodeRecord (s : Schema n) (id : Fin n.records) (v : Value) : Output :=
  s.encode (.record id) v

end Schema

end WireIdl

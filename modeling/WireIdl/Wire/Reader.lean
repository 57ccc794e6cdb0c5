import WireIdl.Wire.Bytes
import WireIdl.Wire.Message

/-!
Reading from a source of bytes. A reader takes bytes from the front of the source; when it fails,
the bytes it took before stay taken. The source counts the struct frames that are open, and does
not open more than `maxFrames`.
-/

namespace WireIdl

structure Source where
  unread : Bytes
  frames : Nat := 0

/-- The deepest nesting that is followed, of struct frames and of skipped values. -/
def maxFrames : Nat := 64

abbrev Reader := EStateM Fault Source

namespace Reader

/-- Takes the next `count` bytes, or none if there are fewer. -/
def take (count : Nat) : Reader Bytes := fun source =>
  let taken := source.unread.take count
  if taken.length = count then .ok taken { source with unread := source.unread.drop count }
  else .error .unexpectedEof source

def rawByte : Reader UInt8 := fun source =>
  match source.unread with
  | [] => .error .unexpectedEof source
  | b :: rest => .ok b { source with unread := rest }

def bool : Reader Bool := do
  return (← rawByte) != 0

def i8 : Reader Int8 := do
  return (← rawByte).toInt8

def i16 : Reader Int16 := do
  return (← take 2).toI16

def i32 : Reader Int32 := do
  return (← take 4).toI32

def i64 : Reader Int64 := do
  return (← take 8).toI64

def double : Reader Double := do
  return (← take 8).toDouble

def size : Reader Nat := do
  let size ← i32
  if size < 0 then throw (.negativeSize size) else return size.toInt.toNat

def binary : Reader Bytes := do
  take (← size)

def decoded (bytes : Bytes) : Reader String :=
  match bytes.toString? with
  | some s => pure s
  | none => throw .invalidUtf8

def string : Reader String := do
  decoded (← binary)

/-- The header of a struct field; a stop has no id. -/
structure FieldHeader where
  tag : Tag
  id : Int16

def fieldHeader : Reader FieldHeader := do
  let tag ← rawByte
  if tag = Tag.stop then return ⟨tag, 0⟩ else return ⟨tag, ← i16⟩

structure ItemsHeader where
  element : Tag
  size : Nat

def itemsHeader : Reader ItemsHeader := do
  let element ← rawByte
  return ⟨element, ← size⟩

structure EntriesHeader where
  key : Tag
  value : Tag
  size : Nat

def entriesHeader : Reader EntriesHeader := do
  let key ← rawByte
  let value ← rawByte
  return ⟨key, value, ← size⟩

def openFrame : Reader Unit := fun source =>
  if source.frames ≥ maxFrames then .error (.depthLimit maxFrames) source
  else .ok () { source with frames := source.frames + 1 }

def closeFrame : Reader Unit := fun source =>
  .ok () { source with frames := source.frames - 1 }

def messageType (code : UInt8) : Reader MessageType :=
  match MessageType.ofCode code with
  | .ok type => pure type
  | .error fault => throw fault

/-- The header of a message. Its first word is negative and holds a version and the type of the
message, or it is the length of the name, which then comes before the type. Frames that an earlier
failure left open are closed. -/
def messageHeader : Reader MessageHeader := do
  modify fun source => { source with frames := 0 }
  let first ← i32
  if first < 0 then
    let header := first.toUInt32
    if header &&& 0xffff0000 ≠ 0x80010000 then throw (.badVersion header)
    let type ← messageType header.toUInt8
    let name ← string
    return ⟨name, type, ← i32⟩
  else
    let name ← decoded (← take first.toInt.toNat)
    let type ← messageType (← rawByte)
    return ⟨name, type, ← i32⟩

def collect {α : Type} (item : Reader α) : Nat → Reader (List α)
  | 0 => pure []
  | count + 1 => do
      let first ← item
      return first :: (← collect item count)

def discard {α : Type} (item : Reader α) : Reader Unit := do
  let _ ← item

def times (item : Reader Unit) : Nat → Reader Unit
  | 0 => pure ()
  | count + 1 => do
      item
      times item count

/-- Reads to the stop of a struct frame. A field takes bytes, so there are at most as many fields
as bytes; with no byte left, the next header is missing. -/
def fields {σ : Type} (field : FieldHeader → σ → Reader σ) : Nat → σ → Reader σ
  | 0, _ => throw .unexpectedEof
  | bytes + 1, state => do
      let header ← fieldHeader
      if header.tag = Tag.stop then return state
      fields field bytes (← field header state)

def frame {σ : Type} (field : FieldHeader → σ → Reader σ) (start : σ) : Reader σ := do
  openFrame
  let source ← get
  let state ← fields field source.unread.length start
  closeFrame
  return state

end Reader

end WireIdl

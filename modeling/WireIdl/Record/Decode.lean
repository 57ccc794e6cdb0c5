import WireIdl.Record.Builder
import WireIdl.Record.Encode
import WireIdl.Wire.Skip

/-!
Reading values. A struct frame is read field by field into the slots of a builder: a field that is
declared goes to its slot and replaces what was there, any other is skipped.
-/

namespace WireIdl

variable {n : Census}

structure KnownField (n : Census) where
  id : Int16
  shape : Shape n

def Schema.knownFields (s : Schema n) (fields : List (Field n)) : List (KnownField n) :=
  fields.map fun field => { id := field.id, shape := s.shape field.ty }

namespace Target

def readEnum (t : Target n) (id : Fin n.enums) : Reader Value := do
  let value ← Reader.i32
  match (t.schema.enum id).memberByValue? value with
  | some _ => return .enum value
  | none => throw (.unknownEnumValue (t.schema.enum id).name value)

/-- Reads a value of a shape, given the reader of records. -/
def readValueWith (t : Target n) (record : Fin n.records → Reader Value) : Shape n → Reader Value
  | .bool => return .bool (← Reader.bool)
  | .byte => return .byte (← Reader.i8)
  | .i16 => return .i16 (← Reader.i16)
  | .i32 => return .i32 (← Reader.i32)
  | .i64 => return .i64 (← Reader.i64)
  | .double => return .double (← Reader.double)
  | .string => return .string .owned (← Reader.string)
  | .binary => return .binary (← Reader.binary)
  | .enum id => t.readEnum id
  | .record id => record id
  | .list _ element => do
      let header ← Reader.itemsHeader
      return .seq t.config.list.toSeq
        (← Reader.collect (t.readValueWith record (element ())) header.size)
  | .set _ element => do
      let header ← Reader.itemsHeader
      return .setOf t.config.set
        (← Reader.collect (t.readValueWith record (element ())) header.size)
  | .map _ key _ value => do
      let header ← Reader.entriesHeader
      let entry : Reader (Value × Value) := do
        let key ← t.readValueWith record (key ())
        return (key, ← t.readValueWith record (value ()))
      return .mapOf t.config.map (← Reader.collect entry header.size)
  | .void | .service _ | .cyclic _ => throw (.unknownType Tag.void)

def mismatched (t : Target n) (field : KnownField n) (header : Reader.FieldHeader) : Reader Unit :=
  if t.config.fieldTypeChecks then
    throw (.typeMismatch field.id field.shape.tag header.tag)
  else Reader.skip header.tag

def readField (t : Target n) (record : Fin n.records → Reader Value) :
    List (KnownField n) → Reader.FieldHeader → Slots → Reader Slots
  | field :: fields, header, slot :: slots =>
      if field.id = header.id then
        if header.tag = field.shape.tag then do
          return some (← t.readValueWith record field.shape) :: slots
        else do
          t.mismatched field header
          return slot :: slots
      else do
        return slot :: (← t.readField record fields header slots)
  | _, header, slots => do
      Reader.skip header.tag
      return slots

/-- Reads a record in which at most `frames` struct frames are open at a time. -/
def readRecordWithin (t : Target n) : Nat → Fin n.records → Reader Value
  | 0, _ => throw (.depthLimit maxFrames)
  | frames + 1, id => do
      let fields := t.schema.knownFields (t.schema.record id).fields
      let slots ←
        Reader.frame (t.readField (t.readRecordWithin frames) fields) (Builder.new t id).slots
      match (t.schema.record id).build slots with
      | .ok v => return v
      | .error fault => throw (.build fault)

def readRecord (t : Target n) (id : Fin n.records) : Reader Value :=
  t.readRecordWithin maxFrames id

def readShape (t : Target n) (shape : Shape n) : Reader Value :=
  t.readValueWith t.readRecord shape

end Target

end WireIdl

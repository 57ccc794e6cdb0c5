import WireIdl.Emit.Statement

/-!
The statements that write and read the fields of a struct frame. Temporaries are numbered in the
order in which they are bound, over all fields of a frame.
-/

namespace WireIdl

variable {n : Census}

namespace Target

/-- Writes a value of a shape; `next` is the number of the next temporary. -/
def writeValue (t : Target n) (source : Temporary) (next : Nat) :
    Shape n → Except EmitFault (WriteStmt × Nat)
  | .bool => .ok (.scalar .bool source, next)
  | .byte => .ok (.scalar .byte source, next)
  | .i16 => .ok (.scalar .i16 source, next)
  | .i32 => .ok (.scalar .i32 source, next)
  | .i64 => .ok (.scalar .i64 source, next)
  | .double => .ok (.scalar .double source, next)
  | .string => .ok (.scalar .string source, next)
  | .binary => .ok (.scalar .binary source, next)
  | .enum _ => .ok (.enum source, next)
  | .record _ => .ok (.record source, next)
  | .list _ element => do
      let tag ← t.tagPath (element ())
      let item := ⟨"item", next⟩
      let (body, next) ← t.writeValue item (next + 1) (element ())
      return (.items .list tag source item body, next)
  | .set _ element => do
      let tag ← t.tagPath (element ())
      let item := ⟨"item", next⟩
      let (body, next) ← t.writeValue item (next + 1) (element ())
      return (.items .set tag source item body, next)
  | .map _ key _ value => do
      let keyTag ← t.tagPath (key ())
      let valueTag ← t.tagPath (value ())
      let k := ⟨"key", next⟩
      let v := ⟨"value", next + 1⟩
      let (keyBody, next) ← t.writeValue k (next + 2) (key ())
      let (valueBody, next) ← t.writeValue v next (value ())
      return (.entries keyTag valueTag source k v keyBody valueBody, next)
  | .void => .error (t.unexpected .field .void)
  | .service id => .error (t.unexpected .field (.service id))
  | .cyclic cycle => .error (.typedefCycle cycle)

def writeFields (t : Target n) (next : Nat) :
    List (Field n × Access) → Except EmitFault (List FieldWrite)
  | [] => .ok []
  | (field, access) :: fields => do
      let source := ⟨"value", next⟩
      let shape := t.shape field.ty
      let tag ← t.tagPath shape
      let (value, next) ← t.writeValue source (next + 1) shape
      let rest ← t.writeFields next fields
      return { name := field.name, id := field.id, tag, access, source, value } :: rest

def writeFrame (t : Target n) (name : String) (fields : List (Field n × Access)) :
    Except EmitFault (List Code.Step) := do
  return writeFrameSteps t.config.runtimePath name (← t.writeFields 0 fields)

def readValue (t : Target n) (next : Nat) : Shape n → Except EmitFault (ReadStmt × Nat)
  | .bool => .ok (.scalar .bool ⟨"value", next⟩, next + 1)
  | .byte => .ok (.scalar .byte ⟨"value", next⟩, next + 1)
  | .i16 => .ok (.scalar .i16 ⟨"value", next⟩, next + 1)
  | .i32 => .ok (.scalar .i32 ⟨"value", next⟩, next + 1)
  | .i64 => .ok (.scalar .i64 ⟨"value", next⟩, next + 1)
  | .double => .ok (.scalar .double ⟨"value", next⟩, next + 1)
  | .string => .ok (.scalar .string ⟨"value", next⟩, next + 1)
  | .binary => .ok (.scalar .binary ⟨"value", next⟩, next + 1)
  | .enum id =>
      .ok (.enum ⟨"raw", next⟩ ⟨"value", next + 1⟩ (t.enumPath id) (t.schema.enum id).name,
        next + 2)
  | .record id => .ok (.record ⟨"value", next⟩ (t.recordPath id), next + 1)
  | .list _ element => do
      let (item, after) ← t.readValue (next + 2) (element ())
      return (.items .list ⟨"list", next⟩ ⟨"value", next + 1⟩ t.config.list.path
        t.config.list.pushMethod item, after)
  | .set _ element => do
      let (item, after) ← t.readValue (next + 2) (element ())
      return (.items .set ⟨"set", next⟩ ⟨"value", next + 1⟩ t.config.set.setPath "insert" item,
        after)
  | .map _ key _ value => do
      let (k, after) ← t.readValue (next + 2) (key ())
      let (v, after) ← t.readValue after (value ())
      return (.entries ⟨"map", next⟩ ⟨"value", next + 1⟩ t.config.map.mapPath k v, after)
  | .void => .error (t.unexpected .field .void)
  | .service id => .error (t.unexpected .field (.service id))
  | .cyclic cycle => .error (.typedefCycle cycle)

structure Reading (n : Census) where
  id : Int16
  ty : Ty n
  destination : Destination

def readFields (t : Target n) (next : Nat) :
    List (Reading n) → Except EmitFault (List FieldRead)
  | [] => .ok []
  | reading :: readings => do
      let shape := t.shape reading.ty
      let tag ← t.tagPath shape
      let (value, next) ← t.readValue next shape
      let rest ← t.readFields next readings
      return { id := reading.id, tag, value, destination := reading.destination } :: rest

def readFrame (t : Target n) (readings : List (Reading n)) :
    Except EmitFault (List Code.Step) := do
  return readFrameSteps t.config.runtimePath t.config.fieldTypeChecks (← t.readFields 0 readings)

end Target

end WireIdl

import WireIdl.Emit.Plan
import WireIdl.Wire.Fault

/-!
Building records. A builder starts from the declared defaults or from a record, collects fields,
and gives a record if nothing required is missing; a union needs exactly one field.
-/

namespace WireIdl

variable {n : Census}

namespace RecordDecl

def firstMissing? : List (Field n) → Slots → Option (Field n)
  | field :: fields, none :: slots =>
      if field.isRequired then some field else firstMissing? fields slots
  | _ :: fields, some _ :: slots => firstMissing? fields slots
  | _, _ => none

def build (decl : RecordDecl n) (slots : Slots) : Except BuildFault Value :=
  if decl.isUnion then
    let setFields := slots.countP (·.isSome)
    if setFields = 1 then .ok (.record slots) else .error (.invalidUnionState setFields)
  else
    match firstMissing? decl.fields slots with
    | some field => .error (.missingRequiredField field.name)
    | none => .ok (.record slots)

end RecordDecl

def Target.defaultValue? (t : Target n) (field : Field n) : Option Value :=
  match t.defaultInitializer field with
  | .ok (some initial) => some (initial.value t.config)
  | _ => none

structure Builder (n : Census) where
  id : Fin n.records
  slots : Slots

namespace Builder

/-- A builder that holds the defaults. -/
def new (t : Target n) (id : Fin n.records) : Builder n where
  id
  slots := (t.schema.record id).fields.map t.defaultValue?

def ofValue (id : Fin n.records) : Value → Builder n
  | .record slots => { id, slots }
  | _ => { id, slots := [] }

def set (b : Builder n) (index : Nat) (v : Value) : Builder n :=
  { b with slots := b.slots.set index (some v) }

def field? (s : Schema n) (b : Builder n) (name : String) : Option (Field n × Nat) :=
  (s.record b.id).fields.zipIdx.find? (·.1.name == name)

def build (s : Schema n) (b : Builder n) : Except BuildFault Value :=
  (s.record b.id).build b.slots

end Builder

end WireIdl

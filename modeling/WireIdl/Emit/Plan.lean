import WireIdl.Emit.Boxing
import WireIdl.Emit.Initializer

/-!
What is known of a record before its code is written: for each field its identifier, its type, how
it is held, and its default.
-/

namespace WireIdl

variable {n : Census}

structure FieldPlan (n : Census) where
  field : Field n
  ident : String
  shape : Shape n
  /-- The type of the value, without the pointer or the option around it. -/
  valueType : String
  boxed : Bool
  /-- Whether the record may lack the field. -/
  optional : Bool
  default? : Option (Initializer n)

namespace FieldPlan

def heldType (p : FieldPlan n) : String :=
  if p.boxed then "::std::boxed::Box<" ++ p.valueType ++ ">" else p.valueType

def storedType (p : FieldPlan n) : String :=
  if p.optional then "Option<" ++ p.heldType ++ ">" else p.heldType

def asOption (p : FieldPlan n) : String :=
  "self." ++ p.ident ++ if p.boxed then ".as_deref()" else ".as_ref()"

def asRef (p : FieldPlan n) : String :=
  (if p.boxed then "&*self." else "&self.") ++ p.ident

def option (p : FieldPlan n) : String :=
  if p.optional then p.asOption else "Some(" ++ p.asRef ++ ")"

def length (p : FieldPlan n) : String :=
  if p.optional then "self." ++ p.ident ++ ".as_ref().map(|v| v.len())"
  else "Some(self." ++ p.ident ++ ".len())"

def held (p : FieldPlan n) (expr : String) : String :=
  if p.boxed then "Some(::std::boxed::Box::new(" ++ expr ++ "))" else "Some(" ++ expr ++ ")"

end FieldPlan

namespace Target

def defaultInitializer (t : Target n) (field : Field n) :
    Except EmitFault (Option (Initializer n)) :=
  match field.default? with
  | none => .ok none
  | some v => do return some (← t.initializer field.ty v)

def planField (t : Target n) (owner : Fin n.records) (field : Field n) :
    Except EmitFault (FieldPlan n) := do
  let shape := t.shape field.ty
  let boxed ← t.needsBox owner field.ty
  let default? ← t.defaultInitializer field
  let valueType ← t.typeText shape
  return {
    field, shape, valueType, boxed, default?
    ident := Ident.field t.config field.name
    optional := (t.schema.record owner).isUnion || !field.isRequired }

def planFields (t : Target n) (owner : Fin n.records) : Except EmitFault (List (FieldPlan n)) :=
  (t.schema.record owner).fields.mapM (t.planField owner)

end Target

end WireIdl

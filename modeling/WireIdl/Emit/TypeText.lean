import WireIdl.Emit.Fault
import WireIdl.Emit.Ident
import WireIdl.Wire.Tag

/-!
The emitted type of a schema type, and its wire type. Set elements and map keys must be hashable,
and those of an ordered container must have an order; only ordered sets and maps are hashable
themselves.
-/

namespace WireIdl

/-- The wire type of values of a shape; none for what is no value. -/
def Shape.wireType? {n : Census} : Shape n → Option WireType
  | .bool => some .bool
  | .byte => some .byte
  | .i16 => some .i16
  | .i32 => some .i32
  | .i64 => some .i64
  | .double => some .double
  | .string | .binary => some .string
  | .enum _ => some .enum
  | .list _ _ => some .list
  | .set _ _ => some .set
  | .map _ _ _ _ => some .map
  | .record _ => some .struct
  | .void | .service _ | .cyclic _ => none

/-- A schema and the choices with which it is emitted. -/
structure Target (n : Census) where
  schema : Schema n
  config : Config

namespace Target

variable {n : Census}

def shape (t : Target n) (ty : Ty n) : Shape n :=
  t.schema.shape ty

def runtime (t : Target n) (path : String) : String :=
  t.config.runtimePath ++ "::" ++ path

def unexpected (t : Target n) (role : TypeRole) : Shape n → EmitFault
  | .cyclic cycle => .typedefCycle cycle
  | .service id => .unexpectedType (t.schema.service id).name role
  | _ => .unexpectedType "void" role

def wireType (t : Target n) (shape : Shape n) : Except EmitFault WireType :=
  match shape.wireType? with
  | some w => .ok w
  | none => .error (t.unexpected .wireValue shape)

def tagPath (t : Target n) (shape : Shape n) : Except EmitFault String := do
  let w ← t.wireType shape
  return t.runtime ("ttype::" ++ w.onWire.constantName)

def isHashable (t : Target n) : Shape n → Except EmitFault Bool
  | .double => .ok false
  | .list _ element => t.isHashable (element ())
  | .set _ element => if t.config.set.isOrdered then t.isHashable (element ()) else .ok false
  | .map _ key _ value =>
      if t.config.map.isOrdered then do
        if ← t.isHashable (key ()) then t.isHashable (value ()) else return false
      else .ok false
  | .cyclic cycle => .error (.typedefCycle cycle)
  | _ => .ok true

def isOrdered (t : Target n) : Shape n → Except EmitFault Bool
  | .double | .record _ => .ok false
  | .list _ element => t.isOrdered (element ())
  | .set _ element => if t.config.set.isOrdered then t.isOrdered (element ()) else .ok false
  | .map _ key _ value =>
      if t.config.map.isOrdered then do
        if ← t.isOrdered (key ()) then t.isOrdered (value ()) else return false
      else .ok false
  | .cyclic cycle => .error (.typedefCycle cycle)
  | _ => .ok true

/-- Refuses what cannot be a set element or a map key of a container. -/
def checkKey (t : Target n) (form : KeyedForm) (written : Ty n) (shape : Shape n) :
    Except EmitFault Unit := do
  if !(← t.isHashable shape) then
    throw (.unhashableType (t.schema.typeName written))
  if form.isOrdered then
    if !(← t.isOrdered shape) then
      throw (.unorderedType (t.schema.typeName written))

def enumPath (t : Target n) (id : Fin n.enums) : String :=
  Ident.qualified t.config (t.schema.enum id).scope (t.schema.enum id).name

def recordPath (t : Target n) (id : Fin n.records) : String :=
  Ident.qualified t.config (t.schema.record id).scope (t.schema.record id).name

def typeText (t : Target n) : Shape n → Except EmitFault String
  | .void => .ok "()"
  | .bool => .ok "bool"
  | .byte => .ok "i8"
  | .i16 => .ok "i16"
  | .i32 => .ok "i32"
  | .i64 => .ok "i64"
  | .double => .ok "f64"
  | .string => .ok "::std::string::String"
  | .binary => .ok "::std::vec::Vec<u8>"
  | .enum id => .ok (t.enumPath id)
  | .record id => .ok (t.recordPath id)
  | .list _ element => do
      let element ← t.typeText (element ())
      return t.config.list.path ++ "<" ++ element ++ ">"
  | .set written element => do
      t.checkKey t.config.set written (element ())
      let element ← t.typeText (element ())
      return t.config.set.setPath ++ "<" ++ element ++ ">"
  | .map writtenKey key _ value => do
      t.checkKey t.config.map writtenKey (key ())
      let key ← t.typeText (key ())
      let value ← t.typeText (value ())
      return t.config.map.mapPath ++ "<" ++ key ++ ", " ++ value ++ ">"
  | .service id => .error (t.unexpected .valueType (.service id))
  | .cyclic cycle => .error (.typedefCycle cycle)

end Target

end WireIdl

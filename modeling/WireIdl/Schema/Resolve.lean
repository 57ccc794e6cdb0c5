import WireIdl.Schema.Basic

/-!
What a written type stands for. A chain of typedefs either reaches a type that is no typedef or
comes back to a typedef it has passed. `Schema.trueType` follows one chain; `Schema.shape` resolves
a type at every depth, and keeps a chain that comes back as a leaf, so that whoever walks the shape
meets the fault at the place where it stands.
-/

namespace WireIdl

variable {n : Census}

structure TypedefCycle where
  name : String
  deriving DecidableEq

namespace Schema

/-- Follows typedefs from a type. Each step passes a typedef not in `seen`, so a schema has no
chain of more steps than it has typedefs. -/
def followTypedefs (s : Schema n) :
    Nat → List (Fin n.typedefs) → Ty n → Except TypedefCycle (Ty n)
  | steps, seen, .typedef id =>
      if id ∈ seen then .error ⟨(s.typedef id).name⟩
      else
        match steps with
        | 0 => .error ⟨(s.typedef id).name⟩
        | steps + 1 => s.followTypedefs steps (id :: seen) (s.typedef id).target
  | _, _, ty => .ok ty

/-- The type at the end of a chain of typedefs. Only the outermost layer is resolved. -/
def trueType (s : Schema n) (ty : Ty n) : Except TypedefCycle (Ty n) :=
  s.followTypedefs n.typedefs [] ty

def typeName (s : Schema n) : Ty n → String
  | .void => "void"
  | .bool => "bool"
  | .byte => "byte"
  | .i16 => "i16"
  | .i32 => "i32"
  | .i64 => "i64"
  | .double => "double"
  | .string => "string"
  | .binary => "binary"
  | .enum id => (s.enum id).name
  | .list element => "list<" ++ s.typeName element ++ ">"
  | .set element => "set<" ++ s.typeName element ++ ">"
  | .map key value => "map<" ++ s.typeName key ++ ", " ++ s.typeName value ++ ">"
  | .record _ id => (s.record id).name
  | .typedef id => (s.typedef id).name
  | .service id => (s.service id).name

end Schema

/-- A type resolved at every depth. Parts keep the type they were written with, and are resolved
when they are asked for: in full a shape can be far larger than its schema, because each typedef of
a chain may use the next one twice. -/
inductive Shape (n : Census) where
  | void
  | bool
  | byte
  | i16
  | i32
  | i64
  | double
  | string
  | binary
  | enum (id : Fin n.enums)
  | list (written : Ty n) (element : Unit → Shape n)
  | set (written : Ty n) (element : Unit → Shape n)
  | map (writtenKey : Ty n) (key : Unit → Shape n) (writtenValue : Ty n) (value : Unit → Shape n)
  | record (id : Fin n.records)
  | service (id : Fin n.services)
  | cyclic (cycle : TypedefCycle)

namespace Shape

def ofTy (link : Fin n.typedefs → Shape n) : Ty n → Shape n
  | .void => .void
  | .bool => .bool
  | .byte => .byte
  | .i16 => .i16
  | .i32 => .i32
  | .i64 => .i64
  | .double => .double
  | .string => .string
  | .binary => .binary
  | .enum id => .enum id
  | .list element => .list element fun _ => ofTy link element
  | .set element => .set element fun _ => ofTy link element
  | .map key value => .map key (fun _ => ofTy link key) value (fun _ => ofTy link value)
  | .record _ id => .record id
  | .typedef id => link id
  | .service id => .service id

def size : Shape n → Nat
  | .list _ element | .set _ element => (element ()).size + 1
  | .map _ key _ value => (key ()).size + (value ()).size + 1
  | _ => 1

def recordId? : Shape n → Option (Fin n.records)
  | .record id => some id
  | _ => none

end Shape

namespace Schema

/-- The shape of a typedef in which at most `links` further typedefs are nested in each other. -/
def typedefShape (s : Schema n) : Nat → Fin n.typedefs → Shape n
  | links, id =>
      match s.trueType (.typedef id) with
      | .error cycle => .cyclic cycle
      | .ok ty =>
          match links with
          | 0 => .ofTy (fun id => .cyclic ⟨(s.typedef id).name⟩) ty
          | links + 1 => .ofTy (s.typedefShape links) ty

/-- The shape of a type. A typedef that contains itself inside a container has no shape of finite
size; it counts as a cycle where it would be entered once more than there are typedefs. -/
def shape (s : Schema n) (ty : Ty n) : Shape n :=
  .ofTy (s.typedefShape n.typedefs) ty

end Schema

end WireIdl

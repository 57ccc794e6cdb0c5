import WireIdl.Decimal.Double

/-!
A resolved interface schema: an arena of declarations that refer to each other by position. The
type of a schema carries the number of its declarations, so a reference cannot dangle, and records
may contain each other.
-/

namespace WireIdl

/-- How many declarations of each kind a schema has. -/
structure Census where
  records : Nat
  enums : Nat
  typedefs : Nat
  services : Nat

inductive RecordKind where
  | struct
  | union
  | exception
  deriving DecidableEq

/-- Types as they are written in a schema. The kind of a record type repeats what the schema's
author wrote and need not be the kind of the declaration. -/
inductive Ty (n : Census) where
  | void
  | bool
  | byte
  | i16
  | i32
  | i64
  | double
  | string
  | binary
  | enum (id : Fin n.enums)
  | list (element : Ty n)
  | set (element : Ty n)
  | map (key value : Ty n)
  | record (kind : RecordKind) (id : Fin n.records)
  | typedef (id : Fin n.typedefs)
  | service (id : Fin n.services)
  deriving DecidableEq

namespace Ty

variable {n : Census}

def isVoid : Ty n → Bool
  | .void => true
  | _ => false

def isContainer : Ty n → Bool
  | .list _ | .set _ | .map _ _ => true
  | _ => false

def recordId? : Ty n → Option (Fin n.records)
  | .record _ id => some id
  | _ => none

end Ty

structure Location where
  path : String
  line : UInt32
  column : UInt32
  deriving DecidableEq

def Location.text (l : Location) : String :=
  s!"{l.path}:{l.line}:{l.column}"

/-- A literal as it is written in a schema. Lists and sets share a form, and an identifier is a
truth value, an enum member or the name of a constant, according to the type at its place. -/
inductive Literal where
  | int (value : Int64)
  | double (value : Double)
  | string (value : String)
  | identifier (name : String)
  | list (items : List Literal)
  | map (entries : List (Literal × Literal))

/-- Whether a field must be present. A field with neither keyword may be absent. -/
inductive Requiredness where
  | required
  | optional
  | unstated
  deriving DecidableEq

/-- A member of a record, a parameter of a method, or a declared exception. -/
structure Field (n : Census) where
  id : Int16
  name : String
  ty : Ty n
  requiredness : Requiredness := .unstated
  default? : Option Literal := none
  redacted : Bool := false
  obfuscated : Bool := false
  deprecated : Bool := false
  doc? : Option String := none

def Field.isRequired {n : Census} (f : Field n) : Bool :=
  f.requiredness == .required

structure RecordDecl (n : Census) where
  name : String
  scope : String := ""
  kind : RecordKind := .struct
  fields : List (Field n) := []
  doc? : Option String := none
  deprecated : Bool := false
  location? : Option Location := none

namespace RecordDecl

variable {n : Census}

def isUnion (r : RecordDecl n) : Bool :=
  r.kind == .union

def isException (r : RecordDecl n) : Bool :=
  r.kind == .exception

end RecordDecl

structure EnumMember where
  name : String
  value : Int32
  doc? : Option String := none
  deprecated : Bool := false

structure EnumDecl where
  name : String
  scope : String := ""
  members : List EnumMember := []
  doc? : Option String := none
  deprecated : Bool := false
  location? : Option Location := none

namespace EnumDecl

/-- The first member with a value; values need not be contiguous or distinct. -/
def memberByValue? (e : EnumDecl) (value : Int32) : Option EnumMember :=
  e.members.find? (·.value == value)

def memberByName? (e : EnumDecl) (name : String) : Option EnumMember :=
  e.members.find? (·.name == name)

end EnumDecl

structure Typedef (n : Census) where
  name : String
  scope : String := ""
  target : Ty n
  location? : Option Location := none

/-- Keys and values attached to a declaration; of two entries with one key the later counts. -/
abbrev Annotations := List (String × String)

def Annotations.get? (a : Annotations) (key : String) : Option String :=
  a.reverse.lookup key

structure Method (n : Census) where
  name : String
  returns : Ty n := .void
  params : List (Field n) := []
  throws : List (Field n) := []
  oneWay : Bool := false
  annotations : Annotations := []
  doc? : Option String := none
  deprecated : Bool := false

structure ServiceDecl (n : Census) where
  name : String
  scope : String := ""
  extends? : Option (Fin n.services) := none
  methods : List (Method n) := []
  annotations : Annotations := []
  doc? : Option String := none
  deprecated : Bool := false
  location? : Option Location := none

structure Constant (n : Census) where
  name : String
  scope : String := ""
  ty : Ty n
  value : Literal
  doc? : Option String := none
  deprecated : Bool := false
  location? : Option Location := none

structure Schema (n : Census) where
  records : Vector (RecordDecl n) n.records
  enums : Vector EnumDecl n.enums
  typedefs : Vector (Typedef n) n.typedefs
  services : Vector (ServiceDecl n) n.services
  constants : List (Constant n) := []

namespace Schema

variable {n : Census}

def record (s : Schema n) (id : Fin n.records) : RecordDecl n :=
  s.records[id]

def enum (s : Schema n) (id : Fin n.enums) : EnumDecl :=
  s.enums[id]

def typedef (s : Schema n) (id : Fin n.typedefs) : Typedef n :=
  s.typedefs[id]

def service (s : Schema n) (id : Fin n.services) : ServiceDecl n :=
  s.services[id]

def recordsOfKind (s : Schema n) (kind : RecordKind) : List (Fin n.records) :=
  (List.finRange n.records).filter fun id => (s.record id).kind == kind

end Schema

end WireIdl

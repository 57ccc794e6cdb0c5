import WireIdl.Schema.Basic
import WireIdl.Text.Quoted
import WireIdl.Text.Words
import WireIdl.Value.Basic

/-!
The choices that a run of the generator leaves open: how containers are held, how fields are named
and the paths of the emitted code; and a hook on the units, which no emitter sees.
-/

namespace WireIdl

inductive ListForm where
  | vec
  | deque
  deriving DecidableEq

namespace ListForm

def path : ListForm → String
  | .vec => "::std::vec::Vec"
  | .deque => "::std::collections::VecDeque"

def pushMethod : ListForm → String
  | .vec => "push"
  | .deque => "push_back"

def toSeq : ListForm → SeqForm
  | .vec => .vec
  | .deque => .deque

end ListForm

namespace KeyedForm

def setName : KeyedForm → String
  | .hashed => "HashSet"
  | .ordered => "BTreeSet"

def mapName : KeyedForm → String
  | .hashed => "HashMap"
  | .ordered => "BTreeMap"

def setPath (form : KeyedForm) : String :=
  "::std::collections::" ++ form.setName

def mapPath (form : KeyedForm) : String :=
  "::std::collections::" ++ form.mapName

def isOrdered (form : KeyedForm) : Bool :=
  form == .ordered

end KeyedForm

/-- How the declared name of a field becomes its emitted name, before keywords are escaped. -/
inductive FieldNaming where
  | snakeCase
  | preserve
  | custom (rename : String → String)

def FieldNaming.apply : FieldNaming → String → String
  | .snakeCase, name => Text.snakeCase name
  | .preserve, name => name
  | .custom rename, name => rename name

inductive UnitKind where
  | enum
  | struct
  | union
  | exception
  | constants
  | service
  deriving DecidableEq

/-- An emitted declaration, or the constants of one namespace, not yet placed in a module. -/
structure SourceUnit where
  name : String
  scope : String
  kind : UnitKind
  location? : Option Location
  code : String
  deriving DecidableEq

/-- Sees every unit before it is placed; `none` drops the unit. -/
abbrev Processor := SourceUnit → Option SourceUnit

structure Config where
  list : ListForm := .vec
  set : KeyedForm := .hashed
  map : KeyedForm := .hashed
  fieldNaming : FieldNaming := .snakeCase
  /-- The module that namespaces hang off. -/
  rootPath : String := "crate"
  /-- Where emitted code finds the wire protocol. -/
  runtimePath : String := "::idlc_runtime"
  /-- Whether value types derive serialisation. -/
  serde : Bool := false
  /-- Whether a source starts with a header and units name the place they come from. -/
  fileComment : Bool := true
  /-- Whether a known field with another wire type is refused; otherwise it is skipped. -/
  fieldTypeChecks : Bool := true
  /-- The key of the annotation that puts a method on the allow list. -/
  allowListKey : String := "allowlist"

namespace Config

/-- A configuration as text, unless its field naming is a function of its own. -/
def describe? (c : Config) (processor? : Option Processor) : Option String :=
  let naming? :=
    match c.fieldNaming with
    | .snakeCase => some "SnakeCase"
    | .preserve => some "Preserve"
    | .custom _ => none
  naming?.map fun naming =>
    let fields := [
      ("list", match c.list with | .vec => "Vec" | .deque => "VecDeque"),
      ("set", c.set.setName),
      ("map", c.map.mapName),
      ("field_naming", naming),
      ("root_path", Text.quote c.rootPath),
      ("runtime_path", Text.quote c.runtimePath),
      ("serde", toString c.serde),
      ("file_comment", toString c.fileComment),
      ("field_type_checks", toString c.fieldTypeChecks),
      ("allow_list_annotation", Text.quote c.allowListKey),
      ("processor", toString processor?.isSome)]
    let body := ", ".intercalate (fields.map fun (name, value) => name ++ ": " ++ value)
    "GeneratorConfig \x7b " ++ body ++ " \x7d"

end Config

end WireIdl

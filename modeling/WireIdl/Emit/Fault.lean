import WireIdl.Schema.Resolve

/-!
Why a schema cannot be emitted. Generation stops at the first fault.
-/

namespace WireIdl

/-- The role in which a type appears where it cannot. -/
inductive TypeRole where
  | wireValue
  | valueType
  | field
  deriving DecidableEq

def TypeRole.text : TypeRole → String
  | .wireValue => "a wire value"
  | .valueType => "a value type"
  | .field => "a field"

inductive EmitFault where
  | typedefCycle (cycle : TypedefCycle)
  | unsupportedConstantType (name type : String)
  | literalMismatch (type literal : String)
  | unknownEnumMember (enumName member : String)
  | constantDepth (limit : Nat)
  | unhashableType (type : String)
  | unorderedType (type : String)
  | unexpectedType (type : String) (role : TypeRole)
  /-- A type parameter is added to a name that has angle brackets of its own. -/
  | genericName
  deriving DecidableEq

def EmitFault.kind : EmitFault → String
  | .typedefCycle _ => "TypedefCycle"
  | .unsupportedConstantType _ _ => "UnsupportedConstantType"
  | .literalMismatch _ _ => "LiteralMismatch"
  | .unknownEnumMember _ _ => "UnknownEnumMember"
  | .constantDepth _ => "ConstantDepth"
  | .unhashableType _ => "UnhashableType"
  | .unorderedType _ => "UnorderedType"
  | .unexpectedType _ _ => "UnexpectedType"
  | .genericName => "GenericName"

def EmitFault.message : EmitFault → String
  | .typedefCycle cycle => s!"typedef cycle through '{cycle.name}'"
  | .unsupportedConstantType name type =>
      s!"constant '{name}' has type {type}, which has no literal form"
  | .literalMismatch type literal => s!"literal {literal} does not fit type {type}"
  | .unknownEnumMember enumName member => s!"'{member}' is not a member of enum {enumName}"
  | .constantDepth limit => s!"constant references nest deeper than {limit} levels"
  | .unhashableType type => s!"{type} cannot be a set element or map key"
  | .unorderedType type => s!"{type} cannot be an element or key of an ordered container"
  | .unexpectedType type role => s!"{type} cannot appear as {role.text}"
  | .genericName => "type name already includes generics"

def TypedefCycle.orFault {α : Type} : Except TypedefCycle α → Except EmitFault α
  | .ok a => .ok a
  | .error cycle => .error (.typedefCycle cycle)

end WireIdl

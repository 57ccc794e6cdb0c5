import WireIdl.Emit.Record

/-!
Methods: a type that writes the request and reads the reply, another with the declared exceptions,
and the functions of the trait and of a client.
-/

namespace WireIdl

open Code

variable {n : Census}

structure ParamPlan (n : Census) where
  field : Field n
  ident : String
  valueType : String
  /-- Whether the parameter may be left out. -/
  optional : Bool
  default? : Option (Initializer n)

def ParamPlan.declaredType (p : ParamPlan n) : String :=
  if p.optional then "Option<" ++ p.valueType ++ ">" else p.valueType

structure MethodPlan (n : Census) where
  target : Target n
  service : ServiceDecl n
  method : Method n
  params : List (ParamPlan n)
  /-- The type of the result. -/
  output : String

namespace Target

def planParam (t : Target n) (field : Field n) : Except EmitFault (ParamPlan n) := do
  let default? ← t.defaultInitializer field
  let valueType ← t.typeText (t.shape field.ty)
  return {
    field, valueType, default?
    ident := Ident.field t.config field.name
    optional := !field.isRequired || default?.isSome }

def returnsValue (t : Target n) (method : Method n) : Bool :=
  !(t.shape method.returns matches .void)

def planMethod (t : Target n) (service : ServiceDecl n) (method : Method n) :
    Except EmitFault (MethodPlan n) := do
  let params ← method.params.mapM t.planParam
  let output ← t.typeText (t.shape method.returns)
  return { target := t, service, method, params, output }

end Target

namespace MethodPlan

def rt (p : MethodPlan n) : String :=
  p.target.config.runtimePath

def base (p : MethodPlan n) : String :=
  Ident.operation p.service.name p.method.name

def callName (p : MethodPlan n) : String :=
  p.base ++ "Call"

def errorName (p : MethodPlan n) : String :=
  p.base ++ "Error"

def path (p : MethodPlan n) (name : String) : String :=
  Ident.qualified p.target.config p.service.scope name

/-- The type of declared exceptions; a method without any cannot raise one. -/
def errorType (p : MethodPlan n) : String :=
  if p.method.throws.isEmpty then p.rt ++ "::Never" else p.path p.errorName

def returnType (p : MethodPlan n) : String :=
  "Result<" ++ p.output ++ ", " ++ p.rt ++ "::CallError<" ++ p.errorType ++ ">>"

def title (p : MethodPlan n) : String :=
  p.service.name ++ "." ++ p.method.name

def traitSteps (p : MethodPlan n) : List Step :=
  let params := p.params.map fun a => ", " ++ a.ident ++ ": " ++ a.declaredType
  headSteps p.method.doc? p.method.deprecated ++ [
    .line ("fn " ++ Ident.method p.method.name ++ "(&mut self" ++ String.join params ++ ") -> " ++
      p.returnType ++ ";")]

def callDefinition (p : MethodPlan n) : List Step := [
  .doc ("Request encoding and reply decoding for `" ++ p.title ++ "`."),
  .attribute "derive(Clone)",
  .block ("pub struct " ++ p.callName)
    (p.params.map fun a => .line (a.ident ++ ": " ++ a.declaredType ++ ","))]

/-- How a parameter is stored: one that is left out becomes its default. -/
def storeLine (t : Target n) (a : ParamPlan n) : String :=
  match a.default? with
  | some value => a.ident ++ ": " ++ a.ident ++ ".or_else(|| Some(" ++ value.text t ++ ")),"
  | none => a.ident ++ ","

def newItem (p : MethodPlan n) : Item :=
  .impl {
    target := p.callName
    functions := [
      { name := "new"
        isPublic := true
        args := p.params.map fun a => (a.ident, a.declaredType)
        returns? := some "Self"
        body := [.block "Self" (p.params.map (storeLine p.target)) ""] }] }

def access (a : ParamPlan n) : Field n × Access :=
  (a.field,
    if a.optional then .maybe ("self." ++ a.ident ++ ".as_ref()") else .present ("&self." ++ a.ident))

def sendItem (p : MethodPlan n) : Except EmitFault Item := do
  let write ← p.target.writeFrame "args" (p.params.map access)
  return .impl {
    target := p.callName
    trait? := some (p.rt ++ "::MethodCall")
    types := [("Output", p.output), ("Error", p.errorType)]
    functions := [
      { name := "name"
        receiver? := some "&self"
        returns? := some "&'static str"
        body := [.text (Text.quote p.method.name)] },
      { name := "message_type"
        receiver? := some "&self"
        returns? := some (p.rt ++ "::MessageType")
        body := [.text (p.rt ++ "::MessageType::" ++ if p.method.oneWay then "Oneway" else "Call")] },
      { name := "send"
        receiver? := some "&self"
        args := [("protocol", "&mut dyn " ++ p.rt ++ "::Protocol")]
        returns? := some ("Result<(), " ++ p.rt ++ "::ProtocolError>")
        body := [.text (Text.trimEnd (Step.render write))] }] }

def throwTypes (p : MethodPlan n) : Except EmitFault (List (Field n × String)) :=
  p.method.throws.mapM fun field => do return (field, ← p.target.typeText (p.target.shape field.ty))

def returnsValue (p : MethodPlan n) : Bool :=
  p.target.returnsValue p.method

def exceptionSlot (index : Nat) : String :=
  s!"exception{index}"

def exceptionReading (field : Field n) (index : Nat) : Target.Reading n :=
  { id := field.id, ty := field.ty, destination := .slot (exceptionSlot index) }

/-- The fields of a reply: the result, if there is one, and the exceptions. -/
def replyReadings (p : MethodPlan n) : List (Target.Reading n) :=
  (if p.returnsValue then [{ id := 0, ty := p.method.returns, destination := .slot "result" }]
    else []) ++
    p.method.throws.zipIdx.map fun (field, index) => exceptionReading field index

def slotLine (name type : String) : Step :=
  .line ("let mut " ++ name ++ ": Option<" ++ type ++ "> = None;")

def receiveSteps (p : MethodPlan n) (throws : List (Field n × String)) :
    Except EmitFault (List Step) := do
  let read ← p.target.readFrame p.replyReadings
  let slots :=
    (if p.returnsValue then [slotLine "result" p.output] else []) ++
      throws.zipIdx.map fun ((_, type), index) => slotLine (exceptionSlot index) type
  let raises := throws.zipIdx.map fun ((field, _), index) =>
    Step.block ("if let Some(exception) = " ++ exceptionSlot index) [
      .line ("return Err(" ++ p.rt ++ "::CallError::Exception(" ++ p.errorType ++ "::" ++
        Ident.variant field.name ++ "(exception)));")]
  return slots ++ [.lines (Step.render read)] ++
    (if p.returnsValue then [.block "if let Some(result) = result" [.line "return Ok(result);"]]
      else []) ++
    raises ++
    [.line (if p.returnsValue then "Err(" ++ p.rt ++ "::CallError::MissingResult)" else "Ok(())")]

def receiveItem (p : MethodPlan n) (throws : List (Field n × String)) : Except EmitFault Item := do
  let receive ← p.receiveSteps throws
  return .impl {
    target := p.callName
    trait? := some (p.rt ++ "::TwoWayCall")
    functions := [
      { name := "receive"
        receiver? := some "&self"
        args := [
          ("protocol", "&mut dyn " ++ p.rt ++ "::Protocol"),
          ("_metadata", "&" ++ p.rt ++ "::MessageMetadata")]
        returns? := some p.returnType
        body := [.text (Text.trimEnd (Step.render receive))] }] }

def receiveItems (p : MethodPlan n) (throws : List (Field n × String)) :
    Except EmitFault (List Item) :=
  if p.method.oneWay then .ok [] else do return [← p.receiveItem throws]

def errorDefinition (p : MethodPlan n) (throws : List (Field n × String)) : List Step := [
  .doc ("Exceptions declared by `" ++ p.title ++ "`."),
  .attribute "derive(Debug, Clone, PartialEq, Eq)",
  .block ("pub enum " ++ p.errorName)
    (throws.map fun (field, type) => .line (Ident.variant field.name ++ "(" ++ type ++ "),"))]

def errorItems (p : MethodPlan n) (throws : List (Field n × String)) : List Item :=
  let arms := throws.map fun (field, _) =>
    p.errorName ++ "::" ++ Ident.variant field.name ++
      "(exception) => ::std::fmt::Display::fmt(exception, f),"
  if throws.isEmpty then []
  else [
    .raw (Text.trimEnd (Step.render (p.errorDefinition throws))),
    RecordPlan.formatItem p.errorName "Display" [.block "match self" arms ""],
    .impl { target := p.errorName, trait? := some "::std::error::Error" }]

def items (p : MethodPlan n) : Except EmitFault (List Item) := do
  let send ← p.sendItem
  let throws ← p.throwTypes
  let receive ← p.receiveItems throws
  return [.raw (Text.trimEnd (Step.render p.callDefinition)), p.newItem, send] ++ receive ++
    p.errorItems throws

/-- The function of a client for its own method, or for one that an ancestor declares. -/
def clientFunction (p : MethodPlan n) (inherited? : Option String) : Function :=
  let args := ", ".intercalate (p.params.map (·.ident))
  let call := "&" ++ p.path p.callName ++ "::new(" ++ args ++ ")"
  { name := Ident.method p.method.name
    receiver? := some "&mut self"
    args := p.params.map fun a => (a.ident, a.declaredType)
    returns? := some p.returnType
    body :=
      match inherited? with
      | some traitPath => [
          .text (traitPath ++ "::" ++ Ident.method p.method.name ++ "(&mut self.parent" ++
            (if args.isEmpty then "" else ", ") ++ args ++ ")")]
      | none =>
          if p.method.oneWay then
            [.text ("self.base_mut().send_oneway(" ++ call ++ ")?;"), .text "Ok(())"]
          else [.text ("self.base_mut().call(" ++ call ++ ")")] }

end MethodPlan

end WireIdl

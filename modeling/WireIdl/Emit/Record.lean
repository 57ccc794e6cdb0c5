import WireIdl.Code.Item
import WireIdl.Emit.Codec
import WireIdl.Emit.Display
import WireIdl.Emit.Head

/-!
Structs, unions and exceptions: a type with private fields and accessors, a builder that checks
what it has collected, identity, a text that hides what is secret, and the code that writes and
reads the record.
-/

namespace WireIdl

open Code

variable {n : Census}

structure RecordPlan (n : Census) where
  target : Target n
  decl : RecordDecl n
  fields : List (FieldPlan n)

namespace RecordPlan

def rt (p : RecordPlan n) : String :=
  p.target.config.runtimePath

def name (p : RecordPlan n) : String :=
  Ident.type p.decl.name

def builder (p : RecordPlan n) : String :=
  Ident.bare p.name ++ "Builder"

def definition (p : RecordPlan n) : List Step :=
  p.decl.doc?.toList.map .doc ++ [.attribute "derive(Clone)"] ++
    serdeSteps p.target.config ++
    (if p.decl.deprecated then [.attribute "deprecated"] else []) ++
    [.block ("pub struct " ++ p.name)
      (p.fields.map fun f => .line (f.ident ++ ": " ++ f.storedType ++ ","))]

def accessor (f : FieldPlan n) : List Step :=
  let signature (type : String) := "pub fn " ++ f.ident ++ "(&self) -> " ++ type
  let function :=
    if f.optional then
      Step.block (signature ("Option<&" ++ f.valueType ++ ">")) [.line f.asOption]
    else .block (signature ("&" ++ f.valueType)) [.line ("&self." ++ f.ident)]
  headSteps f.field.doc? f.field.deprecated ++ [function, .blank]

def accessors (p : RecordPlan n) : List Step := [
  .block ("impl " ++ p.name) (p.fields.flatMap accessor ++ [
    .block ("pub fn builder() -> " ++ p.builder) [.line (p.builder ++ "::new()")],
    .blank,
    .doc "A builder seeded with every field of this value.",
    .block ("pub fn to_builder(&self) -> " ++ p.builder) [
      .line (p.builder ++ "::from(self.clone())")]])]

def builderDefinition (p : RecordPlan n) : List Step := [
  .doc ("Collects the fields of a [`" ++ Ident.bare p.name ++ "`]."),
  .attribute "derive(Clone)",
  .block ("pub struct " ++ p.builder)
    (p.fields.map fun f => .line (f.ident ++ ": Option<" ++ f.heldType ++ ">,"))]

/-- The first content of a field's slot in the builder. -/
def seedLine (t : Target n) (f : FieldPlan n) : String :=
  match f.default? with
  | some value => f.ident ++ ": " ++ f.held (value.text t) ++ ","
  | none => f.ident ++ ": None,"

def newFunction (p : RecordPlan n) : Function where
  name := "new"
  isPublic := true
  returns? := some "Self"
  body := [.block "Self" (p.fields.map (seedLine p.target)) ""]

def setter (f : FieldPlan n) : Function where
  name := f.ident
  isPublic := true
  receiver? := some "self"
  args := [("value", f.valueType)]
  returns? := some "Self"
  body := [
    .text "let mut builder = self;",
    .text ("builder." ++ f.ident ++ " = " ++ f.held "value" ++ ";"),
    .text "builder"]

/-- The check of a union: exactly one field is set. -/
def unionCheck (p : RecordPlan n) : List Body :=
  let counted := p.fields.map fun f => "usize::from(self." ++ f.ident ++ ".is_some())"
  [ .text
      (if counted.isEmpty then "let set_fields: usize = 0;"
      else "let set_fields = " ++ " + ".intercalate counted ++ ";"),
    .block "if set_fields != 1"
      ["return Err(" ++ p.rt ++ "::BuildError::InvalidUnionState \x7b set_fields \x7d);"] ""]

def buildLine (p : RecordPlan n) (f : FieldPlan n) : String :=
  if f.optional then f.ident ++ ": self." ++ f.ident ++ ","
  else
    f.ident ++ ": self." ++ f.ident ++ ".ok_or(" ++ p.rt ++
      "::BuildError::MissingRequiredField \x7b field: " ++ Text.quote f.field.name ++ " \x7d)?,"

def buildFunction (p : RecordPlan n) : Function where
  name := "build"
  isPublic := true
  doc? := some "Validates the collected fields and produces the value."
  receiver? := some "self"
  returns? := some ("Result<" ++ p.name ++ ", " ++ p.rt ++ "::BuildError>")
  body := (if p.decl.isUnion then p.unionCheck else []) ++
    [.block ("Ok(" ++ p.name) (p.fields.map p.buildLine) ")"]

def fromLine (f : FieldPlan n) : String :=
  if f.optional then f.ident ++ ": value." ++ f.ident ++ ","
  else f.ident ++ ": Some(value." ++ f.ident ++ "),"

def builderItems (p : RecordPlan n) : List Item := [
  .impl {
    target := p.builder
    functions := p.newFunction :: p.fields.map setter ++ [p.buildFunction] },
  .impl {
    target := p.builder
    trait? := some "Default"
    functions := [
      { name := "default", returns? := some "Self", body := [.text "Self::new()"] }] },
  .impl {
    target := p.builder
    trait? := some ("From<" ++ p.name ++ ">")
    functions := [
      { name := "from"
        args := [("value", p.name)]
        returns? := some "Self"
        body := [.block "Self" (p.fields.map fromLine) ""] }] }]

def equalityText (p : RecordPlan n) : String :=
  if p.fields.isEmpty then "true"
  else
    "\n    && ".intercalate (p.fields.map fun f =>
      p.rt ++ "::ThriftEq::thrift_eq(&self." ++ f.ident ++ ", &other." ++ f.ident ++ ")")

def hashLines (p : RecordPlan n) : List Body :=
  if p.fields.isEmpty then [.text "16777619"]
  else
    .text "let mut code: i32 = 16777619;" ::
      (p.fields.flatMap fun f => [
        .text ("code ^= " ++ p.rt ++ "::ThriftHash::thrift_hash(&self." ++ f.ident ++ ");"),
        .text "code = code.wrapping_mul(0x811c9dc5_u32 as i32);"]) ++
      [.text "code"]

def identityItems (p : RecordPlan n) : List Item := [
  .impl {
    target := p.name
    trait? := some (p.rt ++ "::ThriftEq")
    functions := [
      { name := "thrift_eq"
        receiver? := some "&self"
        args := [("other", "&Self")]
        returns? := some "bool"
        body := [
          .block "if ::std::ptr::eq(self, other)" ["return true;"] "",
          .text p.equalityText] }] },
  .impl {
    target := p.name
    trait? := some "PartialEq"
    functions := [
      { name := "eq"
        receiver? := some "&self"
        args := [("other", "&Self")]
        returns? := some "bool"
        body := [.text (p.rt ++ "::ThriftEq::thrift_eq(self, other)")] }] },
  .impl { target := p.name, trait? := some "Eq" },
  .impl {
    target := p.name
    trait? := some (p.rt ++ "::ThriftHash")
    functions := [
      { name := "thrift_hash"
        receiver? := some "&self"
        returns? := some "i32"
        body := p.hashLines }] },
  .impl {
    target := p.name
    trait? := some "::std::hash::Hash"
    functions := [
      { name := "hash"
        generics := ["H"]
        bounds := [("H", "::std::hash::Hasher")]
        receiver? := some "&self"
        args := [("state", "&mut H")]
        body := [
          .text ("state.write_i32(" ++ p.rt ++ "::ThriftHash::thrift_hash(self));")] }] }]

def formatItem (target name : String) (body : List Body) : Item :=
  .impl {
    target
    trait? := some ("::std::fmt::" ++ name)
    functions := [
      { name := "fmt"
        receiver? := some "&self"
        args := [("f", "&mut ::std::fmt::Formatter<'_>")]
        returns? := some "::std::fmt::Result"
        body }] }

def displayItems (p : RecordPlan n) : List Item :=
  [ formatItem p.name "Display" [.text (p.target.displayCall p.decl.name p.fields)],
    formatItem p.name "Debug" [.text "::std::fmt::Display::fmt(self, f)"] ] ++
    if p.decl.isException then [.impl { target := p.name, trait? := some "::std::error::Error" }]
    else []

def access (f : FieldPlan n) : Field n × Access :=
  (f.field, if f.optional then .maybe f.asOption else .present f.asRef)

def reading (f : FieldPlan n) : Target.Reading n :=
  { id := f.field.id, ty := f.field.ty, destination := .builder f.ident }

def codecItem (p : RecordPlan n) : Except EmitFault Item := do
  let write ← p.target.writeFrame p.decl.name (p.fields.map access)
  let read ← p.target.readFrame (p.fields.map reading)
  let protocol := ("protocol", "&mut dyn " ++ p.rt ++ "::Protocol")
  return .impl {
    target := p.name
    trait? := some (p.rt ++ "::ThriftStruct")
    functions := [
      { name := "write"
        receiver? := some "&self"
        args := [protocol]
        returns? := some ("Result<(), " ++ p.rt ++ "::ProtocolError>")
        body := [.text (Text.trimEnd (Step.render write))] },
      { name := "read"
        args := [protocol]
        returns? := some ("Result<Self, " ++ p.rt ++ "::ProtocolError>")
        body := [
          .text ("let mut builder = " ++ p.builder ++ "::new();"),
          .text (Text.trimEnd (Step.render read)),
          .text ("builder.build().map_err(" ++ p.rt ++ "::ProtocolError::from)")] }] }

def items (p : RecordPlan n) : Except EmitFault (List Item) := do
  let codec ← p.codecItem
  return [
      .raw (Text.trimEnd (Step.render p.definition)),
      .raw (Text.trimEnd (Step.render p.accessors)),
      .raw (Text.trimEnd (Step.render p.builderDefinition))] ++
    p.builderItems ++ p.identityItems ++ p.displayItems ++ [codec]

end RecordPlan

namespace Target

def planRecord (t : Target n) (id : Fin n.records) : Except EmitFault (RecordPlan n) := do
  return { target := t, decl := t.schema.record id, fields := ← t.planFields id }

def recordCode (t : Target n) (id : Fin n.records) : Except EmitFault String := do
  let plan ← t.planRecord id
  return Item.render (← plan.items)

end Target

end WireIdl

import WireIdl.Code.Writer
import WireIdl.Emit.TypeText

/-!
The statements that emitted code uses to write and read values, as trees. Each tree has its text,
and binds temporaries with numbers of their own.
-/

namespace WireIdl

open Code

structure Temporary where
  stem : String
  number : Nat
  deriving DecidableEq

def Temporary.text (x : Temporary) : String :=
  x.stem ++ toString x.number

inductive ScalarOp where
  | bool
  | byte
  | i16
  | i32
  | i64
  | double
  | string
  | binary
  deriving DecidableEq

namespace ScalarOp

def name : ScalarOp → String
  | .bool => "bool"
  | .byte => "byte"
  | .i16 => "i16"
  | .i32 => "i32"
  | .i64 => "i64"
  | .double => "double"
  | .string => "string"
  | .binary => "binary"

/-- Whether a value is copied out of its reference to be written. -/
def isCopied : ScalarOp → Bool
  | .string | .binary => false
  | _ => true

end ScalarOp

inductive ItemsKind where
  | list
  | set
  deriving DecidableEq

def ItemsKind.name : ItemsKind → String
  | .list => "list"
  | .set => "set"

/-- Statements that write the value of a temporary. Tags are paths of constants. -/
inductive WriteStmt where
  | scalar (op : ScalarOp) (source : Temporary)
  | enum (source : Temporary)
  | record (source : Temporary)
  | items (kind : ItemsKind) (tag : String) (source item : Temporary) (body : WriteStmt)
  | entries (keyTag valueTag : String) (source key value : Temporary) (keyBody valueBody : WriteStmt)

namespace WriteStmt

/-- The steps of a statement; `rt` is the path of the wire protocol. -/
def steps (rt : String) : WriteStmt → List Step
  | .scalar op source =>
      let argument := if op.isCopied then "*" ++ source.text else source.text
      [.line ("protocol.write_" ++ op.name ++ "(" ++ argument ++ ")?;")]
  | .enum source => [.line ("protocol.write_i32(" ++ source.text ++ ".value())?;")]
  | .record source => [.line (rt ++ "::ThriftStruct::write(" ++ source.text ++ ", protocol)?;")]
  | .items kind tag source item body => [
      .line ("protocol.write_" ++ kind.name ++ "_begin(" ++ tag ++ ", " ++ rt ++
        "::collection_size(" ++ source.text ++ ".len())?)?;"),
      .block ("for " ++ item.text ++ " in " ++ source.text) (body.steps rt),
      .line ("protocol.write_" ++ kind.name ++ "_end()?;")]
  | .entries keyTag valueTag source key value keyBody valueBody => [
      .line ("protocol.write_map_begin(" ++ keyTag ++ ", " ++ valueTag ++ ", " ++ rt ++
        "::collection_size(" ++ source.text ++ ".len())?)?;"),
      .block ("for (" ++ key.text ++ ", " ++ value.text ++ ") in " ++ source.text)
        (keyBody.steps rt ++ valueBody.steps rt),
      .line "protocol.write_map_end()?;"]

end WriteStmt

inductive Access where
  /-- A reference; the field is always written. -/
  | present (expr : String)
  /-- An optional reference; an absent field is left out. -/
  | maybe (expr : String)

structure FieldWrite where
  name : String
  id : Int16
  tag : String
  access : Access
  source : Temporary
  value : WriteStmt

namespace FieldWrite

def innerSteps (rt : String) (f : FieldWrite) : List Step :=
  .line ("protocol.write_field_begin(" ++ Text.quote f.name ++ ", " ++ toString f.id ++ ", " ++
    f.tag ++ ")?;") :: f.value.steps rt ++ [.line "protocol.write_field_end()?;"]

def steps (rt : String) (f : FieldWrite) : List Step :=
  match f.access with
  | .present expr => .line ("let " ++ f.source.text ++ " = " ++ expr ++ ";") :: f.innerSteps rt
  | .maybe expr => [.block ("if let Some(" ++ f.source.text ++ ") = " ++ expr) (f.innerSteps rt)]

end FieldWrite

/-- A struct frame that is written, up to the expression that ends it. -/
def writeFrameSteps (rt name : String) (fields : List FieldWrite) : List Step :=
  .line ("protocol.write_struct_begin(" ++ Text.quote name ++ ")?;") ::
    fields.flatMap (·.steps rt) ++
    [.line "protocol.write_field_stop()?;", .line "protocol.write_struct_end()"]

inductive ReadStmt where
  | scalar (op : ScalarOp) (value : Temporary)
  | enum (raw value : Temporary) (path enumName : String)
  | record (value : Temporary) (path : String)
  | items (kind : ItemsKind) (header value : Temporary) (container add : String) (item : ReadStmt)
  | entries (header value : Temporary) (container : String) (key entry : ReadStmt)

namespace ReadStmt

def result : ReadStmt → Temporary
  | .scalar _ value | .enum _ value _ _ | .record value _ | .items _ _ value _ _ _
  | .entries _ value _ _ _ => value

def steps (rt : String) : ReadStmt → List Step
  | .scalar op value => [
      .line ("let " ++ value.text ++ " = protocol.read_" ++ op.name ++ "()?;")]
  | .enum raw value path enumName => [
      .line ("let " ++ raw.text ++ " = protocol.read_i32()?;"),
      .line ("let " ++ value.text ++ " = " ++ path ++ "::find_by_value(" ++ raw.text ++
        ").ok_or(" ++ rt ++ "::ProtocolError::UnknownEnumValue \x7b enum_name: " ++
        Text.quote enumName ++ ", value: " ++ raw.text ++ " \x7d)?;")]
  | .record value path => [
      .line ("let " ++ value.text ++ " = <" ++ path ++ " as " ++ rt ++
        "::ThriftStruct>::read(protocol)?;")]
  | .items kind header value container add item => [
      .line ("let " ++ header.text ++ " = protocol.read_" ++ kind.name ++ "_begin()?;"),
      .line ("let mut " ++ value.text ++ " = " ++ container ++ "::new();"),
      .block ("for _ in 0.." ++ header.text ++ ".size")
        (item.steps rt ++
          [.line (value.text ++ "." ++ add ++ "(" ++ item.result.text ++ ");")]),
      .line ("protocol.read_" ++ kind.name ++ "_end()?;")]
  | .entries header value container key entry => [
      .line ("let " ++ header.text ++ " = protocol.read_map_begin()?;"),
      .line ("let mut " ++ value.text ++ " = " ++ container ++ "::new();"),
      .block ("for _ in 0.." ++ header.text ++ ".size")
        (key.steps rt ++ entry.steps rt ++
          [.line (value.text ++ ".insert(" ++ key.result.text ++ ", " ++ entry.result.text ++
            ");")]),
      .line "protocol.read_map_end()?;"]

end ReadStmt

inductive Destination where
  /-- A setter of the builder. -/
  | builder (setter : String)
  /-- An optional variable. -/
  | slot (name : String)

def Destination.line (d : Destination) (value : Temporary) : String :=
  match d with
  | .builder setter => "builder = builder." ++ setter ++ "(" ++ value.text ++ ");"
  | .slot name => name ++ " = Some(" ++ value.text ++ ");"

structure FieldRead where
  id : Int16
  tag : String
  value : ReadStmt
  destination : Destination

def FieldRead.mismatchLine (rt : String) (checks : Bool) (f : FieldRead) : String :=
  if checks then
    "return Err(" ++ rt ++ "::ProtocolError::type_mismatch(" ++ toString f.id ++ ", " ++ f.tag ++
      ", field.type_id).into());"
  else rt ++ "::skip(protocol, field.type_id)?;"

def FieldRead.steps (rt : String) (checks : Bool) (f : FieldRead) : List Step := [
  .block (toString f.id ++ " =>") [
    .blockWith ("if field.type_id == " ++ f.tag) " else \x7b"
      (f.value.steps rt ++ [.line (f.destination.line f.value.result)]),
    .indent,
    .line (f.mismatchLine rt checks),
    .dedent,
    .line "\x7d"]]

/-- A struct frame that is read: a loop over the fields up to the stop, in which a known field goes
to its destination and any other is skipped. -/
def readFrameSteps (rt : String) (checks : Bool) (fields : List FieldRead) : List Step := [
  .line "protocol.read_struct_begin()?;",
  .block "loop" [
    .line "let field = protocol.read_field_begin()?;",
    .block ("if field.type_id == " ++ rt ++ "::ttype::STOP") [.line "break;"],
    .block "match field.field_id"
      (fields.flatMap (·.steps rt checks) ++
        [.line ("_ => " ++ rt ++ "::skip(protocol, field.type_id)?,")]),
    .line "protocol.read_field_end()?;"],
  .line "protocol.read_struct_end()?;"]

end WireIdl

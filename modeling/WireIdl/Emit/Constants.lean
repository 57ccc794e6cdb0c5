import WireIdl.Code.Writer
import WireIdl.Emit.Initializer

/-!
Declarations of constants. Text is a `&str`, containers and bytes are made on first use, and
everything else is a plain constant.
-/

namespace WireIdl.Target

open Code

variable {n : Census}

/-- The literal at the end of a chain of names of constants, looked at in `rounds` rounds. -/
def followNames (t : Target n) : Nat → Literal → Except EmitFault Literal
  | 0, _ => .error (.constantDepth maxReferences)
  | rounds + 1, .identifier name =>
      match t.schema.constant? name with
      | some c => t.followNames rounds c.value
      | none => .ok (.identifier name)
  | _ + 1, v => .ok v

def constantLine (t : Target n) (c : Constant n) : Except EmitFault String := do
  let shape := t.shape c.ty
  let name := Ident.constant c.name
  let lazy (type expr : String) :=
    "pub static " ++ name ++ ": ::std::sync::LazyLock<" ++ type ++
      "> = ::std::sync::LazyLock::new(|| " ++ expr ++ ");"
  match shape with
  | .void | .record _ | .service _ =>
      throw (.unsupportedConstantType c.name (t.schema.typeName c.ty))
  | .string =>
      match ← t.followNames maxReferences c.value with
      | .string s => return "pub const " ++ name ++ ": &str = " ++ Text.quote s ++ ";"
      | _ => throw (t.mismatch c.ty c.value)
  | .binary | .list _ _ | .set _ _ | .map _ _ _ _ =>
      let type ← t.typeText shape
      return lazy type (← t.literalText c.ty c.value)
  | _ =>
      let type ← t.typeText shape
      let expr ← t.literalText c.ty c.value
      return "pub const " ++ name ++ ": " ++ type ++ " = " ++ expr ++ ";"

def constantSteps (t : Target n) (c : Constant n) : Except EmitFault (List Step) := do
  let line ← t.constantLine c
  return c.doc?.toList.map .doc ++
    (if c.deprecated then [.attribute "deprecated"] else []) ++ [.line line]

def constantsCode (t : Target n) (constants : List (Constant n)) : Except EmitFault String := do
  let groups ← constants.mapM t.constantSteps
  return Step.render (List.intercalate [.blank] groups)

end WireIdl.Target

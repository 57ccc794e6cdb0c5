import WireIdl.Config

/-!
Identifiers of emitted code. A keyword is written as a raw identifier, and the few words that
cannot be one get an underscore.
-/

namespace WireIdl.Ident

def keywords : List String := [
  "abstract", "as", "async", "await", "become", "box", "break", "const", "continue", "do", "dyn",
  "else", "enum", "extern", "false", "final", "fn", "for", "gen", "if", "impl", "in", "let", "loop",
  "macro", "match", "mod", "move", "mut", "override", "priv", "pub", "ref", "return", "static",
  "struct", "trait", "true", "try", "type", "typeof", "unsafe", "unsized", "use", "virtual",
  "where", "while", "yield"]

/-- The words that cannot be raw identifiers. -/
def reserved : List String := ["self", "Self", "super", "crate", "_"]

def escape (name : String) : String :=
  if name ∈ reserved then name ++ "_"
  else if name ∈ keywords then "r#" ++ name
  else name

/-- An identifier as a part of another one: without the mark of a raw identifier. -/
def bare (ident : String) : String :=
  match ident.toList with
  | 'r' :: '#' :: rest => String.ofList rest
  | _ => ident

def field (c : Config) (name : String) : String :=
  escape (c.fieldNaming.apply name)

def type (name : String) : String :=
  escape name

def method (name : String) : String :=
  escape (Text.snakeCase name)

def constant (name : String) : String :=
  escape (Text.shoutyCase name)

def variant (name : String) : String :=
  escape (Text.upperCamelCase name)

/-- The parts of a text between the places where a character stands. -/
def splitAt (separator : Char) (cs : List Char) : List Char × List (List Char) :=
  cs.foldr
    (fun c (part, parts) => if c = separator then ([], part :: parts) else (c :: part, parts))
    ([], [])

def modules (scope : String) : List String :=
  let (part, parts) := splitAt '.' scope.toList
  ((part :: parts).filter (!·.isEmpty)).map fun cs => escape (Text.snakeCase (String.ofList cs))

def lastPart (name : String) : String :=
  let (part, parts) := splitAt '.' name.toList
  String.ofList ((part :: parts).getLastD [])

def qualified (c : Config) (scope name : String) : String :=
  "::".intercalate (c.rootPath :: modules scope ++ [type name])

/-- The stem of the types emitted for a method of a service. -/
def operation (service method : String) : String :=
  service ++ Text.upperCamelCase method

end WireIdl.Ident

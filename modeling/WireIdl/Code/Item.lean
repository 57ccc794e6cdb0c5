import WireIdl.Text.Lines

/-!
Items of a source file: text that is ready, and `impl` blocks with their functions. Items are
separated by an empty line. Every piece of text is laid out line by line: at the start of a line a
text that is not empty is indented by its depth, and line ends become plain line feeds. This stands
for the scopes of the library `codegen`, with what emission uses of its `impl` blocks and functions.
-/

namespace WireIdl.Code

inductive Body where
  | text (s : String)
  | block (header : String) (body : List String) (after : String)

structure Function where
  name : String
  doc? : Option String := none
  isPublic : Bool := false
  generics : List String := []
  receiver? : Option String := none
  /-- Names and types. -/
  args : List (String × String) := []
  returns? : Option String := none
  /-- Type parameters and what they must implement. -/
  bounds : List (String × String) := []
  body : List Body := []

structure Impl where
  target : String
  targetGenerics : List String := []
  trait? : Option String := none
  generics : List String := []
  bounds : List (String × String) := []
  /-- Associated types. -/
  types : List (String × String) := []
  functions : List Function := []

inductive Item where
  | raw (s : String)
  | impl (i : Impl)

/-- A text at a depth, or a blank unless the line is still empty. -/
inductive Piece where
  | text (depth : Nat) (s : String)
  | gap

structure Page where
  text : String := ""
  atLineStart : Bool := true

namespace Page

def put (page : Page) (depth : Nat) (s : String) : Page :=
  if s.isEmpty then page
  else
    let spaces := String.ofList (List.replicate (4 * depth) ' ')
    let placed (atLineStart : Bool) (line : String) :=
      if atLineStart && !line.isEmpty then spaces ++ line else line
    let laid :=
      match Text.lines s with
      | [] => []
      | line :: lines => placed page.atLineStart line :: lines.map (placed true)
    let ended := s.toList.getLast? == some '\n'
    { text := page.text ++ "\n".intercalate laid ++ if ended then "\n" else ""
      atLineStart := ended }

def putPiece (page : Page) : Piece → Page
  | .text depth s => page.put depth s
  | .gap => if page.atLineStart then page else page.put 0 " "

end Page

abbrev Pieces := Nat → List Piece

namespace Pieces

def text (s : String) : Pieces := fun depth => [.text depth s]

def texts (ss : List String) : Pieces := fun depth => ss.map (.text depth)

def all (parts : List Pieces) : Pieces := fun depth => parts.flatMap (· depth)

def deeper (body : Pieces) : Pieces := fun depth => body (depth + 1)

/-- A block from its opening brace to the line feed after its closing brace. -/
def block (body : Pieces) (after : String) : Pieces :=
  all [fun _ => [.gap], text "\x7b\n", deeper body, texts ["\x7d", after, "\n"]]

def generics : List String → Pieces
  | [] => texts []
  | first :: rest =>
      texts (["<", first] ++ rest.flatMap (fun name => [", ", name]) ++ [">"])

def bounds : List (String × String) → Pieces
  | [] => texts []
  | (name, bound) :: rest =>
      texts (["\n", "where ", name, ": ", bound, ",\n"] ++
        rest.flatMap fun (name, bound) => ["      ", name, ": ", bound, ",\n"])

end Pieces

def Body.pieces : Body → Pieces
  | .text s => .texts [s, "\n"]
  | .block header body after =>
      .all [.text header, .block (.texts (body.flatMap fun s => [s, "\n"])) after]

def Function.argPieces (f : Function) : List String :=
  let args := f.args.map fun (name, type) => [name, ": ", type]
  let all := (f.receiver?.toList.map ([·])) ++ args
  match all with
  | [] => []
  | first :: rest => first ++ rest.flatMap (", " :: ·)

def Function.pieces (f : Function) : Pieces :=
  .all [
    .texts ((f.doc?.toList.flatMap Text.lines).flatMap fun line => ["/// ", line, "\n"]),
    .texts (if f.isPublic then ["pub", " "] else []),
    .texts ["fn ", f.name],
    .generics f.generics,
    .texts ("(" :: f.argPieces ++ [")"]),
    .texts (f.returns?.toList.flatMap fun type => [" -> ", type]),
    .bounds f.bounds,
    .block (.all (f.body.map Body.pieces)) ""]

def Impl.pieces (i : Impl) : Pieces :=
  let types := i.types.flatMap fun (name, type) => ["type ", name, " = ", type, ";\n"]
  let functions :=
    match i.functions with
    | [] => []
    | first :: rest =>
        (if i.types.isEmpty then [] else [.text "\n"]) ++ first.pieces ::
          rest.flatMap fun f => [.text "\n", f.pieces]
  .all [
    .text "impl",
    .generics i.generics,
    .texts (i.trait?.toList.flatMap fun name => [" ", name, " for"]),
    .texts [" ", i.target],
    .generics i.targetGenerics,
    .bounds i.bounds,
    .block (.all (.texts types :: functions)) ""]

def Item.pieces : Item → Pieces
  | .raw s => .texts [s, "\n"]
  | .impl i => i.pieces

namespace Item

def pieceList : List Item → List Piece
  | [] => []
  | first :: rest => first.pieces 0 ++ rest.flatMap fun item => .text 0 "\n" :: item.pieces 0

/-- The text of items, without the line feed at its end. -/
def render (items : List Item) : String :=
  let page := (pieceList items).foldl Page.putPiece {}
  if page.text.toList.getLast? == some '\n' then
    String.ofList page.text.toList.dropLast
  else page.text

end Item

end WireIdl.Code

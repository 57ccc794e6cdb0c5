import WireIdl.Decimal.Style
import WireIdl.Emit.TypeText
import WireIdl.Record.Parts
import WireIdl.Schema.Showing
import WireIdl.Value.Identity

/-!
Values as text. What stands alone is written plainly; inside a container text is quoted and doubles
keep their point. A record writes its fields with their labels, as much of each as it may show.
-/

namespace WireIdl

variable {n : Census}

def nullText : String := "null"

namespace Value

/-- A list or set without its parts. -/
def itemsText (kind element : String) (length : Nat) : String :=
  kind ++ "<" ++ element ++ ">(size=" ++ toString length ++ ")"

def entriesText (key value : String) (length : Nat) : String :=
  "map<" ++ key ++ ", " ++ value ++ ">(size=" ++ toString length ++ ")"

def size : Value → Nat
  | .seq _ items | .set _ items => items.length
  | .map _ entries => entries.length
  | .option (some v) | .pointer _ v => v.size
  | _ => 0

end Value

/-- How a value is written: alone, or inside a container. -/
inductive TextStyle where
  | plain
  | debug
  deriving DecidableEq

namespace TextStyle

def decimal : TextStyle → DecimalStyle
  | .plain => .plain
  | .debug => .literal

def string : TextStyle → String → String
  | .plain, s => s
  | .debug, s => Text.quote s

end TextStyle

namespace Target

def memberName (t : Target n) (shape : Shape n) (value : Int32) : String :=
  match shape with
  | .enum id =>
      match (t.schema.enum id).memberByValue? value with
      | some m => m.name
      | none => toString value
  | _ => toString value

def memberIdent (t : Target n) (shape : Shape n) (value : Int32) : String :=
  match shape with
  | .enum id =>
      match (t.schema.enum id).memberByValue? value with
      | some m => Ident.bare (Ident.variant m.name)
      | none => toString value
  | _ => toString value

def recordText (name : String) (parts : List String) : String :=
  name ++ "\x7b" ++ ", ".intercalate parts ++ "\x7d"

def labelled (t : Target n) (field : Field n) (text : String) : String :=
  t.config.fieldNaming.apply field.name ++ "=" ++ text

def absentText (t : Target n) (field : Field n) : String :=
  match t.schema.showing field with
  | .redacted => redactedText
  | _ => nullText

mutual

def text (t : Target n) (style : TextStyle) (shape : Shape n) : Value → String
  | .bool v => if v then "true" else "false"
  | .byte v => toString v
  | .ubyte v => toString v
  | .i16 v => toString v
  | .i32 v => toString v
  | .i64 v => toString v
  | .double v => style.decimal.text v
  | .string _ v => style.string v
  | .binary v => "[" ++ ", ".intercalate (v.map toString) ++ "]"
  | .enum v =>
      match style with
      | .plain => t.memberName shape v
      | .debug => t.memberIdent shape v
  | .option none => "None"
  | .option (some v) => "Some(" ++ t.text .debug shape v ++ ")"
  | .pointer _ v => t.text style shape v
  | .seq _ items => "[" ++ ", ".intercalate (t.itemTexts shape.element items) ++ "]"
  | .set _ items => "\x7b" ++ ", ".intercalate (t.itemTexts shape.element items) ++ "\x7d"
  | .map _ entries =>
      "\x7b" ++ ", ".intercalate (t.entryTexts shape.key shape.value entries) ++ "\x7d"
  | .record slots => recordText (shape.name t.schema) (t.fieldTexts (shape.fields t.schema) slots)

def itemTexts (t : Target n) (shape : Shape n) : List Value → List String
  | [] => []
  | item :: items => t.text .debug shape item :: t.itemTexts shape items

def entryTexts (t : Target n) (keyShape valueShape : Shape n) : List (Value × Value) → List String
  | [] => []
  | (key, value) :: entries =>
      (t.text .debug keyShape key ++ ": " ++ t.text .debug valueShape value) ::
        t.entryTexts keyShape valueShape entries

def fieldTexts (t : Target n) (fields : List (Field n)) : Slots → List String
  | [] => []
  | none :: slots =>
      match fields with
      | [] => []
      | field :: fields => t.labelled field (t.absentText field) :: t.fieldTexts fields slots
  | some v :: slots =>
      match fields with
      | [] => []
      | field :: fields =>
          let shape := t.schema.shape field.ty
          let shown :=
            match t.schema.showing field with
            | .redacted => redactedText
            | .plain => t.text .plain shape v
            | .debug => t.text .debug shape v
            | .hash => v.hashText
            | .items kind element => Value.itemsText kind element v.size
            | .entries key value => Value.entriesText key value v.size
          t.labelled field shown :: t.fieldTexts fields slots

end

def optionText (t : Target n) (style : TextStyle) (shape : Shape n) : Option Value → String
  | some v => t.text style shape v
  | none => nullText

end Target

end WireIdl

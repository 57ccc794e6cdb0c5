import WireIdl.Decimal.Style
import WireIdl.Emit.TypeText
import WireIdl.Value.Keyed

/-!
What a literal means at a type. An `Initializer` is a literal that fits its type, with every name
of a constant replaced by the constant's value. It has a text, the expression that is emitted for
it, and a value, which that expression evaluates to.
-/

namespace WireIdl

inductive IntWidth where
  | byte
  | i16
  | i32
  | i64
  deriving DecidableEq

namespace IntWidth

def min : IntWidth → Int64
  | .byte => Int8.minValue.toInt64
  | .i16 => Int16.minValue.toInt64
  | .i32 => Int32.minValue.toInt64
  | .i64 => Int64.minValue

def max : IntWidth → Int64
  | .byte => Int8.maxValue.toInt64
  | .i16 => Int16.maxValue.toInt64
  | .i32 => Int32.maxValue.toInt64
  | .i64 => Int64.maxValue

def fits (w : IntWidth) (v : Int64) : Bool :=
  w.min ≤ v && v ≤ w.max

end IntWidth

inductive Initializer (n : Census) where
  | bool (v : Bool)
  | int (width : IntWidth) (v : Int64)
  | double (v : Double)
  | string (v : String)
  | binary (v : String)
  | member (id : Fin n.enums) (member : EnumMember)
  | list (items : List (Initializer n))
  | set (items : List (Initializer n))
  | map (entries : List (Initializer n × Initializer n))

/-- How many constants may be looked up one inside the other. -/
def maxReferences : Nat := 32

namespace Literal

mutual

def text : Literal → String
  | .int v => toString v
  | .double v => DecimalStyle.plain.text v
  | .string v => Text.quote v
  | .identifier name => name
  | .list items => "[" ++ ", ".intercalate (itemTexts items) ++ "]"
  | .map entries => "\x7b" ++ ", ".intercalate (entryTexts entries) ++ "\x7d"

def itemTexts : List Literal → List String
  | [] => []
  | item :: items => item.text :: itemTexts items

def entryTexts : List (Literal × Literal) → List String
  | [] => []
  | (key, value) :: entries => (key.text ++ ": " ++ value.text) :: entryTexts entries

end

end Literal

/-- The constant that a name refers to: by its own name, or by its namespace and name. -/
def Schema.constant? {n : Census} (s : Schema n) (name : String) : Option (Constant n) :=
  s.constants.find? fun c => c.name == name || c.scope ++ "." ++ c.name == name

namespace Target

variable {n : Census}

def mismatch (t : Target n) (ty : Ty n) (v : Literal) : EmitFault :=
  .literalMismatch (t.schema.typeName ty) v.text

def misfit (t : Target n) (ty : Ty n) (shape : Shape n) (v : Literal) : EmitFault :=
  match shape with
  | .cyclic cycle => .typedefCycle cycle
  | .void | .record _ | .service _ =>
      .unsupportedConstantType v.text (t.schema.typeName ty)
  | _ => t.mismatch ty v

def int (t : Target n) (ty : Ty n) (width : IntWidth) (v : Int64) :
    Except EmitFault (Initializer n) :=
  if width.fits v then .ok (.int width v) else .error (t.mismatch ty (.int v))

def member (t : Target n) (id : Fin n.enums) (found : Option EnumMember) (v : Literal) :
    Except EmitFault (Initializer n) :=
  match found with
  | some m => .ok (.member id m)
  | none => .error (.unknownEnumMember (t.schema.enum id).name v.text)

def dereference (t : Target n) (deref : Ty n → Shape n → Literal → Except EmitFault (Initializer n))
    (ty : Ty n) (shape : Shape n) (name : String) : Except EmitFault (Initializer n) :=
  match t.schema.constant? name with
  | some c => deref ty shape c.value
  | none => .error (t.mismatch ty (.identifier name))

mutual

/-- The initializer of a literal at a type; `deref` gives that of a constant's value. -/
def initializerWith (t : Target n)
    (deref : Ty n → Shape n → Literal → Except EmitFault (Initializer n))
    (ty : Ty n) (shape : Shape n) : Literal → Except EmitFault (Initializer n)
  | .identifier name =>
      match shape with
      | .cyclic cycle => .error (.typedefCycle cycle)
      | .bool =>
          if name == "true" then .ok (.bool true)
          else if name == "false" then .ok (.bool false)
          else t.dereference deref ty shape name
      | .enum id =>
          t.member id ((t.schema.enum id).memberByName? (Ident.lastPart name)) (.identifier name)
      | _ => t.dereference deref ty shape name
  | .int v =>
      match shape with
      | .bool =>
          if v == 0 then .ok (.bool false)
          else if v == 1 then .ok (.bool true)
          else .error (t.mismatch ty (.int v))
      | .byte => t.int ty .byte v
      | .i16 => t.int ty .i16 v
      | .i32 => t.int ty .i32 v
      | .i64 => t.int ty .i64 v
      | .double => .ok (.double (.ofInt v.toInt))
      | .enum id =>
          let found :=
            if IntWidth.i32.fits v then (t.schema.enum id).memberByValue? v.toInt32 else none
          t.member id found (.int v)
      | _ => .error (t.misfit ty shape (.int v))
  | .double v =>
      match shape with
      | .double => .ok (.double v)
      | _ => .error (t.misfit ty shape (.double v))
  | .string v =>
      match shape with
      | .string => .ok (.string v)
      | .binary => .ok (.binary v)
      | _ => .error (t.misfit ty shape (.string v))
  | .list items =>
      match shape with
      | .list written element => do
          let _ ← t.typeText shape
          return .list (← t.initializerItems deref written (element ()) items)
      | .set written element => do
          let _ ← t.typeText shape
          return .set (← t.initializerItems deref written (element ()) items)
      | _ => .error (t.misfit ty shape (.list items))
  | .map entries =>
      match shape with
      | .map writtenKey key writtenValue value => do
          let _ ← t.typeText shape
          return .map
            (← t.initializerEntries deref writtenKey (key ()) writtenValue (value ()) entries)
      | _ => .error (t.misfit ty shape (.map entries))

def initializerItems (t : Target n)
    (deref : Ty n → Shape n → Literal → Except EmitFault (Initializer n))
    (ty : Ty n) (shape : Shape n) : List Literal → Except EmitFault (List (Initializer n))
  | [] => .ok []
  | item :: items => do
      let first ← t.initializerWith deref ty shape item
      return first :: (← t.initializerItems deref ty shape items)

def initializerEntries (t : Target n)
    (deref : Ty n → Shape n → Literal → Except EmitFault (Initializer n))
    (keyTy : Ty n) (keyShape : Shape n) (valueTy : Ty n) (valueShape : Shape n) :
    List (Literal × Literal) → Except EmitFault (List (Initializer n × Initializer n))
  | [] => .ok []
  | (key, value) :: entries => do
      let key ← t.initializerWith deref keyTy keyShape key
      let value ← t.initializerWith deref valueTy valueShape value
      return (key, value) ::
        (← t.initializerEntries deref keyTy keyShape valueTy valueShape entries)

end

/-- The initializer of a literal with at most `references` constants looked up one inside the
other. -/
def initializerWithin (t : Target n) :
    Nat → Ty n → Shape n → Literal → Except EmitFault (Initializer n)
  | 0 => t.initializerWith fun _ _ _ => .error (.constantDepth maxReferences)
  | references + 1 => t.initializerWith (t.initializerWithin references)

def initializer (t : Target n) (ty : Ty n) (v : Literal) : Except EmitFault (Initializer n) :=
  t.initializerWithin maxReferences ty (t.shape ty) v

end Target

namespace Initializer

variable {n : Census}

def doubleText (v : Double) : String :=
  if v.isNaN then "f64::NAN"
  else if v.isInfinite then if v.negative then "f64::NEG_INFINITY" else "f64::INFINITY"
  else DecimalStyle.literal.text v

def containerText (path : String) (parts : List String) : String :=
  if parts.isEmpty then path ++ "::new()"
  else path ++ "::from([" ++ ", ".intercalate parts ++ "])"

mutual

def text (t : Target n) : Initializer n → String
  | .bool v => if v then "true" else "false"
  | .int _ v => toString v
  | .double v => doubleText v
  | .string v => "::std::string::String::from(" ++ Text.quote v ++ ")"
  | .binary v => Text.quote v ++ ".as_bytes().to_vec()"
  | .member id m => t.enumPath id ++ "::" ++ Ident.variant m.name
  | .list items => containerText t.config.list.path (itemTexts t items)
  | .set items => containerText t.config.set.setPath (itemTexts t items)
  | .map entries => containerText t.config.map.mapPath (entryTexts t entries)

def itemTexts (t : Target n) : List (Initializer n) → List String
  | [] => []
  | item :: items => item.text t :: itemTexts t items

def entryTexts (t : Target n) : List (Initializer n × Initializer n) → List String
  | [] => []
  | (key, value) :: entries =>
      ("(" ++ key.text t ++ ", " ++ value.text t ++ ")") :: entryTexts t entries

end

def intValue (v : Int64) : IntWidth → Value
  | .byte => .byte v.toInt8
  | .i16 => .i16 v.toInt16
  | .i32 => .i32 v.toInt32
  | .i64 => .i64 v

mutual

def value (c : Config) : Initializer n → Value
  | .bool v => .bool v
  | .int width v => intValue v width
  | .double v => .double v
  | .string v => .string .owned v
  | .binary v => .binary (Bytes.ofString v)
  | .member _ m => .enum m.value
  | .list items => .seq c.list.toSeq (itemValues c items)
  | .set items => .setOf c.set (itemValues c items)
  | .map entries => .mapOf c.map (entryValues c entries)

def itemValues (c : Config) : List (Initializer n) → List Value
  | [] => []
  | item :: items => item.value c :: itemValues c items

def entryValues (c : Config) : List (Initializer n × Initializer n) → List (Value × Value)
  | [] => []
  | (key, value) :: entries => (key.value c, value.value c) :: entryValues c entries

end

end Initializer

def Target.literalText {n : Census} (t : Target n) (ty : Ty n) (v : Literal) :
    Except EmitFault String := do
  return (← t.initializer ty v).text t

end WireIdl

import WireIdl.Emit.Plan
import WireIdl.Schema.Showing

/-!
The code that writes the text of a record: a format string in which each field has its label and,
unless it is redacted, a place for an argument.
-/

namespace WireIdl

variable {n : Census}

inductive DisplayArg where
  /-- The value, or `null`. -/
  | plain (option : String)
  /-- The value of a container or of bytes, or `null`. -/
  | debug (option : String)
  /-- The hash of the value, or `null`. -/
  | hash (option : String)
  | items (length kind element : String)
  | entries (length key value : String)

def DisplayArg.text (rt : String) : DisplayArg → String
  | .plain option => rt ++ "::display::OrNull(" ++ option ++ ")"
  | .debug option => rt ++ "::display::DebugOrNull(" ++ option ++ ")"
  | .hash option => rt ++ "::display::hash(" ++ option ++ ")"
  | .items length kind element =>
      rt ++ "::display::summarize_collection(" ++ length ++ ", " ++ Text.quote kind ++ ", " ++
        Text.quote element ++ ")"
  | .entries length key value =>
      rt ++ "::display::summarize_map(" ++ length ++ ", " ++ Text.quote key ++ ", " ++
        Text.quote value ++ ")"

def escapeBraces (s : String) : String :=
  String.ofList (s.toList.flatMap fun c => if c = '\x7b' || c = '\x7d' then [c, c] else [c])

namespace FieldPlan

/-- The argument for a field; a redacted field has none. -/
def displayArg? (s : Schema n) (p : FieldPlan n) : Option DisplayArg :=
  match s.showing p.field with
  | .redacted => none
  | .plain => some (.plain p.option)
  | .debug => some (.debug p.option)
  | .hash => some (.hash p.option)
  | .items kind element => some (.items p.length kind element)
  | .entries key value => some (.entries p.length key value)

def displayText (c : Config) (p : FieldPlan n) : String :=
  escapeBraces (c.fieldNaming.apply p.field.name ++ "=") ++
    if p.field.redacted then redactedText else "\x7b\x7d"

end FieldPlan

namespace Target

def displayFormat (t : Target n) (name : String) (plans : List (FieldPlan n)) : String :=
  escapeBraces (name ++ "\x7b") ++ ", ".intercalate (plans.map (·.displayText t.config)) ++
    "\x7d\x7d"

def displayArgs (t : Target n) (plans : List (FieldPlan n)) : List DisplayArg :=
  plans.filterMap (·.displayArg? t.schema)

def displayCall (t : Target n) (name : String) (plans : List (FieldPlan n)) : String :=
  ", ".intercalate
    (("write!(f, " ++ Text.quote (t.displayFormat name plans)) ::
      (t.displayArgs plans).map (·.text t.config.runtimePath)) ++ ")"

end Target

end WireIdl

import WireIdl.Schema.Resolve

/-!
How much of a field the text of a record shows.
-/

namespace WireIdl

variable {n : Census}

inductive Showing where
  /-- Nothing at all. -/
  | redacted
  /-- The value itself. -/
  | plain
  /-- The value as containers and bytes are written. -/
  | debug
  /-- A hash in place of the value. -/
  | hash
  /-- The kind, element type and size of a list or set. -/
  | items (kind element : String)
  /-- The types and size of a map. -/
  | entries (key value : String)
  deriving DecidableEq

/-- What the text of a record shows of a field: nothing if it is redacted, neither value nor parts
if it is obfuscated. -/
def Schema.showing (s : Schema n) (field : Field n) : Showing :=
  if field.redacted then .redacted
  else if field.obfuscated then
    match s.shape field.ty with
    | .list element _ => .items "list" (s.typeName element)
    | .set element _ => .items "set" (s.typeName element)
    | .map key _ value _ => .entries (s.typeName key) (s.typeName value)
    | _ => .hash
  else
    match s.shape field.ty with
    | .list _ _ | .set _ _ | .map _ _ _ _ | .binary => .debug
    | _ => .plain

def redactedText : String := "<REDACTED>"

end WireIdl

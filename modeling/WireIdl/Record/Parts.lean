import WireIdl.Schema.Resolve

/-!
The shapes of the parts of a value: elements, keys, values and fields.
-/

namespace WireIdl.Shape

variable {n : Census}

def element : Shape n → Shape n
  | .list _ element | .set _ element => element ()
  | _ => .void

def key : Shape n → Shape n
  | .map _ key _ _ => key ()
  | _ => .void

def value : Shape n → Shape n
  | .map _ _ _ value => value ()
  | _ => .void

def fields (s : Schema n) : Shape n → List (Field n)
  | .record id => (s.record id).fields
  | _ => []

def name (s : Schema n) : Shape n → String
  | .record id => (s.record id).name
  | _ => ""

end WireIdl.Shape

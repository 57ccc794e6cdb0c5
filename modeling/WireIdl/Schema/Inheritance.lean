import WireIdl.Schema.Basic

/-!
The ancestors of a service. Inheritance is single, and a chain stops before a service that it has
already.
-/

namespace WireIdl.Schema

variable {n : Census}

def climb (s : Schema n) :
    Nat → List (Fin n.services) → Fin n.services → List (Fin n.services)
  | 0, chain, _ => chain
  | steps + 1, chain, id =>
      match (s.service id).extends? with
      | none => chain
      | some parent =>
          if parent ∈ chain then chain else s.climb steps (chain ++ [parent]) parent

/-- A service and its ancestors, nearest first. No service stands in it twice, so it is no longer
than the list of services. -/
def serviceChain (s : Schema n) (id : Fin n.services) : List (Fin n.services) :=
  s.climb n.services [id] id

end WireIdl.Schema

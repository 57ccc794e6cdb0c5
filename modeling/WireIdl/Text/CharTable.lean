/-!
Sets and mappings of characters given by short tables of code points.
-/

namespace WireIdl.Text

/-- Membership in a set of characters that is given by the ascending code points at which
membership changes, starting outside. -/
def memTurns (turns : List Nat) (c : Char) : Bool :=
  (turns.takeWhile (· ≤ c.toNat)).length % 2 == 1

structure Span where
  first : Nat
  last : Nat
  step : Nat

def Span.mem (s : Span) (c : Char) : Bool :=
  s.first ≤ c.toNat && c.toNat ≤ s.last && (c.toNat - s.first) % s.step == 0

/-- A span of characters, each of which is mapped to the one at the same distance from `target` as
it has from the first of the span. -/
structure Shift where
  span : Span
  target : Nat

def Shift.map (s : Shift) (c : Char) : Char :=
  Char.ofNat (s.target + (c.toNat - s.span.first))

def shiftOf? (shifts : List Shift) (c : Char) : Option Char :=
  (shifts.find? (·.span.mem c)).map (·.map c)

end WireIdl.Text

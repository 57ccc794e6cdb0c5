import WireIdl.Decimal.Double

/-!
The shortest decimal that reads back as a given double: the fewest digits for which some decimal
rounds to it, and of those decimals the nearest.
-/

namespace WireIdl

structure Decimal where
  digits : Nat
  exponent : Int

namespace Decimal

/-- Where a positive double stands among the reals: the number itself and the ends of the interval
of reals that round to it, all in units of `2 ^ (-1076) * 10 ^ (-400)`. The ends belong to the
interval when the mantissa is even. -/
structure Neighbourhood where
  low : Nat
  value : Nat
  high : Nat
  closed : Bool

def unitOfNeighbourhood : Nat :=
  Nat.pow 2 1076

def neighbourhood (x : Double) : Neighbourhood :=
  let m := x.mantissa
  let narrow := x.fraction == 0 && x.exponentField > 1
  let grain := Nat.pow 2 x.scale * Nat.pow 10 400
  { low := (4 * m - if narrow then 1 else 2) * grain
    value := 4 * m * grain
    high := (4 * m + 2) * grain
    closed := m % 2 == 0 }

def Neighbourhood.contains (h : Neighbourhood) (n : Nat) : Bool :=
  if h.closed then h.low ≤ n && n ≤ h.high else h.low < n && n < h.high

/-- The multiple of `grid` that is nearest to the value among those next to it in the interval; of
two equally near the larger. -/
def Neighbourhood.onGrid? (h : Neighbourhood) (grid : Nat) : Option Nat :=
  let down := h.value / grid
  let up := down + 1
  match h.contains (down * grid), h.contains (up * grid) with
  | true, true => if h.value - down * grid < up * grid - h.value then some down else some up
  | true, false => some down
  | false, true => some up
  | false, false => none

def stripZeros : Nat → Decimal → Decimal
  | 0, d => d
  | fuel + 1, d =>
      if d.digits ≠ 0 ∧ d.digits % 10 = 0 then stripZeros fuel ⟨d.digits / 10, d.exponent + 1⟩
      else d

/-- The shortest decimal of a positive double. Seventeen digits always suffice. -/
def shortest (x : Double) : Decimal :=
  let h := neighbourhood x
  let places := (Nat.toDigits 10 (h.value / unitOfNeighbourhood)).length
  let found := (List.range' 1 17).findSome? fun count =>
    (h.onGrid? (Nat.pow 10 (places - count) * unitOfNeighbourhood)).map fun digits =>
      Decimal.mk digits (places - 400 - count : Int)
  match found with
  | some d => stripZeros 17 d
  | none => ⟨0, 0⟩

end Decimal

end WireIdl

/-!
Double-precision numbers as bit patterns. Two doubles are the same when their bits are: a NaN is
itself, and the two zeros differ.
-/

namespace WireIdl

structure Double where
  bits : UInt64
  deriving DecidableEq

namespace Double

def negative (x : Double) : Bool :=
  x.bits.toNat / Nat.pow 2 63 == 1

def exponentField (x : Double) : Nat :=
  x.bits.toNat / Nat.pow 2 52 % Nat.pow 2 11

def fraction (x : Double) : Nat :=
  x.bits.toNat % Nat.pow 2 52

def isNaN (x : Double) : Bool :=
  x.exponentField == 2047 && x.fraction != 0

def isInfinite (x : Double) : Bool :=
  x.exponentField == 2047 && x.fraction == 0

def mantissa (x : Double) : Nat :=
  if x.exponentField = 0 then x.fraction else x.fraction + Nat.pow 2 52

/-- The exponent `q` of a finite number `m * 2 ^ q`, by 1074 too large. -/
def scale (x : Double) : Nat :=
  x.exponentField - 1

/-- A quotient by a power of two, a half going to the even neighbour. -/
def roundShift (n k : Nat) : Nat :=
  let unit := Nat.pow 2 k
  let quotient := n / unit
  let rest := 2 * (n % unit)
  if rest > unit || (rest == unit && quotient % 2 == 1) then quotient + 1 else quotient

/-- The double nearest to an integer, a tie going to the even mantissa. A mantissa that rounds up
to `2 ^ 53` carries into the exponent. -/
def ofInt (i : Int) : Double :=
  let n := i.natAbs
  if n = 0 then ⟨0⟩
  else
    let length := n.log2 + 1
    let m := if length ≤ 53 then n * Nat.pow 2 (53 - length) else roundShift n (length - 53)
    let sign := if i < 0 then Nat.pow 2 63 else 0
    ⟨(sign + (length + 1022) * Nat.pow 2 52 + (m - Nat.pow 2 52)).toUInt64⟩

end Double

end WireIdl

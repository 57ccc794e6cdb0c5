/-!
Numbers in base sixteen, with a fixed number of digits.
-/

namespace WireIdl.Text

def hexDigits : Nat → Nat → List Char
  | 0, _ => []
  | width + 1, k => hexDigits width (k / 16) ++ [Nat.digitChar (k % 16)]

@[simp] theorem length_hexDigits (width k : Nat) : (hexDigits width k).length = width := by
  induction width generalizing k with
  | zero => rfl
  | succ width ih => simp [hexDigits, ih]

def hexDigit? (c : Char) : Option Nat :=
  if '0' ≤ c && c ≤ '9' then some (c.toNat - '0'.toNat)
  else if 'a' ≤ c && c ≤ 'f' then some (c.toNat - 'a'.toNat + 10)
  else none

end WireIdl.Text

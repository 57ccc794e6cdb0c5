import WireIdl.Decimal.Shortest

/-!
Doubles as text. A style says what is written where two readings of the same digits are possible.
-/

namespace WireIdl

/-- The decisions of a decimal text: whether a whole number ends in `.0`, and for which powers of
ten of the leading digit the number is written with an exponent. -/
structure DecimalStyle where
  pointZero : Bool
  scientific : Int → Bool

namespace DecimalStyle

def plain : DecimalStyle :=
  { pointZero := false, scientific := fun _ => false }

def literal : DecimalStyle :=
  { pointZero := true, scientific := fun power => power < -4 || 16 ≤ power }

def zeros (n : Nat) : List Char :=
  List.replicate n '0'

def exponential (ds : List Char) (power : Int) : List Char :=
  let fractional := if ds.length ≤ 1 then [] else '.' :: ds.drop 1
  ds.take 1 ++ fractional ++ 'e' :: (toString power).toList

def positional (style : DecimalStyle) (ds : List Char) (power : Int) : List Char :=
  if power < 0 then '0' :: '.' :: zeros (power.natAbs - 1) ++ ds
  else
    let whole := power.toNat + 1
    if ds.length ≤ whole then
      ds ++ zeros (whole - ds.length) ++ if style.pointZero then ['.', '0'] else []
    else ds.take whole ++ '.' :: ds.drop whole

def magnitude (style : DecimalStyle) (x : Double) : List Char :=
  if x.isNaN then ['N', 'a', 'N']
  else if x.isInfinite then ['i', 'n', 'f']
  else if x.mantissa = 0 then style.positional ['0'] 0
  else
    let d := Decimal.shortest x
    let ds := Nat.toDigits 10 d.digits
    let power := d.exponent + (ds.length - 1 : Int)
    if style.scientific power then exponential ds power else style.positional ds power

/-- A double as text. The sign of a zero is written, that of a NaN is not. -/
def text (style : DecimalStyle) (x : Double) : String :=
  String.ofList
    ((if x.negative && !x.isNaN then ['-'] else []) ++ style.magnitude x)

end DecimalStyle

end WireIdl

import WireIdl.Text.CaseTable

/-!
Lower and upper case of single letters. A mapping gives a list, since the capital form of a letter
may have several characters.
-/

namespace WireIdl.Text

def isLowercase (c : Char) : Bool :=
  if c.toNat < 128 then c.isLower else lowercaseSpans.any (·.mem c)

def isUppercase (c : Char) : Bool :=
  if c.toNat < 128 then c.isUpper else uppercaseSpans.any (·.mem c)

/-- The small form. A capital `İ` keeps its dot as a combining mark. -/
def toLowercase (c : Char) : List Char :=
  if c.toNat < 128 then [c.toLower]
  else if c = 'İ' then ['i', Char.ofNat 0x307]
  else [(shiftOf? toLowercaseShifts c).getD c]

def toUppercase (c : Char) : List Char :=
  if c.toNat < 128 then [c.toUpper]
  else
    match toUppercaseExpansions.lookup c.toNat with
    | some form => form.map Char.ofNat
    | none => [(shiftOf? toUppercaseShifts c).getD c]

end WireIdl.Text

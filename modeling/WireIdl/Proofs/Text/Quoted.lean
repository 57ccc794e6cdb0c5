import WireIdl.Text.Hex
import WireIdl.Text.Quoted

/-! Quoted literals are read back. The reader takes one character at a time; what it has seen of an
escape is its state. Main statement: reading a quoted text gives the text. -/

namespace WireIdl.Text

/-- Where the reader of a literal stands: in the text, after a backslash, after `\u`, or among the
digits of a code point. -/
inductive QuoteState where
  | text
  | escape
  | opening
  | digits (value : Nat)

/-- The characters with an escape of one letter. -/
def shortEscape? : Char → Option Char
  | '0' => some '\x00'
  | 't' => some '\t'
  | 'r' => some '\r'
  | 'n' => some '\n'
  | '"' => some '"'
  | '\\' => some '\\'
  | _ => none

def charOfCode? (code : Nat) : Option Char :=
  if code.isValidChar then some (Char.ofNat code) else none

/-- The text of a literal, and what stands after its last quote. -/
def readQuoted : QuoteState → List Char → Option (List Char × List Char)
  | _, [] => none
  | .text, c :: rest =>
      if c = '"' then some ([], rest)
      else if c = '\\' then readQuoted .escape rest
      else (readQuoted .text rest).map (·.map (c :: ·) id)
  | .escape, c :: rest =>
      if c = 'u' then readQuoted .opening rest
      else (shortEscape? c).bind fun c => (readQuoted .text rest).map (·.map (c :: ·) id)
  | .opening, c :: rest => if c = '\x7b' then readQuoted (.digits 0) rest else none
  | .digits value, c :: rest =>
      if c = '\x7d' then
        (charOfCode? value).bind fun c => (readQuoted .text rest).map (·.map (c :: ·) id)
      else (hexDigit? c).bind fun digit => readQuoted (.digits (16 * value + digit)) rest

/-- The text of a literal that is nothing but a literal. -/
def unquote? (literal : String) : Option String :=
  match literal.toList with
  | '"' :: rest =>
      match readQuoted .text rest with
      | some (text, []) => some (String.ofList text)
      | _ => none
  | _ => none

theorem charOfCode?_toNat (c : Char) : charOfCode? c.toNat = some c := by
  have hvalid : c.toNat.isValidChar := c.valid
  rw [charOfCode?, if_pos hvalid, Char.ofNat_toNat]

theorem hexDigit?_digitChar {digit : Nat} (h : digit < 16) :
    hexDigit? (Nat.digitChar digit) = some digit ∧ Nat.digitChar digit ≠ '\x7d' := by
  revert digit
  decide

theorem readQuoted_digit {digit : Nat} (h : digit < 16) (value : Nat) (rest : List Char) :
    readQuoted (.digits value) (Nat.digitChar digit :: rest) =
      readQuoted (.digits (16 * value + digit)) rest := by
  obtain ⟨hdigit, hbrace⟩ := hexDigit?_digitChar h
  rw [readQuoted, if_neg hbrace, hdigit, Option.bind_some]

theorem readQuoted_toDigits (code : Nat) (rest : List Char) :
    readQuoted (.digits 0) (Nat.toDigits 16 code ++ rest) = readQuoted (.digits code) rest := by
  induction code using Nat.strongRecOn generalizing rest with
  | ind code ih =>
      by_cases hsmall : code < 16
      · rw [Nat.toDigits_of_lt_base hsmall, List.singleton_append, readQuoted_digit hsmall,
          Nat.mul_zero, Nat.zero_add]
      · rw [Nat.toDigits_of_base_le (by omega) (by omega), List.append_assoc,
          List.singleton_append, ih (code / 16) (by omega),
          readQuoted_digit (Nat.mod_lt _ (by omega)), Nat.div_add_mod]

/-- A character is read back from its escape. -/
theorem readQuoted_escapeChar (c : Char) (rest : List Char) :
    readQuoted .text (escapeChar c ++ rest) =
      (readQuoted .text rest).map (·.map (c :: ·) id) := by
  by_cases hshort : c ∈ ['\x00', '\t', '\r', '\n', '"', '\\']
  · simp only [List.mem_cons, List.not_mem_nil, or_false] at hshort
    rcases hshort with rfl | rfl | rfl | rfl | rfl | rfl <;> rfl
  · simp only [List.mem_cons, List.not_mem_nil, or_false, not_or] at hshort
    obtain ⟨hzero, htab, hreturn, hline, hquote, hslash⟩ := hshort
    have hcode : c.toNat ≠ 0 := fun hcode => hzero (Char.toNat_inj.mp hcode)
    rw [escapeChar, if_neg hcode, if_neg htab, if_neg hreturn, if_neg hline, if_neg hquote,
      if_neg hslash]
    by_cases hprintable : isPrintable c = true
    · rw [if_pos hprintable, List.singleton_append, readQuoted, if_neg hquote, if_neg hslash]
    · have hopen : ∀ cs, readQuoted .text (['\\', 'u', '\x7b'] ++ cs) =
          readQuoted (.digits 0) cs := fun _ => rfl
      rw [if_neg hprintable, List.append_assoc, List.append_assoc, hopen, readQuoted_toDigits,
        List.singleton_append, readQuoted, if_pos rfl, charOfCode?_toNat, Option.bind_some]

theorem readQuoted_flatMap (cs rest : List Char) :
    readQuoted .text (cs.flatMap escapeChar ++ '"' :: rest) = some (cs, rest) := by
  induction cs with
  | nil => rfl
  | cons c cs ih =>
      rw [List.flatMap_cons, List.append_assoc, readQuoted_escapeChar, ih, Option.map_some]
      rfl

theorem unquote?_quote (s : String) : unquote? (quote s) = some s := by
  rw [unquote?, quote, String.toList_ofList, List.cons_append]
  simp only [readQuoted_flatMap, String.ofList_toList]

end WireIdl.Text

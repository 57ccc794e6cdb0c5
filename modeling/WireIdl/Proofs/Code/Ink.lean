import WireIdl.Code.Item
import WireIdl.Proofs.Code.Writer

/-! Layout moves blanks only. Characters have the same ink if, wherever they stand, the same runs of
characters are left between blanks. Breaking a text into lines, indenting and trimming it leave its
ink as it is, so what is laid out can be read off the steps and items that it was made from. -/

namespace WireIdl

namespace Text

/-- The runs of characters between the blanks of a text. -/
def runs (cs : List Char) : List (List Char) :=
  (cs.splitOnP isBlank).filter (!·.isEmpty)

theorem runs_append_cons {c : Char} (h : isBlank c = true) (cs more : List Char) :
    runs (cs ++ c :: more) = runs cs ++ runs more := by
  rw [runs, List.splitOnP_append_cons _ _ h, List.filter_append]
  rfl

theorem runs_append_of_blank {blanks : List Char} (h : blanks.all isBlank = true)
    (more : List Char) : runs (blanks ++ more) = runs more := by
  induction blanks with
  | nil => rfl
  | cons c blanks ih =>
      rw [List.all_cons, Bool.and_eq_true] at h
      exact (runs_append_cons h.1 [] (blanks ++ more)).trans (ih h.2)

theorem flatten_runs (cs : List Char) : (runs cs).flatten = cs.filter (!isBlank ·) := by
  rw [runs, List.flatten_filter_not_isEmpty]
  induction cs with
  | nil => rfl
  | cons c cs ih =>
      rw [List.splitOnP_cons_eq_if_modifyHead]
      cases hc : isBlank c with
      | true => simpa [hc] using ih
      | false =>
          obtain ⟨first, rest, hsplit⟩ :=
            List.exists_cons_of_ne_nil (List.splitOnP_ne_nil isBlank cs)
          rw [hsplit] at ih ⊢
          simpa [hc] using ih

theorem head?_runs_cons {c : Char} (h : isBlank c = false) (cs : List Char) :
    (runs (c :: cs)).head? = some (c :: cs.takeWhile (!isBlank ·)) := by
  have hfirst : ∀ cs : List Char, ∃ rest,
      cs.splitOnP isBlank = cs.takeWhile (!isBlank ·) :: rest := by
    intro cs
    induction cs with
    | nil => exact ⟨[], List.splitOnP_nil⟩
    | cons c cs ih =>
        obtain ⟨rest, hrest⟩ := ih
        rw [List.splitOnP_cons_eq_if_modifyHead, hrest]
        cases hc : isBlank c with
        | true => exact ⟨_, by simp [hc]; rfl⟩
        | false => exact ⟨rest, by simp [hc]⟩
  obtain ⟨rest, hrest⟩ := hfirst cs
  rw [runs, List.splitOnP_cons_eq_if_modifyHead, hrest]
  simp [h]

/-- In every place, the same runs. -/
def SameInk (cs ds : List Char) : Prop :=
  ∀ before after, runs (before ++ (cs ++ after)) = runs (before ++ (ds ++ after))

/-- The last character is a blank. -/
def EndsBlank (cs : List Char) : Prop :=
  ∃ before c, isBlank c = true ∧ cs = before ++ [c]

theorem EndsBlank.append {cs : List Char} (h : EndsBlank cs) (before : List Char) :
    EndsBlank (before ++ cs) := by
  obtain ⟨start, c, hc, rfl⟩ := h
  exact ⟨before ++ start, c, hc, (List.append_assoc _ _ _).symm⟩

theorem EndsBlank.append_blanks {cs ds : List Char} (h : EndsBlank cs)
    (hds : ds.all isBlank = true) : EndsBlank (cs ++ ds) := by
  cases hlast : ds.getLast? with
  | none => rwa [List.getLast?_eq_none_iff.mp hlast, List.append_nil]
  | some c =>
      have hc : isBlank c = true := List.all_eq_true.mp hds c (List.mem_of_getLast? hlast)
      obtain ⟨before, rfl⟩ := List.getLast?_eq_some_iff.mp hlast
      exact EndsBlank.append ⟨before, c, hc, rfl⟩ cs

theorem EndsBlank.append_flatMap {α : Type} {chars : α → List Char} {before : List Char}
    (h : EndsBlank before) {parts : List α} (hparts : ∀ part ∈ parts, EndsBlank (chars part)) :
    EndsBlank (before ++ parts.flatMap chars) := by
  induction parts generalizing before with
  | nil => rwa [List.flatMap_nil, List.append_nil]
  | cons part parts ih =>
      rw [List.forall_mem_cons] at hparts
      rw [List.flatMap_cons, ← List.append_assoc]
      exact ih (hparts.1.append before) hparts.2

theorem endsBlank_feed (before : List Char) : EndsBlank (before ++ ['\n']) :=
  ⟨before, '\n', rfl, rfl⟩

namespace SameInk

variable {cs ds es more others : List Char}

theorem refl (cs : List Char) : SameInk cs cs :=
  fun _ _ => rfl

theorem of_eq (h : cs = ds) : SameInk cs ds :=
  h ▸ refl cs

theorem symm (h : SameInk cs ds) : SameInk ds cs :=
  fun before after => (h before after).symm

theorem trans (h : SameInk cs ds) (hnext : SameInk ds es) : SameInk cs es :=
  fun before after => (h before after).trans (hnext before after)

theorem append (h : SameInk cs ds) (hmore : SameInk more others) :
    SameInk (cs ++ more) (ds ++ others) := by
  intro before after
  have hfirst := h before (more ++ after)
  have hsecond := hmore (before ++ ds) after
  simp only [List.append_assoc] at hfirst hsecond ⊢
  exact hfirst.trans hsecond

theorem flatMap {α : Type} {chars text : α → List Char} {parts : List α}
    (h : ∀ part ∈ parts, SameInk (chars part) (text part)) :
    SameInk (parts.flatMap chars) (parts.flatMap text) := by
  induction parts with
  | nil => exact refl []
  | cons part parts ih =>
      rw [List.forall_mem_cons] at h
      exact h.1.append (ih h.2)

theorem of_blanks {c d : Char} (hcs : (c :: cs).all isBlank = true)
    (hds : (d :: ds).all isBlank = true) : SameInk (c :: cs) (d :: ds) := by
  have hruns : ∀ {c : Char} {cs : List Char}, (c :: cs).all isBlank = true →
      ∀ before after, runs (before ++ (c :: cs ++ after)) = runs before ++ runs after := by
    intro c cs h before after
    rw [List.all_cons, Bool.and_eq_true] at h
    rw [List.cons_append, runs_append_cons h.1, runs_append_of_blank h.2]
  intro before after
  rw [hruns hcs, hruns hds]

theorem append_blanks (h : EndsBlank cs) (hds : ds.all isBlank = true) :
    SameInk (cs ++ ds) cs := by
  obtain ⟨before, c, hc, rfl⟩ := h
  rw [List.append_assoc]
  refine (refl before).append (of_blanks ?_ ?_)
  · simpa [hc] using hds
  · simp [hc]

theorem blanks_feed (h : ds.all isBlank = true) : SameInk (ds ++ ['\n']) ['\n'] := by
  cases ds with
  | nil => exact refl ['\n']
  | cons d ds =>
      have hall : (d :: (ds ++ ['\n'])).all isBlank = true := by
        rw [← List.cons_append, List.all_append, h]
        rfl
      exact of_blanks hall rfl

theorem runs_eq (h : SameInk cs ds) : runs cs = runs ds := by
  simpa using h [] []

theorem filter_eq (h : SameInk cs ds) : cs.filter (!isBlank ·) = ds.filter (!isBlank ·) := by
  rw [← flatten_runs, h.runs_eq, flatten_runs]

end SameInk

/-- A character that no identifier has: a blank, or a sign among the first 128 characters. -/
def isDelimiter (c : Char) : Bool :=
  isBlank c || (c.toNat < 128 && !c.isAlphanum && c != '_')

def startsDelimited (cs : List Char) : Bool :=
  cs.head?.any isDelimiter

def endsDelimited (cs : List Char) : Bool :=
  cs.getLast?.any isDelimiter

theorem endsDelimited_append {cs : List Char} (h : endsDelimited cs = true) (before : List Char) :
    endsDelimited (before ++ cs) = true := by
  rw [endsDelimited] at h ⊢
  rw [List.getLast?_append]
  cases hlast : cs.getLast? with
  | none =>
      rw [hlast] at h
      cases h
  | some c =>
      rw [hlast] at h
      exact h

theorem startsDelimited_append {cs : List Char} (h : startsDelimited cs = true)
    (more : List Char) : startsDelimited (cs ++ more) = true := by
  cases cs with
  | nil => cases h
  | cons c cs => exact h

theorem startsDelimited_concat (cs : List Char) {c : Char} (h : isDelimiter c = false) :
    startsDelimited (cs ++ [c]) = startsDelimited cs := by
  cases cs with
  | nil => simp [startsDelimited, h]
  | cons d cs => rfl

theorem SameInk.startsDelimited {cs ds : List Char} (h : SameInk cs ds)
    (hcs : startsDelimited cs = true) : startsDelimited ds = true := by
  -- Put between letters, the first run shows how the characters begin.
  have hfirst := congrArg List.head? (h ['a'] ['a'])
  rw [List.singleton_append, List.singleton_append, head?_runs_cons rfl, head?_runs_cons rfl,
    Option.some.injEq, List.cons.injEq] at hfirst
  have hsame := congrArg List.head? hfirst.2
  rw [← startsDelimited_concat _ (c := 'a') rfl] at hcs ⊢
  obtain ⟨c, rest, hc⟩ : ∃ c rest, cs ++ ['a'] = c :: rest :=
    List.exists_cons_of_ne_nil (by simp)
  obtain ⟨d, others, hd⟩ : ∃ d others, ds ++ ['a'] = d :: others :=
    List.exists_cons_of_ne_nil (by simp)
  rw [hc] at hcs hsame
  rw [hd] at hsame ⊢
  cases hblank : isBlank d with
  | true => simp [Text.startsDelimited, isDelimiter, hblank]
  | false =>
      rw [List.takeWhile_cons, List.takeWhile_cons, hblank] at hsame
      cases hother : isBlank c with
      | true =>
          rw [hother] at hsame
          cases hsame
      | false =>
          rw [hother] at hsame
          cases hsame
          exact hcs

theorem sameInk_trimEnd (s : String) :
    SameInk ((trimEnd s).toList ++ ['\n']) (s.toList ++ ['\n']) := by
  let blanks := (s.toList.reverse.takeWhile isBlank).reverse
  have hblanks : blanks.all isBlank = true := by
    rw [List.all_reverse]
    exact List.all_takeWhile
  have hsplit : dropBlanksRight s.toList ++ blanks = s.toList := by
    rw [dropBlanksRight, ← List.reverse_append, List.takeWhile_append_dropWhile,
      List.reverse_reverse]
  have hline : s.toList ++ ['\n'] = dropBlanksRight s.toList ++ (blanks ++ ['\n']) := by
    rw [← List.append_assoc, hsplit]
  rw [trimEnd, String.toList_ofList, hline]
  exact (SameInk.refl _).append (SameInk.blanks_feed hblanks).symm

/-! ### Lines -/

theorem splitFeeds_flatten (cs : List Char) :
    (splitFeeds cs).1.flatten ++ (splitFeeds cs).2 = cs.filter (· ≠ '\n') := by
  induction cs with
  | nil => rfl
  | cons c cs ih =>
      rw [splitFeeds, List.foldr_cons, ← splitFeeds]
      generalize splitFeeds cs = split at ih
      obtain ⟨ended, rest⟩ := split
      by_cases hc : c = '\n'
      · simpa [hc] using ih
      · cases ended with
        | nil => simpa [hc] using ih
        | cons line ended => simpa [hc] using ih

/-- Lines, each with a line feed. -/
def fed (lines : List (List Char)) : List Char :=
  lines.flatMap (· ++ ['\n'])

theorem splitFeeds_fed (cs : List Char) : fed (splitFeeds cs).1 ++ (splitFeeds cs).2 = cs := by
  induction cs with
  | nil => rfl
  | cons c cs ih =>
      rw [splitFeeds, List.foldr_cons, ← splitFeeds]
      generalize splitFeeds cs = split at ih
      obtain ⟨ended, rest⟩ := split
      by_cases hc : c = '\n'
      · simpa [hc, fed] using ih
      · cases ended with
        | nil => simpa [hc, fed] using ih
        | cons line ended => simpa [hc, fed] using ih

theorem sameInk_dropReturn (line : List Char) :
    SameInk (dropReturn line ++ ['\n']) (line ++ ['\n']) := by
  rw [dropReturn]
  split
  · next h =>
      obtain ⟨before, rfl⟩ := List.getLast?_eq_some_iff.mp h
      have hreturn : SameInk (['\r'] ++ ['\n']) ['\n'] := .blanks_feed rfl
      rw [List.dropLast_concat, List.append_assoc]
      exact (SameInk.refl before).append hreturn.symm
  · exact SameInk.refl _

theorem sameInk_dropReturns (lines : List (List Char)) :
    SameInk (fed (lines.map dropReturn)) (fed lines) := by
  rw [fed, List.flatMap_map]
  exact SameInk.flatMap fun line _ => sameInk_dropReturn line

theorem map_toList_lines (s : String) : (lines s).map String.toList = linesOf s.toList := by
  simp [lines, Function.comp_def]

/-- The lines of a text, each with a line feed. -/
def fedLines (s : String) : List Char :=
  fed ((lines s).map String.toList)

/-- A text on lines of its own. -/
def alone (s : String) : List Char :=
  ['\n'] ++ (s.toList ++ ['\n'])

theorem runs_alone (s : String) : runs (alone s) = runs s.toList := by
  have hnil : runs [] = [] := rfl
  calc runs (alone s) = runs [] ++ runs (s.toList ++ ['\n']) := runs_append_cons rfl [] _
    _ = runs [] ++ (runs s.toList ++ runs []) := by rw [runs_append_cons rfl]
    _ = runs s.toList := by rw [hnil, List.nil_append, List.append_nil]

theorem sameInk_fedLines (s : String) : SameInk (['\n'] ++ fedLines s) (alone s) := by
  have hreturns := sameInk_dropReturns (splitFeeds s.toList).1
  have hends : EndsBlank (['\n'] ++ fed (splitFeeds s.toList).1) :=
    (endsBlank_feed []).append_flatMap fun line _ => endsBlank_feed line
  have hsplit := splitFeeds_fed s.toList
  rw [fedLines, map_toList_lines, linesOf]
  generalize splitFeeds s.toList = split at hreturns hends hsplit ⊢
  obtain ⟨ended, rest⟩ := split
  rw [alone, ← hsplit]
  cases rest with
  | nil =>
      simp only [List.isEmpty_nil, if_true, List.append_nil, ← List.append_assoc]
      refine ((SameInk.refl ['\n']).append hreturns).trans ?_
      exact (SameInk.append_blanks hends rfl).symm
  | cons c rest =>
      have hlast : fed (ended.map dropReturn ++ [c :: rest]) =
          fed (ended.map dropReturn) ++ (c :: rest ++ ['\n']) := by
        simp [fed]
      simp only [List.isEmpty_cons, Bool.false_eq_true, if_false, hlast, List.append_assoc]
      exact (SameInk.refl ['\n']).append (hreturns.append (SameInk.refl _))

theorem EndsBlank.sameInk_fedLines {before : List Char} (h : EndsBlank before) (s : String) :
    SameInk (before ++ fedLines s) (before ++ alone s) := by
  have hfeed : SameInk before (before ++ ['\n']) := (SameInk.append_blanks h rfl).symm
  refine (hfeed.append (SameInk.refl _)).trans ?_
  rw [List.append_assoc]
  exact (SameInk.refl before).append (Text.sameInk_fedLines s)

theorem intercalate_concat (lines : List (List Char)) (last : List Char) :
    List.intercalate ['\n'] (lines ++ [last]) = fed lines ++ last := by
  induction lines with
  | nil => simp [fed]
  | cons line lines ih =>
      obtain ⟨next, rest, hrest⟩ : ∃ next rest, lines ++ [last] = next :: rest :=
        List.exists_cons_of_ne_nil (by simp)
      rw [hrest] at ih
      have hfed : fed (line :: lines) = line ++ ['\n'] ++ fed lines := rfl
      rw [List.cons_append, hrest, List.intercalate_cons_cons, ih, hfed,
        List.append_assoc (line ++ ['\n'])]

theorem sameInk_lines {s : String} (h : s ≠ "") :
    SameInk (List.intercalate ['\n'] ((lines s).map String.toList) ++
      if s.toList.getLast? == some '\n' then ['\n'] else []) s.toList := by
  have hreturns := sameInk_dropReturns (splitFeeds s.toList).1
  have hsplit := splitFeeds_fed s.toList
  have hfeeds := splitFeeds_flatten s.toList
  have hne : s.toList ≠ [] := fun hnil => h (String.toList_eq_nil_iff.mp hnil)
  rw [map_toList_lines, linesOf]
  generalize splitFeeds s.toList = split at hreturns hsplit hfeeds ⊢
  obtain ⟨ended, rest⟩ := split
  rw [← hsplit] at hne ⊢
  cases rest with
  | nil =>
      have hended : ended ≠ [] := by
        rintro rfl
        exact hne rfl
      obtain ⟨before, line, rfl⟩ : ∃ before line, ended = before ++ [line] :=
        ⟨_, _, (List.dropLast_concat_getLast hended).symm⟩
      have hlast : fed (before ++ [line]) = fed before ++ line ++ ['\n'] := by simp [fed]
      simp only [List.isEmpty_nil, if_true, List.append_nil, List.map_append, List.map_cons,
        List.map_nil, intercalate_concat]
      rw [hlast, List.getLast?_concat, beq_self_eq_true, if_pos rfl, List.append_assoc,
        List.append_assoc]
      exact (sameInk_dropReturns before).append (sameInk_dropReturn line)
  | cons c rest =>
      have hlast : (fed ended ++ c :: rest).getLast? ≠ some '\n' := by
        intro hfeed
        rw [List.getLast?_append, List.getLast?_cons, Option.some_or, ← List.getLast?_cons] at hfeed
        have hmem : '\n' ∈ c :: rest := List.mem_of_getLast? hfeed
        have hkept := List.mem_append_right ended.flatten hmem
        rw [hfeeds, List.mem_filter] at hkept
        simp at hkept
      simp only [List.isEmpty_cons, Bool.false_eq_true, if_false, intercalate_concat,
        beq_eq_false_iff_ne.mpr hlast, List.append_nil]
      exact hreturns.append (SameInk.refl _)

end Text

namespace Code

open Text

/-! ### Steps -/

/-- A writer that indents with blanks, and that stands behind a blank at the start of a line. -/
structure Writer.Settled (w : Writer Unit) : Prop where
  indents : isBlankText w.indentation = true
  starts : w.atLineStart = true → EndsBlank (['\n'] ++ w.text.toList)

/-- An action that no sink stops, and that adds some ink to what was written. -/
def Action.Inks (action : Action Unit) (cs : List Char) : Prop :=
  ∀ w : Writer Unit, w.Settled → ∃ after, action w = (true, after) ∧
    SameInk (['\n'] ++ after.text.toList) (['\n'] ++ w.text.toList ++ cs) ∧ after.Settled

theorem isBlankText_margin {indentation : String} (h : isBlankText indentation = true)
    (level : Nat) : isBlankText (margin indentation level) = true := by
  induction level with
  | zero => rfl
  | succ level ih => rw [margin, isBlankText_append_eq, h, ih, Bool.and_self]

namespace Action

open Sink Writer

variable {first second action : Action Unit} {cs ds : List Char}

theorem Inks.congr (h : Inks action cs) (hsame : SameInk cs ds) : Inks action ds := by
  intro w hw
  obtain ⟨after, hafter, hink, hsettled⟩ := h w hw
  exact ⟨after, hafter, hink.trans ((SameInk.refl _).append hsame), hsettled⟩

theorem Inks.andThen (hfirst : Inks first cs) (hsecond : Inks second ds) :
    Inks (andThen first second) (cs ++ ds) := by
  intro w hw
  obtain ⟨middle, hmiddle, hink, hsettled⟩ := hfirst w hw
  obtain ⟨after, hafter, hmore, hlast⟩ := hsecond middle hsettled
  refine ⟨after, ?_, ?_, hlast⟩
  · rw [Action.andThen, hmiddle]
    exact hafter
  · rw [← List.append_assoc]
    exact hmore.trans (hink.append (SameInk.refl ds))

theorem inks_skip : Inks skip [] :=
  fun w hw => ⟨w, rfl, .of_eq (List.append_nil _).symm, hw⟩

theorem inks_write (s : String) : Inks (write unlimited s) s.toList := by
  intro w hw
  have hprinted : ∀ w : Writer Unit, SameInk (['\n'] ++ (w.print s).text.toList)
      (['\n'] ++ w.text.toList ++ s.toList) := by
    intro w
    rw [print, String.toList_append, ← List.append_assoc]
    exact SameInk.refl _
  cases hs : isBlankText s with
  | true =>
      refine ⟨w.print s, write_unlimited_of_blank hs, hprinted w, hw.indents, fun hstart => ?_⟩
      rw [print, String.toList_append, ← List.append_assoc]
      exact (hw.starts hstart).append_blanks hs
  | false =>
      cases hstart : w.atLineStart with
      | true =>
          refine ⟨_, write_unlimited hstart hs, ?_, hw.indents, fun h => by cases h⟩
          have hmargin : isBlankText (margin w.indentation w.level) = true :=
            isBlankText_margin hw.indents w.level
          simp only [print, String.toList_append]
          rw [← List.append_assoc, ← List.append_assoc]
          exact (SameInk.append_blanks (hw.starts hstart) hmargin).append (SameInk.refl _)
      | false =>
          have hwrite : write unlimited s w = (true, w.print s) := by
            rw [write, hstart, Bool.false_and]
            split
            · next hempty => rw [String.isEmpty_iff.mp hempty, print_empty]
            · rfl
          refine ⟨w.print s, hwrite, hprinted w, hw.indents, fun h => ?_⟩
          cases hstart.symm.trans h

theorem inks_blankLine : Inks (blankLine unlimited) ['\n'] := by
  intro w hw
  refine ⟨{ w.print "\n" with atLineStart := true }, rfl, ?_, hw.indents, fun _ => ?_⟩
  · simp only [print, String.toList_append]
    rw [← List.append_assoc]
    exact SameInk.refl _
  · simp only [print, String.toList_append]
    exact (endsBlank_feed w.text.toList).append ['\n']

theorem inks_line (s : String) : Inks (line unlimited s) (s.toList ++ ['\n']) :=
  (inks_write s).andThen inks_blankLine

theorem inks_all {α : Type} {action : α → Action Unit} {cs : α → List Char} {parts : List α}
    (h : ∀ part ∈ parts, Inks (action part) (cs part)) :
    Inks (all (parts.map action)) (parts.flatMap cs) := by
  induction parts with
  | nil => exact inks_skip
  | cons part parts ih =>
      rw [List.forall_mem_cons] at h
      exact h.1.andThen (ih h.2)

theorem inks_lines (s : String) : Inks (lines unlimited s) (fedLines s) := by
  rw [fedLines, fed, List.flatMap_map]
  refine inks_all fun line _ => ?_
  split
  · next hblank => exact inks_blankLine.congr (SameInk.blanks_feed hblank).symm
  · exact inks_line line

theorem inks_doc (s : String) :
    Inks (doc unlimited s) ((Text.lines (trim s)).flatMap fun l => (docLine l).toList ++ ['\n']) :=
  inks_all fun line _ => inks_line (docLine line)

theorem inks_separated (separator : String) (items : List String) :
    Inks (separated unlimited separator items) (separator.intercalate items).toList := by
  induction items with
  | nil => exact inks_skip
  | cons item items ih =>
      cases items with
      | nil => simpa [separated] using inks_write item
      | cons next items =>
          rw [String.intercalate_cons_cons, String.toList_append, String.toList_append,
            List.append_assoc]
          exact (inks_write item).andThen ((inks_write separator).andThen ih)

end Action

theorem intercalate_cons {α : Type} (separator part : List α) (parts : List (List α)) :
    separator.intercalate (part :: parts) = part ++ parts.flatMap (separator ++ ·) := by
  induction parts generalizing part with
  | nil => simp
  | cons next parts ih =>
      rw [List.intercalate_cons_cons, ih, List.flatMap_cons, List.append_assoc, List.append_assoc]

namespace Step

mutual

/-- The characters of a step, without indentation. -/
def chars : Step → List Char
  | .write s => s.toList
  | .line s => s.toList ++ ['\n']
  | .lines s => fedLines s
  | .comment s => ("// " ++ s).toList ++ ['\n']
  | .doc s => (Text.lines (trim s)).flatMap fun l => (Action.docLine l).toList ++ ['\n']
  | .attribute s => ("#[" ++ s ++ "]").toList ++ ['\n']
  | .separated items separator => (separator.intercalate items).toList
  | .blank => ['\n']
  | .indent | .dedent => []
  | .block header body =>
      (header ++ " \x7b").toList ++ ['\n'] ++ (allChars body ++ ("\x7d".toList ++ ['\n']))
  | .blockWith header suffix body =>
      (header ++ " \x7b").toList ++ ['\n'] ++
        (allChars body ++ (("\x7d" ++ suffix).toList ++ ['\n']))

def allChars : List Step → List Char
  | [] => []
  | step :: steps => step.chars ++ allChars steps

end

theorem allChars_append (steps more : List Step) :
    allChars (steps ++ more) = allChars steps ++ allChars more := by
  induction steps with
  | nil => rfl
  | cons step steps ih => rw [List.cons_append, allChars, allChars, ih, List.append_assoc]

theorem allChars_flatMap {α : Type} (steps : α → List Step) (parts : List α) :
    allChars (parts.flatMap steps) = parts.flatMap fun part => allChars (steps part) := by
  induction parts with
  | nil => rfl
  | cons part parts ih => rw [List.flatMap_cons, allChars_append, ih, List.flatMap_cons]

theorem allChars_map {α : Type} (step : α → Step) (parts : List α) :
    allChars (parts.map step) = parts.flatMap fun part => (step part).chars := by
  induction parts with
  | nil => rfl
  | cons part parts ih => rw [List.map_cons, allChars, ih, List.flatMap_cons]

/-- Groups of steps with empty lines between them. -/
theorem sameInk_intercalate (groups : List (List Step)) :
    SameInk (['\n'] ++ allChars (List.intercalate [.blank] groups))
      (['\n'] ++ groups.flatMap fun group => ['\n'] ++ allChars group) := by
  cases groups with
  | nil => exact SameInk.refl _
  | cons first groups =>
      have hgroups : allChars (List.intercalate [.blank] (first :: groups)) =
          allChars first ++ groups.flatMap fun group => ['\n'] ++ allChars group := by
        rw [intercalate_cons, allChars_append, allChars_flatMap]
        rfl
      have hfeeds : SameInk ['\n'] (['\n'] ++ ['\n']) := .of_blanks rfl rfl
      rw [hgroups, List.flatMap_cons]
      simpa only [List.append_assoc] using hfeeds.append (SameInk.refl _)

theorem endsBlank_of_lines {steps : List Step} (h : ∀ step ∈ steps, ∃ s, step = .line s) :
    EndsBlank (['\n'] ++ allChars steps) := by
  have hsteps := allChars_map id steps
  rw [List.map_id] at hsteps
  rw [hsteps]
  refine (endsBlank_feed []).append_flatMap fun step hstep => ?_
  obtain ⟨s, rfl⟩ := h step hstep
  exact endsBlank_feed _

theorem inks_runBlock (header suffix : String) {body : List Step} {cs : List Char}
    (hbody : Action.Inks (runList Sink.unlimited body 0) cs) :
    Action.Inks (runBlock Sink.unlimited header suffix body)
      ((header ++ " \x7b").toList ++ ['\n'] ++ (cs ++ (("\x7d" ++ suffix).toList ++ ['\n']))) := by
  intro w hw
  obtain ⟨opened, hopen, hink, hsettled⟩ := Action.inks_line (header ++ " \x7b") w hw
  obtain ⟨inner, hinner, hmore, hinside⟩ :=
    hbody { opened with level := opened.level + 1 } ⟨hsettled.indents, hsettled.starts⟩
  obtain ⟨after, hafter, hlast, hkept⟩ := Action.inks_line ("\x7d" ++ suffix)
    (Action.lowerLevel 1 inner) ⟨hinside.indents, hinside.starts⟩
  refine ⟨after, ?_, ?_, hkept⟩
  · rw [runBlock, hopen]
    simp only [hinner]
    exact hafter
  · have hboth := hmore.trans (hink.append (SameInk.refl cs))
    refine hlast.trans ((hboth.append (SameInk.refl _)).trans (.of_eq ?_))
    simp only [List.append_assoc]

/-- A step that is one action. -/
theorem inks_of_action {step : Step} {held : Nat} {w : Writer Unit} {action : Action Unit}
    {cs : List Char} (haction : action.Inks cs) (hw : w.Settled)
    (hrun : run Sink.unlimited step held w =
      match action w with
      | (ok, after) => (ok, held, after)) :
    ∃ held' after, run Sink.unlimited step held w = (true, held', after) ∧
      SameInk (['\n'] ++ after.text.toList) (['\n'] ++ w.text.toList ++ cs) ∧ after.Settled := by
  obtain ⟨after, hafter, hink, hsettled⟩ := haction w hw
  exact ⟨held, after, by rw [hrun, hafter], hink, hsettled⟩

mutual

theorem inks_run (step : Step) (held : Nat) (w : Writer Unit) (hw : w.Settled) :
    ∃ held' after, run Sink.unlimited step held w = (true, held', after) ∧
      SameInk (['\n'] ++ after.text.toList) (['\n'] ++ w.text.toList ++ step.chars) ∧
        after.Settled := by
  have hnothing : SameInk (['\n'] ++ w.text.toList) (['\n'] ++ w.text.toList ++ []) :=
    .of_eq (List.append_nil _).symm
  match step with
  | .write s => exact inks_of_action (Action.inks_write s) hw (by rw [run])
  | .line s => exact inks_of_action (Action.inks_line s) hw (by rw [run])
  | .blank => exact inks_of_action Action.inks_blankLine hw (by rw [run])
  | .lines s => exact inks_of_action (Action.inks_lines s) hw (by rw [run])
  | .comment s => exact inks_of_action (Action.inks_line ("// " ++ s)) hw (by rw [run])
  | .doc s => exact inks_of_action (Action.inks_doc s) hw (by rw [run])
  | .attribute s => exact inks_of_action (Action.inks_line ("#[" ++ s ++ "]")) hw (by rw [run])
  | .separated items separator =>
      exact inks_of_action (Action.inks_separated separator items) hw (by rw [run])
  | .indent =>
      exact ⟨held + 1, { w with level := w.level + 1 }, by rw [run], hnothing, hw.indents,
        hw.starts⟩
  | .dedent =>
      exact ⟨held - 1, Action.lowerLevel (min held 1) w, by rw [run], hnothing, hw.indents,
        hw.starts⟩
  | .block header body =>
      exact inks_of_action (inks_runBlock header "" (inks_runList body 0)) hw (by rw [run])
  | .blockWith header suffix body =>
      exact inks_of_action (inks_runBlock header suffix (inks_runList body 0)) hw (by rw [run])

theorem inks_runList (steps : List Step) (held : Nat) :
    Action.Inks (runList Sink.unlimited steps held) (allChars steps) := by
  match steps with
  | [] =>
      exact fun w hw => ⟨Action.lowerLevel held w, by rw [runList],
        .of_eq (List.append_nil _).symm, hw.indents, hw.starts⟩
  | step :: steps =>
      intro w hw
      obtain ⟨held', middle, hmiddle, hink, hsettled⟩ := inks_run step held w hw
      obtain ⟨after, hafter, hmore, hlast⟩ := inks_runList steps held' middle hsettled
      refine ⟨after, ?_, ?_, hlast⟩
      · rw [runList, hmiddle]
        exact hafter
      · rw [allChars, ← List.append_assoc]
        exact hmore.trans (hink.append (SameInk.refl _))

end

/-- What is rendered has the ink of its steps. -/
theorem sameInk_render (steps : List Step) :
    SameInk (['\n'] ++ (render steps).toList) (['\n'] ++ allChars steps) := by
  obtain ⟨after, hafter, hink, _⟩ :=
    inks_runList steps 0 { sink := () } ⟨rfl, fun _ => endsBlank_feed []⟩
  rw [render, hafter]
  exact hink

end Step

/-! ### Items -/

def Piece.chars : Piece → List Char
  | .text _ s => s.toList
  | .gap => [' ']

/-- A page that ends with a blank at the start of a line. -/
def Page.Settled (page : Page) : Prop :=
  page.atLineStart = true → EndsBlank (['\n'] ++ page.text.toList)

namespace Page

/-- A line where it is laid out: at the start of a line it is indented unless it is empty. -/
def placed (depth : Nat) (atLineStart : Bool) (line : String) : String :=
  if atLineStart && !line.isEmpty then String.ofList (List.replicate (4 * depth) ' ') ++ line
  else line

def laid (depth : Nat) (atLineStart : Bool) : List String → List String
  | [] => []
  | line :: lines => placed depth atLineStart line :: lines.map (placed depth true)

theorem put_of_ne_empty {s : String} (h : s ≠ "") (page : Page) (depth : Nat) :
    page.put depth s = {
      text := page.text ++ "\n".intercalate (laid depth page.atLineStart (lines s)) ++
        if s.toList.getLast? == some '\n' then "\n" else ""
      atLineStart := s.toList.getLast? == some '\n' } := by
  rw [put, if_neg (by simpa using h)]
  cases lines s <;> rfl

variable {before : List Char} {atLineStart : Bool}

theorem sameInk_placed (h : atLineStart = true → EndsBlank before) (depth : Nat) (line : String) :
    SameInk (before ++ (placed depth atLineStart line).toList) (before ++ line.toList) := by
  rw [placed]
  split
  · next hstart =>
      have hspaces : (List.replicate (4 * depth) ' ').all isBlank = true := by simp [isBlank]
      rw [Bool.and_eq_true] at hstart
      rw [String.toList_append, String.toList_ofList, ← List.append_assoc]
      exact (SameInk.append_blanks (h hstart.1) hspaces).append (SameInk.refl _)
  · exact SameInk.refl _

theorem sameInk_laid (h : atLineStart = true → EndsBlank before) (depth : Nat)
    (lines : List String) :
    SameInk (before ++ ("\n".intercalate (laid depth atLineStart lines)).toList)
      (before ++ List.intercalate ['\n'] (lines.map String.toList)) := by
  cases lines with
  | nil => exact SameInk.refl _
  | cons line lines =>
      have hrest : SameInk (lines.flatMap fun line => ['\n'] ++ (placed depth true line).toList)
          (lines.flatMap fun line => ['\n'] ++ line.toList) :=
        SameInk.flatMap fun line _ => sameInk_placed (fun _ => endsBlank_feed []) depth line
      rw [String.toList_intercalate, laid, List.map_cons, List.map_cons, List.map_map]
      rw [show "\n".toList = ['\n'] from rfl, intercalate_cons, intercalate_cons, List.flatMap_map,
        List.flatMap_map, ← List.append_assoc, ← List.append_assoc]
      exact (sameInk_placed h depth line).append hrest

theorem settled_put {page : Page} (h : page.Settled) (depth : Nat) (s : String) :
    (page.put depth s).Settled ∧
      SameInk (['\n'] ++ (page.put depth s).text.toList)
        (['\n'] ++ page.text.toList ++ s.toList) := by
  by_cases hs : s = ""
  · subst hs
    exact ⟨h, .of_eq (List.append_nil _).symm⟩
  · rw [put_of_ne_empty hs]
    have hfeed : ∀ ended : Bool, (if ended then "\n" else "").toList =
        if ended then ['\n'] else [] := by
      intro ended
      cases ended <;> rfl
    refine ⟨fun (hended : (s.toList.getLast? == some '\n') = true) => ?_, ?_⟩
    · simp only [String.toList_append, hended, if_true]
      exact (endsBlank_feed _).append ['\n']
    · simp only [String.toList_append, hfeed]
      rw [← List.append_assoc, ← List.append_assoc]
      refine ((sameInk_laid h depth (lines s)).append (SameInk.refl _)).trans ?_
      rw [List.append_assoc]
      exact (SameInk.refl _).append (sameInk_lines hs)

theorem settled_putPiece {page : Page} (h : page.Settled) (piece : Piece) :
    (page.putPiece piece).Settled ∧
      SameInk (['\n'] ++ (page.putPiece piece).text.toList)
        (['\n'] ++ page.text.toList ++ piece.chars) := by
  cases piece with
  | text depth s => exact settled_put h depth s
  | gap =>
      rw [putPiece]
      split
      · next hstart => exact ⟨h, (SameInk.append_blanks (h hstart) rfl).symm⟩
      · exact settled_put h 0 " "

theorem sameInk_foldl (pieces : List Piece) {page : Page} (h : page.Settled) :
    SameInk (['\n'] ++ (pieces.foldl putPiece page).text.toList)
      (['\n'] ++ page.text.toList ++ pieces.flatMap Piece.chars) := by
  induction pieces generalizing page with
  | nil => exact .of_eq (List.append_nil _).symm
  | cons piece pieces ih =>
      obtain ⟨hsettled, hink⟩ := settled_putPiece h piece
      rw [List.foldl_cons, List.flatMap_cons, ← List.append_assoc]
      exact (ih hsettled).trans (hink.append (SameInk.refl _))

end Page

/-- Laid-out items have the ink of their pieces. -/
theorem Item.sameInk_pieceList (items : List Item) :
    SameInk (['\n'] ++ (render items).toList ++ ['\n'])
      (['\n'] ++ (pieceList items).flatMap Piece.chars ++ ['\n']) := by
  have hstart : Page.Settled {} := fun _ => endsBlank_feed []
  have hpage := (Page.sameInk_foldl (pieceList items) hstart).append (SameInk.refl ['\n'])
  rw [render]
  split
  · next hlast =>
      obtain ⟨before, hbefore⟩ := List.getLast?_eq_some_iff.mp (beq_iff_eq.mp hlast)
      rw [hbefore] at hpage ⊢
      rw [List.dropLast_concat, String.toList_ofList]
      refine SameInk.trans ?_ hpage
      rw [List.append_assoc, List.append_assoc, List.append_assoc]
      exact (SameInk.refl _).append ((SameInk.refl before).append (SameInk.of_blanks rfl rfl))
  · exact hpage

namespace Pieces

@[simp] theorem chars_text (s : String) (depth : Nat) :
    (text s depth).flatMap Piece.chars = s.toList := by
  simp [text, Piece.chars]

@[simp] theorem chars_texts (ss : List String) (depth : Nat) :
    (texts ss depth).flatMap Piece.chars = ss.flatMap String.toList := by
  simp [texts, List.flatMap_map, Piece.chars]

@[simp] theorem chars_all (parts : List Pieces) (depth : Nat) :
    (all parts depth).flatMap Piece.chars =
      parts.flatMap fun part => (part depth).flatMap Piece.chars := by
  rw [all, List.flatMap_assoc]

@[simp] theorem chars_block (body : Pieces) (after : String) (depth : Nat) :
    (block body after depth).flatMap Piece.chars =
      " \x7b".toList ++ (['\n'] ++ ((body (depth + 1)).flatMap Piece.chars ++
        ("\x7d".toList ++ (after.toList ++ ['\n'])))) := by
  simp [block, deeper, Piece.chars]

end Pieces

/-- The characters of type parameters. -/
def genericsChars (names : List String) : List Char :=
  (Pieces.generics names 0).flatMap Piece.chars

/-- The characters of what type parameters must implement. -/
def boundsChars (bounds : List (String × String)) : List Char :=
  (Pieces.bounds bounds 0).flatMap Piece.chars

theorem chars_generics (names : List String) (depth : Nat) :
    (Pieces.generics names depth).flatMap Piece.chars = genericsChars names := by
  cases names <;> simp only [genericsChars, Pieces.generics, Pieces.chars_texts]

theorem chars_bounds (bounds : List (String × String)) (depth : Nat) :
    (Pieces.bounds bounds depth).flatMap Piece.chars = boundsChars bounds := by
  cases bounds <;> simp only [boundsChars, Pieces.bounds, Pieces.chars_texts]

/-- A part of a body, on lines of its own. -/
def Body.chars : Body → List Char
  | .text s => alone s
  | .block header body after =>
      ['\n'] ++ (header.toList ++ (" \x7b".toList ++ (['\n'] ++
        (fed (body.map String.toList) ++ ("\x7d".toList ++ (after.toList ++ ['\n']))))))

theorem Body.chars_pieces (body : Body) (depth : Nat) :
    ['\n'] ++ (body.pieces depth).flatMap Piece.chars = body.chars := by
  cases body with
  | text s => simp [pieces, chars, alone]
  | block header body after => simp [pieces, chars, fed, List.flatMap_assoc, List.flatMap_map]

theorem Body.endsBlank_pieces (body : Body) (depth : Nat) :
    EndsBlank ((body.pieces depth).flatMap Piece.chars) := by
  cases body with
  | text s =>
      refine ⟨s.toList, '\n', rfl, ?_⟩
      simp [pieces]
  | block header body after =>
      refine ⟨header.toList ++ (" \x7b".toList ++ (['\n'] ++ (fed (body.map String.toList) ++
        ("\x7d".toList ++ after.toList)))), '\n', rfl, ?_⟩
      simp [pieces, fed, List.flatMap_assoc, List.flatMap_map]

theorem Body.sameInk_pieces (bodies : List Body) (depth : Nat) {before : List Char}
    (h : EndsBlank before) :
    SameInk (before ++ bodies.flatMap fun body => (body.pieces depth).flatMap Piece.chars)
      (before ++ bodies.flatMap chars) := by
  -- Each part ends with a line feed, so the next one may as well begin with one.
  induction bodies generalizing before with
  | nil => exact SameInk.refl _
  | cons body bodies ih =>
      have hrest := ih ((body.endsBlank_pieces depth).append before)
      have hfeed : SameInk (before ++ ['\n']) before := .append_blanks h rfl
      have hfirst := hfeed.symm.append (SameInk.refl ((body.pieces depth).flatMap Piece.chars))
      rw [List.append_assoc before ['\n'], body.chars_pieces depth] at hfirst
      rw [List.flatMap_cons, List.flatMap_cons, ← List.append_assoc, ← List.append_assoc]
      exact hrest.trans (hfirst.append (SameInk.refl _))

/-- The characters between the parentheses of a function. -/
def argChars (receiver? : Option String) (args : List (String × String)) : List Char :=
  (Function.argPieces { name := "", receiver?, args }).flatMap String.toList

/-- A function up to the brace that opens its body. -/
def Function.headChars (f : Function) : List Char :=
  ((f.doc?.toList.flatMap Text.lines).flatMap fun line =>
      "/// ".toList ++ (line.toList ++ ['\n'])) ++
    (bif f.isPublic then "pub ".toList else []) ++ "fn ".toList ++ f.name.toList ++
    genericsChars f.generics ++ "(".toList ++ argChars f.receiver? f.args ++ ")".toList ++
    (f.returns?.toList.flatMap fun type => " -> ".toList ++ type.toList) ++ boundsChars f.bounds ++
    " \x7b".toList

def Function.chars (f : Function) : List Char :=
  f.headChars ++ (['\n'] ++ f.body.flatMap Body.chars ++ ("\x7d".toList ++ ['\n']))

theorem Function.sameInk_pieces (f : Function) (depth : Nat) :
    SameInk ((f.pieces depth).flatMap Piece.chars) f.chars := by
  have hargs : f.argPieces.flatMap String.toList = argChars f.receiver? f.args := rfl
  have hpublic : (if f.isPublic then ["pub", " "] else []).flatMap String.toList =
      bif f.isPublic then "pub ".toList else [] := by
    cases f.isPublic <;> rfl
  have hpieces : (f.pieces depth).flatMap Piece.chars = f.headChars ++ (['\n'] ++
      (f.body.flatMap fun body => (body.pieces (depth + 1)).flatMap Piece.chars) ++
        ("\x7d".toList ++ ['\n'])) := by
    simp [pieces, headChars, hargs, hpublic, chars_generics, chars_bounds, List.flatMap_assoc,
      List.flatMap_map]
  rw [hpieces]
  exact (SameInk.refl _).append
    ((Body.sameInk_pieces f.body (depth + 1) (endsBlank_feed [])).append (SameInk.refl _))

/-- An `impl` block up to its opening brace. -/
def Impl.headChars (i : Impl) : List Char :=
  "impl".toList ++ (genericsChars i.generics ++
    ((i.trait?.toList.flatMap fun name => " ".toList ++ (name.toList ++ " for".toList)) ++
      (" ".toList ++ (i.target.toList ++ (genericsChars i.targetGenerics ++
        (boundsChars i.bounds ++ " \x7b".toList))))))

/-- The associated types of an `impl` block. -/
def typesChars (types : List (String × String)) : List Char :=
  types.flatMap fun part =>
    "type ".toList ++ (part.1.toList ++ (" = ".toList ++ (part.2.toList ++ ";\n".toList)))

def Impl.chars (i : Impl) : List Char :=
  i.headChars ++ (['\n'] ++ typesChars i.types ++
    (i.functions.flatMap fun f => ['\n'] ++ f.chars) ++ ("\x7d".toList ++ ['\n']))

/-- The functions of an `impl` block and the empty lines before them. -/
def Impl.functionPieces (i : Impl) : List Pieces :=
  match i.functions with
  | [] => []
  | first :: rest =>
      (if i.types.isEmpty then [] else [.text "\n"]) ++ first.pieces ::
        rest.flatMap fun f => [.text "\n", f.pieces]

theorem Impl.chars_pieces (i : Impl) (depth : Nat) :
    (i.pieces depth).flatMap Piece.chars = i.headChars ++ (['\n'] ++ typesChars i.types ++
      (i.functionPieces.flatMap fun part => (part (depth + 1)).flatMap Piece.chars) ++
        ("\x7d".toList ++ ['\n'])) := by
  have hpieces : i.pieces = .all [
      .text "impl",
      .generics i.generics,
      .texts (i.trait?.toList.flatMap fun name => [" ", name, " for"]),
      .texts [" ", i.target],
      .generics i.targetGenerics,
      .bounds i.bounds,
      .block (.all (.texts (i.types.flatMap fun part => ["type ", part.1, " = ", part.2, ";\n"]) ::
        i.functionPieces)) ""] := rfl
  simp only [hpieces, headChars, typesChars, Pieces.chars_all, Pieces.chars_text,
    Pieces.chars_texts, Pieces.chars_block, chars_generics, chars_bounds, List.flatMap_cons,
    List.flatMap_nil, List.flatMap_assoc, List.append_assoc, List.append_nil, List.nil_append,
    String.toList_empty]

theorem Impl.sameInk_functionPieces (i : Impl) (depth : Nat) {before : List Char}
    (h : EndsBlank before) :
    SameInk (before ++ i.functionPieces.flatMap fun part => (part depth).flatMap Piece.chars)
      (before ++ i.functions.flatMap fun f => ['\n'] ++ f.chars) := by
  unfold functionPieces
  cases i.functions with
  | nil => exact SameInk.refl _
  | cons first rest =>
      -- The first function has an empty line before it only if there are types.
      have hgap : ((if i.types.isEmpty then [] else [Pieces.text "\n"]).flatMap
          fun part => (part depth).flatMap Piece.chars).all isBlank = true := by
        split <;> rfl
      have hfeed : SameInk (before ++ ['\n']) before := .append_blanks h rfl
      have hbefore := (SameInk.append_blanks h hgap).trans hfeed.symm
      have hrest : SameInk (rest.flatMap fun f => ['\n'] ++ (f.pieces depth).flatMap Piece.chars)
          (rest.flatMap fun f => ['\n'] ++ f.chars) :=
        .flatMap fun f _ => (SameInk.refl ['\n']).append (f.sameInk_pieces depth)
      simpa [List.flatMap_assoc] using hbefore.append ((first.sameInk_pieces depth).append hrest)

theorem Impl.sameInk_pieces (i : Impl) (depth : Nat) :
    SameInk ((i.pieces depth).flatMap Piece.chars) i.chars := by
  have hends : EndsBlank (['\n'] ++ typesChars i.types) :=
    (endsBlank_feed []).append_flatMap fun part _ =>
      ((((endsBlank_feed [';']).append _).append _).append _).append _
  rw [i.chars_pieces]
  exact (SameInk.refl _).append
    ((i.sameInk_functionPieces (depth + 1) hends).append (SameInk.refl _))

/-- An item, on lines of its own. -/
def Item.chars : Item → List Char
  | .raw s => alone s
  | .impl i => ['\n'] ++ i.chars

theorem Item.sameInk_pieces (item : Item) (depth : Nat) :
    SameInk (['\n'] ++ (item.pieces depth).flatMap Piece.chars) item.chars := by
  cases item with
  | raw s =>
      refine SameInk.of_eq ?_
      simp [pieces, chars, alone]
  | impl i => exact (SameInk.refl ['\n']).append (i.sameInk_pieces depth)

/-- Laid-out items have the ink of the items. -/
theorem Item.sameInk_render (items : List Item) :
    SameInk (alone (render items)) (items.flatMap chars ++ ['\n']) := by
  rw [alone, ← List.append_assoc]
  refine (sameInk_pieceList items).trans ?_
  cases items with
  | nil => exact SameInk.of_blanks rfl rfl
  | cons first rest =>
      have hpieces : ['\n'] ++ (pieceList (first :: rest)).flatMap Piece.chars =
          (first :: rest).flatMap fun item => ['\n'] ++ (item.pieces 0).flatMap Piece.chars := by
        simp [pieceList, Piece.chars, List.flatMap_assoc]
      rw [hpieces]
      exact (SameInk.flatMap fun item _ => item.sameInk_pieces 0).append (SameInk.refl ['\n'])

end Code

end WireIdl

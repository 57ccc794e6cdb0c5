import WireIdl.Proofs.Code.Ink
import WireIdl.Proofs.Code.Refusal

/-! Text that is rendered first and indented later. Steps that write whole lines print the same
whether they run at a level or run at level zero and have their text indented by that level: the
lines of the text are the lines that were printed, and the margins of a line add up. -/

namespace WireIdl

namespace Text

/-- Whether a text can stand on one line: it has neither line feeds nor returns. -/
def fitsLine (s : String) : Bool :=
  s.toList.all fun c => c ≠ '\n' && c ≠ '\r'

def hasNoReturn (s : String) : Bool :=
  s.toList.all (· ≠ '\r')

theorem fitsLine_iff {s : String} : fitsLine s = true ↔ '\n' ∉ s.toList ∧ '\r' ∉ s.toList := by
  rw [fitsLine, List.all_eq_true]
  constructor
  · intro h
    constructor <;> intro hmem <;> simpa using h _ hmem
  · rintro ⟨hfeed, hreturn⟩ c hmem
    have hc : c ≠ '\n' ∧ c ≠ '\r' := ⟨fun h => hfeed (h ▸ hmem), fun h => hreturn (h ▸ hmem)⟩
    simpa using hc

theorem fitsLine_append (s t : String) : fitsLine (s ++ t) = (fitsLine s && fitsLine t) := by
  simp [fitsLine]

theorem splitFeeds_append {line : List Char} (h : '\n' ∉ line) (rest : List Char) :
    splitFeeds (line ++ '\n' :: rest) = (line :: (splitFeeds rest).1, (splitFeeds rest).2) := by
  induction line with
  | nil => rfl
  | cons c line ih =>
      rw [List.mem_cons, not_or] at h
      rw [List.cons_append, splitFeeds, List.foldr_cons, ← splitFeeds, ih h.2]
      simp [Ne.symm h.1]

theorem linesOf_append {line : List Char} (hfeed : '\n' ∉ line) (hreturn : '\r' ∉ line)
    (rest : List Char) : linesOf (line ++ '\n' :: rest) = line :: linesOf rest := by
  have hlast : line.getLast? ≠ some '\r' := fun h => hreturn (List.mem_of_getLast? h)
  rw [linesOf, splitFeeds_append hfeed, linesOf]
  simp [dropReturn, hlast]

theorem lines_unlines {ls : List String} (h : ∀ l ∈ ls, fitsLine l = true) :
    lines (unlines ls) = ls := by
  induction ls with
  | nil => rfl
  | cons l ls ih =>
      rw [List.forall_mem_cons] at h
      obtain ⟨hfeed, hreturn⟩ := fitsLine_iff.mp h.1
      have htext : (unlines (l :: ls)).toList = l.toList ++ '\n' :: (unlines ls).toList := by
        simp [unlines]
      have hrest := ih h.2
      rw [lines] at hrest ⊢
      rw [htext, linesOf_append hfeed hreturn, List.map_cons, hrest, String.ofList_toList]

theorem mem_of_mem_dropReturn {line : List Char} {c : Char} (h : c ∈ dropReturn line) :
    c ∈ line := by
  rw [dropReturn] at h
  split at h
  · exact (List.dropLast_sublist line).subset h
  · exact h

theorem mem_of_mem_lines {s l : String} (hl : l ∈ lines s) {c : Char} (hc : c ∈ l.toList) :
    c ∈ s.toList ∧ c ≠ '\n' := by
  -- No character of a line is lost or added when the line feeds are taken out.
  have hsplit : c ∈ (splitFeeds s.toList).1.flatten ++ (splitFeeds s.toList).2 := by
    rw [lines, List.mem_map] at hl
    obtain ⟨line, hline, rfl⟩ := hl
    rw [String.toList_ofList] at hc
    rw [linesOf, List.mem_append, List.mem_map] at hline
    rw [List.mem_append]
    obtain ⟨ended, hended, rfl⟩ | hrest := hline
    · exact .inl (List.mem_flatten_of_mem hended (mem_of_mem_dropReturn hc))
    · right
      split at hrest
      · cases hrest
      · rwa [← List.mem_singleton.mp hrest]
  rw [splitFeeds_flatten, List.mem_filter] at hsplit
  simpa using hsplit

theorem fitsLine_of_mem_lines {s l : String} (hs : hasNoReturn s = true) (hl : l ∈ lines s) :
    fitsLine l = true := by
  rw [hasNoReturn, List.all_eq_true] at hs
  refine fitsLine_iff.mpr ⟨fun h => (mem_of_mem_lines hl h).2 rfl, fun h => ?_⟩
  simpa using hs _ (mem_of_mem_lines hl h).1

theorem mem_of_mem_dropBlanksRight {cs : List Char} {c : Char} (h : c ∈ dropBlanksRight cs) :
    c ∈ cs := by
  rw [dropBlanksRight, List.mem_reverse] at h
  exact List.mem_reverse.mp ((List.dropWhile_sublist _).subset h)

theorem hasNoReturn_trim {s : String} (h : hasNoReturn s = true) : hasNoReturn (trim s) = true := by
  rw [hasNoReturn, List.all_eq_true] at h ⊢
  intro c hc
  rw [trim, String.toList_ofList] at hc
  exact h c ((List.dropWhile_sublist _).subset (mem_of_mem_dropBlanksRight hc))

theorem fitsLine_trimEnd {s : String} (h : fitsLine s = true) : fitsLine (trimEnd s) = true := by
  rw [fitsLine, List.all_eq_true] at h ⊢
  intro c hc
  rw [trimEnd, String.toList_ofList] at hc
  exact h c (mem_of_mem_dropBlanksRight hc)

end Text

namespace Code

open Text

theorem margin_add (indentation : String) (level more : Nat) :
    margin indentation (level + more) = margin indentation level ++ margin indentation more := by
  induction level with
  | zero => simp [margin]
  | succ level ih => rw [Nat.succ_add, margin, margin, ih, String.append_assoc]

theorem fitsLine_margin {indentation : String} (h : fitsLine indentation = true) (level : Nat) :
    fitsLine (margin indentation level) = true := by
  induction level with
  | zero => rfl
  | succ level ih => rw [margin, fitsLine_append, h, ih, Bool.and_self]

section Lines

variable {indentation s : String}

theorem reindentLine_of_ink (level : Nat) (hs : isBlankText s = false) :
    reindentLine indentation level s = margin indentation level ++ s := by
  rw [reindentLine, hs, if_neg Bool.false_ne_true]

theorem reindentLine_of_blank (level : Nat) (hs : isBlankText s = true) :
    reindentLine indentation level s = "" := by
  rw [reindentLine, hs, if_pos rfl]

theorem indentLine_of_ink (level : Nat) (hs : isBlankText s = false) :
    indentLine indentation level s = margin indentation level ++ s := by
  rw [indentLine, hs, if_neg Bool.false_ne_true]

theorem reindentLine_margin (level more : Nat) (hs : isBlankText s = false) :
    reindentLine indentation more (margin indentation level ++ s) =
      margin indentation (more + level) ++ s := by
  have hblank := isBlankText_append_right (margin indentation level) hs
  rw [reindentLine_of_ink more hblank, margin_add, String.append_assoc]

theorem reindentLine_indentLine (level more : Nat) (hs : s = "" ∨ isBlankText s = false) :
    reindentLine indentation more (indentLine indentation level s) =
      indentLine indentation (more + level) s := by
  obtain rfl | hs := hs
  · rfl
  · rw [indentLine_of_ink level hs, indentLine_of_ink _ hs, reindentLine_margin level more hs]

theorem reindentLine_reindentLine (level more : Nat) :
    reindentLine indentation more (reindentLine indentation level s) =
      reindentLine indentation (more + level) s := by
  cases hs : isBlankText s with
  | true =>
      rw [reindentLine_of_blank level hs, reindentLine_of_blank _ hs,
        reindentLine_of_blank more rfl]
  | false =>
      rw [reindentLine_of_ink level hs, reindentLine_of_ink _ hs, reindentLine_margin level more hs]

theorem fitsLine_indentLine (hi : fitsLine indentation = true) (level : Nat)
    (hs : fitsLine s = true) : fitsLine (indentLine indentation level s) = true := by
  rw [indentLine]
  split
  · exact hs
  · rw [fitsLine_append, fitsLine_margin hi, hs, Bool.and_self]

theorem fitsLine_reindentLine (hi : fitsLine indentation = true) (level : Nat)
    (hs : fitsLine s = true) : fitsLine (reindentLine indentation level s) = true := by
  rw [reindentLine]
  split
  · rfl
  · rw [fitsLine_append, fitsLine_margin hi, hs, Bool.and_self]

end Lines

namespace Step

mutual

/-- Whether a step writes whole lines with texts that each stand on a line; only what is broken into
lines anyway may have line feeds. -/
def isPlain : Step → Bool
  | .line s => fitsLine s && (s.isEmpty || !isBlankText s)
  | .comment s | .attribute s => fitsLine s
  | .lines s | .doc s => hasNoReturn s
  | .blank => true
  | .block header body => fitsLine header && arePlain body
  | .blockWith header suffix body => fitsLine header && fitsLine suffix && arePlain body
  | .write _ | .separated _ _ | .indent | .dedent => false

def arePlain : List Step → Bool
  | [] => true
  | step :: steps => step.isPlain && arePlain steps

end

mutual

theorem isWhole_of_isPlain {step : Step} (h : step.isPlain = true) : step.isWhole = true := by
  match step with
  | .line _ | .comment _ | .attribute _ | .lines _ | .doc _ | .blank => rfl
  | .block header body =>
      rw [isPlain, Bool.and_eq_true] at h
      exact areWhole_of_arePlain h.2
  | .blockWith header suffix body =>
      rw [isPlain, Bool.and_eq_true] at h
      exact areWhole_of_arePlain h.2
  | .write _ | .separated _ _ | .indent | .dedent =>
      rw [isPlain] at h
      cases h

theorem areWhole_of_arePlain {steps : List Step} (h : arePlain steps = true) :
    areWhole steps = true := by
  match steps with
  | [] => rfl
  | step :: steps =>
      rw [arePlain, Bool.and_eq_true] at h
      rw [areWhole, isWhole_of_isPlain h.1, areWhole_of_arePlain h.2, Bool.and_self]

end

/-- Lines that can be told apart in a text, and that are those of another level when they are
indented further. -/
structure Reindents (indentation : String) (more : Nat) (lines shifted : List String) : Prop where
  fits : ∀ l ∈ lines, fitsLine l = true
  shift : lines.map (reindentLine indentation more) = shifted

namespace Reindents

variable {indentation : String} {more : Nat} {lines lines' shifted shifted' : List String}

theorem nil : Reindents indentation more [] [] :=
  ⟨fun _ h => absurd h List.not_mem_nil, rfl⟩

theorem append (h : Reindents indentation more lines shifted)
    (h' : Reindents indentation more lines' shifted') :
    Reindents indentation more (lines ++ lines') (shifted ++ shifted') := by
  refine ⟨List.forall_mem_append.mpr ⟨h.fits, h'.fits⟩, ?_⟩
  rw [List.map_append, h.shift, h'.shift]

theorem line (hi : fitsLine indentation = true) (more level : Nat) {s : String}
    (hs : fitsLine s = true) (hink : s = "" ∨ isBlankText s = false) :
    Reindents indentation more [indentLine indentation level s]
      [indentLine indentation (more + level) s] := by
  refine ⟨List.forall_mem_singleton.mpr (fitsLine_indentLine hi level hs), ?_⟩
  rw [List.map_singleton, reindentLine_indentLine level more hink]

theorem map {α : Type} {parts : List α} {first second : α → String}
    (h : ∀ part ∈ parts, Reindents indentation more [first part] [second part]) :
    Reindents indentation more (parts.map first) (parts.map second) := by
  induction parts with
  | nil => exact nil
  | cons part parts ih =>
      rw [List.forall_mem_cons] at h
      exact h.1.append (ih h.2)

end Reindents

theorem fitsLine_docLine {s : String} (h : fitsLine s = true) :
    fitsLine (Action.docLine s) = true := by
  rw [Action.docLine]
  split
  · rfl
  · rw [fitsLine_append, fitsLine_trimEnd h]
    rfl

theorem isBlankText_docLine (s : String) : isBlankText (Action.docLine s) = false := by
  rw [Action.docLine]
  split
  · rfl
  · exact isBlankText_append rfl _

theorem block_reindents {indentation : String} (hi : fitsLine indentation = true)
    (more level : Nat) {header suffix : String} {inner inner' : List String}
    (hheader : fitsLine header = true) (hsuffix : fitsLine suffix = true)
    (hinner : Reindents indentation more inner inner') :
    Reindents indentation more
      (indentLine indentation level (header ++ " \x7b") :: inner ++
        [indentLine indentation level ("\x7d" ++ suffix)])
      (indentLine indentation (more + level) (header ++ " \x7b") :: inner' ++
        [indentLine indentation (more + level) ("\x7d" ++ suffix)]) := by
  have hopen : fitsLine (header ++ " \x7b") = true := by
    rw [fitsLine_append, hheader]
    rfl
  have hclose : fitsLine ("\x7d" ++ suffix) = true := by
    rw [fitsLine_append, hsuffix]
    rfl
  have hfirst := Reindents.line hi more level hopen (.inr (isBlankText_append_right _ rfl))
  have hlast := Reindents.line hi more level hclose (.inr (isBlankText_append rfl _))
  exact (hfirst.append hinner).append hlast

mutual

theorem printed_reindents {indentation : String} (hi : fitsLine indentation = true) {step : Step}
    (h : step.isPlain = true) (more level : Nat) :
    Reindents indentation more (step.printed indentation level)
      (step.printed indentation (more + level)) := by
  match step with
  | .line s =>
      rw [isPlain, Bool.and_eq_true, Bool.or_eq_true, Bool.not_eq_true'] at h
      rw [printed, printed]
      exact .line hi more level h.1 (h.2.imp_left String.isEmpty_iff.mp)
  | .comment s =>
      rw [isPlain] at h
      rw [printed, printed]
      refine .line hi more level ?_ (.inr (isBlankText_append rfl _))
      rw [fitsLine_append, h]
      rfl
  | .attribute s =>
      rw [isPlain] at h
      rw [printed, printed]
      refine .line hi more level ?_ (.inr (isBlankText_append_right _ rfl))
      rw [fitsLine_append, fitsLine_append, h]
      rfl
  | .blank =>
      rw [printed, printed]
      exact .line hi more level rfl (.inl rfl)
  | .lines s =>
      rw [isPlain] at h
      rw [printed, printed]
      refine .map fun l hl => ⟨?_, ?_⟩
      · exact List.forall_mem_singleton.mpr
          (fitsLine_reindentLine hi level (fitsLine_of_mem_lines h hl))
      · rw [List.map_singleton, reindentLine_reindentLine]
  | .doc s =>
      rw [isPlain] at h
      rw [printed, printed]
      refine .map fun l hl => .line hi more level ?_ (.inr (isBlankText_docLine l))
      exact fitsLine_docLine (fitsLine_of_mem_lines (hasNoReturn_trim h) hl)
  | .block header body =>
      rw [isPlain, Bool.and_eq_true] at h
      rw [printed, printed]
      have hbody := printedAll_reindents hi h.2 more (level + 1)
      have hblock := block_reindents hi more level h.1 (rfl : fitsLine "" = true) hbody
      rwa [String.append_empty] at hblock
  | .blockWith header suffix body =>
      rw [isPlain, Bool.and_eq_true, Bool.and_eq_true] at h
      rw [printed, printed]
      exact block_reindents hi more level h.1.1 h.1.2 (printedAll_reindents hi h.2 more (level + 1))
  | .write _ | .separated _ _ | .indent | .dedent =>
      rw [isPlain] at h
      cases h

theorem printedAll_reindents {indentation : String} (hi : fitsLine indentation = true)
    {steps : List Step} (h : arePlain steps = true) (more level : Nat) :
    Reindents indentation more (printedAll indentation level steps)
      (printedAll indentation (more + level) steps) := by
  match steps with
  | [] =>
      rw [printedAll, printedAll]
      exact .nil
  | step :: steps =>
      rw [arePlain, Bool.and_eq_true] at h
      rw [printedAll, printedAll]
      exact (printed_reindents hi h.1 more level).append (printedAll_reindents hi h.2 more level)

end

open Sink

/-- A unit of indentation of some width. -/
def spaces (width : Nat) : String :=
  String.ofList (List.replicate width ' ')

theorem fitsLine_spaces (width : Nat) : fitsLine (spaces width) = true := by
  rw [fitsLine, spaces, String.toList_ofList, List.all_replicate]
  simp

theorem lines_of_rendered_unlimited {steps : List Step} (hsteps : arePlain steps = true)
    {indentation : String} (hi : fitsLine indentation = true) {level : Nat} {w : Writer Unit}
    (hw : w.Ready indentation level) :
    Action.lines unlimited (runList unlimited steps 0 { sink := (), indentation }).2.text w =
      runList unlimited steps 0 w := by
  have hwhole := areWhole_of_arePlain hsteps
  have hshift := printedAll_reindents hi hsteps level 0
  have htext : (runList unlimited steps 0 { sink := (), indentation }).2.text =
      unlines (printedAll indentation 0 steps) := by
    rw [runList_unlimited hwhole 0 ⟨rfl, rfl, rfl⟩]
    exact String.empty_append
  rw [htext, Action.lines_unlimited hw, lines_unlines hshift.fits, hshift.shift,
    runList_unlimited hwhole 0 hw]
  rfl

/-- Steps that run on a page of their own and have its text indented at the level of a writer leave
the text that they leave when the writer runs them itself. -/
theorem lines_of_rendered {σ τ : Type} {sink : Sink σ} {page : Sink τ} (hsink : sink.AcceptsAll)
    (hpage : page.AcceptsAll) {steps : List Step} (hsteps : arePlain steps = true) (width : Nat)
    (state : τ) {w : Writer σ} (hstart : w.atLineStart = true)
    (hindentation : w.indentation = spaces width) :
    let rendered := runList page steps 0 { sink := state, indentation := spaces width }
    let reindented := Action.lines sink rendered.2.text w
    let direct := runList sink steps 0 w
    rendered.1 = true ∧ reindented.1 = true ∧ direct.1 = true ∧
      reindented.2.text = direct.2.text := by
  intro rendered reindented direct
  have hrendered : Ends page _ _ rendered
      (runList unlimited steps 0 { sink := (), indentation := spaces width }) :=
    runList_ends steps 0 page { sink := state, indentation := spaces width }
  have hreindented : Ends sink w w.level reindented
      (Action.lines unlimited rendered.2.text w.freed) :=
    Action.steady_lines rendered.2.text σ sink w
  have hdirect : Ends sink w w.level direct (runList unlimited steps 0 w.freed) :=
    runList_ends steps 0 sink w
  have hready : w.freed.Ready (spaces width) w.level := ⟨hstart, hindentation, rfl⟩
  refine ⟨hrendered.accepted hpage, hreindented.accepted hsink, hdirect.accepted hsink, ?_⟩
  -- All three runs write what they write where nothing can be refused.
  calc
    reindented.2.text = (Action.lines unlimited rendered.2.text w.freed).2.text :=
      hreindented.text_eq hsink
    _ = (runList unlimited steps 0 w.freed).2.text := by
        rw [hrendered.text_eq hpage,
          lines_of_rendered_unlimited hsteps (fitsLine_spaces width) hready]
    _ = direct.2.text := (hdirect.text_eq hsink).symm

/-- Documentation of two paragraphs, and a block with an empty line and a text of three lines. -/
def samplePage : List Step := [
  .doc "A page.\n\nIt has a block.",
  .block "mod a" [.line "x", .blank, .lines "b \x7b\n  y\n\x7d"]]

theorem lines_of_samplePage :
    let fresh : Writer Unit := { sink := (), indentation := spaces 2 }
    let w : Writer Unit := { sink := (), indentation := spaces 2, level := 3 }
    arePlain samplePage = true ∧
      (Action.lines unlimited (runList unlimited samplePage 0 fresh).2.text w).2.text =
        (runList unlimited samplePage 0 w).2.text := by
  intro fresh w
  have hplain : arePlain samplePage = true := by decide
  obtain ⟨_, _, _, htext⟩ :=
    lines_of_rendered acceptsAll_unlimited acceptsAll_unlimited hplain 2 () (w := w) rfl rfl
  exact ⟨hplain, htext⟩

end Step

end Code

end WireIdl

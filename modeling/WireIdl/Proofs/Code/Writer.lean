import WireIdl.Code.Writer

/-! What a writer prints whose sink refuses nothing. From the start of a line, steps that write
whole lines leave it at the start of a line and at the level where it was, so that what they print
can be said without the state of the writer. -/

namespace WireIdl

namespace Text

/-- Lines as a text. -/
def unlines : List String → String
  | [] => ""
  | line :: lines => line ++ "\n" ++ unlines lines

theorem unlines_append (lines more : List String) :
    unlines (lines ++ more) = unlines lines ++ unlines more := by
  induction lines with
  | nil => simp [unlines]
  | cons line lines ih => simp [unlines, ih, String.append_assoc]

section Blanks

variable {s more : String}

theorem isBlankText_append_eq : isBlankText (s ++ more) = (isBlankText s && isBlankText more) := by
  rw [isBlankText, String.toList_append, List.all_append, isBlankText, isBlankText]

theorem isBlankText_append (h : isBlankText s = false) (more : String) :
    isBlankText (s ++ more) = false := by
  rw [isBlankText_append_eq, h, Bool.false_and]

theorem isBlankText_append_right (s : String) (h : isBlankText more = false) :
    isBlankText (s ++ more) = false := by
  rw [isBlankText_append_eq, h, Bool.and_false]

end Blanks

end Text

namespace Code

/-- The indentation of a level. -/
def margin (indentation : String) : Nat → String
  | 0 => ""
  | level + 1 => indentation ++ margin indentation level

/-- A line at a level; nothing is put before a blank one. -/
def indentLine (indentation : String) (level : Nat) (s : String) : String :=
  if Text.isBlankText s then s else margin indentation level ++ s

/-- A line of a text that is indented anew. -/
def reindentLine (indentation : String) (level : Nat) (s : String) : String :=
  if Text.isBlankText s then "" else margin indentation level ++ s

namespace Writer

variable {σ : Type}

def print (w : Writer σ) (s : String) : Writer σ :=
  { w with text := w.text ++ s }

@[simp] theorem print_print (w : Writer σ) (s more : String) :
    (w.print s).print more = w.print (s ++ more) := by
  simp [print, String.append_assoc]

@[simp] theorem print_empty (w : Writer σ) : w.print "" = w := by
  simp [print]

/-- At the start of a line. -/
structure Ready (w : Writer σ) (indentation : String) (level : Nat) : Prop where
  atLineStart : w.atLineStart = true
  indentation : w.indentation = indentation
  level : w.level = level

theorem Ready.print {w : Writer σ} {indentation : String} {level : Nat}
    (h : w.Ready indentation level) (s : String) : (w.print s).Ready indentation level :=
  ⟨h.atLineStart, h.indentation, h.level⟩

theorem Ready.deeper {w : Writer σ} {indentation : String} {level : Nat}
    (h : w.Ready indentation level) :
    Ready { w with level := w.level + 1 } indentation (level + 1) :=
  ⟨h.atLineStart, h.indentation, congrArg (· + 1) h.level⟩

end Writer

namespace Action

open Sink Writer

variable {w : Writer Unit} {indentation : String} {level : Nat}

theorem put_unlimited (s : String) (w : Writer Unit) : put unlimited s w = (true, w.print s) :=
  rfl

theorem indents_unlimited (count : Nat) (w : Writer Unit) :
    indents unlimited count w = (true, w.print (margin w.indentation count)) := by
  induction count generalizing w with
  | zero => simp [indents, skip, margin]
  | succ count ih =>
      simp only [indents, andThen, put_unlimited, ih, print_print]
      rfl

theorem blankLine_unlimited (h : w.atLineStart = true) :
    blankLine unlimited w = (true, w.print "\n") := by
  obtain ⟨sink, text, indentation, level, atLineStart⟩ := w
  cases h
  rfl

theorem write_unlimited_of_blank {s : String} (hs : Text.isBlankText s = true) :
    write unlimited s w = (true, w.print s) := by
  rw [write, hs, Bool.not_true, Bool.and_false]
  split
  · next hempty => rw [String.isEmpty_iff.mp hempty, print_empty]
  · rfl

theorem write_unlimited {s : String} (h : w.atLineStart = true) (hs : Text.isBlankText s = false) :
    write unlimited s w =
      (true, { w.print (margin w.indentation w.level ++ s) with atLineStart := false }) := by
  have hne : s.isEmpty = false := by
    cases hempty : s.isEmpty with
    | false => rfl
    | true =>
        rw [String.isEmpty_iff.mp hempty] at hs
        cases hs
  simp only [write, hne, hs, h, Bool.not_false, Bool.and_true, if_true, andThen, indents_unlimited,
    setLineStart, put_unlimited]
  simp [Writer.print, String.append_assoc]

theorem line_unlimited (h : w.Ready indentation level) (s : String) :
    line unlimited s w = (true, w.print (indentLine indentation level s ++ "\n")) := by
  obtain ⟨hstart, rfl, rfl⟩ := h
  cases hs : Text.isBlankText s with
  | true =>
      rw [line, andThen, write_unlimited_of_blank hs, indentLine, hs, if_pos rfl, ← print_print]
      exact blankLine_unlimited hstart
  | false =>
      rw [line, andThen, write_unlimited hstart hs, indentLine, hs, if_neg Bool.false_ne_true,
        ← print_print]
      simp only [blankLine, andThen, put_unlimited, setLineStart, Writer.print, hstart,
        String.append_assoc]

/-- Actions that print a line each print their lines one after the other. -/
theorem all_unlimited {α : Type} {action : α → Action Unit} {printed : α → String} {parts : List α}
    (haction : ∀ part ∈ parts, ∀ v : Writer Unit, v.Ready indentation level →
      action part v = (true, v.print (printed part ++ "\n")))
    (h : w.Ready indentation level) :
    all (parts.map action) w = (true, w.print (Text.unlines (parts.map printed))) := by
  induction parts generalizing w with
  | nil => simp [all, skip, Text.unlines]
  | cons part parts ih =>
      rw [List.forall_mem_cons] at haction
      rw [List.map_cons, all, andThen, haction.1 w h]
      simp only [ih haction.2 (h.print _), print_print]
      rfl

theorem lines_unlimited (h : w.Ready indentation level) (s : String) :
    lines unlimited s w =
      (true, w.print (Text.unlines ((Text.lines s).map (reindentLine indentation level)))) := by
  refine all_unlimited (fun line _ v hv => ?_) h
  cases hblank : Text.isBlankText line with
  | true =>
      rw [if_pos rfl, blankLine_unlimited hv.atLineStart, reindentLine, hblank, if_pos rfl]
      rfl
  | false =>
      rw [if_neg Bool.false_ne_true, line_unlimited hv, indentLine, reindentLine, hblank]
      rfl

theorem doc_unlimited (h : w.Ready indentation level) (s : String) :
    doc unlimited s w =
      (true, w.print (Text.unlines
        ((Text.lines (Text.trim s)).map fun l => indentLine indentation level (docLine l)))) :=
  all_unlimited (fun _ _ _ hv => line_unlimited hv _) h

end Action

namespace Step

open Sink Writer

mutual

/-- Whether a step, and each step inside it, writes whole lines and leaves the indentation alone. -/
def isWhole : Step → Bool
  | .write _ | .separated _ _ | .indent | .dedent => false
  | .block _ body | .blockWith _ _ body => areWhole body
  | _ => true

def areWhole : List Step → Bool
  | [] => true
  | step :: steps => step.isWhole && areWhole steps

end

mutual

/-- The lines that a step prints at a level. -/
def printed (indentation : String) (level : Nat) : Step → List String
  | .line s => [indentLine indentation level s]
  | .blank => [""]
  | .lines s => (Text.lines s).map (reindentLine indentation level)
  | .comment s => [indentLine indentation level ("// " ++ s)]
  | .doc s => (Text.lines (Text.trim s)).map fun l =>
      indentLine indentation level (Action.docLine l)
  | .attribute s => [indentLine indentation level ("#[" ++ s ++ "]")]
  | .block header body =>
      indentLine indentation level (header ++ " \x7b") :: printedAll indentation (level + 1) body ++
        [indentLine indentation level "\x7d"]
  | .blockWith header suffix body =>
      indentLine indentation level (header ++ " \x7b") :: printedAll indentation (level + 1) body ++
        [indentLine indentation level ("\x7d" ++ suffix)]
  | .write _ | .separated _ _ | .indent | .dedent => []

def printedAll (indentation : String) (level : Nat) : List Step → List String
  | [] => []
  | step :: steps => printed indentation level step ++ printedAll indentation level steps

end

variable {indentation : String} {level : Nat} {w : Writer Unit}

theorem runBlock_unlimited (header suffix : String) {body : List Step} {inner : List String}
    (hbody : ∀ v : Writer Unit, v.Ready indentation (level + 1) →
      runList unlimited body 0 v = (true, v.print (Text.unlines inner)))
    (h : w.Ready indentation level) :
    runBlock unlimited header suffix body w =
      (true, w.print (Text.unlines (indentLine indentation level (header ++ " \x7b") :: inner ++
        [indentLine indentation level ("\x7d" ++ suffix)]))) := by
  have hheader := h.print (indentLine indentation level (header ++ " \x7b") ++ "\n")
  rw [runBlock, Action.line_unlimited h]
  simp only [hbody _ hheader.deeper]
  -- Behind the body the writer is back at the level of the header.
  have hback := Action.line_unlimited (hheader.print (Text.unlines inner)) ("\x7d" ++ suffix)
  refine hback.trans ?_
  simp only [print_print, List.cons_append, Text.unlines, Text.unlines_append, String.append_assoc,
    String.append_empty]

mutual

theorem run_unlimited {step : Step} (hstep : step.isWhole = true) (held : Nat) {level : Nat}
    {w : Writer Unit} (h : w.Ready indentation level) :
    run unlimited step held w =
      (true, held, w.print (Text.unlines (step.printed indentation level))) := by
  match step with
  | .line s | .comment s | .attribute s =>
      simp only [run, Action.line_unlimited h, printed, Text.unlines, String.append_empty]
  | .blank =>
      simp only [run, Action.blankLine_unlimited h.atLineStart, printed, Text.unlines,
        String.empty_append, String.append_empty]
  | .lines s => simp only [run, Action.lines_unlimited h, printed]
  | .doc s => simp only [run, Action.doc_unlimited h, printed]
  | .block header body =>
      simp only [run, runBlock_unlimited header "" (fun _ => runList_unlimited hstep 0) h, printed,
        String.append_empty]
  | .blockWith header suffix body =>
      simp only [run, runBlock_unlimited header suffix (fun _ => runList_unlimited hstep 0) h,
        printed]
  | .write _ | .separated _ _ | .indent | .dedent => cases hstep

theorem runList_unlimited {steps : List Step} (hsteps : areWhole steps = true) (held : Nat)
    {level : Nat} {w : Writer Unit} (h : w.Ready indentation level) :
    runList unlimited steps held w =
      (true, Action.lowerLevel held
        (w.print (Text.unlines (printedAll indentation level steps)))) := by
  match steps with
  | [] => simp only [runList, printedAll, Text.unlines, print_empty]
  | step :: steps =>
      rw [areWhole, Bool.and_eq_true] at hsteps
      rw [runList, run_unlimited hsteps.1 held h]
      simp only [runList_unlimited hsteps.2 held (h.print _), print_print, printedAll,
        Text.unlines_append]

end

theorem render_of_areWhole {steps : List Step} (h : areWhole steps = true) :
    render steps = Text.unlines (printedAll "    " 0 steps) := by
  rw [render, runList_unlimited h 0 ⟨rfl, rfl, rfl⟩]
  exact String.empty_append

theorem areWhole_append (steps more : List Step) :
    areWhole (steps ++ more) = (areWhole steps && areWhole more) := by
  induction steps with
  | nil => rfl
  | cons step steps ih => rw [List.cons_append, areWhole, areWhole, ih, Bool.and_assoc]

theorem printedAll_append (indentation : String) (level : Nat) (steps more : List Step) :
    printedAll indentation level (steps ++ more) =
      printedAll indentation level steps ++ printedAll indentation level more := by
  induction steps with
  | nil => rfl
  | cons step steps ih => rw [List.cons_append, printedAll, printedAll, ih, List.append_assoc]

end Step

end Code

end WireIdl

import WireIdl.Proofs.Code.Writer

/-! Writers whose sink refuses writes. However an action ends, it leaves the writer at a level that
does not depend on the sink, and a refused write is the last thing that happens to the text: what
stands there is the beginning of what the same action writes when nothing is refused. -/

namespace WireIdl

/-- The second text begins with the first. -/
def Text.Opens (s t : String) : Prop :=
  ∃ rest, t = s ++ rest

namespace Text.Opens

theorem refl (s : String) : Opens s s :=
  ⟨"", String.append_empty.symm⟩

theorem append (s more : String) : Opens s (s ++ more) :=
  ⟨more, rfl⟩

theorem trans {s t u : String} (hst : Opens s t) (htu : Opens t u) : Opens s u := by
  obtain ⟨first, rfl⟩ := hst
  obtain ⟨second, rfl⟩ := htu
  exact ⟨first ++ second, String.append_assoc⟩

end Text.Opens

namespace Code

variable {σ : Type}

def Sink.AcceptsAll (sink : Sink σ) : Prop :=
  ∀ state s, (sink.offer state s).1 = true

theorem Sink.acceptsAll_unlimited : unlimited.AcceptsAll :=
  fun _ _ => rfl

/-- The same writer on a sink that refuses nothing. -/
def Writer.freed (w : Writer σ) : Writer Unit :=
  { w with sink := () }

/-- How an action ends that began at `w`, beside the end it has where nothing is refused. -/
structure Ends (sink : Sink σ) (w : Writer σ) (level : Nat) (result : Bool × Writer σ)
    (free : Bool × Writer Unit) : Prop where
  level : result.2.level = level
  grows : Text.Opens w.text result.2.text
  accepted : sink.AcceptsAll → result.1 = true
  completed : result.1 = true → free.2 = result.2.freed
  refused : result.1 = false → Text.Opens result.2.text free.2.text

namespace Ends

variable {sink : Sink σ} {w after : Writer σ} {level : Nat} {free : Bool × Writer Unit}

theorem done (hlevel : after.level = level) (hgrows : Text.Opens w.text after.text) :
    Ends sink w level (true, after) (true, after.freed) :=
  ⟨hlevel, hgrows, fun _ => rfl, fun _ => rfl, fun h => absurd h.symm Bool.false_ne_true⟩

theorem stop (hlevel : after.level = level) (hgrows : Text.Opens w.text after.text)
    (hrefuses : ¬ sink.AcceptsAll) (hopens : Text.Opens after.text free.2.text) :
    Ends sink w level (false, after) free :=
  ⟨hlevel, hgrows, fun haccepts => absurd haccepts hrefuses,
    fun h => absurd h Bool.false_ne_true, fun _ => hopens⟩

theorem opens {result : Bool × Writer σ} (h : Ends sink w level result free) :
    Text.Opens result.2.text free.2.text := by
  cases hok : result.1 with
  | true =>
      rw [h.completed hok]
      exact .refl _
  | false => exact h.refused hok

theorem text_eq {result : Bool × Writer σ} (h : Ends sink w level result free)
    (hsink : sink.AcceptsAll) : result.2.text = free.2.text := by
  rw [h.completed (h.accepted hsink)]
  rfl

/-- After a first end something goes on, or what is left to do writes nothing. -/
theorem andThen {result : Bool × Writer σ} {next : Writer σ → Bool × Writer σ}
    {freeNext : Writer Unit → Bool × Writer Unit} {level' : Nat}
    (h : Ends sink w level result free) (close : Writer σ → Writer σ)
    (hnext : ∀ after, after.level = level →
      Ends sink after level' (next after) (freeNext after.freed))
    (hgrows : ∀ full, Text.Opens full.text (freeNext full).2.text)
    (hclose : ∀ after, after.level = level → (close after).level = level')
    (hsame : ∀ after, (close after).text = after.text) :
    Ends sink w level' (if result.1 then next result.2 else (false, close result.2))
      (freeNext free.2) := by
  obtain ⟨ok, after⟩ := result
  cases ok with
  | true =>
      have hafter := hnext after h.level
      rw [← h.completed rfl] at hafter
      exact ⟨hafter.level, h.grows.trans hafter.grows, hafter.accepted, hafter.completed,
        hafter.refused⟩
  | false =>
      have hrefuses : ¬ sink.AcceptsAll := fun haccepts =>
        Bool.false_ne_true (h.accepted haccepts)
      refine .stop (hclose after h.level) ?_ hrefuses ?_
      · rw [hsame]
        exact h.grows
      · rw [hsame]
        exact (h.refused rfl).trans (hgrows free.2)

end Ends

namespace Action

open Sink

/-- An action, written once for all sinks, that keeps the level and ends at the first refusal. -/
def Steady (action : (σ : Type) → Sink σ → Action σ) : Prop :=
  ∀ (σ : Type) (sink : Sink σ) (w : Writer σ),
    Ends sink w w.level (action σ sink w) (action Unit unlimited w.freed)

theorem Steady.unlimited_ok {action : (σ : Type) → Sink σ → Action σ} (h : Steady action)
    (w : Writer Unit) : (action Unit unlimited w).1 = true :=
  (h Unit unlimited w).accepted acceptsAll_unlimited

theorem steady_skip : Steady fun _ _ => skip := by
  intro σ sink w
  exact .done rfl (.refl _)

theorem steady_setLineStart (atLineStart : Bool) : Steady fun _ _ => setLineStart atLineStart := by
  intro σ sink w
  exact .done rfl (.refl _)

theorem steady_put (s : String) : Steady fun _ sink => put sink s := by
  intro σ sink w
  simp only [put]
  rcases hoffer : sink.offer w.sink s with ⟨ok, state⟩
  cases ok with
  | true => exact .done rfl (.append _ _)
  | false =>
      refine .stop rfl (.refl _) (fun haccepts => ?_) (.append _ _)
      have haccepted := haccepts w.sink s
      rw [hoffer] at haccepted
      exact Bool.false_ne_true haccepted

section Composition

variable {first second : (σ : Type) → Sink σ → Action σ}

theorem andThen_eq (first second : Action σ) (w : Writer σ) :
    andThen first second w = if (first w).1 then second (first w).2 else (false, (first w).2) := by
  rw [andThen]
  rcases first w with ⟨ok, after⟩
  cases ok <;> rfl

theorem Steady.andThen (hfirst : Steady first) (hsecond : Steady second) :
    Steady fun σ sink => andThen (first σ sink) (second σ sink) := by
  intro σ sink w
  have hfree := hfirst.unlimited_ok w.freed
  simp only [andThen_eq, if_pos hfree]
  apply (hfirst σ sink w).andThen id
  · intro after hlevel
    rw [← hlevel]
    exact hsecond σ sink after
  · intro full
    exact (hsecond Unit unlimited full).grows
  · exact fun _ hlevel => hlevel
  · exact fun _ => rfl

theorem steady_all {α : Type} {action : α → (σ : Type) → Sink σ → Action σ} {parts : List α}
    (h : ∀ part, Steady (action part)) :
    Steady fun σ sink => all (parts.map fun part => action part σ sink) := by
  induction parts with
  | nil => exact steady_skip
  | cons part parts ih => exact (h part).andThen ih

end Composition

theorem steady_indents (count : Nat) : Steady fun _ sink => indents sink count := by
  induction count with
  | zero => exact steady_skip
  | succ count ih =>
      have hunit : Steady fun _ sink w => put sink w.indentation w :=
        fun σ sink w => steady_put w.indentation σ sink w
      exact hunit.andThen ih

theorem steady_write (s : String) : Steady fun _ sink => write sink s := by
  intro σ sink w
  -- The choice that `write` makes is the same on both sinks.
  have hfreed : w.freed.atLineStart = w.atLineStart := rfl
  simp only [write, hfreed]
  split
  · exact steady_skip σ sink w
  · split
    · exact (steady_indents w.level).andThen ((steady_setLineStart false).andThen (steady_put s))
        σ sink w
    · exact steady_put s σ sink w

theorem steady_blankLine : Steady fun _ sink => blankLine sink :=
  (steady_put "\n").andThen (steady_setLineStart true)

theorem steady_line (s : String) : Steady fun _ sink => line sink s :=
  (steady_write s).andThen steady_blankLine

theorem steady_lines (s : String) : Steady fun _ sink => lines sink s := by
  apply steady_all
  intro l
  split
  · exact steady_blankLine
  · exact steady_line l

theorem steady_doc (s : String) : Steady fun _ sink => doc sink s :=
  steady_all fun l => steady_line (docLine l)

theorem steady_separated (separator : String) (items : List String) :
    Steady fun _ sink => separated sink separator items := by
  induction items with
  | nil => exact steady_skip
  | cons item items ih =>
      cases items with
      | nil => exact steady_write item
      | cons next items => exact (steady_write item).andThen ((steady_write separator).andThen ih)

end Action

namespace Step

open Sink WireIdl.Code.Action

/-- The indents that a list holds after a step, if it held some before. -/
def heldAfter (held : Nat) : Step → Nat
  | .indent => held + 1
  | .dedent => held - 1
  | _ => held

/-- The level after a step, for a list that holds some indents. -/
def levelAfter (held level : Nat) : Step → Nat
  | .indent => level + 1
  | .dedent => level - min held 1
  | _ => level

/-- What a step does beside counting the indents of its list. -/
def action (sink : Sink σ) (held : Nat) : Step → Action σ
  | .write s => Action.write sink s
  | .line s => Action.line sink s
  | .blank => Action.blankLine sink
  | .lines s => Action.lines sink s
  | .comment s => Action.line sink ("// " ++ s)
  | .doc s => Action.doc sink s
  | .attribute s => Action.line sink ("#[" ++ s ++ "]")
  | .separated items separator => Action.separated sink separator items
  | .indent => fun w => (true, { w with level := w.level + 1 })
  | .dedent => fun w => (true, lowerLevel (min held 1) w)
  | .block header body => runBlock sink header "" body
  | .blockWith header suffix body => runBlock sink header suffix body

theorem run_eq_action (sink : Sink σ) (step : Step) (held : Nat) (w : Writer σ) :
    run sink step held w =
      ((step.action sink held w).1, step.heldAfter held, (step.action sink held w).2) := by
  cases step <;> simp only [run, action, heldAfter]

theorem runList_cons (sink : Sink σ) (step : Step) (steps : List Step) (held : Nat)
    (w : Writer σ) :
    runList sink (step :: steps) held w =
      if (step.action sink held w).1 then
        runList sink steps (step.heldAfter held) (step.action sink held w).2
      else (false, lowerLevel (step.heldAfter held) (step.action sink held w).2) := by
  rw [runList, run_eq_action]
  rcases step.action sink held w with ⟨ok, after⟩
  cases ok <;> rfl

/-- An action one level deeper. -/
def deeper (action : Action σ) : Action σ := fun w =>
  ((action { w with level := w.level + 1 }).1,
    lowerLevel 1 (action { w with level := w.level + 1 }).2)

theorem runBlock_eq (sink : Sink σ) (header suffix : String) (body : List Step) :
    runBlock sink header suffix body =
      andThen (Action.line sink (header ++ " \x7b"))
        (andThen (deeper (runList sink body 0)) (Action.line sink ("\x7d" ++ suffix))) := by
  funext w
  rw [runBlock, andThen]
  rcases Action.line sink (header ++ " \x7b") w with ⟨ok, opened⟩
  cases ok with
  | false => rfl
  | true =>
      simp only [andThen, deeper]
      rcases runList sink body 0 { opened with level := opened.level + 1 } with ⟨ok, inner⟩
      cases ok <;> rfl

theorem steady_runBlock {header suffix : String} {body : List Step}
    (h : ∀ (σ : Type) (sink : Sink σ) (w : Writer σ),
      Ends sink w w.level (runList sink body 0 w) (runList unlimited body 0 w.freed)) :
    Steady fun _ sink => runBlock sink header suffix body := by
  simp only [runBlock_eq]
  refine (steady_line _).andThen (Steady.andThen ?_ (steady_line _))
  intro σ sink w
  have hbody := h σ sink { w with level := w.level + 1 }
  exact ⟨congrArg (· - 1) hbody.level, hbody.grows, hbody.accepted,
    fun hok => congrArg (lowerLevel 1) (hbody.completed hok), hbody.refused⟩

mutual

theorem action_ends (step : Step) (held : Nat) {σ : Type} (sink : Sink σ) (w : Writer σ) :
    Ends sink w (step.levelAfter held w.level) (step.action sink held w)
      (step.action unlimited held w.freed) := by
  match step with
  | .write s => exact steady_write s σ sink w
  | .line s | .comment s | .attribute s => exact steady_line _ σ sink w
  | .blank => exact steady_blankLine σ sink w
  | .lines s => exact steady_lines s σ sink w
  | .doc s => exact steady_doc s σ sink w
  | .separated items separator => exact steady_separated separator items σ sink w
  | .indent | .dedent => exact .done rfl (.refl _)
  | .block header body | .blockWith header _ body =>
      exact steady_runBlock (fun _ sink w => runList_ends body 0 sink w) σ sink w

theorem runList_ends (steps : List Step) (held : Nat) {σ : Type} (sink : Sink σ) (w : Writer σ) :
    Ends sink w (w.level - held) (runList sink steps held w)
      (runList unlimited steps held w.freed) := by
  match steps with
  | [] =>
      simp only [runList]
      exact .done rfl (.refl _)
  | step :: steps =>
      have hstep := action_ends step held sink w
      have hfree := (action_ends step held unlimited w.freed).accepted acceptsAll_unlimited
      have hlevels : step.levelAfter held w.level - step.heldAfter held = w.level - held := by
        cases step <;> simp only [levelAfter, heldAfter] <;> omega
      rw [runList_cons, runList_cons, if_pos hfree]
      apply hstep.andThen (lowerLevel (step.heldAfter held))
      · intro after hlevel
        rw [← hlevels, ← hlevel]
        exact runList_ends steps _ sink after
      · intro full
        exact (runList_ends steps _ unlimited full).grows
      · intro after hlevel
        rw [← hlevels, ← hlevel]
        rfl
      · exact fun _ => rfl

end

theorem level_eq_of_heldAfter (step : Step) {held outer level : Nat} (h : level = outer + held) :
    step.levelAfter held level = outer + step.heldAfter held := by
  cases step <;> simp only [levelAfter, heldAfter] <;> omega

/-- However a step ends, the level is the number of indents that are not taken back: those of its
own list and those around it. What a step has written is the beginning of what it writes from the
same state where nothing is refused, and all of that if it was not refused anything itself. -/
theorem run_leaves_consistent (sink : Sink σ) (step : Step) {held outer : Nat} {w : Writer σ}
    (hw : w.level = outer + held) :
    let (ok, alive, after) := run sink step held w
    let (freeOk, _, free) := run unlimited step held w.freed
    (alive = step.heldAfter held ∧ after.level = outer + alive) ∧
      (step ≠ .indent → step ≠ .dedent → after.level = w.level) ∧
      freeOk = true ∧ (ok = true → free = after.freed) ∧
      ∃ emitted rest, after.text = w.text ++ emitted ∧ free.text = w.text ++ emitted ++ rest := by
  have hend := action_ends step held sink w
  have hfree := (action_ends step held unlimited w.freed).accepted acceptsAll_unlimited
  obtain ⟨emitted, hemitted⟩ := hend.grows
  obtain ⟨rest, hrest⟩ := hend.opens
  have hlevel := hend.level
  rw [run_eq_action, run_eq_action]
  refine ⟨⟨rfl, ?_⟩, ?_, hfree, hend.completed, emitted, rest, hemitted, ?_⟩
  · rw [hlevel, level_eq_of_heldAfter step hw]
  · intro hindent hdedent
    rw [hlevel]
    cases step with
    | indent => exact absurd rfl hindent
    | dedent => exact absurd rfl hdedent
    | _ => rfl
  · rw [← hemitted]
    exact hrest

/-- A writer inside one indent. -/
def sampleWriter : Writer Nat :=
  { sink := 0, level := 1 }

def sampleBlock : Step :=
  .block "mod a" [.indent, .line "x"]

/-- The second of three units before the inner line is refused. The indents of the block and of its
body are taken back all the same. -/
theorem run_sampleBlock :
    let (ok, alive, after) := run (limited 18) sampleBlock 1 sampleWriter
    sampleWriter.level = 0 + 1 ∧ ok = false ∧ after.text = "    mod a \x7b\n    " ∧
      alive = 1 ∧ after.level = 1 ∧
      ∃ rest, (run unlimited sampleBlock 1 sampleWriter.freed).2.2.text = after.text ++ rest := by
  have hlevel : sampleWriter.level = 0 + 1 := rfl
  obtain ⟨⟨halive, hafter⟩, hkept, _, _, emitted, rest, hemitted, hrest⟩ :=
    run_leaves_consistent (limited 18) sampleBlock hlevel
  have hok : (run (limited 18) sampleBlock 1 sampleWriter).1 = false := by
    simp only [sampleBlock, run, runBlock, runList, lowerLevel]
    decide
  have htext : (run (limited 18) sampleBlock 1 sampleWriter).2.2.text =
      "    mod a \x7b\n    " := by
    simp only [sampleBlock, run, runBlock, runList, lowerLevel]
    decide
  refine ⟨hlevel, hok, htext, halive, ?_, rest, ?_⟩
  · rw [hafter, halive]
    rfl
  · rw [hemitted]
    exact hrest

/-- The indents held after each of some steps. -/
def heldAlong (held : Nat) : List Step → List Nat
  | [] => []
  | step :: steps => step.heldAfter held :: heldAlong (step.heldAfter held) steps

/-- A writer can be used on after a refusal: all along a run the level is the number of indents that
are not taken back. -/
theorem trace_levels (sink : Sink σ) (steps : List Step) {held outer : Nat} {w : Writer σ}
    (hw : w.level = outer + held) :
    (trace sink steps held w).1.map (·.level) = (heldAlong held steps).map (outer + ·) := by
  induction steps generalizing held w with
  | nil => rfl
  | cons step steps ih =>
      have hlevel := (action_ends step held sink w).level
      rw [level_eq_of_heldAfter step hw] at hlevel
      simp only [trace, run_eq_action, heldAlong, List.map_cons, ih hlevel, hlevel]

end Step

end Code

end WireIdl

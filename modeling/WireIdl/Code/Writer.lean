import WireIdl.Text.Blank
import WireIdl.Text.Lines

/-!
Writing indented source. A `Writer` keeps track of the indentation and of whether it stands at the
start of a line, and hands its text to a sink in single writes, any of which the sink may refuse: a
unit of indentation, a text, or a line feed. A refused write ends the step it belongs to, and
leaves what was written before.

Programs for a writer are lists of `Step`s. The indentation that a step opens is closed again when
the list it stands in is done, whether or not a step failed.
-/

namespace WireIdl.Code

/-- A destination of text with a state of its own, which accepts or refuses each write. -/
structure Sink (σ : Type) where
  offer : σ → String → Bool × σ

namespace Sink

def unlimited : Sink Unit where
  offer _ _ := (true, ())

def limited (limit : Nat) : Sink Nat where
  offer used s :=
    if used + s.utf8ByteSize ≤ limit then (true, used + s.utf8ByteSize) else (false, used)

end Sink

structure Writer (σ : Type) where
  sink : σ
  /-- What the sink has accepted. -/
  text : String := ""
  /-- One unit of indentation. -/
  indentation : String := "    "
  level : Nat := 0
  atLineStart : Bool := true

/-- An action of a writer: whether no write was refused, and the writer after it. -/
abbrev Action (σ : Type) := Writer σ → Bool × Writer σ

namespace Action

variable {σ : Type}

def skip : Action σ := fun w => (true, w)

def andThen (first second : Action σ) : Action σ := fun w =>
  match first w with
  | (true, w) => second w
  | (false, w) => (false, w)

def all : List (Action σ) → Action σ
  | [] => skip
  | action :: actions => andThen action (all actions)

def put (sink : Sink σ) (s : String) : Action σ := fun w =>
  match sink.offer w.sink s with
  | (true, state) => (true, { w with sink := state, text := w.text ++ s })
  | (false, state) => (false, { w with sink := state })

def setLineStart (atLineStart : Bool) : Action σ := fun w =>
  (true, { w with atLineStart })

def indents (sink : Sink σ) : Nat → Action σ
  | 0 => skip
  | count + 1 => andThen (fun w => put sink w.indentation w) (indents sink count)

/-- Text without a line feed at its end. At the start of a line it is indented unless it is
blank. -/
def write (sink : Sink σ) (s : String) : Action σ := fun w =>
  if s.isEmpty then (true, w)
  else if w.atLineStart && !Text.isBlankText s then
    andThen (indents sink w.level) (andThen (setLineStart false) (put sink s)) w
  else put sink s w

def blankLine (sink : Sink σ) : Action σ :=
  andThen (put sink "\n") (setLineStart true)

def line (sink : Sink σ) (s : String) : Action σ :=
  andThen (write sink s) (blankLine sink)

/-- The lines of a text, each indented anew; blank lines become empty. -/
def lines (sink : Sink σ) (s : String) : Action σ :=
  all ((Text.lines s).map fun l => if Text.isBlankText l then blankLine sink else line sink l)

def docLine (s : String) : String :=
  let s := Text.trimEnd s
  if s.isEmpty then "///" else "/// " ++ s

/-- A text as documentation; its blank lines stay documentation. -/
def doc (sink : Sink σ) (s : String) : Action σ :=
  all ((Text.lines (Text.trim s)).map fun l => line sink (docLine l))

def separated (sink : Sink σ) (separator : String) : List String → Action σ
  | [] => skip
  | [item] => write sink item
  | item :: items =>
      andThen (write sink item) (andThen (write sink separator) (separated sink separator items))

def lowerLevel (count : Nat) (w : Writer σ) : Writer σ :=
  { w with level := w.level - count }

end Action

inductive Step where
  | write (s : String)
  | line (s : String)
  | blank
  | lines (s : String)
  | comment (s : String)
  | doc (s : String)
  /-- `#[…]` around the text. -/
  | attribute (s : String)
  | separated (items : List String) (separator : String)
  /-- Indents the steps after it by one unit more. -/
  | indent
  /-- Takes back the newest `indent` of the same list, if there is one. -/
  | dedent
  | block (header : String) (body : List Step)
  /-- A block with text after its closing brace. -/
  | blockWith (header suffix : String) (body : List Step)

namespace Step

variable {σ : Type}

mutual

/-- Runs a step. `held` counts the indents of the list that are not taken back yet. -/
def run (sink : Sink σ) : Step → Nat → Writer σ → Bool × Nat × Writer σ
  | .write s, held, w => let (ok, w) := Action.write sink s w; (ok, held, w)
  | .line s, held, w => let (ok, w) := Action.line sink s w; (ok, held, w)
  | .blank, held, w => let (ok, w) := Action.blankLine sink w; (ok, held, w)
  | .lines s, held, w => let (ok, w) := Action.lines sink s w; (ok, held, w)
  | .comment s, held, w => let (ok, w) := Action.line sink ("// " ++ s) w; (ok, held, w)
  | .doc s, held, w => let (ok, w) := Action.doc sink s w; (ok, held, w)
  | .attribute s, held, w => let (ok, w) := Action.line sink ("#[" ++ s ++ "]") w; (ok, held, w)
  | .separated items separator, held, w =>
      let (ok, w) := Action.separated sink separator items w; (ok, held, w)
  | .indent, held, w => (true, held + 1, { w with level := w.level + 1 })
  | .dedent, held, w => (true, held - 1, Action.lowerLevel (min held 1) w)
  | .block header body, held, w =>
      let (ok, w) := runBlock sink header "" body w; (ok, held, w)
  | .blockWith header suffix body, held, w =>
      let (ok, w) := runBlock sink header suffix body w; (ok, held, w)
termination_by step => (sizeOf step, 0)

def runBlock (sink : Sink σ) (header suffix : String) (body : List Step) : Action σ := fun w =>
  match Action.line sink (header ++ " \x7b") w with
  | (false, w) => (false, w)
  | (true, w) =>
      match runList sink body 0 { w with level := w.level + 1 } with
      | (false, w) => (false, Action.lowerLevel 1 w)
      | (true, w) => Action.line sink ("\x7d" ++ suffix) (Action.lowerLevel 1 w)
termination_by (sizeOf body, 1)

/-- Runs a list of steps up to the first that fails, and takes back its indents. -/
def runList (sink : Sink σ) : List Step → Nat → Writer σ → Bool × Writer σ
  | [], held, w => (true, Action.lowerLevel held w)
  | step :: steps, held, w =>
      match run sink step held w with
      | (true, held, w) => runList sink steps held w
      | (false, held, w) => (false, Action.lowerLevel held w)
termination_by steps => (sizeOf steps, 0)

end

structure Report where
  ok : Bool
  added : String
  level : Nat

/-- Runs steps one after the other, also after one that fails. -/
def trace (sink : Sink σ) : List Step → Nat → Writer σ → List Report × Writer σ
  | [], _, w => ([], w)
  | step :: steps, held, w =>
      let (ok, held, after) := run sink step held w
      let added := String.ofList (after.text.toList.drop w.text.length)
      let (reports, last) := trace sink steps held after
      ({ ok, added, level := after.level } :: reports, last)

def render (steps : List Step) : String :=
  (runList Sink.unlimited steps 0 { sink := () }).2.text

end Step

end WireIdl.Code

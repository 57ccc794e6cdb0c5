import WireIdl.Emit.Codec
import WireIdl.Proofs.Lists

/-! What emitted code asks of a protocol, read off its text. -/

namespace WireIdl

namespace Text

/-- What follows a beginning. -/
def after? (beginning text : List Char) : Option (List Char) :=
  if beginning.isPrefixOf text then some (text.drop beginning.length) else none

theorem after?_append (beginning text : List Char) :
    after? beginning (beginning ++ text) = some text := by
  rw [after?, if_pos (List.isPrefixOf_iff_prefix.mpr (List.prefix_append beginning text)),
    List.drop_left]

theorem takeWhile_append_cons {p : Char → Bool} {name : List Char} {c : Char}
    (hname : ∀ d ∈ name, p d = true) (hc : p c = false) (rest : List Char) :
    (name ++ c :: rest).takeWhile p = name := by
  rw [List.takeWhile_append_of_pos hname, List.takeWhile_cons_of_neg (by simp [hc]),
    List.append_nil]

theorem suffix_append {ending : List Char} (a : String) {b : String} (h : ending <:+ b.toList) :
    ending <:+ (a ++ b).toList := by
  rw [String.toList_append]
  exact List.suffix_append_of_suffix h

/-- A text ends in a character. -/
def EndsIn (c : Char) (s : String) : Prop :=
  [c] <:+ s.toList

theorem EndsIn.suffix {c : Char} {s : String} (h : EndsIn c s) (ending : String) :
    c :: ending.toList <:+ (s ++ ending).toList := by
  obtain ⟨before, hs⟩ := h
  refine ⟨before, ?_⟩
  rw [String.toList_append, ← hs, List.append_assoc]
  rfl

theorem isDigit_of_mem_toString {k : Nat} {c : Char} (h : c ∈ (toString k).toList) :
    c.isDigit = true := by
  rw [show (toString k).toList = Nat.toDigits 10 k from String.toList_ofList] at h
  exact Nat.isDigit_of_mem_toDigits (by decide) (by decide) h

theorem endsIn_toString (k : Nat) : ∃ c, c.isDigit = true ∧ EndsIn c (toString k) := by
  have hne : (toString k).toList ≠ [] := by
    rw [show (toString k).toList = Nat.toDigits 10 k from String.toList_ofList]
    exact Nat.toDigits_ne_nil
  exact ⟨(toString k).toList.getLast hne, isDigit_of_mem_toString (List.getLast_mem hne),
    (toString k).toList.dropLast, List.dropLast_concat_getLast hne⟩

end Text

namespace Code

open Text

/-- The two halves of a codec. -/
inductive Direction where
  | write
  | read

/-- What emitted code asks of a protocol: a method, by its name after the direction; the codec of a
record, which goes on with the same protocol; or the same once more for each part. -/
inductive Call where
  | method (name : List Char)
  | codec
  | loop (body : List Call)

/-- The calls for a container: its begin, those for each of its parts, and its end. -/
def Call.container (kind : String) (body : List Call) : List Call :=
  [.method (kind ++ "_begin").toList, .loop body, .method (kind ++ "_end").toList]

namespace Direction

def method : Direction → List Char
  | .write => "protocol.write_".toList
  | .read => "protocol.read_".toList

/-- How a call ends; what is read takes no argument. -/
def methodEnd : Direction → List Char
  | .write => ")?;".toList
  | .read => "()?;".toList

end Direction

/-- The expression whose value a statement binds, or the whole statement. -/
def expression (text : List Char) : List Char :=
  match after? "let ".toList text with
  | some rest => (rest.dropWhile (· != '=')).drop 2
  | none => text

/-- Whether a line hands the protocol on. -/
def callsCodec (text : List Char) : Bool :=
  "protocol)?;".toList.isSuffixOf text

def callOf? (d : Direction) (line : String) : Option Call :=
  if callsCodec line.toList then some .codec
  else if d.methodEnd.isSuffixOf line.toList then
    (after? d.method (expression line.toList)).map fun rest =>
      .method (rest.takeWhile (· != '('))
  else none

section Gathering

variable {α : Type}

mutual

/-- Gathers what lines and blocks give; what a block gives may depend on its parts. -/
def Step.gather (line : String → List α) (block : String → List Step → List α → List α) :
    Step → List α
  | .write s | .line s => line s
  | .block header body | .blockWith header _ body => block header body (gatherAll line block body)
  | _ => []

def gatherAll (line : String → List α) (block : String → List Step → List α → List α) :
    List Step → List α
  | [] => []
  | step :: steps => step.gather line block ++ gatherAll line block steps

end

theorem gatherAll_append (line : String → List α) (block : String → List Step → List α → List α)
    (steps more : List Step) :
    gatherAll line block (steps ++ more) =
      gatherAll line block steps ++ gatherAll line block more := by
  induction steps with
  | nil => rfl
  | cons step steps ih => rw [List.cons_append, gatherAll, gatherAll, ih, List.append_assoc]

/-- Programs that give one thing each give all of them one after the other. -/
theorem gatherAll_flatMap {β : Type} {line : String → List α}
    {block : String → List Step → List α → List α} {program : β → List Step} {parts : List β}
    {gathered : List α}
    (h : List.Forall₂ (fun part a => gatherAll line block (program part) = [a]) parts gathered) :
    gatherAll line block (parts.flatMap program) = gathered := by
  induction h with
  | nil => rfl
  | cons hfirst _ ih =>
      rw [List.flatMap_cons, gatherAll_append, hfirst, ih]
      exact List.singleton_append

end Gathering

def callsOf (d : Direction) : List Step → List Call :=
  gatherAll (fun line => (callOf? d line).toList) fun header _ calls =>
    if "for ".toList.isPrefixOf header.toList then [.loop calls] else calls

theorem callsOf_append (d : Direction) (steps more : List Step) :
    callsOf d (steps ++ more) = callsOf d steps ++ callsOf d more :=
  gatherAll_append _ _ steps more

section Steps

variable {d : Direction} {line header : String} {body steps : List Step} {calls more : List Call}

theorem callsOf_line {call : Call} (h : callOf? d line = some call)
    (hsteps : callsOf d steps = calls) : callsOf d (.line line :: steps) = call :: calls := by
  rw [callsOf, gatherAll, Step.gather, h, ← hsteps]
  exact List.singleton_append

theorem callsOf_silent (h : callOf? d line = none) (hsteps : callsOf d steps = calls) :
    callsOf d (.line line :: steps) = calls := by
  rw [callsOf, gatherAll, Step.gather, h, ← hsteps]
  exact List.nil_append _

theorem callsOf_for (h : "for ".toList <+: header.toList) (hbody : callsOf d body = calls)
    (hsteps : callsOf d steps = more) :
    callsOf d (.block header body :: steps) = .loop calls :: more := by
  rw [callsOf, gatherAll, Step.gather, if_pos (List.isPrefixOf_iff_prefix.mpr h), ← hbody,
    ← hsteps]
  exact List.singleton_append

end Steps

section Lines

variable {line : String} {name : List Char}

theorem callOf?_codec (d : Direction) (h : "protocol)?;".toList <:+ line.toList) :
    callOf? d line = some .codec :=
  if_pos (List.isSuffixOf_iff_suffix.mpr h)

/-- Faults leave a call, so a statement without them is none. -/
theorem callOf?_eq_none (d : Direction) (h : ");".toList <:+ line.toList) :
    callOf? d line = none := by
  obtain ⟨before, hline⟩ := h
  cases d with
  | write => simp [callOf?, ← hline, callsCodec, Direction.methodEnd, List.isSuffixOf]
  | read => simp [callOf?, ← hline, callsCodec, Direction.methodEnd, List.isSuffixOf]

theorem callsCodec_eq_false {c : Char} (hc : c ≠ 'l') (h : c :: ")?;".toList <:+ line.toList) :
    callsCodec line.toList = false := by
  obtain ⟨before, hline⟩ := h
  simp [← hline, callsCodec, List.isSuffixOf, List.isPrefixOf, hc.symm]

theorem takeWhile_name (hname : '(' ∉ name) (rest : List Char) :
    (name ++ '(' :: rest).takeWhile (· != '(') = name := by
  apply takeWhile_append_cons
  · intro d hd
    exact bne_iff_ne.mpr fun heq => hname (heq ▸ hd)
  · rfl

theorem callOf?_write {c : Char} (hname : '(' ∉ name) (hc : c ≠ 'l')
    (hstart : "protocol.write_".toList ++ (name ++ ['(']) <+: line.toList)
    (hend : c :: ")?;".toList <:+ line.toList) : callOf? .write line = some (.method name) := by
  obtain ⟨arguments, hline⟩ := hstart
  have hmethodEnd : Direction.write.methodEnd.isSuffixOf line.toList = true :=
    List.isSuffixOf_iff_suffix.mpr ((List.suffix_cons c _).trans hend)
  have hexpression : expression line.toList =
      Direction.write.method ++ (name ++ '(' :: arguments) := by
    rw [← hline, List.append_assoc, List.append_assoc]
    rfl
  rw [callOf?, callsCodec_eq_false hc hend, hmethodEnd, hexpression, after?_append]
  exact congrArg (fun name => some (Call.method name)) (takeWhile_name hname arguments)

theorem expression_let {x : List Char} (hx : '=' ∉ x) (text : List Char) :
    expression ("let ".toList ++ (x ++ " = ".toList ++ text)) = text := by
  have hdrop : (x ++ " = ".toList ++ text).dropWhile (· != '=') = "= ".toList ++ text := by
    rw [List.append_assoc, List.dropWhile_append_of_pos]
    · exact List.dropWhile_cons_of_pos rfl
    · intro d hd
      exact bne_iff_ne.mpr fun heq => hx (heq ▸ hd)
  rw [expression, after?_append]
  exact congrArg (List.drop 2) hdrop

theorem callOf?_read
    (hexpression : expression line.toList = "protocol.read_".toList ++ (name ++ "()?;".toList))
    (hname : '(' ∉ name) (hend : "()?;".toList <:+ line.toList) :
    callOf? .read line = some (.method name) := by
  have hcodec : callsCodec line.toList = false := callsCodec_eq_false (by decide) hend
  have hmethodEnd : Direction.read.methodEnd.isSuffixOf line.toList = true :=
    List.isSuffixOf_iff_suffix.mpr hend
  have hmethod : expression line.toList =
      Direction.read.method ++ (name ++ '(' :: ")?;".toList) := hexpression
  rw [callOf?, hcodec, hmethodEnd, hmethod, after?_append]
  exact congrArg (fun name => some (Call.method name)) (takeWhile_name hname _)

theorem callOf?_read_plain (hname : '(' ∉ name)
    (h : line.toList = "protocol.read_".toList ++ (name ++ "()?;".toList)) :
    callOf? .read line = some (.method name) := by
  refine callOf?_read ?_ hname ?_
  · rw [h]
    rfl
  · rw [h, ← List.append_assoc]
    exact List.suffix_append _ _

theorem callOf?_read_let {x : List Char} (hx : '=' ∉ x) (hname : '(' ∉ name)
    (h : line.toList = "let ".toList ++ (x ++ " = ".toList ++
      ("protocol.read_".toList ++ (name ++ "()?;".toList)))) :
    callOf? .read line = some (.method name) := by
  refine callOf?_read (h ▸ expression_let hx _) hname ?_
  rw [h]
  simp only [← List.append_assoc]
  exact List.suffix_append _ _

theorem callOf?_read_of_ne {c : Char} (hc : c ≠ 'l') (hc' : c ≠ '(')
    (hend : c :: ")?;".toList <:+ line.toList) : callOf? .read line = none := by
  have hcodec := callsCodec_eq_false hc hend
  obtain ⟨before, hline⟩ := hend
  have hmethodEnd : Direction.read.methodEnd.isSuffixOf line.toList = false := by
    simp [← hline, Direction.methodEnd, List.isSuffixOf, List.isPrefixOf, hc'.symm]
  simp [callOf?, hcodec, hmethodEnd]

end Lines

end Code

end WireIdl

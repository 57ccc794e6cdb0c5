import WireIdl.Proofs.Record.Composed
import WireIdl.Session

/-! What a session keeps of its endpoint: the bytes that have been read stay read and no others are,
the frames stay within their limit, and neither direction touches the other. -/

namespace WireIdl

variable {n : Census}

namespace Reader

theorem composed_messageType (code : UInt8) : Composed (messageType code) := by
  rw [messageType]
  split
  · exact .pure _
  · exact .throw _

/-- What follows the version of a message. -/
theorem composed_typedMessage (code : UInt8) : Composed do
    let type ← messageType code
    let name ← string
    return (⟨name, type, ← i32⟩ : MessageHeader) :=
  (composed_messageType code).bind fun _ => composed_string.bind fun _ => composed_i32.map _

/-- The header of a message is no composed reader, as it closes what others have opened. -/
theorem steady_messageHeader : Steady messageHeader := by
  apply Steady.bind (x := modify fun source => { source with frames := 0 })
  · exact fun source => ⟨List.suffix_rfl, fun _ => Nat.zero_le maxFrames⟩
  · intro _
    apply Composed.steady
    apply composed_i32.bind
    intro first
    split
    · dsimp only
      split
      · exact .bind (.throw _) fun _ => composed_typedMessage _
      · exact composed_typedMessage _
    · exact (Composed.take _).bind fun bytes => (composed_decoded bytes).bind fun _ =>
        Composed.rawByte.bind fun code => (composed_messageType code).bind fun _ =>
          composed_i32.map _

end Reader

theorem ReadStep.steady_reader (step : ReadStep) : step.reader.Steady := by
  cases step with
  | messageBegin => exact Reader.steady_messageHeader.bind fun _ => Reader.steady_pure _
  | structBegin => exact Reader.steady_openFrame.bind fun _ => Reader.steady_pure _
  | finish part =>
      cases part with
      | struct => exact Reader.steady_closeFrame.bind fun _ => Reader.steady_pure _
      | message | field | list | set | map => exact Reader.steady_pure _
  | fieldBegin => exact (Reader.composed_fieldHeader.map _).steady
  | listBegin | setBegin => exact (Reader.composed_itemsHeader.map _).steady
  | mapBegin => exact (Reader.composed_entriesHeader.map _).steady
  | bool => exact (Reader.composed_bool.map _).steady
  | byte => exact (Reader.composed_i8.map _).steady
  | i16 => exact (Reader.composed_i16.map _).steady
  | i32 => exact (Reader.composed_i32.map _).steady
  | i64 => exact (Reader.composed_i64.map _).steady
  | double => exact (Reader.composed_double.map _).steady
  | string => exact (Reader.composed_string.map _).steady
  | binary => exact (Reader.composed_binary.map _).steady

namespace Operation

/-- The bytes that come in with an operation. -/
def arriving : Operation → Bytes
  | .feed bytes => bytes
  | _ => []

def writes : Operation → Bool
  | .write _ => true
  | _ => false

/-- Reads something whole, and not only a begin or an end. -/
def readsWhole : Operation → Bool
  | .skip _ | .record _ _ => true
  | _ => false

def reads : Operation → Bool
  | .read _ => true
  | op => op.readsWhole

end Operation

namespace Endpoint

open Reader (Steady Composed)

/-- Of all the input there has been, `position` bytes have been read, and no more frames are open
than may be. -/
structure Within (e : Endpoint) (input : Bytes) (position : Nat) : Prop where
  inside : position ≤ input.length
  unread : e.source.unread = input.drop position
  frames : e.source.frames ≤ maxFrames

section Reading

variable {α : Type} {reader : Reader α}

theorem read_snd (reader : Reader α) (e : Endpoint) :
    (e.read reader).2 = { e with source := reader.left e.source } := by
  rw [read, Reader.left]
  cases reader e.source with
  | ok a rest => rfl
  | error fault rest => rfl

theorem output_read (reader : Reader α) (e : Endpoint) : (e.read reader).2.output = e.output := by
  rw [read_snd]

theorem advances_read (h : Steady reader) (e : Endpoint) :
    e.source.Advances (e.read reader).2.source := by
  rw [read_snd]
  exact h e.source

theorem frames_read_of_ok (h : Composed reader) {e : Endpoint} {a : α}
    (hread : (e.read reader).1 = .ok a) :
    (e.read reader).2.source.frames = e.source.frames := by
  rw [read] at hread ⊢
  cases hsource : reader e.source with
  | ok b rest => exact (h.balanced e.source.frames e.source.unread b rest hsource).1
  | error fault rest =>
      rw [hsource] at hread
      cases hread

end Reading

theorem source_perform_write (e : Endpoint) (step : WriteStep) :
    (e.perform (.write step)).2.source = e.source :=
  rfl

theorem composed_skip (tag : Tag) : Composed do
    Reader.skip tag
    return Datum.nothing :=
  (Reader.composed_skipWithin maxFrames tag).map _

theorem composed_record (t : Target n) (id : Fin n.records) : Composed do
    return Datum.value (← t.readRecord id) :=
  (Target.composed_readRecordWithin maxFrames id).map _

/-- Bytes arrive at the end of the source, and every other operation only takes from its front. -/
theorem perform_cases (e : Endpoint) (op : Operation) :
    (∃ bytes, op = .feed bytes ∧ (e.perform op).2 = e.feed bytes) ∨
      op.arriving = [] ∧ e.source.Advances (e.perform op).2.source := by
  cases op with
  | feed bytes => exact .inl ⟨bytes, rfl, rfl⟩
  | takeOutput | flush => exact .inr ⟨rfl, .refl e.source⟩
  | write step =>
      refine .inr ⟨rfl, ?_⟩
      rw [source_perform_write]
      exact .refl e.source
  | read step => exact .inr ⟨rfl, advances_read step.steady_reader e⟩
  | skip tag => exact .inr ⟨rfl, advances_read (composed_skip tag).steady e⟩
  | record t id => exact .inr ⟨rfl, advances_read (composed_record t id).steady e⟩

section Within

variable {e : Endpoint} {input : Bytes} {position : Nat}

theorem within_withInput (bytes : Bytes) : (withInput bytes).Within bytes 0 where
  inside := Nat.zero_le bytes.length
  unread := rfl
  frames := Nat.zero_le maxFrames

theorem Within.feed (h : e.Within input position) (bytes : Bytes) :
    (e.feed bytes).Within (input ++ bytes) position where
  inside := by
    rw [List.length_append]
    exact Nat.le_add_right_of_le h.inside
  unread := by
    rw [List.drop_append_of_le_length h.inside, ← h.unread]
    rfl
  frames := h.frames

/-- Bytes taken from what ends an input are the next bytes of that input. -/
theorem Within.advance {after : Endpoint} (h : e.Within input position)
    (hsource : e.source.Advances after.source) :
    ∃ position', position ≤ position' ∧ after.Within input position' := by
  obtain ⟨taken, htaken⟩ := hsource.unread
  have hlength : taken.length ≤ input.length - position := by
    rw [← List.length_drop, ← h.unread, ← htaken, List.length_append]
    exact Nat.le_add_right _ _
  refine ⟨position + taken.length, Nat.le_add_right _ _, ?_, ?_, hsource.frames h.frames⟩
  · have hinside := h.inside
    omega
  · rw [← List.drop_drop, ← h.unread, ← htaken, List.drop_left]

theorem Within.perform (h : e.Within input position) (op : Operation) :
    ∃ position', position ≤ position' ∧
      (e.perform op).2.Within (input ++ op.arriving) position' := by
  obtain ⟨bytes, rfl, hafter⟩ | ⟨hnone, hsource⟩ := e.perform_cases op
  · rw [hafter]
    exact ⟨position, Nat.le_refl position, h.feed bytes⟩
  · rw [hnone, List.append_nil]
    exact h.advance hsource

theorem Within.run (h : e.Within input position) (ops : List Operation) :
    ∃ position', position ≤ position' ∧
      (e.run ops).2.Within (input ++ ops.flatMap Operation.arriving) position' := by
  induction ops generalizing e input position with
  | nil =>
      rw [List.flatMap_nil, List.append_nil]
      exact ⟨position, Nat.le_refl position, h⟩
  | cons op ops ih =>
      obtain ⟨middle, hmiddle, hfirst⟩ := h.perform op
      obtain ⟨last, hlast, hrest⟩ := ih hfirst
      rw [List.append_assoc, ← List.flatMap_cons] at hrest
      exact ⟨last, Nat.le_trans hmiddle hlast, hrest⟩

end Within

theorem run_append (e : Endpoint) (ops more : List Operation) :
    (e.run (ops ++ more)).2 = ((e.run ops).2.run more).2 := by
  induction ops generalizing e with
  | nil => rfl
  | cons op ops ih => exact ih (e.perform op).2

theorem output_perform_of_reads {op : Operation} (h : op.reads = true) (e : Endpoint) :
    (e.perform op).2.output = e.output := by
  cases op with
  | feed | takeOutput | flush | write => cases h
  | read step => exact output_read step.reader e
  | skip tag => exact output_read _ e
  | record t id => exact output_read _ e

theorem unread_perform_of_reads {op : Operation} (h : op.reads = true) (e : Endpoint) :
    op.arriving = [] ∧ (e.perform op).2.source.unread <:+ e.source.unread := by
  obtain ⟨bytes, rfl, _⟩ | ⟨hnone, hsource⟩ := e.perform_cases op
  · cases h
  · exact ⟨hnone, hsource.unread⟩

theorem source_perform_of_writes {op : Operation} (h : op.writes = true) (e : Endpoint) :
    op.arriving = [] ∧ (e.perform op).2.source = e.source := by
  cases op with
  | feed | takeOutput | flush | read | skip | record => cases h
  | write step => exact ⟨rfl, source_perform_write e step⟩

theorem frames_perform_of_readsWhole {op : Operation} (h : op.readsWhole = true) {e : Endpoint}
    {d : Datum} (hok : (e.perform op).1 = .ok d) :
    (e.perform op).2.source.frames = e.source.frames := by
  cases op with
  | feed | takeOutput | flush | write | read => cases h
  | skip tag => exact frames_read_of_ok (composed_skip tag) hok
  | record t id => exact frames_read_of_ok (composed_record t id) hok

/-- In a session of any operations, also failing ones, what has been read is a beginning of the
input and never shrinks, and no more than `maxFrames` frames are open. From any endpoint whatever,
reading changes neither the output nor the bytes that it leaves unread, writing does not change the
source, and a value that is skipped or a record that is read closes the frames it has opened. -/
theorem run_within (bytes : Bytes) (ops more : List Operation) :
    (∃ position position', position ≤ position' ∧
      ((withInput bytes).run ops).2.Within (bytes ++ ops.flatMap Operation.arriving) position ∧
      ((withInput bytes).run (ops ++ more)).2.Within
        (bytes ++ (ops ++ more).flatMap Operation.arriving) position') ∧
    ∀ (e : Endpoint) (op : Operation),
      (op.reads = true → (e.perform op).2.output = e.output ∧
        op.arriving = [] ∧ (e.perform op).2.source.unread <:+ e.source.unread) ∧
      (op.writes = true → op.arriving = [] ∧ (e.perform op).2.source = e.source) ∧
      (op.readsWhole = true → ∀ d, (e.perform op).1 = .ok d →
        (e.perform op).2.source.frames = e.source.frames) := by
  constructor
  · obtain ⟨position, _, hwithin⟩ := (within_withInput bytes).run ops
    obtain ⟨position', hle, hwithin'⟩ := hwithin.run more
    refine ⟨position, position', hle, hwithin, ?_⟩
    rw [run_append, List.flatMap_append, ← List.append_assoc]
    exact hwithin'
  · intro e op
    refine ⟨fun hreads => ?_, fun hwrites => ?_, fun hwhole d hok => ?_⟩
    · exact ⟨output_perform_of_reads hreads e, unread_perform_of_reads hreads e⟩
    · exact source_perform_of_writes hwrites e
    · exact frames_perform_of_readsWhole hwhole hok

/-- A struct that begins too early, and then arrives. -/
def earlyOps : List Operation :=
  [.read .structBegin, .read .fieldBegin, .feed [8, 0, 1, 0, 0, 0, 3, 0], .write (.bool true),
    .skip WireType.struct.tag]

/-- The endpoint at which the skip of `earlyOps` starts, with a frame left open. -/
def beforeSkip : Endpoint where
  source := { unread := [8, 0, 1, 0, 0, 0, 3, 0], frames := 1 }
  output := [1]

theorem run_within_earlyOps :
    (∃ position position', position ≤ position' ∧
      ((withInput []).run earlyOps).2.Within ([] ++ earlyOps.flatMap Operation.arriving) position ∧
      ((withInput []).run (earlyOps ++ earlyOps)).2.Within
        ([] ++ (earlyOps ++ earlyOps).flatMap Operation.arriving) position') ∧
    (beforeSkip.perform (.skip WireType.struct.tag)).1 = .ok .nothing ∧
    (beforeSkip.perform (.skip WireType.struct.tag)).2.source.frames = 1 ∧
    (beforeSkip.perform (.skip WireType.struct.tag)).2.output = [1] ∧
    (beforeSkip.perform (.write (.bool true))).2.source = beforeSkip.source :=
  have hsession := run_within [] earlyOps earlyOps
  have hskip := hsession.2 beforeSkip (.skip WireType.struct.tag)
  have hwrite := hsession.2 beforeSkip (.write (.bool true))
  ⟨hsession.1, rfl, hskip.2.2 rfl .nothing rfl, (hskip.1 rfl).1, (hwrite.2.1 rfl).2⟩

end Endpoint

end WireIdl

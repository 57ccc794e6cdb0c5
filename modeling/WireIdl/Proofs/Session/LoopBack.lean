import Mathlib.Data.List.Infix
import WireIdl.Proofs.Client.Request
import WireIdl.Session

/-! An endpoint that is fed with its own output reads what it has written, step by step. -/

namespace WireIdl

namespace WriteStep

/-- The step that reads what is written. -/
def matching : WriteStep → ReadStep
  | .messageBegin _ => .messageBegin
  | .structBegin _ => .structBegin
  | .fieldBegin _ _ _ | .fieldStop => .fieldBegin
  | .listBegin _ _ => .listBegin
  | .setBegin _ _ => .setBegin
  | .mapBegin _ _ _ => .mapBegin
  | .finish part => .finish part
  | .bool _ => .bool
  | .byte _ => .byte
  | .i16 _ => .i16
  | .i32 _ => .i32
  | .i64 _ => .i64
  | .double _ => .double
  | .string _ => .string
  | .binary _ => .binary

/-- What of a step travels. -/
def datum : WriteStep → Datum
  | .messageBegin header => .message header
  | .structBegin _ | .finish _ => .nothing
  | .fieldBegin _ id tag => .field ⟨tag, id⟩
  | .fieldStop => .field ⟨Tag.stop, 0⟩
  | .listBegin element size | .setBegin element size => .items ⟨element, size.toInt.toNat⟩
  | .mapBegin key value size => .entries ⟨key, value, size.toInt.toNat⟩
  | .bool v => .value (.bool v)
  | .byte v => .value (.byte v)
  | .i16 v => .value (.i16 v)
  | .i32 v => .value (.i32 v)
  | .i64 v => .value (.i64 v)
  | .double v => .value (.double v)
  | .string v => .value (.string .owned v)
  | .binary v => .value (.binary v)

/-- No field has the tag of a stop, no container is announced with a negative size, and no text is
too long for its length. -/
def Admitted : WriteStep → Prop
  | .messageBegin header => (Bytes.ofString header.name).length < 2 ^ 31
  | .fieldBegin _ _ tag => tag ≠ Tag.stop
  | .listBegin _ size | .setBegin _ size | .mapBegin _ _ size => 0 ≤ size
  | .string v => (Bytes.ofString v).length < 2 ^ 31
  | .binary v => v.length < 2 ^ 31
  | _ => True

instance : DecidablePred Admitted
  | .messageBegin header =>
      inferInstanceAs (Decidable ((Bytes.ofString header.name).length < 2 ^ 31))
  | .fieldBegin _ _ tag => inferInstanceAs (Decidable (tag ≠ Tag.stop))
  | .listBegin _ size | .setBegin _ size | .mapBegin _ _ size =>
      inferInstanceAs (Decidable (0 ≤ size))
  | .string v => inferInstanceAs (Decidable ((Bytes.ofString v).length < 2 ^ 31))
  | .binary v => inferInstanceAs (Decidable (v.length < 2 ^ 31))
  | .structBegin _ | .fieldStop | .finish _ | .bool _ | .byte _ | .i16 _ | .i32 _ | .i64 _
  | .double _ => .isTrue trivial

/-- How many frames are open for a reader behind a step. -/
def framesAfter (frames : Nat) : WriteStep → Nat
  | .messageBegin _ => 0
  | .structBegin _ => frames + 1
  | .finish .struct => frames - 1
  | _ => frames

/-- The steps that a step may be written with: itself, or the parts of a message header without a
version. -/
inductive Spelled : WriteStep → List WriteStep → Prop where
  | plain (step : WriteStep) : Spelled step [step]
  | legacy (header : MessageHeader) :
      Spelled (.messageBegin header)
        [.string header.name, .byte header.type.code.toInt8, .i32 header.seqId]

/-- The bytes are read as what they were written for, whatever follows and whatever is open. -/
def ReadsBack (step : WriteStep) (bytes : Bytes) : Prop :=
  ∀ rest frames, framesAfter frames step ≤ maxFrames →
    step.matching.reader ⟨bytes ++ rest, frames⟩ = .ok step.datum ⟨rest, framesAfter frames step⟩

def Writes (step : WriteStep) (bytes : Bytes) : Prop :=
  step.output = .ok bytes

theorem readsBack_of_eq_ok {α : Type} {step : WriteStep} {bytes : Bytes} {reader : Reader α}
    {make : α → Datum} {a : α} (hread : ∀ rest : Source, reader (rest.prepend bytes) = .ok a rest)
    (hreader : step.matching.reader = reader >>= fun a => pure (make a))
    (hdatum : step.datum = make a) (hframes : ∀ frames, framesAfter frames step = frames) :
    step.ReadsBack bytes := by
  intro rest frames _
  rw [hframes, hreader, hdatum]
  exact Reader.bind_pure_eq_ok.mpr ⟨a, hread ⟨rest, frames⟩, rfl⟩

theorem readsBack_structBegin (name : String) : (structBegin name).ReadsBack [] := by
  intro rest frames hframes
  have hopen : frames < maxFrames := hframes
  exact Reader.bind_eq_ok.mpr ⟨(), _, Reader.openFrame_of_lt hopen, rfl⟩

theorem readsBack_finish (part : Part) : (finish part).ReadsBack [] := by
  intro rest frames _
  cases part <;> rfl

theorem readsBack_header {header : MessageHeader} {bytes : Bytes} (h : header.Written bytes) :
    (messageBegin header).ReadsBack bytes := by
  intro rest frames _
  exact Reader.bind_pure_eq_ok.mpr ⟨header, Reader.messageHeader_eq_ok h rest frames, rfl⟩

theorem itemsHeader_of_size {element : Tag} {size : Int32} (hsize : 0 ≤ size) (rest : Source) :
    Reader.itemsHeader (rest.prepend (Encoding.itemsHeader element size)) =
      .ok ⟨element, size.toInt.toNat⟩ rest := by
  rw [Reader.itemsHeader_eq_ok, Int32.toNat_toInt, Int32.ofNat_toNatClampNeg size hsize]
  exact ⟨size.toNatClampNeg_lt, rfl⟩

theorem entriesHeader_of_size {key value : Tag} {size : Int32} (hsize : 0 ≤ size)
    (rest : Source) :
    Reader.entriesHeader (rest.prepend (Encoding.entriesHeader key value size)) =
      .ok ⟨key, value, size.toInt.toNat⟩ rest := by
  rw [Reader.entriesHeader_eq_ok, Int32.toNat_toInt, Int32.ofNat_toNatClampNeg size hsize]
  exact ⟨size.toNatClampNeg_lt, rfl⟩

theorem bool_encoded (v : Bool) (rest : Source) :
    Reader.bool (rest.prepend (Encoding.bool v)) = .ok v rest := by
  cases v <;> rfl

theorem exists_writes_readsBack {step : WriteStep} (h : step.Admitted) :
    ∃ bytes, step.Writes bytes ∧ step.ReadsBack bytes := by
  cases step with
  | messageBegin header =>
      exact ⟨_, MessageHeader.encode_eq_ok h, readsBack_header (.strict 0 h)⟩
  | structBegin name => exact ⟨_, rfl, readsBack_structBegin name⟩
  | finish part => exact ⟨_, rfl, readsBack_finish part⟩
  | fieldBegin name id tag =>
      have hread : ∀ rest : Source,
          Reader.fieldHeader (rest.prepend (Encoding.fieldHeader id tag)) =
          .ok ⟨tag, id⟩ rest := fun _ => Reader.fieldHeader_eq_ok.mpr (.inr ⟨h, rfl⟩)
      exact ⟨_, rfl, readsBack_of_eq_ok hread rfl rfl fun _ => rfl⟩
  | fieldStop =>
      have hread : ∀ rest : Source, Reader.fieldHeader (rest.prepend Encoding.fieldStop) =
          .ok ⟨Tag.stop, 0⟩ rest := fun _ => Reader.fieldHeader_eq_ok.mpr (.inl ⟨rfl, rfl⟩)
      exact ⟨_, rfl, readsBack_of_eq_ok hread rfl rfl fun _ => rfl⟩
  | listBegin element size | setBegin element size =>
      exact ⟨_, rfl, readsBack_of_eq_ok (itemsHeader_of_size h) rfl rfl fun _ => rfl⟩
  | mapBegin key value size =>
      exact ⟨_, rfl, readsBack_of_eq_ok (entriesHeader_of_size h) rfl rfl fun _ => rfl⟩
  | bool v => exact ⟨_, rfl, readsBack_of_eq_ok (bool_encoded v) rfl rfl fun _ => rfl⟩
  | byte v => exact ⟨Bytes.ofI8 v, rfl, fun _ _ _ => rfl⟩
  | i16 v =>
      exact ⟨_, rfl, readsBack_of_eq_ok (fun _ => Reader.i16_eq_ok.mpr rfl) rfl rfl fun _ => rfl⟩
  | i32 v =>
      exact ⟨_, rfl, readsBack_of_eq_ok (fun _ => Reader.i32_eq_ok.mpr rfl) rfl rfl fun _ => rfl⟩
  | i64 v =>
      exact ⟨_, rfl, readsBack_of_eq_ok (fun _ => Reader.i64_eq_ok.mpr rfl) rfl rfl fun _ => rfl⟩
  | double v =>
      exact ⟨_, rfl, readsBack_of_eq_ok (fun _ => Reader.double_eq_ok.mpr rfl) rfl rfl fun _ => rfl⟩
  | string v =>
      have hread := Target.readString_eq_ok h (Bytes.toString?_ofString v)
      exact ⟨_, Encoding.binary_of_lt h, readsBack_of_eq_ok hread rfl rfl fun _ => rfl⟩
  | binary v =>
      have hread : ∀ rest : Source, Reader.binary
          (rest.prepend (Bytes.ofI32 (Int32.ofNat v.length) ++ v)) = .ok v rest :=
        fun _ => Reader.binary_eq_ok.mpr ⟨h, rfl⟩
      exact ⟨_, Encoding.binary_of_lt h, readsBack_of_eq_ok hread rfl rfl fun _ => rfl⟩

theorem Spelled.exists_chunks {step : WriteStep} {spelling : List WriteStep}
    (h : step.Spelled spelling) (hstep : step.Admitted) :
    ∃ chunks, List.Forall₂ Writes spelling chunks ∧ step.ReadsBack chunks.flatten := by
  cases h with
  | plain =>
      obtain ⟨bytes, hwrites, hreads⟩ := exists_writes_readsBack hstep
      refine ⟨[bytes], .cons hwrites .nil, ?_⟩
      rw [List.flatten_singleton]
      exact hreads
  | legacy header =>
      have hname : (Bytes.ofString header.name).length < 2 ^ 31 := hstep
      refine ⟨_, .cons (Encoding.binary_of_lt hname) (.cons rfl (.cons rfl .nil)), ?_⟩
      rw [List.flatten_cons, List.flatten_cons, List.flatten_singleton, ← List.append_assoc]
      exact readsBack_header (.legacy hname)

/-- What the spellings of some steps write, and that it is read back step by step. -/
theorem exists_chunks {steps : List WriteStep} {spellings : List (List WriteStep)}
    (hspelled : List.Forall₂ Spelled steps spellings) (hsteps : ∀ step ∈ steps, step.Admitted) :
    ∃ chunks, List.Forall₂ Writes spellings.flatten chunks.flatten ∧
      List.Forall₂ (fun step chunk => step.ReadsBack chunk.flatten) steps chunks := by
  induction hspelled with
  | nil => exact ⟨[], .nil, .nil⟩
  | cons hfirst _ ih =>
      rw [List.forall_mem_cons] at hsteps
      obtain ⟨first, hwrites, hreads⟩ := hfirst.exists_chunks hsteps.1
      obtain ⟨chunks, hwritesAll, hreadsAll⟩ := ih hsteps.2
      exact ⟨first :: chunks, List.rel_append hwrites hwritesAll, .cons hreads hreadsAll⟩

/-- How many frames are open for a reader behind some steps. -/
def openFrames (frames : Nat) (steps : List WriteStep) : Nat :=
  steps.foldl framesAfter frames

end WriteStep

namespace Endpoint

open WriteStep

theorem run_writes {steps : List WriteStep} {chunks : List Bytes}
    (h : List.Forall₂ Writes steps chunks) (e : Endpoint) :
    e.run (steps.map .write) =
      (steps.map fun _ => .ok .nothing, { e with output := e.output ++ chunks.flatten }) := by
  induction h generalizing e with
  | nil => simp [run]
  | @cons step chunk steps chunks hfirst _ ih =>
      have hstep : e.perform (.write step) =
          (.ok .nothing, { e with output := e.output ++ chunk }) := by
        simp only [perform, write, show step.output = .ok chunk from hfirst]
        rfl
      rw [List.map_cons, run_cons, hstep, ih, List.flatten_cons, ← List.append_assoc]
      rfl

theorem run_reads {steps : List WriteStep} {chunks : List Bytes}
    (h : List.Forall₂ ReadsBack steps chunks) {e : Endpoint} {rest : Bytes} {frames : Nat}
    (hsource : e.source = ⟨chunks.flatten ++ rest, frames⟩)
    (hframes : ∀ beginning ∈ steps.inits, openFrames frames beginning ≤ maxFrames) :
    e.run (steps.map fun step => .read step.matching) =
      (steps.map fun step => .ok step.datum,
        { e with source := ⟨rest, openFrames frames steps⟩ }) := by
  induction h generalizing e frames with
  | nil =>
      rw [List.flatten_nil, List.nil_append] at hsource
      rw [openFrames, List.foldl_nil, ← hsource]
      rfl
  | @cons step chunk steps chunks hfirst _ ih =>
      have hopen : framesAfter frames step ≤ maxFrames :=
        hframes [step] ((List.mem_inits _ _).mpr (List.prefix_append [step] steps))
      have hlater : ∀ beginning ∈ steps.inits,
          openFrames (framesAfter frames step) beginning ≤ maxFrames :=
        fun beginning hmem => hframes (step :: beginning)
          ((List.mem_inits _ _).mpr (List.cons_prefix_cons.mpr ⟨rfl, (List.mem_inits _ _).mp hmem⟩))
      have hstep : e.perform (.read step.matching) = (.ok step.datum,
          { e with source := ⟨chunks.flatten ++ rest, framesAfter frames step⟩ }) := by
        rw [List.flatten_cons, List.append_assoc] at hsource
        rw [perform, read, hsource, hfirst _ _ hopen]
      rw [List.map_cons, run_cons, hstep, ih rfl hlater]
      rfl

/-- What is written in any number of steps is read back by the matching steps, value by value, and
nothing is left, as long as no more frames are open than a reader allows. Message headers may be
written without a version. -/
theorem run_loopBack {steps : List WriteStep} {spellings : List (List WriteStep)}
    (hsteps : ∀ step ∈ steps, step.Admitted)
    (hspelled : List.Forall₂ Spelled steps spellings)
    (hframes : ∀ beginning ∈ steps.inits, openFrames 0 beginning ≤ maxFrames) :
    ∃ written last,
      run {} (spellings.flatten.map .write) =
        (spellings.flatten.map fun _ => .ok .nothing, written) ∧
      written.loopBack.run (steps.map fun step => .read step.matching) =
        (steps.map fun step => .ok step.datum, last) ∧
      last.remaining = 0 := by
  obtain ⟨chunks, hwrites, hreads⟩ := exists_chunks hspelled hsteps
  have hparts : List.Forall₂ ReadsBack steps (chunks.map List.flatten) :=
    List.forall₂_map_right_iff.mpr hreads
  have hsource : (loopBack { output := chunks.flatten.flatten }).source =
      ⟨(chunks.map List.flatten).flatten ++ [], 0⟩ := by
    rw [List.append_nil, ← List.flatten_flatten]
    rfl
  exact ⟨_, _, run_writes hwrites {}, run_reads hparts hsource hframes, rfl⟩

/-- Two messages, of which the first carries a struct with a list in it. -/
def sampleSteps : List WriteStep := [
  .messageBegin ⟨"find", .reply, 9⟩, .structBegin "Input", .fieldBegin "tags" 3 15,
  .listBegin 11 2, .string "a", .string "", .finish .list, .finish .field, .fieldStop,
  .finish .struct, .finish .message, .messageBegin ⟨"ping", .oneway, -1⟩, .i64 (-2)]

def sampleSpellings : List (List WriteStep) :=
  [.string "find", .byte MessageType.reply.code.toInt8, .i32 9] :: sampleSteps.tail.map ([·])

theorem sampleSteps_spelled : List.Forall₂ Spelled sampleSteps sampleSpellings :=
  .cons (.legacy ⟨"find", .reply, 9⟩) (List.forall₂_map_right_iff.mpr
    (List.forall₂_same.mpr fun step _ => .plain step))

theorem run_loopBack_sampleSteps :
    (∀ step ∈ sampleSteps, step.Admitted) ∧ List.Forall₂ Spelled sampleSteps sampleSpellings ∧
      (∀ beginning ∈ sampleSteps.inits, openFrames 0 beginning ≤ maxFrames) ∧
      ∃ written last,
        run {} (sampleSpellings.flatten.map .write) =
          (sampleSpellings.flatten.map fun _ => .ok .nothing, written) ∧
        written.loopBack.run (sampleSteps.map fun step => .read step.matching) =
          (sampleSteps.map fun step => .ok step.datum, last) ∧
        last.remaining = 0 := by
  have hsteps : ∀ step ∈ sampleSteps, step.Admitted := by decide
  have hframes : ∀ beginning ∈ sampleSteps.inits, openFrames 0 beginning ≤ maxFrames := by decide
  exact ⟨hsteps, sampleSteps_spelled, hframes, run_loopBack hsteps sampleSteps_spelled hframes⟩

end Endpoint

end WireIdl

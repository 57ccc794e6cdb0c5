import WireIdl.Proofs.Client.Request
import WireIdl.Proofs.Record.Depth

/-! Runs of a client of the search service. Each operation writes one request, with the number of
the operation as its sequence id, whatever comes back and whether it can be read. -/

namespace WireIdl.Demo

open Reader (TakesIf)

/-- A client of the search service, which holds a client of the base service. -/
abbrev SearchClient :=
  Client [searchId, baseId]

inductive Operation where
  | ping
  | log (line : String)
  | find (query : Value) (limit? : Option Int32)
  | describe (value? : Option Value)

namespace Operation

def method : Operation → Method census
  | .ping => Demo.ping
  | .log _ => Demo.log
  | .find _ _ => Demo.find
  | .describe _ => Demo.describe

/-- The level of the client at which the method is found. -/
def level : Operation → Fin [searchId, baseId].length
  | .ping | .log _ => ⟨1, by decide⟩
  | .find _ _ | .describe _ => ⟨0, by decide⟩

def args : Operation → Slots
  | .ping => []
  | .log line => [some (.string .owned line)]
  | .find query limit? => [some query, limit?.map .i32]
  | .describe value? => [value?]

/-- The arguments that are sent: a limit always is. -/
def sent : Operation → Slots
  | .find query limit? => [some query, some (.i32 (limit?.getD 10))]
  | op => op.args

def messageType : Operation → MessageType
  | .log _ => .oneway
  | _ => .call

def header (op : Operation) (number : Nat) : MessageHeader where
  name := op.method.name
  type := op.messageType
  seqId := Int32.ofNat number

/-- The arguments are values of the declared types and not too long to be written. -/
def Admits (t : Target census) : Operation → Prop
  | .ping => True
  | .log line => (Bytes.ofString line).length < 2 ^ 31
  | .find query _ => t.Fits (.record queryId) query ∧ query.Short
  | .describe value? => ∀ v ∈ value?, t.Fits (.record valueId) v ∧ v.Short

/-- The fields of the arguments on the wire. -/
inductive Sends (t : Target census) : Operation → List (Int16 × WireValue) → Prop where
  | ping : Sends t .ping []
  | log (line : String) : Sends t (.log line) [(1, .string (Bytes.ofString line))]
  | find {query : Value} {w : WireValue} (codes : t.Codes (.record queryId) query w)
      (limit? : Option Int32) :
      Sends t (.find query limit?) [(1, w), (2, .i32 (limit?.getD 10))]
  | describe {value : Value} {w : WireValue} (codes : t.Codes (.record valueId) value w) :
      Sends t (.describe (some value)) [(1, w)]
  | describeNothing : Sends t (.describe none) []

variable {t : Target census} {op : Operation} {parts : List (Int16 × WireValue)}

theorem exists_sends (ht : t ∈ targets) (h : op.Admits t) : ∃ parts, op.Sends t parts := by
  have hids := hasDistinctIds_of_mem_targets ht
  cases op with
  | ping => exact ⟨_, .ping⟩
  | log line => exact ⟨_, .log line⟩
  | find query limit? =>
      obtain ⟨w, hcodes⟩ := h.1.exists_codes hids h.2
      exact ⟨_, .find hcodes limit?⟩
  | describe value? =>
      cases value? with
      | none => exact ⟨_, .describeNothing⟩
      | some value =>
          obtain ⟨hfits, hshort⟩ := h value rfl
          obtain ⟨w, hcodes⟩ := hfits.exists_codes hids hshort
          exact ⟨_, .describe hcodes⟩

theorem withDefaults_args (ht : t ∈ targets) (op : Operation) :
    op.method.withDefaults t op.args = op.sent := by
  obtain rfl | rfl | rfl := mem_targets.mp ht
  all_goals
    cases op with
    | ping | log => rfl
    | find query limit? => cases limit? <;> rfl
    | describe value? => cases value? <;> rfl

theorem Sends.written (hadmits : op.Admits t) (h : op.Sends t parts) :
    t.Written op.method.params op.sent parts := by
  cases h with
  | ping => exact .nil
  | log line => exact .present (Target.codes_string hadmits) .nil
  | find hcodes limit? => exact .present hcodes (.present ⟨rfl, .i32 _, rfl, rfl⟩ .nil)
  | describe hcodes => exact .present hcodes .nil
  | describeNothing => exact .absent rfl .nil

theorem nestsWithin_of_mem_targets : ∀ t ∈ targets,
    t.schema.nestsWithin 2 queryId = true ∧ t.schema.nestsWithin 1 valueId = true := by
  decide

theorem slotFrames_sent (ht : t ∈ targets) (h : op.Admits t) :
    Value.slotFrames op.sent < maxFrames := by
  obtain ⟨hquery, hvalue⟩ := nestsWithin_of_mem_targets t ht
  cases op with
  | ping => decide
  | log line => exact (by decide : 0 < maxFrames)
  | find query limit? =>
      have hframes : query.frames ≤ 2 := h.1.frames_le hquery
      simp only [sent, Value.slotFrames, Value.frames, maxFrames]
      omega
  | describe value? =>
      cases value? with
      | none => decide
      | some value =>
          have hframes : value.frames ≤ 1 := (h value rfl).1.frames_le hvalue
          simp only [sent, args, Value.slotFrames, maxFrames]
          omega

theorem clientMethod?_eq_some (ht : t ∈ targets) (op : Operation) :
    t.clientMethod? .whole [searchId, baseId] op.method.name = some (op.level, op.method) := by
  obtain rfl | rfl | rfl := mem_targets.mp ht <;> cases op <;> rfl

theorem method_spec (op : Operation) : (Bytes.ofString op.method.name).length < 2 ^ 31 ∧
    (op.method.params.map (·.id)).Nodup := by
  have hall : ∀ m ∈ [Demo.ping, Demo.log, Demo.find, Demo.describe],
      (Bytes.ofString m.name).length < 2 ^ 31 ∧ (m.params.map (·.id)).Nodup := by
    decide
  cases op <;> exact hall _ (by simp [method])

theorem request_of_sends (ht : t ∈ targets) (hadmits : op.Admits t) (h : op.Sends t parts)
    (number : Nat) :
    op.method.request t op.args (Int32.ofNat number) = .ok ((op.header number).message parts) := by
  have hwritten := h.written hadmits
  rw [← withDefaults_args ht op] at hwritten
  rw [Method.request_eq_ok op.method_spec.1 hwritten]
  cases op <;> rfl

theorem readRequest_of_sends (ht : t ∈ targets) (hadmits : op.Admits t) (h : op.Sends t parts)
    (number : Nat) (rest : Bytes) (frames : Nat) :
    t.readRequest (t.clientMethods .whole searchId)
        ⟨(op.header number).message parts ++ rest, frames⟩ =
      .ok (op.header number, op.sent) ⟨rest, 0⟩ := by
  have hfind : (t.clientMethods .whole searchId).find? (·.name == op.method.name) =
      some op.method := by
    obtain rfl | rfl | rfl := mem_targets.mp ht <;> cases op <;> rfl
  exact Target.readRequest_eq_ok (hasDistinctIds_of_mem_targets ht) hfind op.method_spec.1
    op.method_spec.2 (h.written hadmits) (slotFrames_sent ht hadmits) rest frames

end Operation

/-- Some bytes arrive, and then an operation is called. -/
structure Turn where
  arriving : Bytes
  op : Operation

def Turn.step (t : Target census) (c : SearchClient) (turn : Turn) : SearchClient :=
  ((c.feed turn.arriving).call t turn.op.method turn.op.args turn.op.level).2

-- What the operations return is not looked at.
def run (t : Target census) (turns : List Turn) : SearchClient :=
  turns.foldl (Turn.step t) (Client.new _)

/-- The bytes that a turn adds to the output, if it is the one with this number. -/
def Turn.Writes (t : Target census) (numbered : Turn × Nat) (frame : Bytes) : Prop :=
  ∃ parts, numbered.1.op.Sends t parts ∧
    frame = (numbered.1.op.header numbered.2).message parts

variable {t : Target census}

/-- A turn changes the base as a call there does, whether the search client makes it or the client
that it holds. -/
theorem base_step (turn : Turn) (c : SearchClient) :
    (turn.step t c).base =
      ((c.base.feed turn.arriving).call t turn.op.method turn.op.args).2 := by
  rw [Turn.step, Client.call_eq, Client.base_withBase, Client.feed, Client.base_withBase]

theorem exists_step (ht : t ∈ targets) {turn : Turn} (hadmits : turn.op.Admits t)
    {c : SearchClient} {count : Nat} (hcount : c.base.seqId = Int32.ofNat count) :
    (turn.step t c).base.seqId = Int32.ofNat (count + 1) ∧
      ∃ frame, Turn.Writes t (turn, count + 1) frame ∧
        (turn.step t c).base.endpoint.output = c.base.endpoint.output ++ frame := by
  have hnext : (c.base.feed turn.arriving).seqId + 1 = Int32.ofNat (count + 1) := by
    rw [Int32.ofNat_add, ← hcount]
    rfl
  obtain ⟨parts, hsends⟩ := Operation.exists_sends ht hadmits
  have hrequest := Operation.request_of_sends ht hadmits hsends (count + 1)
  rw [← hnext] at hrequest
  obtain ⟨hseqId, houtput⟩ := ClientBase.call_sends hrequest
  rw [base_step]
  exact ⟨hseqId.trans hnext, _, ⟨parts, hsends, rfl⟩, houtput⟩

theorem exists_frames (ht : t ∈ targets) {turns : List Turn}
    (hturns : ∀ turn ∈ turns, turn.op.Admits t) {c : SearchClient} {count : Nat}
    (hcount : c.base.seqId = Int32.ofNat count) :
    ∃ frames, List.Forall₂ (Turn.Writes t) (turns.zipIdx (count + 1)) frames ∧
      ∀ taken, ((turns.take taken).foldl (Turn.step t) c).base.endpoint.output =
        c.base.endpoint.output ++ (frames.take taken).flatten := by
  -- What carries the induction is that the sequence id counts the turns, so it holds for any client
  -- that has counted right up to here.
  induction turns generalizing c count with
  | nil =>
      refine ⟨[], .nil, fun taken => ?_⟩
      simp
  | cons turn turns ih =>
      rw [List.forall_mem_cons] at hturns
      obtain ⟨hnext, frame, hframe, houtput⟩ := exists_step ht hturns.1 hcount
      obtain ⟨frames, hframes, hrun⟩ := ih hturns.2 hnext
      refine ⟨frame :: frames, .cons hframe hframes, fun taken => ?_⟩
      cases taken with
      | zero => simp
      | succ taken =>
          rw [List.take_succ_cons, List.foldl_cons, hrun, houtput, List.take_succ_cons,
            List.flatten_cons, List.append_assoc]

theorem collect_frames (ht : t ∈ targets) {turns : List Turn}
    (hturns : ∀ turn ∈ turns, turn.op.Admits t) {frames : List Bytes} {count : Nat}
    (hframes : List.Forall₂ (Turn.Writes t) (turns.zipIdx count) frames) :
    Reader.collect (t.readRequest (t.clientMethods .whole searchId)) turns.length
        ⟨frames.flatten, 0⟩ =
      .ok ((turns.zipIdx count).map fun turn => (turn.1.op.header turn.2, turn.1.op.sent))
        ⟨[], 0⟩ := by
  let reader := t.readRequest (t.clientMethods .whole searchId)
  have hread : List.Forall₂ (fun frame request => TakesIf True reader 0 frame request) frames
      ((turns.zipIdx count).map fun turn => (turn.1.op.header turn.2, turn.1.op.sent)) := by
    rw [List.forall₂_map_right_iff]
    refine (forall₂_imp_of_mem ?_ hframes).flip
    intro numbered hmem frame _ hwrites
    obtain ⟨parts, hsends, rfl⟩ := hwrites
    have hadmits := hturns numbered.1 (List.fst_mem_of_mem_zipIdx hmem)
    exact {
      takes := fun _ rest => Operation.readRequest_of_sends ht hadmits hsends numbered.2 rest 0
      refuses := fun hfalse => absurd trivial hfalse }
  have hcollect : TakesIf (∀ frame ∈ frames, True) (Reader.collect reader frames.length) 0
      (frames.flatMap id) _ := TakesIf.collect hread
  have htaken := hcollect.takes (fun _ _ => trivial) []
  rw [List.append_nil, List.flatMap_id, ← hframes.length_eq, List.length_zipIdx] at htaken
  exact htaken

/-- In any run of a search client, where inherited operations go through the client that it holds,
the output is one request for each operation: a header with a version, the name of the method, its
type and the number of the operation, and then the arguments. Earlier output stays as it is, logging
leaves the input alone, and a server reads the requests back as they were made. -/
theorem run_requests (ht : t ∈ targets) {turns : List Turn}
    (hturns : ∀ turn ∈ turns, turn.op.Admits t) :
    t.schema.serviceChain searchId = [searchId, baseId] ∧
      (∀ turn ∈ turns, t.clientMethod? .whole [searchId, baseId] turn.op.method.name =
        some (turn.op.level, turn.op.method)) ∧
      ∃ frames : List Bytes,
        List.Forall₂ (Turn.Writes t) (turns.zipIdx 1) frames ∧
        (∀ taken, (run t (turns.take taken)).base.endpoint.output =
          (frames.take taken).flatten) ∧
        (∀ before arriving line, before ++ [⟨arriving, .log line⟩] <+: turns →
          (run t (before ++ [⟨arriving, .log line⟩])).base.endpoint.source =
            ((run t before).feed arriving).base.endpoint.source) ∧
        Reader.collect (t.readRequest (t.clientMethods .whole searchId)) turns.length
            ⟨(run t turns).base.endpoint.output, 0⟩ =
          .ok ((turns.zipIdx 1).map fun turn => (turn.1.op.header turn.2, turn.1.op.sent))
            ⟨[], 0⟩ := by
  have hchain : t.schema.serviceChain searchId = [searchId, baseId] := by
    obtain rfl | rfl | rfl := mem_targets.mp ht <;> decide
  have hstart : (Client.new [searchId, baseId]).base.seqId = Int32.ofNat 0 := rfl
  obtain ⟨frames, hframes, houtput⟩ := exists_frames ht hturns hstart
  refine ⟨hchain, fun turn _ => Operation.clientMethod?_eq_some ht turn.op, frames, hframes,
    houtput, fun before arriving line _ => ?_, ?_⟩
  · rw [run, List.foldl_append, List.foldl_cons, List.foldl_nil, base_step, Client.feed,
      Client.base_withBase]
    exact ClientBase.source_call_of_oneWay rfl
  · have hlength := hframes.length_eq
    rw [List.length_zipIdx] at hlength
    have hall := houtput turns.length
    rw [List.take_length, hlength, List.take_length] at hall
    rw [run, hall]
    exact collect_frames ht hturns hframes

def greenQuery : Value :=
  .record [some (.string .owned "q"), some (.i64 0),
    some (.record [some (.string .owned "n"), some (.enum 2), none, none])]

theorem greenQuery_fits : hashed.Fits (.record queryId) greenQuery := by
  have hinput : hashed.Fits (.record inputId)
      (.record [some (.string .owned "n"), some (.enum 2), none, none]) :=
    Target.fits_record_iff.mpr
      ⟨.cons (.string "n") (.cons (.enum rfl) (.cons rfl (.cons rfl .nil))), rfl⟩
  exact Target.fits_record_iff.mpr ⟨.cons (.string "q") (.cons (.i64 0) (.cons hinput .nil)), rfl⟩

theorem greenQuery_short : greenQuery.Short := by
  refine .record fun slot hslot v hv => ?_
  simp only [List.mem_cons, List.not_mem_nil, or_false] at hslot
  obtain rfl | rfl | rfl := hslot
  · cases hv
    exact .string (by decide)
  · cases hv
    exact .i64 0
  · cases hv
    refine .record fun slot hslot v hv => ?_
    simp only [List.mem_cons, List.not_mem_nil, or_false] at hslot
    obtain rfl | rfl | rfl | rfl := hslot
    · cases hv
      exact .string (by decide)
    · cases hv
      exact .enum 2
    · cases hv
    · cases hv

/-- Nothing that arrives is an answer, and part of it is left for a later operation. -/
def sampleTurns : List Turn := [
  ⟨[0x80, 1], .find greenQuery none⟩,
  ⟨[], .log "x"⟩,
  ⟨[7, 7, 7], .ping⟩,
  ⟨[], .describe none⟩]

theorem run_sampleTurns :
    hashed ∈ targets ∧ (∀ turn ∈ sampleTurns, turn.op.Admits hashed) ∧
      Reader.collect (hashed.readRequest (hashed.clientMethods .whole searchId)) 4
          ⟨(run hashed sampleTurns).base.endpoint.output, 0⟩ =
        .ok [(⟨"find", .call, 1⟩, [some greenQuery, some (.i32 10)]),
          (⟨"log", .oneway, 2⟩, [some (.string .owned "x")]),
          (⟨"ping", .call, 3⟩, []),
          (⟨"describe", .call, 4⟩, [none])] ⟨[], 0⟩ := by
  have hmem : hashed ∈ targets := List.mem_cons_self
  have hadmits : ∀ turn ∈ sampleTurns, turn.op.Admits hashed := by
    intro turn hturn
    simp only [sampleTurns, List.mem_cons, List.not_mem_nil, or_false] at hturn
    obtain rfl | rfl | rfl | rfl := hturn
    · exact ⟨greenQuery_fits, greenQuery_short⟩
    · exact (by decide : (Bytes.ofString "x").length < 2 ^ 31)
    · exact trivial
    · exact fun v hv => by cases hv
  obtain ⟨_, _, _, _, _, _, hread⟩ := run_requests hmem hadmits
  exact ⟨hmem, hadmits, hread⟩

end WireIdl.Demo

import WireIdl.Proofs.Client.Answer
import WireIdl.Proofs.Lists
import WireIdl.Proofs.Record.RoundTrip

/-! A call from its request to its outcome. What is short enough can be written, so the outcome is
that of the answer. -/

namespace WireIdl

variable {n : Census}

theorem Output.exists_append {output more : Output} (h : ∃ bytes, output = .ok bytes)
    (hmore : ∃ bytes, more = .ok bytes) : ∃ bytes, output ++ more = .ok bytes := by
  obtain ⟨bytes, rfl⟩ := h
  obtain ⟨others, rfl⟩ := hmore
  exact ⟨bytes ++ others, rfl⟩

namespace Schema

variable {s : Schema n}

theorem exists_encodeItems {items : List Value}
    (h : ∀ item ∈ items, ∀ shape, ∃ bytes, s.encode shape item = .ok bytes) (shape : Shape n) :
    ∃ bytes, s.encodeItems shape items = .ok bytes := by
  induction items with
  | nil => exact ⟨[], rfl⟩
  | cons item items ih =>
      rw [List.forall_mem_cons] at h
      exact Output.exists_append (h.1 shape) (ih h.2)

theorem exists_encodeEntries {keyShape valueShape : Shape n} {entries : List (Value × Value)}
    (hkeys : ∀ entry ∈ entries, ∀ shape, ∃ bytes, s.encode shape entry.1 = .ok bytes)
    (hvalues : ∀ entry ∈ entries, ∀ shape, ∃ bytes, s.encode shape entry.2 = .ok bytes) :
    ∃ bytes, s.encodeEntries keyShape valueShape entries = .ok bytes := by
  induction entries with
  | nil => exact ⟨[], rfl⟩
  | cons entry entries ih =>
      rw [List.forall_mem_cons] at hkeys hvalues
      have hentry := Output.exists_append (hkeys.1 keyShape) (hvalues.1 valueShape)
      exact Output.exists_append hentry (ih hkeys.2 hvalues.2)

theorem exists_encodeFields {slots : Slots}
    (h : ∀ slot ∈ slots, ∀ v ∈ slot, ∀ shape, ∃ bytes, s.encode shape v = .ok bytes)
    (fields : List (Field n)) : ∃ bytes, s.encodeFields fields slots = .ok bytes := by
  induction slots generalizing fields with
  | nil => exact ⟨_, rfl⟩
  | cons slot slots ih =>
      rw [List.forall_mem_cons] at h
      cases slot with
      | none => exact ih h.2 fields.tail
      | some v =>
          cases fields with
          | nil => exact ⟨_, rfl⟩
          | cons field fields =>
              have hfirst := h.1 v rfl (s.shape field.ty)
              exact Output.exists_append (Output.exists_append ⟨_, rfl⟩ hfirst) (ih h.2 fields)

theorem exists_encode {v : Value} (h : v.Short) (shape : Shape n) :
    ∃ bytes, s.encode shape v = .ok bytes := by
  induction h generalizing shape with
  | bool | byte | ubyte | i16 | i32 | i64 | double | enum => exact ⟨_, rfl⟩
  | string hlength | binary hlength => exact ⟨_, Encoding.binary_of_lt hlength⟩
  | @option v _ ih =>
      cases v with
      | none => exact ⟨[], rfl⟩
      | some v => exact ih v rfl shape
  | pointer _ ih => exact ih shape
  | seq hlength _ ih | set hlength _ ih =>
      rw [encode, Encoding.sized_of_lt hlength]
      exact Output.exists_append ⟨_, rfl⟩ (exists_encodeItems ih shape.element)
  | map hlength _ _ ihKeys ihValues =>
      rw [encode, Encoding.sized_of_lt hlength]
      exact Output.exists_append ⟨_, rfl⟩ (exists_encodeEntries ihKeys ihValues)
  | record _ ih => exact exists_encodeFields ih (shape.fields s)

end Schema

namespace Method

variable {t : Target n} {m : Method n} {args : Slots}

theorem withDefaults_short (hdefaults : ∀ param ∈ m.params, ∀ v ∈ t.defaultValue? param, v.Short)
    (hargs : ∀ slot ∈ args, ∀ v ∈ slot, v.Short) :
    ∀ slot ∈ m.withDefaults t args, ∀ v ∈ slot, v.Short := by
  intro slot hslot v hv
  rw [withDefaults, ← List.map_uncurry_zip_eq_zipWith] at hslot
  obtain ⟨⟨param, arg⟩, hpair, rfl⟩ := List.mem_map.mp hslot
  obtain ⟨hparam, harg⟩ := List.of_mem_zip hpair
  cases arg with
  | none => exact hdefaults param hparam v hv
  | some u => exact hargs (some u) harg v hv

theorem exists_request (hname : (Bytes.ofString m.name).length < 2 ^ 31)
    (hargs : ∀ slot ∈ m.withDefaults t args, ∀ v ∈ slot, v.Short) (seqId : Int32) :
    ∃ sent, m.request t args seqId = .ok sent := by
  have hfields := Schema.exists_encodeFields (s := t.schema)
    (fun slot hslot v hv => Schema.exists_encode (hargs slot hslot v hv)) m.params
  have hstring : ∃ bytes, Encoding.string m.name = .ok bytes := ⟨_, Encoding.binary_of_lt hname⟩
  have hheader : ∃ bytes, Encoding.messageHeader ⟨m.name, m.messageType, seqId⟩ = .ok bytes :=
    Output.exists_append (Output.exists_append ⟨_, rfl⟩ hstring) ⟨_, rfl⟩
  exact Output.exists_append hheader hfields

end Method

section

variable {t : Target n} {m : Method n} {args : Slots} {sent unread : Bytes}

/-- What all clients of a chain share after a call: the request is written, and some bytes are left
to be read. -/
def ClientBase.after (c : ClientBase) (sent unread : Bytes) : ClientBase where
  endpoint := { source := { unread }, output := c.endpoint.output ++ sent }
  seqId := c.seqId + 1

theorem ClientBase.call_eq {c : ClientBase} (htwoWay : m.oneWay = false)
    (hsent : m.request t args (c.seqId + 1) = .ok sent) :
    c.call t m args =
      match m.answer t (c.seqId + 1) c.endpoint.source with
      | .ok outcome source =>
          (outcome, ⟨⟨source, c.endpoint.output ++ sent⟩, c.seqId + 1⟩)
      | .error fault source =>
          (.error (.wire fault), ⟨⟨source, c.endpoint.output ++ sent⟩, c.seqId + 1⟩) := by
  simp only [call, Endpoint.write, Endpoint.read, hsent, htwoWay, Output.result, Output.bytes]
  cases m.answer t (c.seqId + 1) c.endpoint.source <;> rfl

namespace Client

variable {chain : List (Fin n.services)} {c : Client chain} {level : Fin chain.length}

theorem base_withBase (base : ClientBase) (c : Client chain) : (c.withBase base).base = base := by
  induction c with
  | root held => rfl
  | child parent ih => exact ih

/-- A client and those it holds have one counter and one endpoint: at whatever level a method is
called, the call is made at the base. -/
theorem call_eq (level : Fin chain.length) (c : Client chain) :
    c.call t m args level =
      ((c.base.call t m args).1, c.withBase (c.base.call t m args).2) := by
  induction c with
  | root held => exact level.elim0
  | child parent ih =>
      obtain ⟨level, hlevel⟩ := level
      cases level with
      | zero => rfl
      | succ level =>
          simp only [call, base, withBase]
          rw [ih ⟨level, Nat.lt_of_succ_lt_succ hlevel⟩]

/-- A client of which the base has made a call. -/
def after (c : Client chain) (sent unread : Bytes) : Client chain :=
  c.withBase (c.base.after sent unread)

theorem call_of_answer (htwoWay : m.oneWay = false)
    (hsent : m.request t args (c.base.seqId + 1) = .ok sent)
    {outcome : Except (CallFault n) (Option Value)}
    (h : m.answer t (c.base.seqId + 1) c.base.endpoint.source = .ok outcome ⟨unread, 0⟩) :
    c.call t m args level = (outcome, c.after sent unread) := by
  rw [call_eq, ClientBase.call_eq htwoWay hsent, h]
  rfl

theorem call_of_fault (htwoWay : m.oneWay = false)
    (hsent : m.request t args (c.base.seqId + 1) = .ok sent) {fault : Fault}
    (h : m.answer t (c.base.seqId + 1) c.base.endpoint.source = .error fault ⟨unread, 0⟩) :
    c.call t m args level = (.error (.wire fault), c.after sent unread) := by
  rw [call_eq, ClientBase.call_eq htwoWay hsent, h]
  rfl

end Client

end

namespace Demo

/-- The methods that have an answer. -/
def twoWay : List (Method census) :=
  [ping, find, describe]

theorem mem_twoWay {m : Method census} : m ∈ twoWay ↔ m = ping ∨ m = find ∨ m = describe := by
  simp only [twoWay, List.mem_cons, List.not_mem_nil, or_false]

theorem oneWay_of_mem_twoWay {m : Method census} (h : m ∈ twoWay) : m.oneWay = false := by
  obtain rfl | rfl | rfl := mem_twoWay.mp h <;> rfl

theorem nodup_replyFields : ∀ t ∈ targets, ∀ m ∈ twoWay,
    ((m.replyFields t).map (·.id)).Nodup := by
  decide

theorem default_eq_of_mem_params {t : Target census} (ht : t ∈ targets) {m : Method census}
    (hm : m ∈ twoWay) {param : Field census} (hparam : param ∈ m.params) {v : Value}
    (hv : t.defaultValue? param = some v) : v = .i32 10 := by
  obtain rfl | rfl | rfl := mem_twoWay.mp hm
  · cases hparam
  · obtain rfl | hlimit := List.mem_cons.mp hparam
    · obtain rfl | rfl | rfl := mem_targets.mp ht <;> cases hv
    · rw [List.mem_singleton.mp hlimit] at hv
      obtain rfl | rfl | rfl := mem_targets.mp ht <;> exact (Option.some.inj hv).symm
  · rw [List.mem_singleton.mp hparam] at hv
    obtain rfl | rfl | rfl := mem_targets.mp ht <;> cases hv

theorem exists_sent {t : Target census} (ht : t ∈ targets) {m : Method census} (hm : m ∈ twoWay)
    {args : Slots} (hargs : ∀ slot ∈ args, ∀ v ∈ slot, v.Short) (seqId : Int32) :
    ∃ sent, m.request t args seqId = .ok sent := by
  have hname : ∀ m ∈ twoWay, (Bytes.ofString m.name).length < 2 ^ 31 := by
    decide
  refine Method.exists_request (hname m hm) (Method.withDefaults_short ?_ hargs) seqId
  intro param hparam v hv
  rw [default_eq_of_mem_params ht hm hparam hv]
  exact .i32 10

theorem outcome_ping {t : Target census} (ht : t ∈ targets)
    (slot : KnownField census → Option Value) :
    ping.outcome t ((ping.replyFields t).map slot) = .ok none := by
  obtain rfl | rfl | rfl := mem_targets.mp ht <;> rfl

theorem outcome_find {t : Target census} (ht : t ∈ targets)
    (slot : KnownField census → Option Value) :
    find.outcome t ((find.replyFields t).map slot) =
      match slot ⟨0, t.shape find.returns⟩, slot ⟨1, .record notFoundId⟩ with
      | some v, _ => .ok (some v)
      | none, some v => .error (.exception
          { id := 1, name := "notFound", ty := .record .exception notFoundId } v)
      | none, none => .error .missingResult := by
  have hslots : (find.replyFields t).map slot =
      [slot ⟨0, t.shape find.returns⟩, slot ⟨1, .record notFoundId⟩] := by
    obtain rfl | rfl | rfl := mem_targets.mp ht <;> rfl
  rw [hslots]
  cases slot ⟨0, t.shape find.returns⟩ with
  | some v => obtain rfl | rfl | rfl := mem_targets.mp ht <;> rfl
  | none =>
      cases slot ⟨1, .record notFoundId⟩ <;> obtain rfl | rfl | rfl := mem_targets.mp ht <;> rfl

theorem outcome_describe {t : Target census} (ht : t ∈ targets)
    (slot : KnownField census → Option Value) :
    describe.outcome t ((describe.replyFields t).map slot) =
      match slot ⟨0, .string⟩ with
      | some v => .ok (some v)
      | none => .error .missingResult := by
  have hslots : (describe.replyFields t).map slot = [slot ⟨0, .string⟩] := by
    obtain rfl | rfl | rfl := mem_targets.mp ht <;> rfl
  rw [hslots]
  cases slot ⟨0, .string⟩ <;> obtain rfl | rfl | rfl := mem_targets.mp ht <;> rfl

/-- The outcome of a call. Another sequence id comes before everything else, then the type of the
message; in a reply a result comes before an exception, wherever they stand. -/
theorem call_outcome {t : Target census} (ht : t ∈ targets) {m : Method census} (hm : m ∈ twoWay)
    {args : Slots} (hargs : ∀ slot ∈ args, ∀ v ∈ slot, v.Short)
    {chain : List (Fin census.services)} (level : Fin chain.length) {c : Client chain}
    {header : MessageHeader} {start body rest : Bytes} (hheader : header.Written start)
    (hinput : c.base.endpoint.source.unread = start ++ (body ++ rest)) :
    ∃ sent, m.request t args (c.base.seqId + 1) = .ok sent ∧
      (header.seqId ≠ c.base.seqId + 1 →
        c.call t m args level = (.error (.wire (.badSequenceId (c.base.seqId + 1) header.seqId)),
          c.after sent (body ++ rest))) ∧
      (header.seqId = c.base.seqId + 1 →
        (header.type = .call ∨ header.type = .oneway →
          c.call t m args level = (.error (.application
              { kind := .invalidMessageType
                text := "expected a reply, got " ++ header.type.name }),
            c.after sent (body ++ rest))) ∧
        (header.type = .exception → ∀ parts, body = (WireValue.struct parts).bytes →
          (∀ part ∈ parts, Failure.Admits part) →
          c.call t m args level = (.error (.application (Failure.reported parts)),
            c.after sent rest)) ∧
        (header.type = .reply → ∀ parts, body = (WireValue.struct parts).bytes →
          (∀ part ∈ parts, t.AdmitsPart (m.replyFields t) part) →
          (m = ping → c.call t m args level = (.ok none, c.after sent rest)) ∧
          (m = find → c.call t m args level =
            ((match t.lastValue? parts ⟨0, t.shape find.returns⟩,
                t.lastValue? parts ⟨1, .record notFoundId⟩ with
              | some v, _ => .ok (some v)
              | none, some v => .error (.exception
                  { id := 1, name := "notFound", ty := .record .exception notFoundId } v)
              | none, none => .error .missingResult), c.after sent rest)) ∧
          (m = describe → c.call t m args level =
            ((match t.lastValue? parts ⟨0, .string⟩ with
              | some v => .ok (some v)
              | none => .error .missingResult), c.after sent rest)))) := by
  obtain ⟨sent, hsent⟩ := exists_sent ht hm hargs (c.base.seqId + 1)
  have htwoWay := oneWay_of_mem_twoWay hm
  have hsource :
      c.base.endpoint.source = ⟨start ++ (body ++ rest), c.base.endpoint.source.frames⟩ := by
    rw [← hinput]
  refine ⟨sent, hsent, fun hid => ?_, fun hid => ⟨fun htype => ?_, ?_, ?_⟩⟩
  · refine Client.call_of_fault htwoWay hsent ?_
    rw [hsource]
    exact Method.answer_of_ne hheader hid _
  · refine Client.call_of_answer htwoWay hsent ?_
    rw [hsource]
    exact Method.answer_unexpected hheader hid htype _
  · intro htype parts hbody hparts
    subst hbody
    refine Client.call_of_answer htwoWay hsent ?_
    rw [hsource]
    exact Method.answer_exception hheader hid htype hparts _
  · intro htype parts hbody hparts
    subst hbody
    have hcall : c.call t m args level =
        (m.outcome t ((m.replyFields t).map (t.lastValue? parts)), c.after sent rest) := by
      refine Client.call_of_answer htwoWay hsent ?_
      rw [hsource]
      exact Method.answer_reply (hasDistinctIds_of_mem_targets ht) (nodup_replyFields t ht m hm)
        hheader hid htype hparts _
    refine ⟨?_, ?_, ?_⟩
    · rintro rfl
      rw [hcall, outcome_ping ht]
    · rintro rfl
      rw [hcall, outcome_find ht]
    · rintro rfl
      rw [hcall, outcome_describe ht]

/-- An exception, a field that is not declared, and then a result. -/
def lateResult : List (Int16 × WireValue) :=
  [(1, .struct [(1, .string [0x67, 0x6f])]), (7, .i32 5), (0, .list 0x0c [])]

def sampleQuery : Value :=
  .record [some (.string .owned "text"), some (.i64 0),
    some (.record [some (.string .owned "name"), none, none, none])]

/-- A search client of which the next call is answered by `lateResult`, with the length of the name
first in the header, and three bytes behind the answer. -/
def answered : Client [searchId, baseId] :=
  (Client.new _).feed ([0, 0, 0, 1, 0x66, 2, 0, 0, 0, 1] ++
    ((WireValue.struct lateResult).bytes ++ [1, 2, 3]))

theorem lateResult_admitted :
    ∀ part ∈ lateResult, hashed.AdmitsPart (find.replyFields hashed) part := by
  have hknown : find.replyFields hashed =
      [⟨0, hashed.shape find.returns⟩, ⟨1, .record notFoundId⟩] := rfl
  have hexception : hashed.valueOf? (.record notFoundId) (.struct [(1, .string [0x67, 0x6f])]) =
      some (.record [some (.string .owned "go")]) := rfl
  intro part hmem
  rw [hknown]
  simp only [lateResult, List.mem_cons, List.not_mem_nil, or_false] at hmem
  obtain rfl | rfl | rfl := hmem
  · refine ⟨.struct fun part hmem => ?_, fun field hfield hid => ?_, by decide, by decide⟩
    · rw [List.mem_singleton.mp hmem]
      exact .string (by decide)
    · obtain rfl | hfield := List.mem_cons.mp hfield
      · exact absurd hid (by decide)
      · rw [List.mem_singleton.mp hfield]
        exact ⟨_, hexception⟩
  · refine ⟨.i32 5, fun field hfield hid => ?_, by decide, by decide⟩
    obtain rfl | hfield := List.mem_cons.mp hfield
    · exact absurd hid (by decide)
    · rw [List.mem_singleton.mp hfield] at hid
      exact absurd hid (by decide)
  · refine ⟨.list (by decide) (by simp) (by simp), fun field hfield hid => ?_, by decide,
      by decide⟩
    obtain rfl | hfield := List.mem_cons.mp hfield
    · exact ⟨.seq .vec [], rfl⟩
    · rw [List.mem_singleton.mp hfield] at hid
      exact absurd hid (by decide)

theorem sampleQuery_short : sampleQuery.Short := by
  refine .record fun slot hslot v hv => ?_
  simp only [List.mem_cons, List.not_mem_nil, or_false] at hslot
  obtain rfl | rfl | rfl := hslot
  · cases hv
    exact .string (by decide)
  · cases hv
    exact .i64 0
  · cases hv
    refine .record fun slot hslot v hv => ?_
    obtain rfl | hslot := List.mem_cons.mp hslot
    · cases hv
      exact .string (by decide)
    · rw [List.eq_of_mem_replicate (show slot ∈ List.replicate 3 none from hslot)] at hv
      cases hv

theorem call_answered :
    hashed ∈ targets ∧ find ∈ twoWay ∧ sampleQuery.Short ∧
      (MessageHeader.mk "f" .reply 1).Written [0, 0, 0, 1, 0x66, 2, 0, 0, 0, 1] ∧
      (∀ part ∈ lateResult, hashed.AdmitsPart (find.replyFields hashed) part) ∧
      ∃ sent, find.request hashed [some sampleQuery, none] 1 = .ok sent ∧
        answered.call hashed find [some sampleQuery, none] 0 =
          (.ok (some (.seq .vec [])), answered.after sent [1, 2, 3]) := by
  have hmem : hashed ∈ targets := List.mem_cons_self
  have hfind : find ∈ twoWay := List.mem_cons_of_mem _ List.mem_cons_self
  have hargs : ∀ slot ∈ [some sampleQuery, none], ∀ v ∈ slot, v.Short := by
    intro slot hslot v hv
    obtain rfl | hslot := List.mem_cons.mp hslot
    · cases hv
      exact sampleQuery_short
    · rw [List.mem_singleton.mp hslot] at hv
      cases hv
  have hheader : (MessageHeader.mk "f" .reply 1).Written [0, 0, 0, 1, 0x66, 2, 0, 0, 0, 1] :=
    .legacy (by decide)
  obtain ⟨sent, hsent, _, hsame⟩ := call_outcome hmem hfind hargs 0 (c := answered) hheader rfl
  have hcall := ((hsame rfl).2.2 rfl lateResult rfl lateResult_admitted).2.1 rfl
  exact ⟨hmem, hfind, sampleQuery_short, hheader, lateResult_admitted, sent, hsent, hcall⟩

end Demo

end WireIdl

import WireIdl.Proofs.Client.Call
import Mathlib.Data.List.Nodup

/-! The request of a call: its bytes, what a server reads from them, and what the call does to the
client besides the answer. -/

namespace WireIdl

variable {n : Census}

namespace MessageHeader

/-- A header with a version. -/
def strict (header : MessageHeader) : Bytes :=
  [0x80, 0x01, 0, header.type.code] ++
    (WireValue.string (Bytes.ofString header.name)).bytes ++ Bytes.ofI32 header.seqId

def message (header : MessageHeader) (parts : List (Int16 × WireValue)) : Bytes :=
  header.strict ++ (WireValue.struct parts).bytes

theorem encode_eq_ok {header : MessageHeader}
    (h : (Bytes.ofString header.name).length < 2 ^ 31) :
    Encoding.messageHeader header = .ok header.strict := by
  have hversion : Bytes.ofI32 (0x80010000 ||| header.type.code.toUInt32).toInt32 =
      [0x80, 0x01, 0, header.type.code] := by
    cases header.type <;> decide
  rw [strict, ← hversion, Encoding.messageHeader, Encoding.string, Encoding.binary_of_lt h]
  rfl

end MessageHeader

namespace Target

variable {t : Target n}

namespace Written

variable {fields : List (Field n)} {slots : Slots} {parts : List (Int16 × WireValue)}

theorem default_eq_none {field : Field n} (h : t.Written fields slots parts)
    (hmem : field ∈ fields) (hnone : lastFor field.id parts = none) :
    t.defaultValue? field = none := by
  induction h with
  | nil => cases hmem
  | absent hdefault _ ih =>
      cases hmem with
      | head => exact hdefault
      | tail _ hmem => exact ih hmem hnone
  | @present other fields slots parts v w _ _ ih =>
      have hne : other.id ≠ field.id := by
        intro heq
        rw [heq, lastFor_cons_self] at hnone
        cases (Option.or_eq_none_iff.mp hnone).2
      rw [lastFor_cons_of_ne hne] at hnone
      cases hmem with
      | head => exact absurd rfl hne
      | tail _ hmem => exact ih hmem hnone

theorem lastValues (h : t.Written fields slots parts) (hids : (fields.map (·.id)).Nodup) :
    (t.schema.knownFields fields).map (t.lastValue? parts) = slots := by
  rw [← h.lastSlots hids, Schema.knownFields, List.map_map]
  refine List.map_congr_left fun field hmem => ?_
  change t.lastValue? parts ⟨field.id, t.schema.shape field.ty⟩ = _
  rw [lastValue?, lastSlot]
  cases hlast : lastFor field.id parts with
  | some w => rfl
  | none => exact (h.default_eq_none hmem hlast).symm

theorem admitsPart (h : t.Written fields slots parts) (hids : (fields.map (·.id)).Nodup)
    (hframes : Value.slotFrames slots < maxFrames) :
    ∀ part ∈ parts, t.AdmitsPart (t.schema.knownFields fields) part := by
  intro part hmem
  obtain ⟨field, hfield, hid, hmeaning⟩ := h.declared part hmem
  constructor
  case wellFormed => exact h.wellFormed part hmem
  case declared =>
    intro known hknown hsame
    obtain ⟨other, hother, rfl⟩ := List.mem_map.mp hknown
    obtain rfl : other = field := List.inj_on_of_nodup_map hids hother hfield (hsame.trans hid.symm)
    exact hmeaning
  case undeclared =>
    intro hnone
    exact absurd hid (hnone _ (List.mem_map_of_mem hfield))
  case shallow =>
    rw [← h.slotFrames, Nat.lt_iff_add_one_le] at hframes
    have hpart := WireValue.fieldDepth_le_iff.mp (Nat.le_sub_one_of_lt hframes) part hmem
    rw [WireValue.frames]
    omega

end Written

/-- The methods that a client of a service has: its own and those of its ancestors. -/
def clientMethods (t : Target n) (surface : Surface) (id : Fin n.services) : List (Method n) :=
  (t.schema.serviceChain id).flatMap fun ancestor => surface.methods (t.schema.service ancestor)

/-- Reads a request to one of some methods: a header, and the arguments of the method it names. -/
def readRequest (t : Target n) (methods : List (Method n)) :
    Reader (MessageHeader × Slots) := do
  let header ← Reader.messageHeader
  match methods.find? (·.name == header.name) with
  | some m =>
      let known := t.schema.knownFields m.params
      let args ← Reader.frame (t.readField t.readRecord known) (known.map fun _ => none)
      return (header, args)
  | none =>
      Reader.skip WireType.struct.tag
      return (header, [])

theorem readRequest_eq_ok (hids : t.schema.HasDistinctIds) {methods : List (Method n)}
    {m : Method n} {header : MessageHeader}
    (hfind : methods.find? (·.name == header.name) = some m)
    (hname : (Bytes.ofString header.name).length < 2 ^ 31)
    (hparams : (m.params.map (·.id)).Nodup) {slots : Slots} {parts : List (Int16 × WireValue)}
    (h : t.Written m.params slots parts) (hframes : Value.slotFrames slots < maxFrames)
    (rest : Bytes) (frames : Nat) :
    t.readRequest methods ⟨header.message parts ++ rest, frames⟩ =
      .ok (header, slots) ⟨rest, 0⟩ := by
  have hknown : ((t.schema.knownFields m.params).map (·.id)).Nodup := by
    rw [Schema.knownFields, List.map_map]
    exact hparams
  have hargs := readFields_eq_ok hids hknown (h.admitsPart hparams hframes) rest
  rw [h.lastValues hparams] at hargs
  rw [MessageHeader.message, List.append_assoc]
  refine Reader.bind_eq_ok.mpr
    ⟨header, _, Reader.messageHeader_eq_ok (.strict 0 hname) _ frames, ?_⟩
  rw [hfind]
  exact Reader.bind_eq_ok.mpr ⟨slots, _, hargs, rfl⟩

end Target

theorem Method.request_eq_ok {t : Target n} {m : Method n} {args : Slots}
    {parts : List (Int16 × WireValue)} (hname : (Bytes.ofString m.name).length < 2 ^ 31)
    (h : t.Written m.params (m.withDefaults t args) parts) (seqId : Int32) :
    m.request t args seqId =
      .ok (MessageHeader.message ⟨m.name, m.messageType, seqId⟩ parts) := by
  rw [request, MessageHeader.encode_eq_ok hname, h.encodeFields]
  rfl

namespace ClientBase

variable {t : Target n} {m : Method n} {args : Slots} {c : ClientBase}

theorem call_sends {sent : Bytes} (h : m.request t args (c.seqId + 1) = .ok sent) :
    (c.call t m args).2.seqId = c.seqId + 1 ∧
      (c.call t m args).2.endpoint.output = c.endpoint.output ++ sent := by
  simp only [call, Endpoint.write, h, Output.result, Output.bytes]
  split
  · exact ⟨rfl, rfl⟩
  · rw [Endpoint.read]
    cases m.answer t (c.seqId + 1) c.endpoint.source <;> exact ⟨rfl, rfl⟩

theorem source_call_of_oneWay (h : m.oneWay = true) :
    (c.call t m args).2.endpoint.source = c.endpoint.source := by
  rw [call, h]
  cases m.request t args (c.seqId + 1) <;> rfl

end ClientBase

end WireIdl

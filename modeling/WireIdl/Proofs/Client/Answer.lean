import WireIdl.Client.Basic
import WireIdl.Proofs.Record.LastField

/-! The answer to a call: the two forms of a message header, a failure that a server reports, and
the fields of a reply. -/

namespace WireIdl

namespace MessageHeader

/-- The first word of a header with a version. Its third byte means nothing. -/
def firstWord (type : MessageType) (unused : UInt8) : Int32 :=
  Bytes.toI32 [0x80, 0x01, unused, type.code]

/-- The two ways to write a header: with a version, and with the length of the name first. -/
inductive Written (header : MessageHeader) : Bytes → Prop where
  | strict (unused : UInt8) (length : (Bytes.ofString header.name).length < 2 ^ 31) :
      Written header ([0x80, 0x01, unused, header.type.code] ++
        (WireValue.string (Bytes.ofString header.name)).bytes ++ Bytes.ofI32 header.seqId)
  | legacy (length : (Bytes.ofString header.name).length < 2 ^ 31) :
      Written header ((WireValue.string (Bytes.ofString header.name)).bytes ++
        [header.type.code] ++ Bytes.ofI32 header.seqId)

theorem firstWord_spec (type : MessageType) (unused : UInt8) :
    firstWord type unused < 0 ∧ (firstWord type unused).toUInt32 &&& 0xffff0000 = 0x80010000 ∧
      (firstWord type unused).toUInt32.toUInt8 = type.code := by
  have hall : ∀ b : BitVec 8, firstWord type ⟨b⟩ < 0 ∧
      (firstWord type ⟨b⟩).toUInt32 &&& 0xffff0000 = 0x80010000 ∧
      (firstWord type ⟨b⟩).toUInt32.toUInt8 = type.code := by
    cases type <;> decide +kernel
  exact hall unused.toBitVec

end MessageHeader

namespace Reader

theorem messageType_code (type : MessageType) (source : Source) :
    messageType type.code source = .ok type source := by
  rw [messageType, MessageType.ofCode_code]
  rfl

theorem decoded_ofString (text : String) (source : Source) :
    decoded (Bytes.ofString text) source = .ok text source := by
  rw [decoded, Bytes.toString?_ofString]
  rfl

theorem i32_firstWord (type : MessageType) (unused : UInt8) (source : Source) :
    i32 (source.prepend [0x80, 0x01, unused, type.code]) =
      .ok (MessageHeader.firstWord type unused) source := by
  rw [i32_eq_ok, MessageHeader.firstWord, Bytes.ofI32_toI32 rfl]

theorem messageHeader_eq_ok {header : MessageHeader} {bytes : Bytes} (h : header.Written bytes)
    (rest : Bytes) (frames : Nat) :
    messageHeader ⟨bytes ++ rest, frames⟩ = .ok header ⟨rest, 0⟩ := by
  have hseqId : i32 ((⟨rest, 0⟩ : Source).prepend (Bytes.ofI32 header.seqId)) =
      .ok header.seqId ⟨rest, 0⟩ := i32_eq_ok.mpr rfl
  refine bind_eq_ok.mpr ⟨(), (⟨rest, 0⟩ : Source).prepend bytes, rfl, ?_⟩
  cases h with
  | strict unused hlength =>
      obtain ⟨hnegative, hversion, htype⟩ := MessageHeader.firstWord_spec header.type unused
      rw [← Source.prepend_prepend, ← Source.prepend_prepend]
      refine bind_eq_ok.mpr ⟨_, _, i32_firstWord header.type unused _, ?_⟩
      rw [if_pos hnegative]
      dsimp only
      rw [if_neg (not_not_intro hversion), htype]
      refine bind_eq_ok.mpr ⟨_, _, messageType_code _ _, ?_⟩
      refine bind_eq_ok.mpr ⟨_, _,
        Target.readString_eq_ok hlength (Bytes.toString?_ofString header.name) _, ?_⟩
      exact bind_pure_eq_ok.mpr ⟨_, hseqId, rfl⟩
  | legacy hlength =>
      have hint := Int32.toInt_ofNat_of_lt hlength
      have hpositive : ¬ Int32.ofNat (Bytes.ofString header.name).length < 0 := by
        rw [Int32.lt_iff_toInt_lt, hint]
        simp
      rw [WireValue.bytes, ← Source.prepend_prepend, ← Source.prepend_prepend,
        ← Source.prepend_prepend]
      refine bind_eq_ok.mpr ⟨_, _, i32_eq_ok.mpr rfl, ?_⟩
      rw [if_neg hpositive, hint, Int.toNat_natCast]
      refine bind_eq_ok.mpr ⟨_, _, take_eq_ok.mpr ⟨rfl, rfl⟩, ?_⟩
      refine bind_eq_ok.mpr ⟨_, _, decoded_ofString header.name _, ?_⟩
      refine bind_eq_ok.mpr ⟨_, _, rawByte_eq_ok.mpr rfl, ?_⟩
      refine bind_eq_ok.mpr ⟨_, _, messageType_code _ _, ?_⟩
      exact bind_pure_eq_ok.mpr ⟨_, hseqId, rfl⟩

end Reader

theorem foldl_getD {α β : Type} (part? : β → Option α) (start : α) (parts : List β) :
    parts.foldl (fun a part => (part? part).getD a) start =
      (parts.filterMap part?).getLast?.getD start := by
  induction parts generalizing start with
  | nil => rfl
  | cons part parts ih =>
      rw [List.foldl_cons, ih, List.filterMap_cons]
      cases part? part with
      | none => rfl
      | some a => rw [List.getLast?_cons]; rfl

theorem WireValue.wireType_of_tag {w : WireValue} {type : WireType} (h : w.tag = type.tag) :
    w.wireType = type := by
  have hof := congrArg WireType.ofTag? h
  rw [WireValue.ofTag?_tag, WireType.ofTag?_tag] at hof
  exact Option.some.inj hof

namespace Failure

/-- The text that a field of a failure carries. -/
def textOf? : Int16 × WireValue → Option String
  | (id, .string bytes) => if id = textId then bytes.toString? else none
  | _ => none

/-- The kind that a field of a failure carries. -/
def kindOf? : Int16 × WireValue → Option FailureKind
  | (id, .i32 code) => if id = kindId then some (.ofCode code) else none
  | _ => none

/-- The failure that fields report: the last text and the last kind. -/
def reported (parts : List (Int16 × WireValue)) : Failure where
  kind := (parts.filterMap kindOf?).getLast?.getD .unknown
  text := (parts.filterMap textOf?).getLast?.getD ""

/-- What is promised of a field of a failure. -/
structure Admits (part : Int16 × WireValue) : Prop where
  wellFormed : part.2.WellFormed
  within : part.2.Within maxFrames 1
  text : ∀ bytes, part = (textId, .string bytes) → ∃ text, bytes.toString? = some text

def after (f : Failure) (part : Int16 × WireValue) : Failure where
  kind := (kindOf? part).getD f.kind
  text := (textOf? part).getD f.text

theorem foldl_after (parts : List (Int16 × WireValue)) (f : Failure) :
    parts.foldl after f = {
      kind := (parts.filterMap kindOf?).getLast?.getD f.kind
      text := (parts.filterMap textOf?).getLast?.getD f.text } := by
  rw [← foldl_getD, ← foldl_getD]
  induction parts generalizing f with
  | nil => rfl
  | cons part parts ih => exact ih (f.after part)

theorem textOf?_eq_none {id : Int16} {w : WireValue}
    (h : ¬ (id = textId ∧ w.tag = WireType.string.tag)) : textOf? (id, w) = none := by
  cases w with
  | string bytes => exact if_neg fun hid => h ⟨hid, rfl⟩
  | _ => rfl

theorem kindOf?_eq_none {id : Int16} {w : WireValue}
    (h : ¬ (id = kindId ∧ w.tag = WireType.i32.tag)) : kindOf? (id, w) = none := by
  cases w with
  | i32 code => exact if_neg fun hid => h ⟨hid, rfl⟩
  | _ => rfl

theorem takesIf_readField {part : Int16 × WireValue} (h : Admits part) (f : Failure) :
    Reader.TakesIf True (readField ⟨part.2.tag, part.1⟩ f) 1 part.2.bytes (f.after part) := by
  obtain ⟨id, w⟩ := part
  rw [readField, after]
  split
  · next htext =>
      obtain ⟨rfl, htag⟩ := htext
      have htype := WireValue.wireType_of_tag htag
      cases w with
      | string bytes =>
          obtain ⟨text, htext⟩ := h.text bytes rfl
          cases h.wellFormed with
          | string hlength =>
              have hread : textOf? (textId, .string bytes) = some text := htext
              rw [hread]
              exact .always fun rest =>
                Reader.bind_pure_eq_ok.mpr ⟨text, Target.readString_eq_ok hlength htext rest, rfl⟩
      | _ => cases htype
  · next hnotText =>
      rw [textOf?_eq_none hnotText]
      split
      · next hkind =>
          obtain ⟨rfl, htag⟩ := hkind
          have htype := WireValue.wireType_of_tag htag
          cases w with
          | i32 code =>
              exact .always fun rest =>
                Reader.bind_pure_eq_ok.mpr ⟨code, Reader.i32_eq_ok.mpr rfl, rfl⟩
          | _ => cases htype
      · next hnotKind =>
          rw [kindOf?_eq_none hnotKind]
          exact (Reader.TakesIf.skipWithin h.wellFormed maxFrames (by decide)).bind_pure.congr
            (iff_true_intro h.within)

theorem read_eq_ok {parts : List (Int16 × WireValue)} (h : ∀ part ∈ parts, Admits part)
    (rest : Bytes) :
    read ⟨(WireValue.struct parts).bytes ++ rest, 0⟩ = .ok (reported parts) ⟨rest, 0⟩ := by
  have hreported : reported parts = parts.foldl after {} := (foldl_after parts {}).symm
  have hbody : 0 < maxFrames → ∀ steps, (WireValue.fieldBytes parts).length ≤ steps →
      Reader.TakesIf (∀ part ∈ parts, True) (Reader.fields readField steps {}) 1
        (WireValue.fieldBytes parts) (reported parts) := by
    intro _ steps hsteps
    rw [hreported]
    exact Reader.TakesIf.fields (fun _ => True) after
      (fun part hmem f _ => takesIf_readField (h part hmem) f) (fun _ _ _ _ => trivial)
      trivial hsteps
  exact (Reader.TakesIf.frame hbody).takes ⟨by decide, by simp⟩ rest

end Failure

variable {n : Census} {t : Target n}

namespace Target

/-- What is promised of a field of a reply, of which some fields are known: a known one has a value
of its type, and any other can be skipped. -/
structure AdmitsPart (t : Target n) (known : List (KnownField n)) (part : Int16 × WireValue) :
    Prop where
  wellFormed : part.2.WellFormed
  declared : ∀ field ∈ known, field.id = part.1 → ∃ v, t.valueOf? field.shape part.2 = some v
  undeclared : (∀ field ∈ known, field.id ≠ part.1) → part.2.nest ≤ maxFrames
  shallow : 1 + part.2.frames ≤ maxFrames

/-- The value that came last for a known field. -/
def lastValue? (t : Target n) (parts : List (Int16 × WireValue)) (field : KnownField n) :
    Option Value :=
  (lastFor field.id parts).bind (t.valueOf? field.shape)

theorem AdmitsPart.readable {known : List (KnownField n)} {part : Int16 × WireValue}
    (h : t.AdmitsPart known part) : t.Readable known part := by
  rw [Readable]
  split
  · next field hfind =>
      have hid := List.find?_some hfind
      exact h.declared field (List.mem_of_find?_eq_some hfind) (beq_iff_eq.mp hid)
  · next hfind =>
      refine h.undeclared fun field hmem => ?_
      simpa using List.find?_eq_none.mp hfind field hmem

theorem lastFor_eq_lastValue? {known : List (KnownField n)} (hids : (known.map (·.id)).Nodup)
    {field : KnownField n} (hmem : field ∈ known) {parts : List (Int16 × WireValue)}
    {values : List (Int16 × Value)} (h : t.fieldValues? known parts = some values) :
    lastFor field.id values = t.lastValue? parts field := by
  rw [lastValue?]
  obtain ⟨hpart, hvalue⟩ | ⟨w, v, hpart, hv, hvalue⟩ := lastFor_values hids hmem h
  · rw [hpart, hvalue, Option.bind_none]
  · rw [hpart, hvalue, Option.bind_some, hv]

theorem readFields_eq_ok (hids : t.schema.HasDistinctIds) {known : List (KnownField n)}
    (hknown : (known.map (·.id)).Nodup) {parts : List (Int16 × WireValue)}
    (hparts : ∀ part ∈ parts, t.AdmitsPart known part) (rest : Bytes) :
    Reader.frame (t.readField t.readRecord known) (known.map fun _ => none)
        ⟨(WireValue.struct parts).bytes ++ rest, 0⟩ =
      .ok (known.map (t.lastValue? parts)) ⟨rest, 0⟩ := by
  obtain ⟨values, hvalues⟩ := exists_fieldValues?_iff.mpr fun part hmem =>
    (hparts part hmem).readable
  have hframes : 0 + (WireValue.struct parts).frames ≤ maxFrames := by
    have hfields := (WireValue.add_fieldDepth_le_iff (by decide : 1 ≤ maxFrames)).mpr
      fun part hmem => (hparts part hmem).shallow
    change 0 + (WireValue.fieldDepth _ parts + 1) ≤ maxFrames
    omega
  have hrecord : 0 < maxFrames → t.ReadsRecords (0 + 1) t.readRecord :=
    fun _ => readsRecords_readRecordWithin hids (by decide)
  have hslots : Slots.after known (known.map fun _ => none) values =
      known.map (t.lastValue? parts) := by
    rw [Slots.after, List.zipWith_map_right, List.zipWith_self]
    refine List.map_congr_left fun field hmem => ?_
    rw [Option.or_none, lastFor_eq_lastValue? hknown hmem hvalues]
  rw [← hslots]
  exact (takesIf_readFields hknown (List.length_map _) hrecord
    (.struct fun part hmem => (hparts part hmem).wellFormed) hvalues).takes hframes rest

end Target

namespace Method

variable {m : Method n} {header : MessageHeader} {start body rest : Bytes} {seqId : Int32}

theorem answer_of_ne (h : header.Written start) (hid : header.seqId ≠ seqId) (frames : Nat) :
    m.answer t seqId ⟨start ++ body, frames⟩ =
      .error (.badSequenceId seqId header.seqId) ⟨body, 0⟩ := by
  have hread := Reader.messageHeader_eq_ok h body frames
  exact (Reader.bind_of_ok hread).trans (congrFun (if_pos hid) _)

theorem answer_of_eq (h : header.Written start) (hid : header.seqId = seqId) (frames : Nat) :
    m.answer t seqId ⟨start ++ body, frames⟩ =
      (match header.type with
        | .reply => m.receive t
        | .exception => do return .error (.application (← Failure.read))
        | other => return .error (.application
            { kind := .invalidMessageType, text := "expected a reply, got " ++ other.name }))
        ⟨body, 0⟩ := by
  have hread := Reader.messageHeader_eq_ok h body frames
  exact (Reader.bind_of_ok hread).trans (congrFun (if_neg (not_not_intro hid)) _)

theorem answer_unexpected (h : header.Written start) (hid : header.seqId = seqId)
    (htype : header.type = .call ∨ header.type = .oneway) (frames : Nat) :
    m.answer t seqId ⟨start ++ body, frames⟩ =
      .ok (.error (.application
        { kind := .invalidMessageType, text := "expected a reply, got " ++ header.type.name }))
        ⟨body, 0⟩ := by
  rw [answer_of_eq h hid]
  obtain htype | htype := htype
  · rw [htype]
    rfl
  · rw [htype]
    rfl

theorem answer_exception (h : header.Written start) (hid : header.seqId = seqId)
    (htype : header.type = .exception) {parts : List (Int16 × WireValue)}
    (hparts : ∀ part ∈ parts, Failure.Admits part) (frames : Nat) :
    m.answer t seqId ⟨start ++ ((WireValue.struct parts).bytes ++ rest), frames⟩ =
      .ok (.error (.application (Failure.reported parts))) ⟨rest, 0⟩ := by
  rw [answer_of_eq h hid, htype]
  exact Reader.bind_pure_eq_ok.mpr ⟨_, Failure.read_eq_ok hparts rest, rfl⟩

theorem answer_reply (hids : t.schema.HasDistinctIds)
    (hknown : ((m.replyFields t).map (·.id)).Nodup) (h : header.Written start)
    (hid : header.seqId = seqId) (htype : header.type = .reply)
    {parts : List (Int16 × WireValue)}
    (hparts : ∀ part ∈ parts, t.AdmitsPart (m.replyFields t) part) (frames : Nat) :
    m.answer t seqId ⟨start ++ ((WireValue.struct parts).bytes ++ rest), frames⟩ =
      .ok (m.outcome t ((m.replyFields t).map (t.lastValue? parts))) ⟨rest, 0⟩ := by
  rw [answer_of_eq h hid, htype]
  exact Reader.bind_pure_eq_ok.mpr ⟨_, Target.readFields_eq_ok hids hknown hparts rest, rfl⟩

end Method

end WireIdl

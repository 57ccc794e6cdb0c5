import WireIdl.Proofs.Record.Composed
import WireIdl.Proofs.Record.Identity
import WireIdl.Proofs.Record.Rewalk
import WireIdl.Proofs.Value.Order

/-! Whatever is read can be written and read again. What bytes say beyond a value (fields that are
not declared, fields that come twice, repeated keys) is gone after the first reading. -/

namespace WireIdl

variable {n : Census}

namespace Shape

def isPlain : Shape n → Bool
  | .bool | .byte | .i16 | .i32 | .i64 | .double | .string | .binary | .enum _ => true
  | _ => false

/-- Whether no container or record is a key. -/
def hasPlainKeys : Shape n → Bool
  | .list _ element => (element ()).hasPlainKeys
  | .set _ element => (element ()).isPlain
  | .map _ key _ value => (key ()).isPlain && (value ()).hasPlainKeys
  | _ => true

theorem hasPlainKeys_of_isPlain {shape : Shape n} (h : shape.isPlain = true) :
    shape.hasPlainKeys = true := by
  cases shape with
  | bool | byte | i16 | i32 | i64 | double | string | binary | enum => rfl
  | record | list | set | map | void | service | cyclic => cases h

end Shape

def Schema.HasPlainKeys (s : Schema n) : Prop :=
  ∀ id, ∀ field ∈ (s.record id).fields, (s.shape field.ty).hasPlainKeys = true

namespace Value

def isShortLeaf : Value → Bool
  | .string _ v => (Bytes.ofString v).length < 2 ^ 31
  | .binary v => v.length < 2 ^ 31
  | .option _ | .pointer _ _ | .seq _ _ | .set _ _ | .map _ _ | .record _ => false
  | _ => true

theorem short_of_isShortLeaf {v : Value} (h : v.isShortLeaf = true) : v.Short := by
  cases v with
  | string | binary =>
      constructor
      exact of_decide_eq_true h
  | option | pointer | seq | set | map | record => cases h
  | bool | byte | ubyte | i16 | i32 | i64 | double | enum => constructor

theorem frames_of_isShortLeaf {v : Value} (h : v.isShortLeaf = true) : v.frames = 0 := by
  cases v with
  | option | pointer | seq | set | map | record => cases h
  | bool | byte | ubyte | i16 | i32 | i64 | double | string | binary | enum => rfl

end Value

namespace Target

/-- What can be written, and then read again where `room` more frames can be opened. -/
structure Writable (t : Target n) (room : Nat) (shape : Shape n) (v : Value) : Prop where
  fits : t.Fits shape v
  short : v.Short
  frames : v.frames ≤ room

def SlotWritable (t : Target n) (room : Nat) (field : Field n) : Option Value → Prop
  | some v => t.Writable room (t.schema.shape field.ty) v
  | none => t.defaultValue? field = none

def DefaultsWritable (t : Target n) : Prop :=
  ∀ id, ∀ field ∈ (t.schema.record id).fields, ∀ v ∈ t.defaultValue? field,
    t.Writable 0 (t.schema.shape field.ty) v

variable {t : Target n} {room : Nat}

theorem ranked_fits {shape : Shape n} (h : shape.isPlain = true) :
    Value.Ranked (t.Fits shape) := by
  cases shape with
  | bool =>
      refine Value.ranked_of_key .bool Function.injective_id
        (fun _ _ => by simp [Value.compare]) Fits.proper fun hv => ?_
      cases hv
      exact ⟨_, rfl⟩
  | byte =>
      refine Value.ranked_of_key .byte (fun _ _ => Int8.toInt_inj.mp)
        (fun _ _ => by simp [Value.compare]) Fits.proper fun hv => ?_
      cases hv
      exact ⟨_, rfl⟩
  | i16 =>
      refine Value.ranked_of_key .i16 (fun _ _ => Int16.toInt_inj.mp)
        (fun _ _ => by simp [Value.compare]) Fits.proper fun hv => ?_
      cases hv
      exact ⟨_, rfl⟩
  | i32 =>
      refine Value.ranked_of_key .i32 (fun _ _ => Int32.toInt_inj.mp)
        (fun _ _ => by simp [Value.compare]) Fits.proper fun hv => ?_
      cases hv
      exact ⟨_, rfl⟩
  | i64 =>
      refine Value.ranked_of_key .i64 (fun _ _ => Int64.toInt_inj.mp)
        (fun _ _ => by simp [Value.compare]) Fits.proper fun hv => ?_
      cases hv
      exact ⟨_, rfl⟩
  | double =>
      refine Value.ranked_of_key .double Double.bits_injective
        (fun _ _ => by simp [Value.compare]) Fits.proper fun hv => ?_
      cases hv
      exact ⟨_, rfl⟩
  | string =>
      refine Value.ranked_of_key (.string .owned) Function.injective_id
        (fun _ _ => by simp [Value.compare]) Fits.proper fun hv => ?_
      cases hv
      exact ⟨_, rfl⟩
  | binary =>
      refine Value.ranked_of_key .binary Function.injective_id
        (fun _ _ => by simp [Value.compare]) Fits.proper fun hv => ?_
      cases hv
      exact ⟨_, rfl⟩
  | enum id =>
      refine Value.ranked_of_key .enum (fun _ _ => Int32.toInt_inj.mp)
        (fun _ _ => by simp [Value.compare]) Fits.proper fun hv => ?_
      cases hv
      exact ⟨_, rfl⟩
  | record | list | set | map | void | service | cyclic => cases h

theorem Writable.mono {shape : Shape n} {v : Value} {more : Nat} (h : t.Writable room shape v)
    (hle : room ≤ more) : t.Writable more shape v where
  fits := h.fits
  short := h.short
  frames := Nat.le_trans h.frames hle

theorem writable_seq {written : Ty n} {element : Unit → Shape n} {items : List Value}
    (hlength : items.length < 2 ^ 31) (h : ∀ item ∈ items, t.Writable room (element ()) item) :
    t.Writable room (.list written element) (.seq t.config.list.toSeq items) where
  fits := .list fun item hmem => (h item hmem).fits
  short := .seq hlength fun item hmem => (h item hmem).short
  frames := Value.itemFrames_le fun item hmem => (h item hmem).frames

theorem writable_setOf {written : Ty n} {element : Unit → Shape n} {items : List Value}
    (hplain : (element ()).isPlain = true) (hlength : items.length < 2 ^ 31)
    (h : ∀ item ∈ items, t.Writable room (element ()) item) :
    t.Writable room (.set written element) (.setOf t.config.set items) := by
  have hfits : ∀ item ∈ items, t.Fits (element ()) item := fun item hmem => (h item hmem).fits
  have hproper : ∀ item ∈ items, item.Proper := fun item hmem => (hfits item hmem).proper
  have hkept := (Value.keeps_foldl t.config.set Value.tells_proper hproper).mem
  constructor
  case fits =>
    refine .set ?_ fun item hmem => hfits item (hkept item hmem)
    exact Value.pairwise_before_foldl t.config.set (ranked_fits hplain) hfits hproper
  case short =>
    refine .set ?_ fun item hmem => (h item (hkept item hmem)).short
    exact Nat.lt_of_le_of_lt (Value.length_foldl_insertItem_le t.config.set items) hlength
  case frames => exact Value.itemFrames_le fun item hmem => (h item (hkept item hmem)).frames

theorem writable_mapOf {writtenKey writtenValue : Ty n} {key value : Unit → Shape n}
    {entries : List (Value × Value)} (hplain : (key ()).isPlain = true)
    (hlength : entries.length < 2 ^ 31)
    (h : ∀ entry ∈ entries,
      t.Writable room (key ()) entry.1 ∧ t.Writable room (value ()) entry.2) :
    t.Writable room (.map writtenKey key writtenValue value) (.mapOf t.config.map entries) := by
  have hproper : ∀ entry ∈ entries, entry.1.Proper := fun entry hmem => (h entry hmem).1.fits.proper
  have hkeys : ∀ entry ∈ entries.foldl (Value.insertEntry t.config.map) [],
      t.Writable room (key ()) entry.1 :=
    Value.forall_keys_foldl (fun entry hmem => (h entry hmem).1) hproper
  have hvalues : ∀ entry ∈ entries.foldl (Value.insertEntry t.config.map) [],
      t.Writable room (value ()) entry.2 :=
    Value.forall_values_foldl (List.forall_mem_nil _) fun entry hmem => (h entry hmem).2
  constructor
  case fits =>
    refine .map ?_ (fun entry hmem => (hkeys entry hmem).fits) fun entry hmem =>
      (hvalues entry hmem).fits
    exact Value.pairwise_before_keys t.config.map (ranked_fits hplain)
      (fun entry hmem => (h entry hmem).1.fits) hproper
  case short =>
    refine .map ?_ (fun entry hmem => (hkeys entry hmem).short) fun entry hmem =>
      (hvalues entry hmem).short
    exact Nat.lt_of_le_of_lt (Value.length_foldl_insertEntry_le t.config.map entries) hlength
  case frames =>
    exact Value.entryFrames_le (fun entry hmem => (hkeys entry hmem).frames)
      fun entry hmem => (hvalues entry hmem).frames

theorem writable_record {id : Fin n.records} {slots : Slots} {v : Value}
    (h : List.Forall₂ (t.SlotWritable room) (t.schema.record id).fields slots)
    (hbuild : (t.schema.record id).build slots = .ok v) : t.Writable (room + 1) (.record id) v := by
  obtain rfl := RecordDecl.eq_record_of_build hbuild
  have hslots : ∀ slot ∈ slots, ∀ v ∈ slot, v.Short ∧ v.frames ≤ room := by
    refine forall_mem_of_forall₂ (h.imp fun field slot hslot v hv => ?_)
    cases hv
    exact ⟨hslot.short, hslot.frames⟩
  constructor
  case fits =>
    refine fits_record_iff.mpr ⟨h.imp fun field slot hslot => ?_, hbuild⟩
    cases slot with
    | none => exact hslot
    | some v => exact hslot.fits
  case short => exact .record fun slot hmem v hv => (hslots slot hmem v hv).1
  case frames =>
    exact Nat.succ_le_succ (Value.slotFrames_le fun slot hmem v hv => (hslots slot hmem v hv).2)

section Reading

open Reader

variable {frames : Nat}

theorem ensures_readEnum (id : Fin n.enums) :
    Ensures frames (t.readEnum id) (t.Writable room (.enum id)) := by
  apply (composed_i32.balanced frames).bind
  intro value _
  cases hmember : (t.schema.enum id).memberByValue? value with
  | some member =>
      exact ensures_pure ⟨.enum (Option.isSome_of_eq_some hmember), .enum value, Nat.zero_le room⟩
  | none => exact ensures_throw _

section Records

variable {record : Fin n.records → Reader Value}
  (hrecord : ∀ id, Ensures frames (record id) (t.Writable room (.record id)))
include hrecord

theorem ensures_readValueWith {shape : Shape n} (hshape : shape.hasPlainKeys = true) :
    Ensures frames (t.readValueWith record shape) (t.Writable room shape) := by
  induction shape with
  | bool =>
      exact (composed_bool.balanced frames).bind fun v _ =>
        ensures_pure ⟨.bool v, .bool v, Nat.zero_le room⟩
  | byte =>
      exact (composed_i8.balanced frames).bind fun v _ =>
        ensures_pure ⟨.byte v, .byte v, Nat.zero_le room⟩
  | i16 =>
      exact (composed_i16.balanced frames).bind fun v _ =>
        ensures_pure ⟨.i16 v, .i16 v, Nat.zero_le room⟩
  | i32 =>
      exact (composed_i32.balanced frames).bind fun v _ =>
        ensures_pure ⟨.i32 v, .i32 v, Nat.zero_le room⟩
  | i64 =>
      exact (composed_i64.balanced frames).bind fun v _ =>
        ensures_pure ⟨.i64 v, .i64 v, Nat.zero_le room⟩
  | double =>
      exact (composed_double.balanced frames).bind fun v _ =>
        ensures_pure ⟨.double v, .double v, Nat.zero_le room⟩
  | string =>
      exact ensures_string.bind fun v hlength =>
        ensures_pure ⟨.string v, .string hlength, Nat.zero_le room⟩
  | binary =>
      exact ensures_binary.bind fun v hlength =>
        ensures_pure ⟨.binary v, .binary hlength, Nat.zero_le room⟩
  | enum id => exact ensures_readEnum id
  | record id => exact hrecord id
  | list _ _ ih =>
      apply ensures_itemsHeader.bind
      intro header hsize
      apply ((ih () hshape).collect header.size).bind
      intro items hitems
      exact ensures_pure (writable_seq (hitems.1 ▸ hsize) hitems.2)
  | set _ _ ih =>
      apply ensures_itemsHeader.bind
      intro header hsize
      apply ((ih () (Shape.hasPlainKeys_of_isPlain hshape)).collect header.size).bind
      intro items hitems
      exact ensures_pure (writable_setOf hshape (hitems.1 ▸ hsize) hitems.2)
  | map _ key _ value ihKey ihValue =>
      obtain ⟨hkey, hvalue⟩ := (Bool.and_eq_true _ _).mp hshape
      apply ensures_entriesHeader.bind
      intro header hsize
      have hkeys := ihKey () (Shape.hasPlainKeys_of_isPlain hkey)
      have hentry := hkeys.bind fun k hk => (ihValue () hvalue).bind fun v hv =>
        ensures_pure (p := fun entry => t.Writable room (key ()) entry.1 ∧
          t.Writable room (value ()) entry.2) (a := (k, v)) ⟨hk, hv⟩
      apply (hentry.collect header.size).bind
      intro entries hentries
      exact ensures_pure (writable_mapOf hkey (hentries.1 ▸ hsize) hentries.2)
  | void | service | cyclic => exact ensures_throw _

theorem ensures_readField {fields : List (Field n)}
    (hfields : ∀ field ∈ fields, (t.schema.shape field.ty).hasPlainKeys = true)
    (header : FieldHeader) {slots : Slots}
    (hslots : List.Forall₂ (t.SlotWritable room) fields slots) :
    Ensures frames (t.readField record (t.schema.knownFields fields) header slots)
      (List.Forall₂ (t.SlotWritable room) fields) := by
  have hskip := (composed_skipWithin maxFrames header.tag).balanced frames
  induction hslots with
  | nil => exact hskip.bind fun _ _ => ensures_pure .nil
  | @cons field slot fields slots hslot hslots ih =>
      rw [List.forall_mem_cons] at hfields
      rw [Schema.knownFields, List.map_cons, readField]
      split
      · split
        · exact (ensures_readValueWith hrecord hfields.1).bind fun v hv =>
            ensures_pure (.cons hv hslots)
        · exact ((composed_mismatched _ header).balanced frames).bind fun _ _ =>
            ensures_pure (.cons hslot hslots)
      · exact (ih hfields.2).bind fun _ hrest => ensures_pure (.cons hslot hrest)

end Records

theorem slotWritable_new (hdefaults : t.DefaultsWritable) (id : Fin n.records) :
    List.Forall₂ (t.SlotWritable room) (t.schema.record id).fields (Builder.new t id).slots := by
  change List.Forall₂ (t.SlotWritable room) (t.schema.record id).fields
    ((t.schema.record id).fields.map t.defaultValue?)
  rw [List.forall₂_map_right_iff, List.forall₂_same]
  intro field hmem
  cases hdefault : t.defaultValue? field with
  | none => exact hdefault
  | some v => exact (hdefaults id field hmem v hdefault).mono (Nat.zero_le room)

/-- A record that is read has room for its frames above those that were open. -/
theorem ensures_readRecordWithin (hkeys : t.schema.HasPlainKeys) (hdefaults : t.DefaultsWritable)
    (levels : Nat) (id : Fin n.records) :
    Ensures frames (t.readRecordWithin levels id)
      (t.Writable (maxFrames - frames) (.record id)) := by
  induction levels generalizing frames id with
  | zero => exact ensures_throw _
  | succ levels ih =>
      have hfields : ∀ steps, Ensures (frames + 1) (fields
          (t.readField (t.readRecordWithin levels)
            (t.schema.knownFields (t.schema.record id).fields)) steps (Builder.new t id).slots)
          (List.Forall₂ (t.SlotWritable (maxFrames - (frames + 1))) (t.schema.record id).fields) :=
        fun steps => ensures_fields
          (fun header _ hslots => ensures_readField ih (hkeys id) header hslots) steps
          (slotWritable_new hdefaults id)
      apply (Ensures.frame hfields).bind
      intro slots hslots
      cases hbuild : (t.schema.record id).build slots with
      | ok v =>
          have hroom : maxFrames - (frames + 1) + 1 = maxFrames - frames := by
            have hopen := hslots.1
            omega
          exact ensures_pure (hroom ▸ writable_record hslots.2 hbuild)
      | error fault => exact ensures_throw _

end Reading

theorem Writable.rewalk {shape : Shape n} {v w : Value} (h : t.Writable room shape v)
    (hwalk : v.Rewalk w) : t.Writable room shape w where
  fits := h.fits.rewalk hwalk
  short := hwalk.short h.short
  frames := hwalk.frames_le h.frames

/-- What can be written is read again as it was walked. -/
theorem Writable.exists_bytes (hids : t.schema.HasDistinctIds) {id : Fin n.records} {v : Value}
    (h : t.Writable maxFrames (.record id) v) :
    ∃ bytes, t.schema.encodeRecord id v = .ok bytes ∧
      t.readRecord id ⟨bytes, 0⟩ = .ok v ⟨[], 0⟩ := by
  obtain ⟨w, hcodes⟩ := h.fits.exists_codes hids h.short
  have hread : Reader.TakesIf (0 + w.frames ≤ maxFrames) (t.readRecord id) 0 w.bytes v :=
    readsRecords_readRecordWithin hids (Nat.le_add_left maxFrames 0) hcodes.wellFormed
      hcodes.meaning
  rw [Nat.zero_add, hcodes.frames] at hread
  have hbytes := hread.takes h.frames []
  rw [List.append_nil] at hbytes
  exact ⟨w.bytes, hcodes.encoded, hbytes⟩

theorem writable_of_fitsLeaf {shape : Shape n} {v : Value} (hfits : t.fitsLeaf shape v = true)
    (hshort : v.isShortLeaf = true) : t.Writable 0 shape v where
  fits := fits_of_fitsLeaf hfits
  short := Value.short_of_isShortLeaf hshort
  frames := Nat.le_of_eq (Value.frames_of_isShortLeaf hshort)

end Target

namespace Demo

theorem hasPlainKeys : schema.HasPlainKeys := by
  unfold Schema.HasPlainKeys
  decide

theorem hasPlainKeys_of_mem_targets {t : Target census} (h : t ∈ targets) :
    t.schema.HasPlainKeys := by
  obtain rfl | rfl | rfl := mem_targets.mp h <;> exact hasPlainKeys

theorem isShortLeaf_of_mem_targets : ∀ t ∈ targets, ∀ id, ∀ field ∈ (t.schema.record id).fields,
    (t.defaultValue? field).all Value.isShortLeaf = true := by
  decide

theorem defaultsWritable_of_mem_targets {t : Target census} (h : t ∈ targets) :
    t.DefaultsWritable := by
  intro id field hmem v hv
  have hfits := fitsLeaf_of_mem_targets t h id field hmem
  have hshort := isShortLeaf_of_mem_targets t h id field hmem
  rw [hv] at hfits hshort
  exact Target.writable_of_fitsLeaf hfits hshort

/-- Whatever bytes a record is read from, the record can be written in whichever order its hashed
containers are walked, and what is then read is the same record. With ordered containers, writing
that gives the bytes it was read from. -/
theorem readRecord_canonical {t : Target census} (ht : t ∈ targets) {id : Fin census.records}
    {bytes : Bytes} {v : Value} {left : Source} (h : t.readRecord id ⟨bytes, 0⟩ = .ok v left)
    {w : Value} (hwalk : v.Rewalk w) :
    ∃ written u, t.schema.encodeRecord id w = .ok written ∧
      t.readRecord id ⟨written, 0⟩ = .ok u ⟨[], 0⟩ ∧ u.same v = true ∧
      (t = ordered → ∀ x, u.Rewalk x → t.schema.encodeRecord id x = .ok written) := by
  have hids := hasDistinctIds_of_mem_targets ht
  have hv : t.Writable maxFrames (.record id) v :=
    (Target.ensures_readRecordWithin (hasPlainKeys_of_mem_targets ht)
      (defaultsWritable_of_mem_targets ht) maxFrames id bytes v left h).2
  have hw := hv.rewalk hwalk
  obtain ⟨written, hwritten, hread⟩ := hw.exists_bytes hids
  refine ⟨written, w, hwritten, hread, ?_, ?_⟩
  · rw [Value.same_comm_of_proper hw.fits.proper hv.fits.proper]
    exact hv.fits.same_of_rewalk hwalk
  · rintro rfl x hx
    rw [hw.fits.eq_of_rewalk rfl rfl hx]
    exact hwritten

/-- Credentials with a scope that comes twice, a field that is not declared, and two users. -/
def untidyParts : List (Int16 × WireValue) :=
  [(4, .set WireType.string.tag [.string [0x77], .string [0x72], .string [0x77]]), (9, .bool 5),
    (1, .string [0x61]), (1, .string [0x62])]

def tidyCredentials : Value :=
  .record [some (.string .owned "b"), none, none,
    some (.set .ordered [.string .owned "r", .string .owned "w"]), none]

theorem untidyParts_wellFormed : (WireValue.struct untidyParts).WellFormed := by
  have hscopes : ∀ w ∈ [WireValue.string [0x77], .string [0x72], .string [0x77]],
      w.tag = WireType.string.tag ∧ w.WellFormed := by
    simp only [List.forall_mem_cons, List.not_mem_nil, false_implies, implies_true, and_true]
    exact ⟨⟨rfl, .string (by decide)⟩, ⟨rfl, .string (by decide)⟩, rfl, .string (by decide)⟩
  apply WireValue.WellFormed.struct
  simp only [untidyParts, List.forall_mem_cons, List.not_mem_nil, false_implies, implies_true,
    and_true]
  refine ⟨.set (by decide) (fun w hw => (hscopes w hw).1) fun w hw => (hscopes w hw).2, .bool 5,
    .string (by decide), .string (by decide)⟩

theorem valueOf?_untidyParts :
    ordered.valueOf? (.record credentialsId) (.struct untidyParts) = some tidyCredentials := by
  have hscopes : Value.setOf .ordered
      [.string .owned "w", .string .owned "r", .string .owned "w"] =
        .set .ordered [.string .owned "r", .string .owned "w"] := by
    have hcompare : Ord.compare "r" "w" = .lt := by decide
    simp [Value.setOf, Value.insertItem, Value.addPart, Value.insertBefore, Value.same,
      Value.compare, hcompare]
  have hvalue : ordered.valueOf? (.record credentialsId) (.struct untidyParts) =
      some (.record [some (.string .owned "b"), none, none, some (.setOf .ordered
        [.string .owned "w", .string .owned "r", .string .owned "w"]), none]) := rfl
  rw [hscopes] at hvalue
  exact hvalue

theorem readRecord_untidyParts :
    ordered ∈ targets ∧
      ordered.readRecord credentialsId ⟨(WireValue.struct untidyParts).bytes ++ [7], 0⟩ =
        .ok tidyCredentials ⟨[7], 0⟩ ∧
      ∃ written u, ordered.schema.encodeRecord credentialsId tidyCredentials = .ok written ∧
        ordered.readRecord credentialsId ⟨written, 0⟩ = .ok u ⟨[], 0⟩ ∧
        u.same tidyCredentials = true ∧
        ordered.schema.encodeRecord credentialsId u = .ok written := by
  have hmem : ordered ∈ targets := List.mem_cons_of_mem _ List.mem_cons_self
  have hreads : Reader.TakesIf (0 + (WireValue.struct untidyParts).frames ≤ maxFrames)
      (ordered.readRecord credentialsId) 0 (WireValue.struct untidyParts).bytes tidyCredentials :=
    Target.readsRecords_readRecordWithin (hasDistinctIds_of_mem_targets hmem)
      (Nat.le_add_left maxFrames 0) untidyParts_wellFormed valueOf?_untidyParts
  have hread := hreads.takes (by decide) [7]
  obtain ⟨written, u, hwritten, hagain, hsame, hstable⟩ :=
    readRecord_canonical hmem hread (.refl tidyCredentials)
  exact ⟨hmem, hread, written, u, hwritten, hagain, hsame, hstable rfl u (.refl u)⟩

end Demo

end WireIdl

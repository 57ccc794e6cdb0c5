import WireIdl.Proofs.Demo
import WireIdl.Proofs.Wire.Headers
import WireIdl.Proofs.Value.Building

/-! How many parts a record that was read can have. Every part takes a byte of its own, if no
container holds records that can be built from nothing. -/

namespace WireIdl

variable {n : Census}

namespace Value

mutual

/-- The number of elements, entries and records in a value, the value itself included if it is a
record. -/
def parts : Value → Nat
  | .option (some v) | .pointer _ v => v.parts
  | .seq _ items | .set _ items => itemParts items
  | .map _ entries => entryParts entries
  | .record slots => slotParts slots + 1
  | _ => 0

def itemParts : List Value → Nat
  | [] => 0
  | item :: items => item.parts + itemParts items + 1

def entryParts : List (Value × Value) → Nat
  | [] => 0
  | (key, value) :: entries => key.parts + value.parts + entryParts entries + 1

def slotParts : Slots → Nat
  | [] => 0
  | none :: slots => slotParts slots
  | some v :: slots => v.parts + slotParts slots

end

theorem length_le_itemParts (items : List Value) : items.length ≤ itemParts items := by
  induction items with
  | nil => exact Nat.le_refl 0
  | cons item items ih =>
      rw [List.length_cons, itemParts]
      omega

theorem length_le_entryParts (entries : List (Value × Value)) :
    entries.length ≤ entryParts entries := by
  induction entries with
  | nil => exact Nat.le_refl 0
  | cons entry entries ih =>
      rw [List.length_cons, entryParts]
      omega

theorem itemParts_of_perm {items others : List Value} (h : items.Perm others) :
    itemParts items = itemParts others := by
  induction h with
  | nil => rfl
  | cons item _ ih => rw [itemParts, itemParts, ih]
  | swap a b items =>
      simp only [itemParts]
      omega
  | trans _ _ ih ih' => exact ih.trans ih'

theorem itemParts_insertItem_le (form : KeyedForm) (items : List Value) (item : Value) :
    itemParts (insertItem form items item) ≤ itemParts items + item.parts + 1 := by
  rw [insertItem]
  split
  · omega
  · rw [itemParts_of_perm (addPart_perm form id items item), itemParts]
    omega

theorem itemParts_foldl_le (form : KeyedForm) (items start : List Value) :
    itemParts (items.foldl (insertItem form) start) ≤ itemParts start + itemParts items := by
  induction items generalizing start with
  | nil => exact Nat.le_refl _
  | cons item items ih =>
      have hinsert := itemParts_insertItem_le form start item
      have hrest := ih (insertItem form start item)
      rw [List.foldl_cons, itemParts]
      omega

theorem parts_setOf_le (form : KeyedForm) (items : List Value) :
    (setOf form items).parts ≤ itemParts items := by
  have hfold := itemParts_foldl_le form items []
  rw [itemParts, Nat.zero_add] at hfold
  rw [setOf, parts]
  exact hfold

theorem entryParts_eq {entries : List (Value × Value)} (h : ∀ entry ∈ entries, entry.2.parts = 0) :
    entryParts entries = itemParts (entries.map (·.1)) := by
  induction entries with
  | nil => rfl
  | cons entry entries ih =>
      rw [List.forall_mem_cons] at h
      have hvalue := h.1
      rw [entryParts, List.map_cons, itemParts, ih h.2]
      omega

/-- Of several values of one key only the last stays, so values are taken to have no parts. -/
theorem parts_mapOf_le (form : KeyedForm) {entries : List (Value × Value)}
    (h : ∀ entry ∈ entries, entry.2.parts = 0) :
    (mapOf form entries).parts ≤ entryParts entries := by
  have hvalues : ∀ entry ∈ entries.foldl (insertEntry form) [], entry.2.parts = 0 :=
    forall_values_foldl (p := fun v => v.parts = 0) (fun _ hmem => absurd hmem List.not_mem_nil) h
  rw [mapOf, parts, entryParts_eq hvalues, keys_foldl, entryParts_eq h]
  have hfold := itemParts_foldl_le form (entries.map (·.1)) []
  rw [itemParts, Nat.zero_add] at hfold
  exact hfold

end Value

namespace Shape

/-- Whether values of the shape have no parts. -/
def isSingle : Shape n → Bool
  | .list _ _ | .set _ _ | .map _ _ _ _ | .record _ => false
  | _ => true

/-- The bytes that a value of the shape is sure to take besides one for each of its parts, given the
records that need a field. -/
def spare (needsField : Fin n.records → Bool) : Shape n → Nat
  | .record id => (needsField id).toNat
  | _ => 1

/-- Whether every element and every key takes a byte besides those of its own parts. -/
def paysForParts (needsField : Fin n.records → Bool) : Shape n → Bool
  | .list _ element | .set _ element =>
      (element ()).spare needsField == 1 && (element ()).paysForParts needsField
  | .map _ key _ value =>
      (key ()).spare needsField == 1 && (key ()).paysForParts needsField && (value ()).isSingle
  | _ => true

theorem paysForParts_of_isSingle {needsField : Fin n.records → Bool} {shape : Shape n}
    (h : shape.isSingle = true) : shape.paysForParts needsField = true := by
  cases shape with
  | list | set | map => cases h
  | _ => rfl

end Shape

namespace Target

/-- Whether a record cannot be built from the defaults alone. -/
def needsField (t : Target n) (id : Fin n.records) : Bool :=
  !((t.schema.record id).build (Builder.new t id).slots).isOk

/-- The parts in the slots of a record, and one more if the record can be built from them. -/
def potential (t : Target n) (id : Fin n.records) (slots : Slots) : Nat :=
  Value.slotParts slots + ((t.schema.record id).build slots).isOk.toNat

theorem potential_le {t : Target n} {id : Fin n.records} {slots next : Slots} {bytes : Nat}
    (h : Value.slotParts next ≤ Value.slotParts slots + bytes) :
    t.potential id next ≤ t.potential id slots + bytes + 3 := by
  have hbuilt := ((t.schema.record id).build next).isOk.toNat_le
  rw [potential, potential]
  omega

theorem potential_of_build {t : Target n} {id : Fin n.records} {slots : Slots} {v : Value}
    (h : (t.schema.record id).build slots = .ok v) : t.potential id slots = v.parts := by
  rw [RecordDecl.eq_record_of_build h, Value.parts, potential, h]
  rfl

/-- Parts come from bytes: defaults have none, and in containers each part takes a byte. -/
structure PaysForParts (t : Target n) : Prop where
  defaults : ∀ id, Value.slotParts (Builder.new t id).slots = 0
  fields : ∀ id, ∀ field ∈ (t.schema.record id).fields,
    (t.schema.shape field.ty).paysForParts t.needsField = true

theorem PaysForParts.potential_new {t : Target n} (h : t.PaysForParts) (id : Fin n.records) :
    t.potential id (Builder.new t id).slots + (t.needsField id).toNat = 1 := by
  rw [potential, needsField, h.defaults id]
  cases ((t.schema.record id).build (Builder.new t id).slots).isOk <;> rfl

/-! The readers of values, with the headers they accept. -/

def noteValueWith (t : Target n) (record : Fin n.records → Noting Value) : Shape n → Noting Value
  | .record id => record id
  | .list _ element => do
      let header ← Noting.header Reader.itemsHeader (·.size)
      return .seq t.config.list.toSeq
        (← Noting.collect (t.noteValueWith record (element ())) header.size)
  | .set _ element => do
      let header ← Noting.header Reader.itemsHeader (·.size)
      return .setOf t.config.set
        (← Noting.collect (t.noteValueWith record (element ())) header.size)
  | .map _ key _ value => do
      let header ← Noting.header Reader.entriesHeader (·.size)
      let entry : Noting (Value × Value) := do
        let key ← t.noteValueWith record (key ())
        return (key, ← t.noteValueWith record (value ()))
      return .mapOf t.config.map (← Noting.collect entry header.size)
  | shape => Noting.quiet (t.readValueWith (fun id => (record id).reader) shape)

def noteMismatched (t : Target n) (field : KnownField n) (header : Reader.FieldHeader) :
    Noting Unit :=
  if t.config.fieldTypeChecks then Noting.quiet (t.mismatched field header)
  else Noting.skip header.tag

def noteField (t : Target n) (record : Fin n.records → Noting Value) :
    List (KnownField n) → Reader.FieldHeader → Slots → Noting Slots
  | field :: fields, header, slot :: slots =>
      if field.id = header.id then
        if header.tag = field.shape.tag then do
          return some (← t.noteValueWith record field.shape) :: slots
        else do
          t.noteMismatched field header
          return slot :: slots
      else do
        return slot :: (← t.noteField record fields header slots)
  | _, header, slots => do
      Noting.skip header.tag
      return slots

def noteRecordWithin (t : Target n) : Nat → Fin n.records → Noting Value
  | 0, id => Noting.quiet (t.readRecordWithin 0 id)
  | frames + 1, id => do
      let fields := t.schema.knownFields (t.schema.record id).fields
      let slots ←
        Noting.frame (t.noteField (t.noteRecordWithin frames) fields) (Builder.new t id).slots
      match (t.schema.record id).build slots with
      | .ok v => return v
      | .error fault => Noting.quiet (throw (.build fault))

def noteRecord (t : Target n) (id : Fin n.records) : Noting Value :=
  t.noteRecordWithin maxFrames id

section Erasure

variable {t : Target n} {record : Fin n.records → Noting Value}

open Noting

theorem reader_noteValueWith (shape : Shape n) : (t.noteValueWith record shape).reader =
    t.readValueWith (fun id => (record id).reader) shape := by
  induction shape with
  | list _ _ ih | set _ _ ih =>
      simp only [noteValueWith, readValueWith, reader_bind, reader_header, reader_collect,
        reader_pure, ih]
  | map _ _ _ _ ihKey ihValue =>
      simp only [noteValueWith, readValueWith, reader_bind, reader_header, reader_collect,
        reader_pure, ihKey, ihValue]
  | _ => rfl

theorem reader_noteMismatched (field : KnownField n) (header : Reader.FieldHeader) :
    (t.noteMismatched field header).reader = t.mismatched field header := by
  rw [noteMismatched]
  split
  · rfl
  · next hchecks =>
      rw [mismatched, if_neg hchecks]
      exact reader_skipWithin maxFrames header.tag

theorem reader_noteField (fields : List (KnownField n)) (header : Reader.FieldHeader)
    (slots : Slots) : (t.noteField record fields header slots).reader =
      t.readField (fun id => (record id).reader) fields header slots := by
  have hskip : (Noting.skip header.tag).reader = Reader.skip header.tag :=
    reader_skipWithin maxFrames header.tag
  induction fields generalizing slots with
  | nil => simp only [noteField, readField, reader_bind, reader_pure, hskip]
  | cons field fields ih =>
      cases slots with
      | nil => simp only [noteField, readField, reader_bind, reader_pure, hskip]
      | cons slot slots =>
          rw [noteField, readField]
          split
          · split
            · rw [reader_bind, reader_noteValueWith]
              rfl
            · rw [reader_bind, reader_noteMismatched]
              rfl
          · rw [reader_bind, ih]
            rfl

theorem reader_noteRecordWithin (frames : Nat) (id : Fin n.records) :
    (t.noteRecordWithin frames id).reader = t.readRecordWithin frames id := by
  induction frames generalizing id with
  | zero => rfl
  | succ frames ih =>
      simp only [noteRecordWithin, readRecordWithin, reader_bind, reader_frame, reader_noteField,
        ih]
      congr 1
      funext slots
      cases (t.schema.record id).build slots <;> rfl

end Erasure

section Spends

variable {t : Target n}

open Noting

theorem takes_single {α : Type} {item : Reader α} {make : α → Value}
    (h : item.Takes fun bytes _ => 1 ≤ bytes) (hmake : ∀ a, (make a).parts = 0) :
    (item >>= fun a => pure (make a)).Takes fun bytes v => 1 ≤ bytes ∧ v.parts = 0 := by
  intro source v rest hread
  obtain ⟨a, hitem, rfl⟩ := Reader.bind_pure_eq_ok.mp hread
  obtain ⟨bytes, hbytes, hone⟩ := h source a rest hitem
  exact ⟨bytes, hbytes, hone, hmake a⟩

theorem takes_readEnum (id : Fin n.enums) :
    (t.readEnum id).Takes fun bytes v => 1 ≤ bytes ∧ v.parts = 0 := by
  intro source v rest hread
  obtain ⟨number, middle, hnumber, hmember⟩ := Reader.bind_eq_ok.mp hread
  obtain ⟨bytes, hbytes, hone⟩ := Reader.takes_i32 source number middle hnumber
  cases hvalue : (t.schema.enum id).memberByValue? number with
  | some _ =>
      rw [hvalue] at hmember
      cases hmember
      exact ⟨bytes, hbytes, hone, rfl⟩
  | none =>
      rw [hvalue] at hmember
      cases hmember

theorem takes_readValueWith {record : Fin n.records → Reader Value} {shape : Shape n}
    (h : shape.isSingle = true) :
    (t.readValueWith record shape).Takes fun bytes v => 1 ≤ bytes ∧ v.parts = 0 := by
  cases shape with
  | bool => exact takes_single (Reader.takes_rawByte.map _) fun _ => rfl
  | byte => exact takes_single (Reader.takes_rawByte.map _) fun _ => rfl
  | i16 => exact takes_single Reader.takes_i16 fun _ => rfl
  | i32 => exact takes_single Reader.takes_i32 fun _ => rfl
  | i64 => exact takes_single Reader.takes_i64 fun _ => rfl
  | double => exact takes_single Reader.takes_double fun _ => rfl
  | string =>
      exact takes_single (Reader.takes_binary.bind Reader.composed_decoded) fun _ => rfl
  | binary => exact takes_single Reader.takes_binary fun _ => rfl
  | enum id => exact takes_readEnum id
  | void | service | cyclic => exact Reader.takes_throw _
  | list | set | map | record => cases h

theorem spends_items {item : Noting Value} {make : List Value → Value}
    (hitem : Spends item fun bytes v => v.parts + 1 ≤ bytes)
    (hmake : ∀ items, (make items).parts ≤ Value.itemParts items) :
    Spends (header Reader.itemsHeader (·.size) >>= fun header =>
      collect item header.size >>= fun items => pure (make items)) fun bytes v =>
        v.parts + 1 ≤ bytes := by
  apply Spends.items
  intro header
  have hitems := hitem.collect (q := fun bytes items => Value.itemParts items ≤ bytes)
    (Nat.le_refl 0) (fun bytes v more items hv hmore => by rw [Value.itemParts]; omega) header.size
  apply hitems.bind
  intro bytes items hcollected
  obtain ⟨hlength, hbytes⟩ := hcollected
  have hparts := hmake items
  have hsize := Value.length_le_itemParts items
  exact spends_pure ⟨by omega, fun more hmore => by omega⟩

theorem spends_entries {key value : Noting Value} {make : List (Value × Value) → Value}
    (hkey : Spends key fun bytes v => v.parts + 1 ≤ bytes)
    (hvalue : Spends value fun _ v => v.parts = 0)
    (hmake : ∀ entries, (∀ entry ∈ entries, entry.2.parts = 0) →
      (make entries).parts ≤ Value.entryParts entries) :
    Spends (header Reader.entriesHeader (·.size) >>= fun header =>
      collect (key >>= fun k => value >>= fun v => pure (k, v)) header.size >>= fun entries =>
        pure (make entries)) fun bytes v => v.parts + 1 ≤ bytes := by
  apply Spends.entries
  intro header
  have hentry : Spends (key >>= fun k => value >>= fun v => pure (k, v)) fun bytes entry =>
      entry.1.parts + 1 ≤ bytes ∧ entry.2.parts = 0 := by
    apply hkey.bind
    intro bytes k hk
    apply hvalue.bind
    intro more v hv
    exact spends_pure ⟨Nat.le_add_right_of_le hk, hv⟩
  have hentries := hentry.collect
    (q := fun bytes entries =>
      Value.entryParts entries ≤ bytes ∧ ∀ entry ∈ entries, entry.2.parts = 0)
    ⟨Nat.le_refl 0, fun _ hmem => absurd hmem List.not_mem_nil⟩
    (fun bytes entry more entries hentry hmore => by
      refine ⟨?_, List.forall_mem_cons.mpr ⟨hentry.2, hmore.2⟩⟩
      rw [Value.entryParts]
      omega)
    header.size
  apply hentries.bind
  intro bytes entries hcollected
  obtain ⟨hlength, hbytes, hvalues⟩ := hcollected
  have hparts := hmake entries hvalues
  have hsize := Value.length_le_entryParts entries
  exact spends_pure ⟨by omega, fun more hmore => by omega⟩

theorem spends_noteMismatched (field : KnownField n) (header : Reader.FieldHeader) :
    Spends (t.noteMismatched field header) fun _ _ => True := by
  rw [noteMismatched]
  split
  · next hchecks =>
      rw [mismatched, if_pos hchecks]
      exact spends_quiet (Reader.takes_throw _)
  · exact (spends_skipWithin maxFrames header.tag).imp fun _ _ _ => trivial

section Records

variable {record : Fin n.records → Noting Value}
  (hrecord : ∀ id, Spends (record id) fun bytes v =>
    1 ≤ v.parts ∧ v.parts + (t.needsField id).toNat ≤ bytes)
include hrecord

theorem spends_noteValueWith {shape : Shape n} (hshape : shape.paysForParts t.needsField = true) :
    Spends (t.noteValueWith record shape) fun bytes v =>
      v.parts + shape.spare t.needsField ≤ bytes ∧ (shape.isSingle = true → v.parts = 0) := by
  induction shape with
  | record id =>
      exact (hrecord id).imp fun bytes v hbytes => ⟨hbytes.2, fun hsingle => by cases hsingle⟩
  | list _ element ih =>
      rw [Shape.paysForParts, Bool.and_eq_true, beq_iff_eq] at hshape
      have hitem := (ih () hshape.2).imp fun bytes v hv => hshape.1 ▸ hv.1
      refine (spends_items hitem fun items => ?_).imp fun bytes v hbytes =>
        ⟨hbytes, fun hsingle => by cases hsingle⟩
      rw [Value.parts]
  | set _ element ih =>
      rw [Shape.paysForParts, Bool.and_eq_true, beq_iff_eq] at hshape
      have hitem := (ih () hshape.2).imp fun bytes v hv => hshape.1 ▸ hv.1
      exact (spends_items hitem (Value.parts_setOf_le t.config.set)).imp fun bytes v hbytes =>
        ⟨hbytes, fun hsingle => by cases hsingle⟩
  | map _ key _ value ihKey ihValue =>
      rw [Shape.paysForParts, Bool.and_eq_true, Bool.and_eq_true, beq_iff_eq] at hshape
      obtain ⟨⟨hspare, hkeyPays⟩, hsingle⟩ := hshape
      have hkey := (ihKey () hkeyPays).imp fun bytes v hv => hspare ▸ hv.1
      have hvalue := (ihValue () (Shape.paysForParts_of_isSingle hsingle)).imp
        fun bytes v hv => hv.2 hsingle
      exact (spends_entries hkey hvalue fun entries => Value.parts_mapOf_le t.config.map).imp
        fun bytes v hbytes => ⟨hbytes, fun hsingle => by cases hsingle⟩
  | _ =>
      refine spends_quiet fun source v rest hread => ?_
      obtain ⟨bytes, hbytes, hone, hparts⟩ := takes_readValueWith rfl source v rest hread
      refine ⟨bytes, hbytes, ?_, fun _ => hparts⟩
      rw [hparts]
      exact hone

/-- A field adds to the slots no more parts than it takes bytes. -/
theorem spends_noteField {fields : List (KnownField n)}
    (hfields : ∀ field ∈ fields, field.shape.paysForParts t.needsField = true)
    (header : Reader.FieldHeader) (slots : Slots) :
    Spends (t.noteField record fields header slots) fun bytes next =>
      Value.slotParts next ≤ Value.slotParts slots + bytes := by
  have hskipped : ∀ slots : Slots, Spends (Noting.skip header.tag >>= fun _ => pure slots)
      fun bytes next => Value.slotParts next ≤ Value.slotParts slots + bytes := by
    intro slots
    apply (spends_skipWithin maxFrames header.tag).bind
    intro bytes _ _
    exact spends_pure (Nat.le_add_right _ _)
  induction fields generalizing slots with
  | nil => exact hskipped slots
  | cons field fields ih =>
      rw [List.forall_mem_cons] at hfields
      cases slots with
      | nil => exact hskipped []
      | cons slot slots =>
          have hslot : Value.slotParts slots ≤ Value.slotParts (slot :: slots) := by
            cases slot with
            | none => exact Nat.le_refl _
            | some v => exact Nat.le_add_left _ _
          rw [noteField]
          split
          · split
            · apply (spends_noteValueWith hrecord hfields.1).bind
              intro bytes v hv
              refine spends_pure ?_
              rw [Value.slotParts]
              omega
            · apply (spends_noteMismatched field header).bind
              intro bytes _ _
              exact spends_pure (Nat.le_add_right _ _)
          · apply (ih hfields.2 slots).bind
            intro bytes next hnext
            refine spends_pure ?_
            cases slot with
            | none => exact hnext
            | some v =>
                rw [Value.slotParts, Value.slotParts]
                omega

end Records

theorem spends_noteRecordWithin (h : t.PaysForParts) (frames : Nat) (id : Fin n.records) :
    Spends (t.noteRecordWithin frames id) fun bytes v =>
      1 ≤ v.parts ∧ v.parts + (t.needsField id).toNat ≤ bytes := by
  induction frames generalizing id with
  | zero => exact spends_quiet (Reader.takes_throw _)
  | succ frames ih =>
      have hfields : ∀ field ∈ t.schema.knownFields (t.schema.record id).fields,
          field.shape.paysForParts t.needsField = true :=
        List.forall_mem_map.mpr (h.fields id)
      -- A record that needs a field starts from potential zero and ends above it, so the byte that
      -- it has to spare is one of a field header; any other record starts from one.
      apply (spends_frame (t.potential id) (fun header slots =>
        (spends_noteField ih hfields header slots).imp fun _ _ => potential_le) _).bind
      intro bytes slots hslots
      have hstart := h.potential_new id
      cases hbuild : (t.schema.record id).build slots with
      | error fault => exact spends_quiet (Reader.takes_throw _)
      | ok v =>
          rw [potential_of_build hbuild] at hslots
          have hrecord : 1 ≤ v.parts := by
            rw [RecordDecl.eq_record_of_build hbuild, Value.parts]
            exact Nat.le_add_left 1 _
          exact spends_pure ⟨hrecord, by omega⟩

end Spends

end Target

namespace Demo

theorem slotParts_new_of_mem_targets : ∀ t ∈ targets, ∀ id,
    Value.slotParts (Builder.new t id).slots = 0 := by
  decide

theorem paysForParts_of_mem_targets : ∀ t ∈ targets, ∀ id, ∀ field ∈ (t.schema.record id).fields,
    (t.schema.shape field.ty).paysForParts t.needsField = true := by
  decide

/-- No declared size outruns the source, whatever frames are open: not in what is skipped, and not in
what is read as a record, which has no more parts than it took bytes. -/
theorem declared_sizes_within_source (source : Source) :
    (∀ tag, (Noting.skip tag).Bounds (Reader.skip tag) (fun _ => 0) source) ∧
      ∀ t ∈ targets, ∀ id, (t.noteRecord id).Bounds (t.readRecord id) Value.parts source := by
  constructor
  · intro tag
    have hskip := (Noting.spends_skipWithin maxFrames tag).imp fun bytes _ hbytes =>
      And.intro hbytes (Nat.zero_le bytes)
    exact hskip.bounds (Noting.reader_skipWithin maxFrames tag) source
  · intro t ht id
    have hpays : t.PaysForParts :=
      ⟨slotParts_new_of_mem_targets t ht, paysForParts_of_mem_targets t ht⟩
    have hrecord := (Target.spends_noteRecordWithin hpays maxFrames id).imp fun bytes v hv =>
      (by omega : 1 ≤ bytes ∧ v.parts ≤ bytes)
    exact hrecord.bounds (Target.reader_noteRecordWithin maxFrames id) source

/-- A node with one child; `size` is the number of children that its list declares. -/
def nodeBytes (size : UInt8) : Bytes :=
  [8, 0, 1, 0, 0, 0, 7, 15, 0, 3, 12, 0, 0, 0, size, 8, 0, 1, 0, 0, 0, 9, 0, 0]

theorem readRecord_nodeBytes :
    hashed ∈ targets ∧
      (∃ rest, hashed.readRecord nodeId ⟨nodeBytes 1, 3⟩ =
        .ok (.record [some (.i32 7), none, some (.seq .vec [.record [some (.i32 9), none, none]])])
          rest) ∧
      (hashed.noteRecord nodeId).notes ⟨nodeBytes 200, 3⟩ = [⟨200, [8, 0, 1, 0, 0, 0, 9, 0, 0]⟩] ∧
      ∃ fault rest, hashed.readRecord nodeId ⟨nodeBytes 200, 3⟩ = .error fault rest := by
  have hmem : hashed ∈ targets := mem_targets.mpr (.inl rfl)
  have hnotes : (hashed.noteRecord nodeId).notes ⟨nodeBytes 200, 3⟩ =
      [⟨200, [8, 0, 1, 0, 0, 0, 9, 0, 0]⟩] := rfl
  have hbounds := (declared_sizes_within_source ⟨nodeBytes 200, 3⟩).2 hashed hmem nodeId
  have hnote : ⟨200, [8, 0, 1, 0, 0, 0, 9, 0, 0]⟩ ∈
      (hashed.noteRecord nodeId).notes ⟨nodeBytes 200, 3⟩ := by
    rw [hnotes]
    exact List.mem_singleton_self _
  exact ⟨hmem, ⟨⟨[], 3⟩, rfl⟩, hnotes, hbounds.refused _ hnote (by decide)⟩

end Demo

end WireIdl

import WireIdl.Proofs.Value.Walk
import WireIdl.Record.Builder

/-! Values of a shape, and the builders that come to be by starting from the defaults or from a
record and setting fields. Whatever such a builder builds is a value of its record. -/

namespace WireIdl

variable {n : Census}

theorem RecordDecl.eq_record_of_build {decl : RecordDecl n} {slots : Slots} {v : Value}
    (h : decl.build slots = .ok v) : v = .record slots := by
  rw [RecordDecl.build] at h
  split at h
  · simp only at h
    split at h
    · cases h
      rfl
    · cases h
  · split at h
    · cases h
    · cases h
      rfl

namespace Target

/-- The values that the type emitted for a shape has. A record has a value for each required field
and for each field with a default. -/
inductive Fits (t : Target n) : Shape n → Value → Prop where
  | bool (v : Bool) : Fits t .bool (.bool v)
  | byte (v : Int8) : Fits t .byte (.byte v)
  | i16 (v : Int16) : Fits t .i16 (.i16 v)
  | i32 (v : Int32) : Fits t .i32 (.i32 v)
  | i64 (v : Int64) : Fits t .i64 (.i64 v)
  | double (v : Double) : Fits t .double (.double v)
  | string (v : String) : Fits t .string (.string .owned v)
  | binary (v : Bytes) : Fits t .binary (.binary v)
  | enum {id : Fin n.enums} {v : Int32} (member : ((t.schema.enum id).memberByValue? v).isSome) :
      Fits t (.enum id) (.enum v)
  | list {written : Ty n} {element : Unit → Shape n} {items : List Value}
      (parts : ∀ item ∈ items, Fits t (element ()) item) :
      Fits t (.list written element) (.seq t.config.list.toSeq items)
  | set {written : Ty n} {element : Unit → Shape n} {items : List Value}
      (walk : items.Pairwise (Value.Before t.config.set))
      (parts : ∀ item ∈ items, Fits t (element ()) item) :
      Fits t (.set written element) (.set t.config.set items)
  | map {writtenKey writtenValue : Ty n} {key value : Unit → Shape n}
      {entries : List (Value × Value)}
      (walk : entries.Pairwise fun a b => Value.Before t.config.map a.1 b.1)
      (keys : ∀ entry ∈ entries, Fits t (key ()) entry.1)
      (values : ∀ entry ∈ entries, Fits t (value ()) entry.2) :
      Fits t (.map writtenKey key writtenValue value) (.map t.config.map entries)
  | record {id : Fin n.records} {slots : Slots}
      (length : (t.schema.record id).fields.length = slots.length)
      (parts : ∀ pair ∈ (t.schema.record id).fields.zip slots, ∀ v ∈ pair.2,
        Fits t (t.schema.shape pair.1.ty) v)
      (defaults : ∀ pair ∈ (t.schema.record id).fields.zip slots, pair.2 = none →
        t.defaultValue? pair.1 = none)
      (built : (t.schema.record id).build slots = .ok (.record slots)) :
      Fits t (.record id) (.record slots)

/-- The builders that can be arrived at. -/
inductive Collects (t : Target n) : Builder n → Prop where
  | new (id : Fin n.records) : Collects t (Builder.new t id)
  | ofValue {id : Fin n.records} {v : Value} (fits : t.Fits (.record id) v) :
      Collects t (Builder.ofValue id v)
  | set {b : Builder n} {index : Nat} {field : Field n} {v : Value} (start : Collects t b)
      (declared : (t.schema.record b.id).fields[index]? = some field)
      (fits : t.Fits (t.schema.shape field.ty) v) : Collects t (b.set index v)

def DefaultsFit (t : Target n) : Prop :=
  ∀ id, ∀ field ∈ (t.schema.record id).fields, ∀ v ∈ t.defaultValue? field,
    t.Fits (t.schema.shape field.ty) v

def SlotFits (t : Target n) (field : Field n) : Option Value → Prop
  | some v => t.Fits (t.schema.shape field.ty) v
  | none => t.defaultValue? field = none

variable {t : Target n}

theorem fits_record_iff {id : Fin n.records} {slots : Slots} :
    t.Fits (.record id) (.record slots) ↔
      List.Forall₂ t.SlotFits (t.schema.record id).fields slots ∧
        (t.schema.record id).build slots = .ok (.record slots) := by
  constructor
  · intro h
    cases h with
    | record hlength hparts hdefaults hbuilt =>
        refine ⟨List.forall₂_iff_zip.mpr ⟨hlength, fun {field slot} hmem => ?_⟩, hbuilt⟩
        cases slot with
        | none => exact hdefaults _ hmem rfl
        | some v => exact hparts _ hmem v rfl
  · intro h
    obtain ⟨hslots, hbuilt⟩ := h
    obtain ⟨hlength, hpairs⟩ := List.forall₂_iff_zip.mp hslots
    refine .record hlength ?_ ?_ hbuilt
    · intro pair hmem v hv
      have hpair := hpairs hmem
      rw [hv] at hpair
      exact hpair
    · intro pair hmem hnone
      have hpair := hpairs hmem
      rw [hnone] at hpair
      exact hpair

theorem Collects.slotFits (hdefaults : t.DefaultsFit) {b : Builder n} (h : t.Collects b) :
    List.Forall₂ t.SlotFits (t.schema.record b.id).fields b.slots := by
  induction h with
  | new id =>
      change List.Forall₂ t.SlotFits (t.schema.record id).fields
        ((t.schema.record id).fields.map t.defaultValue?)
      rw [List.forall₂_map_right_iff, List.forall₂_same]
      intro field hmem
      cases hdefault : t.defaultValue? field with
      | none => exact hdefault
      | some v => exact hdefaults id field hmem v hdefault
  | ofValue hfits =>
      -- Only a record has the shape of a record, so the builder gets its slots.
      cases hfits with
      | record hlength hparts hfilled hbuilt =>
          exact (fits_record_iff.mp (.record hlength hparts hfilled hbuilt)).1
  | set _ hdeclared hfits ih => exact forall₂_set ih hdeclared hfits

theorem Collects.fits_of_build (hdefaults : t.DefaultsFit) {b : Builder n} {v : Value}
    (h : t.Collects b) (hbuild : b.build t.schema = .ok v) : t.Fits (.record b.id) v := by
  have hrecord := RecordDecl.eq_record_of_build hbuild
  subst hrecord
  exact fits_record_iff.mpr ⟨h.slotFits hdefaults, hbuild⟩

theorem Fits.same_of_rewalk {shape : Shape n} {v w : Value} (h : t.Fits shape v)
    (hwalk : v.Rewalk w) : v.same w = true := by
  induction h generalizing w with
  | bool v | byte v | i16 v | i32 v | i64 v | double v | string v | binary v | enum member =>
      cases hwalk
      simp [Value.same]
  | list parts ih =>
      obtain ⟨others, rfl, hothers⟩ := hwalk.of_seq
      rw [Value.same, Bool.and_eq_true, Value.sameItems_iff]
      refine ⟨beq_self_eq_true _, ?_⟩
      exact ((List.forall₂_and_left _ _).mpr ⟨ih, hothers⟩).imp fun _ _ h => h.1 h.2
  | set walk parts ih =>
      obtain ⟨others, rfl, hperm⟩ := hwalk.of_set
      rw [Value.same, Bool.and_eq_true, Bool.and_eq_true, beq_iff_eq, beq_iff_eq,
        Value.itemsWithin_iff]
      exact ⟨⟨rfl, hperm.length_eq⟩,
        fun item hmem => ⟨item, hperm.mem_iff.mp hmem, ih item hmem (.refl item)⟩⟩
  | map walk keys values ihKeys ihValues =>
      obtain ⟨middle, others, rfl, hperm, hothers⟩ := hwalk.of_map
      rw [Value.same, Bool.and_eq_true, Bool.and_eq_true, beq_iff_eq, beq_iff_eq,
        Value.entriesWithin_iff]
      refine ⟨⟨rfl, hperm.length_eq.trans hothers.length_eq⟩, fun entry hmem => ?_⟩
      obtain ⟨other, hother, hkey, hvalue⟩ :=
        exists_of_forall₂ hothers (hperm.mem_iff.mp hmem)
      have hapart := Value.pairwise_keys_of_perm walk hperm
        (map_eq_map_iff_forall₂.mpr (hothers.imp fun _ _ h => h.1))
      have hself := ihKeys entry hmem (.refl entry.1)
      rw [hkey] at hself ⊢
      exact ⟨other, Value.find?_key hapart hother hself, ihValues entry hmem hvalue⟩
  | record length parts defaults built ih =>
      obtain ⟨others, rfl, hothers⟩ := hwalk.of_record
      rw [Value.same, Value.sameSlots_iff]
      rename_i id slots
      have hslots : ∀ slot ∈ slots, ∀ v ∈ slot, ∀ {w : Value}, v.Rewalk w → v.same w = true :=
        forall_mem_of_forall₂ (List.forall₂_iff_zip.mpr ⟨length, fun hmem => ih _ hmem⟩)
      refine ((List.forall₂_and_left _ _).mpr ⟨hslots, hothers⟩).imp fun slot other h => ?_
      cases h.2 with
      | none => exact .none
      | some hpart => exact .some (h.1 _ rfl hpart)

def fitsLeaf (t : Target n) : Shape n → Value → Bool
  | .bool, .bool _ | .byte, .byte _ | .i16, .i16 _ | .i32, .i32 _ | .i64, .i64 _
  | .double, .double _ | .string, .string .owned _ | .binary, .binary _ => true
  | .enum id, .enum v => ((t.schema.enum id).memberByValue? v).isSome
  | _, _ => false

theorem fits_of_fitsLeaf {shape : Shape n} {v : Value} (h : t.fitsLeaf shape v = true) :
    t.Fits shape v := by
  unfold fitsLeaf at h
  split at h
  any_goals constructor
  · exact h
  · cases h

end Target

end WireIdl

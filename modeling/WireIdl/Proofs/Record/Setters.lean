import Mathlib.Data.Fintype.Fin
import WireIdl.Proofs.Demo

/-! What a builder gives after any sequence of setters. Each field has the value that was set last,
or else the one that the builder began with, and the build looks at nothing but these. -/

namespace WireIdl

variable {n : Census}

section Slots

variable {α : Type} {k : Nat}

theorem set_ofFn (f : Fin k → α) (i : Fin k) (a : α) :
    (List.ofFn f).set i a = List.ofFn (Function.update f i a) := by
  apply List.ext_getElem (by simp)
  intro j _ _
  simp [List.getElem_set, Function.update_apply, Fin.ext_iff, eq_comm]

theorem countP_ofFn (p : α → Bool) (f : Fin k → α) :
    (List.ofFn f).countP p = (Finset.univ.filter fun i => p (f i) = true).card := by
  induction k with
  | zero => simp
  | succ k ih =>
      rw [List.ofFn_succ, List.countP_cons, ih, Fin.card_filter_univ_succ', Nat.add_comm]

end Slots

/-- The value that was set last for a field. -/
def lastSet {ι : Type} [DecidableEq ι] (i : ι) (calls : List (ι × Value)) : Option Value :=
  (calls.filter (·.1 = i)).getLast?.map (·.2)

section LastSet

variable {ι : Type} [DecidableEq ι]

theorem lastSet_cons (i : ι) (call : ι × Value) (calls : List (ι × Value)) :
    lastSet i (call :: calls) =
      (lastSet i calls).or (if call.1 = i then some call.2 else none) := by
  rw [lastSet, ← List.singleton_append, List.filter_append, List.getLast?_append, Option.map_or]
  by_cases h : call.1 = i
  · simp [lastSet, h]
  · simp [lastSet, h]

theorem isSome_lastSet_iff {i : ι} {calls : List (ι × Value)} :
    (lastSet i calls).isSome ↔ i ∈ calls.map (·.1) := by
  simp [lastSet]

end LastSet

namespace Builder

def setAll {k : Nat} (b : Builder n) (calls : List (Fin k × Value)) : Builder n :=
  calls.foldl (fun b call => b.set call.1 call.2) b

theorem id_setAll {k : Nat} (b : Builder n) (calls : List (Fin k × Value)) :
    (b.setAll calls).id = b.id := by
  induction calls generalizing b with
  | nil => rfl
  | cons call calls ih => exact ih (b.set call.1 call.2)

theorem slots_new (t : Target n) (id : Fin n.records) :
    (new t id).slots = List.ofFn fun i => t.defaultValue? ((t.schema.record id).fields.get i) := by
  change (t.schema.record id).fields.map t.defaultValue? =
    List.ofFn (t.defaultValue? ∘ (t.schema.record id).fields.get)
  rw [← List.map_ofFn, List.ofFn_get]

theorem slots_set {k : Nat} {b : Builder n} {held : Fin k → Option Value}
    (h : b.slots = List.ofFn held) (i : Fin k) (v : Value) :
    (b.set i v).slots = List.ofFn (Function.update held i (some v)) := by
  change b.slots.set i (some v) = _
  rw [h, set_ofFn]

theorem slots_setAll {k : Nat} {b : Builder n} {held : Fin k → Option Value}
    (h : b.slots = List.ofFn held) (calls : List (Fin k × Value)) :
    (b.setAll calls).slots = List.ofFn fun i => (lastSet i calls).or (held i) := by
  -- The first call changes what the others begin with.
  induction calls generalizing b held with
  | nil => exact h
  | cons call calls ih =>
      change ((b.set call.1 call.2).setAll calls).slots = _
      rw [ih (slots_set h call.1 call.2)]
      congr 1
      funext i
      rw [lastSet_cons, Option.or_assoc]
      by_cases hi : i = call.1
      · subst hi
        simp
      · rw [Function.update_of_ne hi, if_neg (Ne.symm hi), Option.none_or]

end Builder

namespace RecordDecl

theorem firstMissing?_ofFn (fields : List (Field n)) (held : Fin fields.length → Option Value) :
    firstMissing? fields (List.ofFn held) =
      (Fin.find? fun i => (fields.get i).isRequired && (held i).isNone).map fields.get := by
  induction fields with
  | nil => simp [firstMissing?]
  | cons field fields ih =>
      have hrest := ih fun i => held i.succ
      have hget : (field :: fields).get ∘ Fin.succ = fields.get := rfl
      rw [List.ofFn_succ, Fin.find?_succ, apply_ite (Option.map _), Option.map_map, hget]
      cases hfirst : held 0 with
      | some v =>
          rw [firstMissing?, Option.isNone_some, Bool.and_false, if_neg Bool.false_ne_true]
          exact hrest
      | none =>
          rw [firstMissing?, Option.isNone_none, Bool.and_true]
          exact if_congr Iff.rfl rfl hrest

/-- A required field without a value, all required fields before it having one. -/
def FirstMissing (decl : RecordDecl n) (held : Fin decl.fields.length → Option Value)
    (i : Fin decl.fields.length) : Prop :=
  (decl.fields.get i).isRequired = true ∧ held i = none ∧
    ∀ j < i, (decl.fields.get j).isRequired = true → (held j).isSome

section Build

variable {decl : RecordDecl n} {held : Fin decl.fields.length → Option Value}

theorem find?_missing_eq_none_iff :
    (Fin.find? fun i => (decl.fields.get i).isRequired && (held i).isNone) = none ↔
      ∀ i, (decl.fields.get i).isRequired = true → (held i).isSome := by
  rw [Fin.find?_eq_none_iff]
  exact forall_congr' fun i => by simp

theorem find?_missing_eq_some_iff {i : Fin decl.fields.length} :
    (Fin.find? fun i => (decl.fields.get i).isRequired && (held i).isNone) = some i ↔
      decl.FirstMissing held i := by
  rw [Fin.find?_eq_some_iff, FirstMissing, Bool.and_eq_true, Option.isNone_iff_eq_none, and_assoc]
  simp

theorem build_ofFn_eq_ok_iff (hplain : decl.isUnion = false) {v : Value} :
    decl.build (List.ofFn held) = .ok v ↔
      (∀ i, (decl.fields.get i).isRequired = true → (held i).isSome) ∧
        v = .record (List.ofFn held) := by
  rw [build, hplain, if_neg Bool.false_ne_true, firstMissing?_ofFn, ← find?_missing_eq_none_iff]
  cases Fin.find? fun i => (decl.fields.get i).isRequired && (held i).isNone with
  | none => simp [eq_comm]
  | some i => simp

theorem build_ofFn_eq_error_iff (hplain : decl.isUnion = false) {fault : BuildFault} :
    decl.build (List.ofFn held) = .error fault ↔
      ∃ i, decl.FirstMissing held i ∧ fault = .missingRequiredField (decl.fields.get i).name := by
  rw [build, hplain, if_neg Bool.false_ne_true, firstMissing?_ofFn]
  simp only [← find?_missing_eq_some_iff]
  cases Fin.find? fun i => (decl.fields.get i).isRequired && (held i).isNone with
  | none => simp
  | some i => simp [eq_comm]

theorem build_union_eq_ok_iff (hunion : decl.isUnion = true) {slots : Slots} {v : Value} :
    decl.build slots = .ok v ↔ slots.countP (·.isSome) = 1 ∧ v = .record slots := by
  rw [build, if_pos hunion]
  by_cases hone : slots.countP (·.isSome) = 1
  · simp [hone, eq_comm]
  · simp [hone]

theorem build_union_eq_error_iff (hunion : decl.isUnion = true) {slots : Slots}
    {fault : BuildFault} :
    decl.build slots = .error fault ↔
      slots.countP (·.isSome) ≠ 1 ∧ fault = .invalidUnionState (slots.countP (·.isSome)) := by
  rw [build, if_pos hunion]
  by_cases hone : slots.countP (·.isSome) = 1
  · simp [hone]
  · simp [hone, eq_comm]

end Build

end RecordDecl

namespace Target

/-- Calls of setters, each with the position of its field. -/
abbrev Calls (t : Target n) (id : Fin n.records) : Type :=
  List (Fin (t.schema.record id).fields.length × Value)

/-- What a builder begins with: the defaults, or the fields of a record. -/
inductive Start (t : Target n) (id : Fin n.records) where
  | new
  | copy (slots : Slots) (fits : t.Fits (.record id) (.record slots))

namespace Start

variable {t : Target n} {id : Fin n.records}

def builder : t.Start id → Builder n
  | new => Builder.new t id
  | copy slots _ => Builder.ofValue id (.record slots)

def inherited (start : t.Start id) (i : Nat) : Option Value :=
  match start with
  | new => none
  | copy slots _ => slots[i]?.join

/-- The value of a field after setters: the one set last, else the inherited one, else the
default. -/
def held (start : t.Start id) (calls : t.Calls id)
    (i : Fin (t.schema.record id).fields.length) : Option Value :=
  (lastSet i calls).or
    ((start.inherited i).or (t.defaultValue? ((t.schema.record id).fields.get i)))

/-- The fields that a setter or the record at the beginning gives a value to. -/
def setFields (start : t.Start id) (calls : t.Calls id) :
    Finset (Fin (t.schema.record id).fields.length) :=
  Finset.univ.filter fun i => i ∈ calls.map (·.1) ∨ (start.inherited i).isSome

variable (start : t.Start id) (calls : t.Calls id)

theorem slots_builder :
    start.builder.slots = List.ofFn fun i : Fin (t.schema.record id).fields.length =>
      (start.inherited i).or (t.defaultValue? ((t.schema.record id).fields.get i)) := by
  cases start with
  | new => exact Builder.slots_new t id
  | copy slots fits =>
      obtain ⟨hlength, hslots⟩ := List.forall₂_iff_get.mp (fits_record_iff.mp fits).1
      apply List.ext_getElem (by simp [builder, Builder.ofValue, hlength])
      intro i hi _
      change i < slots.length at hi
      have hslot : t.SlotFits _ slots[i] := hslots i (hlength ▸ hi) hi
      have hinherited : (copy slots fits).inherited i = slots[i] := by simp [inherited, hi]
      simp only [List.getElem_ofFn, hinherited]
      change slots[i] = _
      -- A record has no value for a field only if the field has no default.
      cases hvalue : slots[i] with
      | some v => rfl
      | none =>
          rw [hvalue] at hslot
          exact hslot.symm

theorem slots_setAll :
    (start.builder.setAll calls).slots = List.ofFn (start.held calls) :=
  Builder.slots_setAll start.slots_builder calls

theorem build_setAll :
    (start.builder.setAll calls).build t.schema =
      (t.schema.record id).build (List.ofFn (start.held calls)) := by
  have hid : (start.builder.setAll calls).id = id := by
    rw [Builder.id_setAll]
    cases start <;> rfl
  rw [Builder.build, hid, start.slots_setAll calls]

theorem isSome_held_iff (i : Fin (t.schema.record id).fields.length) :
    (start.held calls i).isSome ↔
      i ∈ start.setFields calls ∨
        (t.defaultValue? ((t.schema.record id).fields.get i)).isSome := by
  simp [held, setFields, isSome_lastSet_iff, or_assoc]

theorem countP_held
    (h : ∀ field ∈ (t.schema.record id).fields, t.defaultValue? field = none) :
    (List.ofFn (start.held calls)).countP (·.isSome) = (start.setFields calls).card := by
  rw [countP_ofFn]
  congr 1
  ext i
  rw [Finset.mem_filter_univ, isSome_held_iff, h _ (List.get_mem _ i)]
  simp

end Start

end Target

namespace Demo

theorem union_defaults : ∀ t ∈ targets, ∀ id, (t.schema.record id).isUnion = true →
    ∀ field ∈ (t.schema.record id).fields, t.defaultValue? field = none := by
  decide

/-- After any setters a record of the demo schema is built if each required field has a value, with
the value that each field has; otherwise the first required field without one is named. A union is
built if one field was set, no matter how often; otherwise the number of set fields is given. -/
theorem build_after_setters {t : Target census} (ht : t ∈ targets) {id : Fin census.records}
    (start : t.Start id) (calls : t.Calls id) :
    ((t.schema.record id).isUnion = false →
      (∀ v, (start.builder.setAll calls).build t.schema = .ok v ↔
        (∀ i, ((t.schema.record id).fields.get i).isRequired = true →
          (start.held calls i).isSome) ∧ v = .record (List.ofFn (start.held calls))) ∧
      ∀ fault, (start.builder.setAll calls).build t.schema = .error fault ↔
        ∃ i, (t.schema.record id).FirstMissing (start.held calls) i ∧
          fault = .missingRequiredField ((t.schema.record id).fields.get i).name) ∧
    ((t.schema.record id).isUnion = true →
      (∀ v, (start.builder.setAll calls).build t.schema = .ok v ↔
        (start.setFields calls).card = 1 ∧ v = .record (List.ofFn (start.held calls))) ∧
      ∀ fault, (start.builder.setAll calls).build t.schema = .error fault ↔
        (start.setFields calls).card ≠ 1 ∧
          fault = .invalidUnionState (start.setFields calls).card) ∧
    (∀ v, (start.builder.setAll calls).build t.schema = .ok v →
      (Builder.ofValue id v).build t.schema = .ok v) ∧
    ∀ v, t.Fits (.record id) v → (Builder.ofValue id v).build t.schema = .ok v := by
  rw [start.build_setAll calls]
  refine ⟨fun hplain => ⟨fun v => ?_, fun fault => ?_⟩, fun hunion => ⟨fun v => ?_, fun fault => ?_⟩,
    fun v hbuild => ?_, fun v hfits => ?_⟩
  · exact RecordDecl.build_ofFn_eq_ok_iff hplain
  · exact RecordDecl.build_ofFn_eq_error_iff hplain
  · rw [RecordDecl.build_union_eq_ok_iff hunion,
      start.countP_held calls (union_defaults t ht id hunion)]
  · rw [RecordDecl.build_union_eq_error_iff hunion,
      start.countP_held calls (union_defaults t ht id hunion)]
  · have hrecord := RecordDecl.eq_record_of_build hbuild
    subst hrecord
    exact hbuild
  · cases hfits with
    | record hlength hparts hdefaults hbuilt => exact hbuilt

def noted : hashed.Start valueId :=
  .copy [some (.string .owned "note"), none, none]
    (Target.fits_record_iff.mpr ⟨.cons (.string "note") (.cons rfl (.cons rfl .nil)), rfl⟩)

theorem build_after_repeated_setters :
    ((.new : hashed.Start queryId).builder.setAll
      (k := 3) [(0, .string .owned "a"), (2, .record []), (0, .string .owned "b")]).build schema =
        .error (.missingRequiredField "resultsNewerThan") ∧
    (noted.builder.setAll (k := 3) [(0, .string .owned "a"), (0, .string .owned "b")]).build schema =
      .ok (.record [some (.string .owned "b"), none, none]) ∧
    (noted.builder.setAll (k := 3) [(1, .i64 5), (1, .i64 6)]).build schema =
      .error (.invalidUnionState 2) := by
  have hmem : hashed ∈ targets := mem_targets.mpr (.inl rfl)
  refine ⟨?_, ?_, ?_⟩
  · exact (((build_after_setters hmem _ _).1 rfl).2 _).mpr
      ⟨⟨1, by decide⟩, ⟨rfl, rfl, by decide⟩, rfl⟩
  · exact (((build_after_setters hmem noted _).2.1 rfl).1 _).mpr ⟨by decide, rfl⟩
  · exact (((build_after_setters hmem noted _).2.1 rfl).2 _).mpr ⟨by decide, rfl⟩

end Demo

end WireIdl

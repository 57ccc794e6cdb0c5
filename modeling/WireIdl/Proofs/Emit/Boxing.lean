import Mathlib.Data.Fintype.EquivFin
import WireIdl.Emit.Plan
import WireIdl.Proofs.Lists
import WireIdl.Proofs.Schema.Expansion

/-! Boxes break the cycles of a layout. A field is boxed exactly if its owner can be come back to
from the record that it holds, so a record that is stored in place never leads back to its owner,
and the sizes of records are determined. -/

namespace WireIdl

open Relation

variable {n : Census}

namespace Schema

variable {s : Schema n}

/-- A field of the first record is the second one, and not a container of it. -/
def HoldsDirectly (s : Schema n) (owner inner : Fin n.records) : Prop :=
  ∃ field ∈ (s.record owner).fields, ∃ kind, s.EndsAt field.ty (.record kind inner)

/-- The type is a record from which the owner can be come back to along fields that are records. -/
def LeadsBack (s : Schema n) (owner : Fin n.records) (ty : Ty n) : Prop :=
  ∃ kind start, s.EndsAt ty (.record kind start) ∧ ReflTransGen s.HoldsDirectly start owner

theorem exists_trueType_of_not_circular {ty : Ty n} (h : ¬ s.Circular ty) :
    ∃ core, s.trueType ty = .ok core := by
  have houtcome := outcome_trueType (s := s) ty
  cases htrue : s.trueType ty with
  | ok core => exact ⟨core, rfl⟩
  | error cycle =>
      rw [htrue] at houtcome
      exact absurd houtcome h

theorem recordId?_eq_some_iff {ty core : Ty n} (h : s.EndsAt ty core) {id : Fin n.records} :
    core.recordId? = some id ↔ ∃ kind, s.EndsAt ty (.record kind id) := by
  constructor
  · intro hcore
    cases core with
    | record kind other =>
        cases hcore
        exact ⟨kind, h⟩
    | _ => cases hcore
  · rintro ⟨kind, hends⟩
    rw [h.unique hends]
    rfl

theorem endsAt_of_shape {ty : Ty n} {id : Fin n.records} (h : s.shape ty = .record id) :
    ∃ kind, s.EndsAt ty (.record kind id) := by
  have hresolves := resolves_shape (s := s) ty
  rw [h] at hresolves
  cases hresolves with
  | record hends => exact ⟨_, hends⟩
  | plain _ _ hplain _ _ => exact False.elim hplain

end Schema

namespace Target

variable {t : Target n}

/-! ### The walk -/

theorem mem_directRecords_iff {fields : List (Field n)} {next : List (Fin n.records)}
    (h : t.directRecords fields = .ok next) {inner : Fin n.records} :
    inner ∈ next ↔
      ∃ field ∈ fields, ∃ kind, t.schema.EndsAt field.ty (.record kind inner) := by
  induction fields generalizing next with
  | nil =>
      cases h
      simp
  | cons field fields ih =>
      obtain ⟨core, hcore, h⟩ := except_bind_eq_ok.mp h
      obtain ⟨rest, hrest, h⟩ := except_bind_eq_ok.mp h
      cases h
      rw [List.mem_append, ih hrest, Option.mem_toList,
        Schema.recordId?_eq_some_iff (Schema.endsAt_of_trueType hcore)]
      simp

theorem exists_directRecords (h : ∀ ty, ¬ t.schema.Circular ty) (fields : List (Field n)) :
    ∃ next, t.directRecords fields = .ok next := by
  induction fields with
  | nil => exact ⟨[], rfl⟩
  | cons field fields ih =>
      obtain ⟨core, hcore⟩ := Schema.exists_trueType_of_not_circular (h field.ty)
      obtain ⟨rest, hrest⟩ := ih
      exact ⟨_, except_bind_eq_ok.mpr ⟨core, hcore, except_bind_eq_ok.mpr ⟨rest, hrest, rfl⟩⟩⟩

/-- What a walk for `owner` keeps: it has not passed the owner, and whatever a record it has passed
holds is passed as well or on the stack. -/
structure Searched (s : Schema n) (owner : Fin n.records) (fresh stack : List (Fin n.records)) :
    Prop where
  nodup : fresh.Nodup
  ne_owner : ∀ id, id ∉ fresh → id ≠ owner
  closed : ∀ id, id ∉ fresh → ∀ inner, s.HoldsDirectly id inner → inner ∉ fresh ∨ inner ∈ stack

namespace Searched

variable {s : Schema n} {owner id : Fin n.records} {fresh stack : List (Fin n.records)}

theorem start (s : Schema n) (owner : Fin n.records) (stack : List (Fin n.records)) :
    Searched s owner (List.finRange n.records) stack where
  nodup := List.nodup_finRange n.records
  ne_owner id hpassed := absurd (List.mem_finRange id) hpassed
  closed id hpassed := absurd (List.mem_finRange id) hpassed

theorem pop (h : Searched s owner fresh (id :: stack)) (hpassed : id ∉ fresh) :
    Searched s owner fresh stack where
  nodup := h.nodup
  ne_owner := h.ne_owner
  closed other hother inner hinner := by
    obtain hpassed' | hstack := h.closed other hother inner hinner
    · exact .inl hpassed'
    · obtain rfl | hrest := List.mem_cons.mp hstack
      · exact .inl hpassed
      · exact .inr hrest

theorem enter {next : List (Fin n.records)} (h : Searched s owner fresh (id :: stack))
    (hne : id ≠ owner) (hnext : ∀ inner, s.HoldsDirectly id inner → inner ∈ next) :
    Searched s owner (fresh.erase id) (next ++ stack) where
  nodup := h.nodup.erase id
  ne_owner other hother := by
    by_cases hsame : other = id
    · rwa [hsame]
    · exact h.ne_owner other fun hmem => hother (h.nodup.mem_erase_iff.mpr ⟨hsame, hmem⟩)
  closed other hother inner hinner := by
    rw [h.nodup.mem_erase_iff, List.mem_append]
    by_cases hsame : other = id
    · subst hsame
      exact .inr (.inl (hnext inner hinner))
    · have hpassed : other ∉ fresh := fun hmem =>
        hother (h.nodup.mem_erase_iff.mpr ⟨hsame, hmem⟩)
      obtain hinnerPassed | hstack := h.closed other hpassed inner hinner
      · exact .inl fun hmem => hinnerPassed hmem.2
      · obtain rfl | hrest := List.mem_cons.mp hstack
        · exact .inl fun hmem => hmem.1 rfl
        · exact .inr (.inr hrest)

/-- From a record that was passed the owner is reached only through the stack. -/
theorem exists_mem_stack (h : Searched s owner fresh stack) (hpassed : id ∉ fresh)
    (hreach : ReflTransGen s.HoldsDirectly id owner) :
    ∃ start ∈ stack, ReflTransGen s.HoldsDirectly start owner := by
  induction hreach using ReflTransGen.head_induction_on with
  | refl => exact absurd rfl (h.ne_owner _ hpassed)
  | head hstep hrest ih =>
      obtain hnext | hstack := h.closed _ hpassed _ hstep
      · exact ih hnext
      · exact ⟨_, hstack, hrest⟩

end Searched

theorem reachesOwner_iff {owner : Fin n.records} {fresh stack : List (Fin n.records)} {found : Bool}
    (hsearched : Searched t.schema owner fresh stack)
    (h : t.reachesOwner owner fresh stack = .ok found) :
    found = true ↔ ∃ start ∈ stack, ReflTransGen t.schema.HoldsDirectly start owner := by
  fun_induction reachesOwner t owner fresh stack with
  | case1 fresh =>
      cases h
      simp
  | case2 fresh stack =>
      cases h
      exact iff_of_true rfl ⟨owner, List.mem_cons_self, .refl⟩
  | case3 fresh id stack hne hfresh cycle hcycle => cases h
  | case4 fresh id stack hne hfresh next hnext ih =>
      -- The owner is not `id`, so the way to it from `id` starts with a record that `id` holds.
      have hheld : ∀ inner, inner ∈ next.reverse ↔ t.schema.HoldsDirectly id inner := by
        intro inner
        rw [List.mem_reverse]
        exact mem_directRecords_iff hnext
      rw [ih (hsearched.enter hne fun inner => (hheld inner).mpr) h]
      constructor
      · rintro ⟨start, hstart, hreach⟩
        obtain hinner | hrest := List.mem_append.mp hstart
        · exact ⟨id, List.mem_cons_self, .head ((hheld start).mp hinner) hreach⟩
        · exact ⟨start, List.mem_cons_of_mem id hrest, hreach⟩
      · rintro ⟨start, hstart, hreach⟩
        obtain rfl | hrest := List.mem_cons.mp hstart
        · obtain hsame | ⟨inner, hinner, hback⟩ := hreach.cases_head
          · exact absurd hsame hne
          · exact ⟨inner, List.mem_append_left _ ((hheld inner).mpr hinner), hback⟩
        · exact ⟨start, List.mem_append_right _ hrest, hreach⟩
  | case5 fresh id stack hne hmet ih =>
      -- A record met again is dropped: a way from it to the owner comes by another on the stack.
      have hpopped := hsearched.pop hmet
      rw [ih hpopped h]
      constructor
      · rintro ⟨start, hstart, hreach⟩
        exact ⟨start, List.mem_cons_of_mem id hstart, hreach⟩
      · rintro ⟨start, hstart, hreach⟩
        obtain rfl | hrest := List.mem_cons.mp hstart
        · exact hpopped.exists_mem_stack hmet hreach
        · exact ⟨start, hrest, hreach⟩

theorem exists_reachesOwner (h : ∀ ty, ¬ t.schema.Circular ty) (owner : Fin n.records)
    (fresh stack : List (Fin n.records)) :
    ∃ found, t.reachesOwner owner fresh stack = .ok found := by
  fun_induction reachesOwner t owner fresh stack with
  | case1 fresh => exact ⟨false, rfl⟩
  | case2 fresh stack => exact ⟨true, rfl⟩
  | case3 fresh id stack hne hfresh cycle hcycle =>
      obtain ⟨next, hnext⟩ := exists_directRecords h (t.schema.record id).fields
      rw [hnext] at hcycle
      cases hcycle
  | case4 fresh id stack hne hfresh next hnext ih => exact ih
  | case5 fresh id stack hne hmet ih => exact ih

/-! ### Boxes -/

theorem orFault_eq_ok {α : Type} {x : Except TypedefCycle α} {a : α} :
    TypedefCycle.orFault x = .ok a ↔ x = .ok a := by
  cases x with
  | ok b => simp [TypedefCycle.orFault]
  | error cycle => simp [TypedefCycle.orFault]

theorem needsBox_iff {owner : Fin n.records} {ty : Ty n} {boxed : Bool}
    (h : t.needsBox owner ty = .ok boxed) : boxed = true ↔ t.schema.LeadsBack owner ty := by
  obtain ⟨core, hcore, h⟩ := except_bind_eq_ok.mp (orFault_eq_ok.mp h)
  have hrecord : ∀ id, core.recordId? = some id ↔
      ∃ kind, t.schema.EndsAt ty (.record kind id) := fun _ =>
    Schema.recordId?_eq_some_iff (Schema.endsAt_of_trueType hcore)
  cases hid : core.recordId? with
  | none =>
      rw [hid] at h hrecord
      cases h
      refine iff_of_false Bool.false_ne_true ?_
      rintro ⟨kind, start, hends, _⟩
      cases (hrecord start).mpr ⟨kind, hends⟩
  | some id =>
      rw [hid] at h hrecord
      rw [reachesOwner_iff (.start t.schema owner [id]) h]
      constructor
      · rintro ⟨start, hstart, hreach⟩
        cases List.mem_singleton.mp hstart
        obtain ⟨kind, hends⟩ := (hrecord id).mp rfl
        exact ⟨kind, id, hends, hreach⟩
      · rintro ⟨kind, start, hends, hreach⟩
        cases (hrecord start).mpr ⟨kind, hends⟩
        exact ⟨id, List.mem_cons_self, hreach⟩

theorem exists_needsBox (h : ∀ ty, ¬ t.schema.Circular ty) (owner : Fin n.records) (ty : Ty n) :
    ∃ boxed, t.needsBox owner ty = .ok boxed := by
  obtain ⟨core, hcore⟩ := Schema.exists_trueType_of_not_circular (h ty)
  cases hid : core.recordId? with
  | none =>
      refine ⟨false, orFault_eq_ok.mpr (except_bind_eq_ok.mpr ⟨core, hcore, ?_⟩)⟩
      rw [hid]
      rfl
  | some id =>
      obtain ⟨found, hfound⟩ := exists_reachesOwner h owner (List.finRange n.records) [id]
      refine ⟨found, orFault_eq_ok.mpr (except_bind_eq_ok.mpr ⟨core, hcore, ?_⟩)⟩
      rw [hid]
      exact hfound

end Target

/-! ### Layout -/

/-- The type that the definition of a record gives a field is that of its values, or an option of
it, with no pointer in between. -/
def FieldPlan.IsBare (p : FieldPlan n) : Prop :=
  p.storedType = p.valueType ∨ p.storedType = "Option<" ++ p.valueType ++ ">"

instance (p : FieldPlan n) : Decidable p.IsBare :=
  inferInstanceAs (Decidable (_ ∨ _))

/-- The record that a field stores in place. -/
def FieldPlan.inPlace? (p : FieldPlan n) : Option (Fin n.records) :=
  if p.IsBare then p.shape.recordId? else none

theorem FieldPlan.isBare_iff (p : FieldPlan n) : p.IsBare ↔ p.boxed = false := by
  rw [IsBare, storedType, heldType]
  cases p.boxed with
  | false => cases p.optional <;> simp
  | true =>
      -- The box alone is longer than what an option puts around a type.
      have hbox : "::std::boxed::Box<".length = 18 := rfl
      have hoption : "Option<".length = 7 := rfl
      have hclose : ">".length = 1 := rfl
      refine iff_of_false ?_ nofun
      cases p.optional
      all_goals
        rintro (h | h)
        all_goals
          have hlength := congrArg String.length h
          simp only [if_true, Bool.false_eq_true, if_false, String.length_append] at hlength
          omega

theorem FieldPlan.of_inPlace? {p : FieldPlan n} {inner : Fin n.records}
    (h : p.inPlace? = some inner) : p.boxed = false ∧ p.shape = .record inner := by
  rw [inPlace?] at h
  split at h
  · next hbare =>
      refine ⟨p.isBare_iff.mp hbare, ?_⟩
      cases hshape : p.shape with
      | record id =>
          rw [hshape] at h
          cases h
          rfl
      | _ =>
          rw [hshape] at h
          cases h
  · cases h

/-- The room that a field takes: that of the record it stores in place, if there is one, and some
room of its own for a pointer, a container, a number or a mark of presence. -/
def FieldPlan.room (own : FieldPlan n → Nat) (size : Fin n.records → Nat) (p : FieldPlan n) : Nat :=
  own p + (p.inPlace?.map size).getD 0

namespace Target

variable {t : Target n}

/-- The emitted type of the first record stores the second in place. -/
def StoresInPlace (t : Target n) (owner inner : Fin n.records) : Prop :=
  ∃ plans, t.planFields owner = .ok plans ∧ ∃ p ∈ plans, p.inPlace? = some inner

/-- The room that the fields of a record take together; a record without code takes none. -/
def recordRoom (t : Target n) (own : FieldPlan n → Nat) (size : Fin n.records → Nat)
    (owner : Fin n.records) : Nat :=
  ((t.planFields owner).toOption.getD []).foldr (fun p total => p.room own size + total) 0

theorem planField_eq_ok_iff {owner : Fin n.records} {field : Field n} {p : FieldPlan n} :
    t.planField owner field = .ok p ↔
      ∃ boxed default? valueType, t.needsBox owner field.ty = .ok boxed ∧
        t.defaultInitializer field = .ok default? ∧
        t.typeText (t.shape field.ty) = .ok valueType ∧
        { field, valueType, boxed, default?
          shape := t.shape field.ty
          ident := Ident.field t.config field.name
          optional := (t.schema.record owner).isUnion || !field.isRequired } = p := by
  simp only [planField, except_bind_eq_ok, pure, Except.pure, Except.ok.injEq]
  constructor
  · rintro ⟨boxed, hboxed, default?, hdefault, valueType, htype, hp⟩
    exact ⟨boxed, default?, valueType, hboxed, hdefault, htype, hp⟩
  · rintro ⟨boxed, default?, valueType, hboxed, hdefault, htype, hp⟩
    exact ⟨boxed, hboxed, default?, hdefault, valueType, htype, hp⟩

theorem StoresInPlace.not_leadsBack {owner inner : Fin n.records}
    (h : t.StoresInPlace owner inner) :
    t.schema.HoldsDirectly owner inner ∧
      ¬ ReflTransGen t.schema.HoldsDirectly inner owner := by
  obtain ⟨plans, hplans, p, hp, hplace⟩ := h
  obtain ⟨field, hfield, hplan⟩ := exists_of_forall₂ (forall₂_of_mapM hplans).flip hp
  obtain ⟨boxed, _, _, hbox, _, _, rfl⟩ := planField_eq_ok_iff.mp hplan
  obtain ⟨rfl, hrecord⟩ := FieldPlan.of_inPlace? hplace
  obtain ⟨kind, hends⟩ := Schema.endsAt_of_shape hrecord
  refine ⟨⟨field, hfield, kind, hends⟩, fun hback => ?_⟩
  cases (needsBox_iff hbox).mpr ⟨kind, inner, hends, hback⟩

/-- A record never comes to stand inside itself. -/
theorem not_storesInPlace_self (owner : Fin n.records) :
    ¬ TransGen t.StoresInPlace owner owner := by
  intro hcycle
  obtain ⟨inner, hfirst, hback⟩ := TransGen.head'_iff.mp hcycle
  exact hfirst.not_leadsBack.2 (hback.lift id fun _ _ hstep => hstep.not_leadsBack.1)

theorem wellFounded_storesInPlace (t : Target n) : WellFounded (flip t.StoresInPlace) := by
  -- There are finitely many records, so without a cycle no descent goes on for ever.
  have htrans : IsTrans (Fin n.records) (TransGen (flip t.StoresInPlace)) :=
    ⟨fun _ _ _ => TransGen.trans⟩
  have hirrefl : Std.Irrefl (TransGen (flip t.StoresInPlace)) :=
    ⟨fun owner hcycle => not_storesInPlace_self owner (transGen_swap.mp hcycle)⟩
  have hwf := Finite.wellFounded_of_trans_of_irrefl (TransGen (flip t.StoresInPlace))
  exact Subrelation.wf TransGen.single hwf

theorem recordRoom_congr {own : FieldPlan n → Nat} {size other : Fin n.records → Nat}
    {owner : Fin n.records} (h : ∀ inner, t.StoresInPlace owner inner → size inner = other inner) :
    t.recordRoom own size owner = t.recordRoom own other owner := by
  rw [recordRoom, recordRoom]
  cases hplans : t.planFields owner with
  | error fault => rfl
  | ok plans =>
      refine List.foldr_ext _ _ _ fun p hp total => ?_
      rw [FieldPlan.room, FieldPlan.room]
      cases hplace : p.inPlace? with
      | none => rfl
      | some inner =>
          have hsame := h inner ⟨plans, hplans, p, hp, hplace⟩
          rw [Option.map_some, Option.map_some, hsame]

open Classical in
theorem exists_size (t : Target n) (own : FieldPlan n → Nat) :
    ∃ size : Fin n.records → Nat, ∀ owner, size owner = t.recordRoom own size owner := by
  let hwf := wellFounded_storesInPlace t
  let size : Fin n.records → Nat := hwf.fix fun owner below =>
    t.recordRoom own
      (fun inner => if h : t.StoresInPlace owner inner then below inner h else 0) owner
  refine ⟨size, fun owner => ?_⟩
  have hfix : size owner = t.recordRoom own
      (fun inner => if t.StoresInPlace owner inner then size inner else 0) owner :=
    hwf.fix_eq _ owner
  rw [hfix]
  exact recordRoom_congr fun inner hinner => if_pos hinner

theorem size_unique {own : FieldPlan n → Nat} {size other : Fin n.records → Nat}
    (hsize : ∀ owner, size owner = t.recordRoom own size owner)
    (hother : ∀ owner, other owner = t.recordRoom own other owner) : size = other := by
  funext owner
  induction owner using (wellFounded_storesInPlace t).induction with
  | _ owner ih =>
      rw [hsize owner, hother owner]
      exact recordRoom_congr ih

/-- A field is boxed exactly if its type leads back to the owner. So no record comes to stand inside
itself, and whatever room the other fields take, each record has one size. -/
theorem boxes_break_cycles (t : Target n) (h : ∀ ty, ¬ t.schema.Circular ty) :
    (∀ owner ty,
      (t.needsBox owner ty = .ok true ↔ t.schema.LeadsBack owner ty) ∧
        (t.needsBox owner ty = .ok false ↔ ¬ t.schema.LeadsBack owner ty)) ∧
      (∀ owner, ¬ TransGen t.StoresInPlace owner owner) ∧
      ∀ own, ∃! size : Fin n.records → Nat, ∀ owner, size owner = t.recordRoom own size owner := by
  refine ⟨fun owner ty => ?_, not_storesInPlace_self, fun own => ?_⟩
  · obtain ⟨boxed, hboxed⟩ := exists_needsBox h owner ty
    rw [← needsBox_iff hboxed, hboxed]
    cases boxed <;> simp
  · obtain ⟨size, hsize⟩ := exists_size t own
    exact ⟨size, hsize, fun other hother => size_unique hother hsize⟩

abbrev garageCensus : Census where
  records := 3
  enums := 0
  typedefs := 1
  services := 0

abbrev carId : Fin garageCensus.records := ⟨0, by decide⟩
abbrev engineId : Fin garageCensus.records := ⟨1, by decide⟩
abbrev wheelId : Fin garageCensus.records := ⟨2, by decide⟩
abbrev motorId : Fin garageCensus.typedefs := ⟨0, by decide⟩

/-- Two records that hold each other, one of them under a typedef, and one that holds no other. -/
def garage : Target garageCensus where
  schema := {
    records := #v[
      { name := "Car"
        fields := [
          { id := 1, name := "engine", ty := .typedef motorId, requiredness := .required },
          { id := 2, name := "wheel", ty := .record .struct wheelId },
          { id := 3, name := "towed", ty := .list (.record .struct carId) }] },
      { name := "Engine"
        kind := .union
        fields := [{ id := 1, name := "car", ty := .record .struct carId }] },
      { name := "Wheel", fields := [{ id := 1, name := "inches", ty := .i16 }] }]
    enums := .ofFn Fin.elim0
    typedefs := #v[{ name := "Motor", target := .record .union engineId }]
    services := .ofFn Fin.elim0 }
  config := {}

theorem garage_not_circular (ty : Ty garageCensus) : ¬ garage.schema.Circular ty :=
  (Schema.noTypedefHoldsItself_of_rank Fin.val (by decide)).not_circular ty

theorem exists_garage_plans (owner : Fin garageCensus.records) :
    ∃ plans, garage.planFields owner = .ok plans := by
  refine exists_mapM fun field hfield => ?_
  obtain ⟨boxed, hboxed⟩ := exists_needsBox garage_not_circular owner field.ty
  have hplain : ∃ text, garage.typeText (garage.shape field.ty) = .ok text ∧
      garage.defaultInitializer field = .ok none := by
    match owner with
    | ⟨0, _⟩ =>
        obtain rfl | rfl | rfl : field = _ ∨ field = _ ∨ field = _ := by
          simpa [Schema.record, garage] using hfield
        all_goals exact ⟨_, rfl, rfl⟩
    | ⟨1, _⟩ | ⟨2, _⟩ =>
        cases List.mem_singleton.mp hfield
        exact ⟨_, rfl, rfl⟩
  obtain ⟨text, htext, hdefault⟩ := hplain
  exact ⟨_, planField_eq_ok_iff.mpr ⟨boxed, none, text, hboxed, hdefault, htext, rfl⟩⟩

theorem garage_boxes_break_cycles :
    (∀ ty, ¬ garage.schema.Circular ty) ∧
      garage.needsBox carId (.typedef motorId) = .ok true ∧
      garage.StoresInPlace carId wheelId ∧
      (¬ TransGen garage.StoresInPlace carId carId) ∧
      ∃! size : Fin garageCensus.records → Nat,
        ∀ owner, size owner = garage.recordRoom (fun _ => 1) size owner := by
  obtain ⟨hboxes, hcycles, hsizes⟩ := boxes_break_cycles garage garage_not_circular
  refine ⟨garage_not_circular, (hboxes _ _).1.mpr ?_, ?_, hcycles carId, hsizes _⟩
  · have hmotor : garage.schema.EndsAt (.typedef motorId) (.record .union engineId) :=
      Schema.endsAt_of_trueType rfl
    have hcar : garage.schema.HoldsDirectly engineId carId :=
      ⟨_, List.mem_cons_self, .struct, Schema.endsAt_of_trueType rfl⟩
    exact ⟨.union, engineId, hmotor, .single hcar⟩
  · have hwheel : garage.needsBox carId (.record .struct wheelId) = .ok false := by
      refine (hboxes _ _).2.mpr ?_
      rintro ⟨kind, start, hends, hreach⟩
      cases hends.unique (Schema.endsAt_of_trueType rfl)
      obtain hsame | ⟨inner, ⟨field, hfield, _, hheld⟩, _⟩ := hreach.cases_head
      · cases hsame
      · cases List.mem_singleton.mp hfield
        cases hheld.unique (Schema.endsAt_of_trueType rfl)
    obtain ⟨plans, hplans⟩ := exists_garage_plans carId
    obtain ⟨p, hp, hplan⟩ := exists_of_mapM hplans (List.mem_cons_of_mem _ List.mem_cons_self)
    obtain ⟨boxed, _, _, hboxed, _, _, rfl⟩ := planField_eq_ok_iff.mp hplan
    cases hwheel.symm.trans hboxed
    exact ⟨plans, hplans, _, hp, if_pos ((FieldPlan.isBare_iff _).mpr rfl)⟩

end Target

end WireIdl

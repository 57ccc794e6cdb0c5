import Mathlib.Data.Fintype.Card
import Mathlib.Logic.Relation
import WireIdl.Schema.Reach

/-! Chains of typedefs. A chain that does not come back to itself ends at a type, and a shape shows
where each chain ends, unless a typedef contains itself through a container. -/

namespace WireIdl

open Relation

variable {n : Census}

namespace Ty

def parts : Ty n → List (Ty n)
  | .list element | .set element => [element]
  | .map key value => [value, key]
  | _ => []

/-- Neither a declaration with a name of its own nor a typedef. -/
def IsPlain : Ty n → Prop
  | .enum _ | .record _ _ | .typedef _ => False
  | _ => True

end Ty

def Shape.IsPlain : Shape n → Prop
  | .enum _ | .record _ | .cyclic _ => False
  | _ => True

namespace Schema

variable {s : Schema n}

/-- A typedef stands for its target. -/
inductive Follows (s : Schema n) : Ty n → Ty n → Prop where
  | typedef (id : Fin n.typedefs) : Follows s (.typedef id) (s.typedef id).target

/-- The chain from a type comes back to a typedef it has passed. -/
def Circular (s : Schema n) (ty : Ty n) : Prop :=
  ∃ passed, ReflTransGen s.Follows ty passed ∧ TransGen s.Follows passed passed

structure EndsAt (s : Schema n) (ty core : Ty n) : Prop where
  chain : ReflTransGen s.Follows ty core
  ended : ∀ next, ¬ s.Follows core next

theorem Follows.rightUnique : Relator.RightUnique s.Follows := by
  intro ty first second hfirst hsecond
  cases hfirst
  cases hsecond
  rfl

theorem Circular.of_chain {ty next : Ty n} (hchain : ReflTransGen s.Follows ty next)
    (h : s.Circular next) : s.Circular ty := by
  obtain ⟨passed, hpassed, hcycle⟩ := h
  exact ⟨passed, hchain.trans hpassed, hcycle⟩

theorem Circular.next {ty next : Ty n} (hstep : s.Follows ty next) (h : s.Circular ty) :
    s.Circular next := by
  obtain ⟨passed, hpassed, hcycle⟩ := h
  obtain rfl | ⟨other, hother, hrest⟩ := hpassed.cases_head
  · obtain ⟨other, hother, hback⟩ := TransGen.head'_iff.mp hcycle
    cases Follows.rightUnique hstep hother
    exact ⟨next, .refl, TransGen.tail' hback hstep⟩
  · cases Follows.rightUnique hstep hother
    exact ⟨passed, hrest, hcycle⟩

theorem EndsAt.not_circular {ty core : Ty n} (h : s.EndsAt ty core) : ¬ s.Circular ty := by
  obtain ⟨hchain, hended⟩ := h
  induction hchain using ReflTransGen.head_induction_on with
  | refl =>
      intro hcircular
      obtain ⟨passed, hpassed, hcycle⟩ := hcircular
      obtain rfl | ⟨next, hnext, _⟩ := hpassed.cases_head
      · obtain ⟨next, hnext, _⟩ := TransGen.head'_iff.mp hcycle
        exact hended next hnext
      · exact hended next hnext
  | head hstep _ ih => exact fun hcircular => ih (hcircular.next hstep)

def Outcome (s : Schema n) (ty : Ty n) : Except TypedefCycle (Ty n) → Prop
  | .ok core => s.EndsAt ty core
  | .error _ => s.Circular ty

theorem Outcome.of_follows {ty next : Ty n} {result : Except TypedefCycle (Ty n)}
    (hstep : s.Follows ty next) (h : s.Outcome next result) : s.Outcome ty result := by
  cases result with
  | ok core => exact ⟨.head hstep h.chain, h.ended⟩
  | error cycle => exact Circular.of_chain (.single hstep) h

theorem nodup_length_le {k : Nat} {seen : List (Fin k)} (h : seen.Nodup) : seen.length ≤ k := by
  have hcard := h.length_le_card
  rwa [Fintype.card_fin] at hcard

theorem outcome_followTypedefs {steps : Nat} {seen : List (Fin n.typedefs)} {ty : Ty n}
    (hnodup : seen.Nodup) (hseen : ∀ id ∈ seen, TransGen s.Follows (.typedef id) ty)
    (hsteps : n.typedefs ≤ steps + seen.length) :
    s.Outcome ty (s.followTypedefs steps seen ty) := by
  fun_induction followTypedefs s steps seen ty with
  | case1 steps seen id hmem => exact ⟨.typedef id, .refl, hseen id hmem⟩
  | case2 seen id hnew =>
      -- The chain has passed every typedef, so this one cannot be new.
      have hlength := nodup_length_le (List.nodup_cons.mpr ⟨hnew, hnodup⟩)
      rw [List.length_cons] at hlength
      omega
  | case3 seen id hnew steps ih =>
      refine .of_follows (.typedef id) (ih (List.nodup_cons.mpr ⟨hnew, hnodup⟩) ?_ ?_)
      · rw [List.forall_mem_cons]
        exact ⟨.single (.typedef id), fun other hmem => (hseen other hmem).tail (.typedef id)⟩
      · rw [List.length_cons]
        omega
  | case4 steps seen ty hcore =>
      refine ⟨.refl, fun next hnext => ?_⟩
      cases hnext with
      | typedef id => exact hcore id rfl

theorem outcome_trueType (ty : Ty n) : s.Outcome ty (s.trueType ty) :=
  outcome_followTypedefs List.nodup_nil (by simp) (Nat.le_add_right _ _)

/-- A typedef is followed, or a part of a container taken. -/
inductive Holds (s : Schema n) : Ty n → Ty n → Prop where
  | follow {ty next : Ty n} (step : s.Follows ty next) : Holds s ty next
  | part {ty part : Ty n} (mem : part ∈ ty.parts) : Holds s ty part

/-- A type inside a container that a typedef comes to. -/
def Inside (s : Schema n) (id : Fin n.typedefs) (ty : Ty n) : Prop :=
  ∃ container part, ReflTransGen s.Holds (.typedef id) container ∧ part ∈ container.parts ∧
    ReflTransGen s.Holds part ty

/-- No typedef contains itself through a container. -/
def HasFiniteTypedefs (s : Schema n) : Prop :=
  ∀ id, ¬ s.Inside id (.typedef id)

theorem Inside.part {id : Fin n.typedefs} {ty part : Ty n} (h : s.Inside id ty)
    (hpart : part ∈ ty.parts) : s.Inside id part := by
  obtain ⟨container, first, hcontainer, hfirst, hty⟩ := h
  exact ⟨container, first, hcontainer, hfirst, hty.tail (.part hpart)⟩

theorem Inside.trans {outer inner : Fin n.typedefs} {ty : Ty n}
    (houter : s.Inside outer (.typedef inner)) (hinner : s.Inside inner ty) :
    s.Inside outer ty := by
  obtain ⟨container, first, hcontainer, hfirst, hty⟩ := houter
  obtain ⟨second, part, hsecond, hpart, hrest⟩ := hinner
  exact ⟨container, first, hcontainer, hfirst,
    (hty.trans hsecond).trans (.head (.part hpart) hrest)⟩

theorem holds_of_follows {ty next : Ty n} (h : ReflTransGen s.Follows ty next) :
    ReflTransGen s.Holds ty next := by
  induction h with
  | refl => exact .refl
  | tail _ hstep ih => exact ih.tail (.follow hstep)

/-- A shape shows where the chain of each type in it ends. It shows a fault where a chain comes
back, and perhaps elsewhere if a typedef contains itself. -/
inductive Resolves (s : Schema n) : Ty n → Shape n → Prop where
  | cyclic {ty : Ty n} {cycle : TypedefCycle} (circular : s.HasFiniteTypedefs → s.Circular ty) :
      Resolves s ty (.cyclic cycle)
  | enum {ty : Ty n} {id : Fin n.enums} (ends : s.EndsAt ty (.enum id)) :
      Resolves s ty (.enum id)
  | record {ty : Ty n} {kind : RecordKind} {id : Fin n.records}
      (ends : s.EndsAt ty (.record kind id)) : Resolves s ty (.record id)
  | plain {ty core : Ty n} {shape : Shape n} (ends : s.EndsAt ty core) (ty_plain : core.IsPlain)
      (shape_plain : shape.IsPlain) (length : core.parts.length = shape.parts.length)
      (parts : ∀ pair ∈ core.parts.zip shape.parts, Resolves s pair.1 pair.2) :
      Resolves s ty shape

theorem EndsAt.of_chain {ty next core : Ty n} (hchain : ReflTransGen s.Follows ty next)
    (h : s.EndsAt next core) : s.EndsAt ty core :=
  ⟨hchain.trans h.chain, h.ended⟩

theorem Resolves.of_chain {ty next : Ty n} {shape : Shape n}
    (hchain : ReflTransGen s.Follows ty next) (h : s.Resolves next shape) :
    s.Resolves ty shape := by
  cases h with
  | cyclic hcircular => exact .cyclic fun hfinite => (hcircular hfinite).of_chain hchain
  | enum hends => exact .enum (hends.of_chain hchain)
  | record hends => exact .record (hends.of_chain hchain)
  | plain hends htyPlain hshapePlain hlength hparts =>
      exact .plain (hends.of_chain hchain) htyPlain hshapePlain hlength hparts

theorem EndsAt.self {ty : Ty n} (h : ∀ id, ty ≠ .typedef id) : s.EndsAt ty ty := by
  refine ⟨.refl, fun next hnext => ?_⟩
  cases hnext with
  | typedef id => exact h id rfl

theorem resolves_ofTy {link : Fin n.typedefs → Shape n} (within : Ty n → Prop)
    (hparts : ∀ ty part, within ty → part ∈ ty.parts → within part)
    (hlink : ∀ id, within (.typedef id) → s.Resolves (.typedef id) (link id)) {ty : Ty n}
    (hty : within ty) : s.Resolves ty (.ofTy link ty) := by
  induction ty with
  | typedef id => exact hlink id hty
  | enum id => exact .enum (.self nofun)
  | record kind id => exact .record (.self nofun)
  | list element ih =>
      refine .plain (.self nofun) trivial trivial rfl fun pair hpair => ?_
      cases List.mem_singleton.mp hpair
      exact ih (hparts _ _ hty List.mem_cons_self)
  | set element ih =>
      refine .plain (.self nofun) trivial trivial rfl fun pair hpair => ?_
      cases List.mem_singleton.mp hpair
      exact ih (hparts _ _ hty List.mem_cons_self)
  | map key value ihKey ihValue =>
      refine .plain (.self nofun) trivial trivial rfl fun pair hpair => ?_
      obtain rfl | hpair := List.mem_cons.mp hpair
      · exact ihValue (hparts _ _ hty List.mem_cons_self)
      · cases List.mem_singleton.mp hpair
        exact ihKey (hparts _ _ hty (List.mem_cons_of_mem _ List.mem_cons_self))
  | void | bool | byte | i16 | i32 | i64 | double | string | binary | service id =>
      exact .plain (.self nofun) trivial trivial rfl nofun

/-- The links are enough: the typedefs around a typedef are different ones, or one of them would
contain itself. -/
theorem resolves_typedefShape (hfinite : s.HasFiniteTypedefs) {links : Nat}
    {around : List (Fin n.typedefs)} {id : Fin n.typedefs} (hnodup : around.Nodup)
    (haround : ∀ outer ∈ around, s.Inside outer (.typedef id))
    (hlinks : n.typedefs ≤ links + around.length) :
    s.Resolves (.typedef id) (s.typedefShape links id) := by
  induction links generalizing around id with
  | zero =>
      have hnew : id ∉ around := fun hmem => hfinite id (haround id hmem)
      have hlength := nodup_length_le (List.nodup_cons.mpr ⟨hnew, hnodup⟩)
      rw [List.length_cons] at hlength
      omega
  | succ links ih =>
      have hnew : id ∉ around := fun hmem => hfinite id (haround id hmem)
      have houtcome := outcome_trueType (s := s) (.typedef id)
      rw [typedefShape]
      cases hcore : s.trueType (.typedef id) with
      | error cycle =>
          rw [hcore] at houtcome
          exact .cyclic fun _ => houtcome
      | ok core =>
          rw [hcore] at houtcome
          have hinner : ∀ part, part ∈ core.parts → s.Inside id part := fun part hpart =>
            ⟨core, part, holds_of_follows houtcome.chain, hpart, .refl⟩
          refine .of_chain houtcome.chain
            (resolves_ofTy (fun ty => ty = core ∨ s.Inside id ty) ?_ ?_ (.inl rfl))
          · intro ty part hty hpart
            obtain rfl | hinside := hty
            · exact .inr (hinner part hpart)
            · exact .inr (hinside.part hpart)
          · intro inner hcase
            obtain hsame | hinside := hcase
            · exact absurd (hsame ▸ .typedef inner) (houtcome.ended (s.typedef inner).target)
            · refine ih (List.nodup_cons.mpr ⟨hnew, hnodup⟩) ?_ ?_
              · rw [List.forall_mem_cons]
                exact ⟨hinside, fun outer hmem => (haround outer hmem).trans hinside⟩
              · rw [List.length_cons]
                omega

theorem resolves_trueType {link : Fin n.typedefs → Shape n}
    (hlink : ∀ id, s.Resolves (.typedef id) (link id)) (id : Fin n.typedefs) :
    s.Resolves (.typedef id)
      (match s.trueType (.typedef id) with
        | .error cycle => .cyclic cycle
        | .ok ty => .ofTy link ty) := by
  have houtcome := outcome_trueType (s := s) (.typedef id)
  cases hcore : s.trueType (.typedef id) with
  | error cycle =>
      rw [hcore] at houtcome
      exact .cyclic fun _ => houtcome
  | ok core =>
      rw [hcore] at houtcome
      refine .of_chain houtcome.chain (resolves_ofTy (fun _ => True) ?_ ?_ trivial)
      · exact fun _ _ _ _ => trivial
      · exact fun inner _ => hlink inner

theorem resolves_typedefShape_of_not_finite (hinfinite : ¬ s.HasFiniteTypedefs) (links : Nat)
    (id : Fin n.typedefs) : s.Resolves (.typedef id) (s.typedefShape links id) := by
  induction links generalizing id with
  | zero =>
      rw [typedefShape]
      exact resolves_trueType (fun _ => .cyclic fun hfinite => absurd hfinite hinfinite) id
  | succ links ih =>
      rw [typedefShape]
      exact resolves_trueType ih id

theorem resolves_shape (ty : Ty n) : s.Resolves ty (s.shape ty) := by
  refine resolves_ofTy (fun _ => True) (fun _ _ _ _ => trivial) (fun id _ => ?_) trivial
  by_cases hfinite : s.HasFiniteTypedefs
  · exact resolves_typedefShape hfinite List.nodup_nil (by simp) (Nat.le_add_right _ _)
  · exact resolves_typedefShape_of_not_finite hfinite n.typedefs id

end Schema

end WireIdl

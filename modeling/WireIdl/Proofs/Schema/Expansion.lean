import Mathlib.Data.Fintype.Card
import WireIdl.Proofs.Schema.Typedef

/-! Types without their typedefs. If no typedef holds itself, typedefs can be put in an order in
which each uses only lower ones. Then each type has an expansion, in which the targets stand in the
place of the typedefs, and a proof about all types may go from the target of a typedef to the
typedef. -/

namespace WireIdl

open Relation

variable {n : Census}

namespace Ty

/-- The typedefs that a type names. -/
def typedefs : Ty n → List (Fin n.typedefs)
  | .list element | .set element => element.typedefs
  | .map key value => key.typedefs ++ value.typedefs
  | .typedef id => [id]
  | _ => []

/-- A type with other types in the places of its typedefs. -/
def replaceTypedefs (link : Fin n.typedefs → Ty n) : Ty n → Ty n
  | .list element => .list (element.replaceTypedefs link)
  | .set element => .set (element.replaceTypedefs link)
  | .map key value => .map (key.replaceTypedefs link) (value.replaceTypedefs link)
  | .typedef id => link id
  | ty => ty

theorem replaceTypedefs_congr {link other : Fin n.typedefs → Ty n} {ty : Ty n}
    (h : ∀ id ∈ ty.typedefs, link id = other id) :
    ty.replaceTypedefs link = ty.replaceTypedefs other := by
  induction ty with
  | list element ih | set element ih => rw [replaceTypedefs, replaceTypedefs, ih h]
  | map key value ihKey ihValue =>
      rw [typedefs, List.forall_mem_append] at h
      rw [replaceTypedefs, replaceTypedefs, ihKey h.1, ihValue h.2]
  | typedef id => exact h id List.mem_cons_self
  | _ => rfl

end Ty

theorem Shape.ofTy_congr {link other : Fin n.typedefs → Shape n} {ty : Ty n}
    (h : ∀ id ∈ ty.typedefs, link id = other id) : ofTy link ty = ofTy other ty := by
  induction ty with
  | list element ih | set element ih => rw [ofTy, ofTy, ih h]
  | map key value ihKey ihValue =>
      rw [Ty.typedefs, List.forall_mem_append] at h
      rw [ofTy, ofTy, ihKey h.1, ihValue h.2]
  | typedef id => exact h id List.mem_cons_self
  | _ => rfl

namespace Schema

variable {s : Schema n}

/-- No typedef holds itself, be it directly or in a container. -/
def NoTypedefHoldsItself (s : Schema n) : Prop :=
  ∀ id, ¬ TransGen s.Holds (.typedef id) (.typedef id)

theorem holds_of_mem_typedefs {ty : Ty n} {id : Fin n.typedefs} (h : id ∈ ty.typedefs) :
    ReflTransGen s.Holds ty (.typedef id) := by
  induction ty with
  | list element ih | set element ih => exact .head (.part List.mem_cons_self) (ih h)
  | map key value ihKey ihValue =>
      obtain hkey | hvalue := List.mem_append.mp h
      · exact .head (.part (List.mem_cons_of_mem _ List.mem_cons_self)) (ihKey hkey)
      · exact .head (.part List.mem_cons_self) (ihValue hvalue)
  | typedef other =>
      cases List.mem_singleton.mp h
      exact .refl
  | _ => cases h

theorem holds_target {id inner : Fin n.typedefs} (h : inner ∈ (s.typedef id).target.typedefs) :
    TransGen s.Holds (.typedef id) (.typedef inner) :=
  .head' (.follow (.typedef id)) (holds_of_mem_typedefs h)

/-- A number for each typedef, lower for those that it holds. -/
structure Ranking (s : Schema n) where
  rank : Fin n.typedefs → Nat
  rank_lt : ∀ id, rank id < n.typedefs
  rank_lt_rank : ∀ id inner, TransGen s.Holds (.typedef id) (.typedef inner) →
    rank inner < rank id

open Classical in
/-- Typedefs are ranked by how many typedefs they hold. -/
noncomputable def NoTypedefHoldsItself.ranking (h : s.NoTypedefHoldsItself) : s.Ranking where
  rank id := (Finset.univ.filter fun inner : Fin n.typedefs =>
    TransGen s.Holds (.typedef id) (.typedef inner)).card
  rank_lt id := by
    have hself : id ∉ Finset.univ.filter fun inner : Fin n.typedefs =>
        TransGen s.Holds (.typedef id) (.typedef inner) := by
      simpa using h id
    have hlt := Finset.card_lt_univ_of_notMem hself
    rwa [Fintype.card_fin] at hlt
  rank_lt_rank id inner hinner := by
    refine Finset.card_lt_card ⟨fun other hother => ?_, fun hall => ?_⟩
    · rw [Finset.mem_filter] at hother ⊢
      exact ⟨hother.1, hinner.trans hother.2⟩
    · have hmem := hall (Finset.mem_filter.mpr ⟨Finset.mem_univ inner, hinner⟩)
      exact h inner (Finset.mem_filter.mp hmem).2

theorem typedefs_of_mem_parts {ty part : Ty n} {id : Fin n.typedefs} (hpart : part ∈ ty.parts)
    (hid : id ∈ part.typedefs) : id ∈ ty.typedefs := by
  cases ty with
  | list element | set element =>
      cases List.mem_singleton.mp hpart
      exact hid
  | map key value =>
      obtain rfl | hkey := List.mem_cons.mp hpart
      · exact List.mem_append_right _ hid
      · cases List.mem_singleton.mp hkey
        exact List.mem_append_left _ hid
  | _ => cases hpart

/-- It is enough to have numbers that are lower for the typedefs in a target. -/
theorem noTypedefHoldsItself_of_rank (rank : Fin n.typedefs → Nat)
    (h : ∀ id, ∀ inner ∈ (s.typedef id).target.typedefs, rank inner < rank id) :
    s.NoTypedefHoldsItself := by
  have hlower : ∀ {id : Fin n.typedefs} {ty : Ty n}, TransGen s.Holds (.typedef id) ty →
      ∀ inner ∈ ty.typedefs, rank inner < rank id := by
    intro id ty hholds
    induction hholds with
    | single hstep =>
        cases hstep with
        | follow hfollows =>
            obtain ⟨id⟩ := hfollows
            exact h id
        | part hpart => cases hpart
    | tail _ hstep ih =>
        intro inner hinner
        cases hstep with
        | follow hfollows =>
            obtain ⟨middle⟩ := hfollows
            exact (h middle inner hinner).trans (ih middle List.mem_cons_self)
        | part hpart => exact ih inner (typedefs_of_mem_parts hpart hinner)
  exact fun id hself => (hlower hself id List.mem_cons_self).false

/-- A statement about all types follows if typedefs take it over from their targets, and other types
from their parts. -/
theorem NoTypedefHoldsItself.induction (h : s.NoTypedefHoldsItself) {motive : Ty n → Prop}
    (typedef : ∀ id, motive (s.typedef id).target → motive (.typedef id))
    (other : ∀ ty, (∀ id, ty ≠ .typedef id) → (∀ part ∈ ty.parts, motive part) → motive ty)
    (ty : Ty n) : motive ty := by
  have hparts : ∀ ty : Ty n, (∀ id ∈ ty.typedefs, motive (.typedef id)) → motive ty := by
    intro ty hty
    induction ty with
    | list element ih | set element ih =>
        exact other _ nofun (by simpa [Ty.parts] using ih hty)
    | map key value ihKey ihValue =>
        rw [Ty.typedefs, List.forall_mem_append] at hty
        exact other _ nofun (by simpa [Ty.parts] using ⟨ihValue hty.2, ihKey hty.1⟩)
    | typedef id => exact hty id List.mem_cons_self
    | _ => exact other _ nofun (by simp [Ty.parts])
  have htypedefs : ∀ id, motive (.typedef id) := by
    intro id
    induction hrank : h.ranking.rank id using Nat.strong_induction_on generalizing id with
    | _ rank ih =>
        refine typedef id (hparts _ fun inner hinner => ?_)
        have hlt := h.ranking.rank_lt_rank id inner (holds_target hinner)
        exact ih _ (hrank ▸ hlt) inner rfl
  exact hparts ty fun id _ => htypedefs id

/-! ### Expansion -/

/-- The expansion of a typedef in which at most `links` further typedefs are nested. -/
def expandTypedef (s : Schema n) : Nat → Fin n.typedefs → Ty n
  | 0, id => .typedef id
  | links + 1, id => (s.typedef id).target.replaceTypedefs (s.expandTypedef links)

/-- A type with the target of each typedef in its place, at every depth. -/
def expand (s : Schema n) (ty : Ty n) : Ty n :=
  ty.replaceTypedefs (s.expandTypedef n.typedefs)

theorem Ranking.expandTypedef_eq (ranking : s.Ranking) {links more : Nat} {id : Fin n.typedefs}
    (hlinks : ranking.rank id < links) (hmore : ranking.rank id < more) :
    s.expandTypedef links id = s.expandTypedef more id := by
  induction links generalizing more id with
  | zero => omega
  | succ links ih =>
      obtain ⟨more, rfl⟩ := Nat.exists_eq_succ_of_ne_zero (Nat.ne_zero_of_lt hmore)
      rw [expandTypedef, expandTypedef]
      refine Ty.replaceTypedefs_congr fun inner hinner => ?_
      have hlt := ranking.rank_lt_rank id inner (holds_target hinner)
      exact ih (by omega) (by omega)

/-- A typedef expands to what its target expands to. -/
theorem NoTypedefHoldsItself.expand_typedef (h : s.NoTypedefHoldsItself) (id : Fin n.typedefs) :
    s.expand (.typedef id) = s.expand (s.typedef id).target := by
  obtain ⟨links, hlinks⟩ := Nat.exists_eq_succ_of_ne_zero (Nat.ne_zero_of_lt id.2)
  have hid := h.ranking.rank_lt id
  change s.expandTypedef n.typedefs id = _
  rw [expand, hlinks, expandTypedef]
  refine Ty.replaceTypedefs_congr fun inner hinner => ?_
  have hlt := h.ranking.rank_lt_rank id inner (holds_target hinner)
  exact h.ranking.expandTypedef_eq (by omega) (by omega)

theorem NoTypedefHoldsItself.typedefs_expand (h : s.NoTypedefHoldsItself) (ty : Ty n) :
    (s.expand ty).typedefs = [] := by
  induction ty using h.induction with
  | typedef id ih => rw [h.expand_typedef, ih]
  | other ty hty ih =>
      cases ty with
      | list element | set element => exact ih element List.mem_cons_self
      | map key value =>
          have hkey := ih key (List.mem_cons_of_mem _ List.mem_cons_self)
          have hvalue := ih value List.mem_cons_self
          exact List.append_eq_nil_iff.mpr ⟨hkey, hvalue⟩
      | typedef id => exact absurd rfl (hty id)
      | _ => rfl

theorem NoTypedefHoldsItself.expand_of_chain (h : s.NoTypedefHoldsItself) {ty next : Ty n}
    (hchain : ReflTransGen s.Follows ty next) : s.expand ty = s.expand next := by
  induction hchain with
  | refl => rfl
  | tail _ hstep ih =>
      obtain ⟨id⟩ := hstep
      rw [ih, h.expand_typedef]

/-! ### Where chains end -/

theorem NoTypedefHoldsItself.not_circular (h : s.NoTypedefHoldsItself) (ty : Ty n) :
    ¬ s.Circular ty := by
  rintro ⟨passed, _, hcycle⟩
  have hholds : TransGen s.Holds passed passed := hcycle.lift id fun _ _ => .follow
  obtain ⟨next, hfirst, _⟩ := TransGen.head'_iff.mp hcycle
  obtain ⟨id⟩ := hfirst
  exact h id hholds

theorem endsAt_of_trueType {ty core : Ty n} (h : s.trueType ty = .ok core) : s.EndsAt ty core := by
  have houtcome := outcome_trueType (s := s) ty
  rwa [h] at houtcome

theorem NoTypedefHoldsItself.exists_trueType (h : s.NoTypedefHoldsItself) (ty : Ty n) :
    ∃ core, s.trueType ty = .ok core ∧ s.EndsAt ty core := by
  have houtcome := outcome_trueType (s := s) ty
  cases htrue : s.trueType ty with
  | error cycle =>
      rw [htrue] at houtcome
      exact absurd houtcome (h.not_circular ty)
  | ok core =>
      rw [htrue] at houtcome
      exact ⟨core, rfl, houtcome⟩

theorem EndsAt.ne_typedef {ty core : Ty n} (h : s.EndsAt ty core) (id : Fin n.typedefs) :
    core ≠ .typedef id := by
  rintro rfl
  exact h.ended _ (.typedef id)

theorem EndsAt.unique {ty core other : Ty n} (h : s.EndsAt ty core) (hother : s.EndsAt ty other) :
    core = other := by
  obtain ⟨hchain, hended⟩ := h
  induction hchain using ReflTransGen.head_induction_on with
  | refl =>
      obtain hsame | ⟨next, hnext, _⟩ := hother.chain.cases_head
      · exact hsame
      · exact absurd hnext (hended next)
  | head hstep _ ih =>
      obtain rfl | ⟨next, hnext, hrest⟩ := hother.chain.cases_head
      · exact absurd hstep (hother.ended _)
      · cases Follows.rightUnique hstep hnext
        exact ih ⟨hrest, hother.ended⟩

/-! ### Shapes -/

theorem shape_list (element : Ty n) :
    s.shape (.list element) = .list element fun _ => s.shape element := rfl

theorem shape_set (element : Ty n) :
    s.shape (.set element) = .set element fun _ => s.shape element := rfl

theorem shape_map (key value : Ty n) :
    s.shape (.map key value) = .map key (fun _ => s.shape key) value fun _ => s.shape value := rfl

/-- The shapes of the typedefs inside a typedef. -/
def typedefLink (s : Schema n) : Nat → Fin n.typedefs → Shape n
  | 0, id => .cyclic ⟨(s.typedef id).name⟩
  | links + 1, id => s.typedefShape links id

theorem typedefShape_of_trueType {links : Nat} {id : Fin n.typedefs} {core : Ty n}
    (h : s.trueType (.typedef id) = .ok core) :
    s.typedefShape links id = .ofTy (s.typedefLink links) core := by
  cases links with
  | zero =>
      rw [typedefShape, h]
      rfl
  | succ links =>
      rw [typedefShape, h]
      rfl

theorem typedefShape_of_cycle {links : Nat} {id : Fin n.typedefs} {cycle : TypedefCycle}
    (h : s.trueType (.typedef id) = .error cycle) : s.typedefShape links id = .cyclic cycle := by
  rw [typedefShape, h]

theorem exists_shape_eq_ofTy {ty core : Ty n} (h : s.trueType ty = .ok core) :
    ∃ link, s.shape ty = .ofTy link core := by
  cases ty with
  | typedef id => exact ⟨_, typedefShape_of_trueType h⟩
  | _ =>
      have hsame := (endsAt_of_trueType h).unique (.self fun _ hty => by cases hty)
      subst hsame
      exact ⟨_, rfl⟩

theorem holds_core {id inner : Fin n.typedefs} {core : Ty n} (hends : s.EndsAt (.typedef id) core)
    (hinner : inner ∈ core.typedefs) : TransGen s.Holds (.typedef id) (.typedef inner) := by
  obtain hsame | ⟨next, hstep, hrest⟩ := hends.chain.cases_head
  · exact absurd hsame.symm (hends.ne_typedef id)
  · exact .head' (.follow hstep) ((holds_of_follows hrest).trans (holds_of_mem_typedefs hinner))

theorem NoTypedefHoldsItself.typedefShape_eq (h : s.NoTypedefHoldsItself) {links more : Nat}
    {id : Fin n.typedefs} (hlinks : h.ranking.rank id ≤ links) (hmore : h.ranking.rank id ≤ more) :
    s.typedefShape links id = s.typedefShape more id := by
  obtain ⟨core, htrue, hends⟩ := h.exists_trueType (.typedef id)
  induction links generalizing more id core with
  | zero =>
      rw [typedefShape_of_trueType htrue, typedefShape_of_trueType htrue]
      refine Shape.ofTy_congr fun inner hinner => ?_
      have hlt := h.ranking.rank_lt_rank id inner (holds_core hends hinner)
      omega
  | succ links ih =>
      rw [typedefShape_of_trueType htrue, typedefShape_of_trueType htrue]
      refine Shape.ofTy_congr fun inner hinner => ?_
      have hlt := h.ranking.rank_lt_rank id inner (holds_core hends hinner)
      obtain ⟨more, rfl⟩ := Nat.exists_eq_succ_of_ne_zero (Nat.ne_zero_of_lt (hlt.trans_le hmore))
      obtain ⟨part, hpart, hpartEnds⟩ := h.exists_trueType (.typedef inner)
      exact ih (by omega) (by omega) part hpart hpartEnds

theorem NoTypedefHoldsItself.shape_of_endsAt (h : s.NoTypedefHoldsItself) {ty core : Ty n}
    (htrue : s.trueType ty = .ok core) (hends : s.EndsAt ty core) : s.shape ty = s.shape core := by
  obtain hsame | ⟨next, hstep, _⟩ := hends.chain.cases_head
  · rw [hsame]
  · obtain ⟨id⟩ := hstep
    obtain ⟨links, hlinks⟩ := Nat.exists_eq_succ_of_ne_zero (Nat.ne_zero_of_lt id.2)
    refine (typedefShape_of_trueType htrue).trans (Shape.ofTy_congr fun inner _ => ?_)
    have hinner := h.ranking.rank_lt inner
    rw [hlinks]
    exact h.typedefShape_eq (by omega) (by omega)

/-- A typedef has the shape of its target. -/
theorem NoTypedefHoldsItself.shape_typedef (h : s.NoTypedefHoldsItself) (id : Fin n.typedefs) :
    s.shape (.typedef id) = s.shape (s.typedef id).target := by
  obtain ⟨core, htrue, hends⟩ := h.exists_trueType (.typedef id)
  obtain ⟨other, hother, hotherEnds⟩ := h.exists_trueType (s.typedef id).target
  have hsame := hends.unique (hotherEnds.of_chain (.single (.typedef id)))
  rw [h.shape_of_endsAt htrue hends, h.shape_of_endsAt hother hotherEnds, hsame]

end Schema

/-! ### Schemas of expanded types -/

def Field.mapType (g : Ty n → Ty n) (field : Field n) : Field n :=
  { field with ty := g field.ty }

def RecordDecl.mapTypes (g : Ty n → Ty n) (r : RecordDecl n) : RecordDecl n :=
  { r with fields := r.fields.map (·.mapType g) }

def Method.mapTypes (g : Ty n → Ty n) (m : Method n) : Method n :=
  { m with
    returns := g m.returns
    params := m.params.map (·.mapType g)
    throws := m.throws.map (·.mapType g) }

def ServiceDecl.mapTypes (g : Ty n → Ty n) (service : ServiceDecl n) : ServiceDecl n :=
  { service with methods := service.methods.map (·.mapTypes g) }

def Constant.mapType (g : Ty n → Ty n) (constant : Constant n) : Constant n :=
  { constant with ty := g constant.ty }

/-- A schema in which each type is changed. -/
def Schema.mapTypes (g : Ty n → Ty n) (s : Schema n) : Schema n where
  records := s.records.map (·.mapTypes g)
  enums := s.enums
  typedefs := s.typedefs.map fun declared => { declared with target := g declared.target }
  services := s.services.map (·.mapTypes g)
  constants := s.constants.map (·.mapType g)

/-- A schema in which each type is expanded. -/
def Schema.expanded (s : Schema n) : Schema n :=
  s.mapTypes s.expand

theorem Schema.record_mapTypes (g : Ty n → Ty n) (s : Schema n) (id : Fin n.records) :
    (s.mapTypes g).record id = (s.record id).mapTypes g :=
  Vector.getElem_map _ id.2

theorem Schema.service_mapTypes (g : Ty n → Ty n) (s : Schema n) (id : Fin n.services) :
    (s.mapTypes g).service id = (s.service id).mapTypes g :=
  Vector.getElem_map _ id.2

end WireIdl

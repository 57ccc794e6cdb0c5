import Mathlib.Data.List.Forall2
import WireIdl.Proofs.Schema.Typedef

/-! The walk meets what can be reached. A record is entered once, so a state of the walk covers a
type if it is met or can still be come to from what is on the stack without entering a record; when
the stack is empty, everything that can be reached is met. -/

namespace WireIdl

open Relation

variable {n : Census}

/-- A walk on its way: what it has not met, and the types on its stack. -/
structure WalkState (n : Census) where
  unmet : Unmet n
  pending : List (Ty n)

theorem Reach.mem_union {k : Nat} {xs ys : List (Fin k)} {i : Fin k} :
    i ∈ Reach.union xs ys ↔ i ∈ xs ∨ i ∈ ys := by
  simp [Reach.union]

namespace Schema

/-- From a type to one that its values hold. -/
inductive Step (s : Schema n) : Ty n → Ty n → Prop where
  | holds {ty next : Ty n} (step : s.Holds ty next) : Step s ty next
  | field {kind : RecordKind} {id : Fin n.records} {field : Field n}
      (mem : field ∈ (s.record id).fields) : Step s (.record kind id) field.ty

def Reaches (s : Schema n) : Ty n → Ty n → Prop :=
  ReflTransGen s.Step

/-- A type with which a walk has no more to do. -/
def Done (s : Schema n) (unmet : Unmet n) : Ty n → Prop
  | .record _ id => id ∉ unmet.records
  | .enum id => id ∉ unmet.enums
  | ty => ¬ s.Circular ty

def Covered (s : Schema n) (state : WalkState n) (ty : Ty n) : Prop :=
  s.Done state.unmet ty ∨ ∃ start ∈ state.pending, ReflTransGen s.Holds start ty

/-- What a walk does from one state to a later one. -/
structure Advances (s : Schema n) (before after : WalkState n) : Prop where
  covered : ∀ ty, s.Covered before ty → s.Covered after ty
  fields : ∀ id ∈ before.unmet.records, id ∉ after.unmet.records →
    ∀ field ∈ (s.record id).fields, ∀ ty, ReflTransGen s.Holds field.ty ty → s.Covered after ty
  pending : ∀ ty ∈ after.pending, ∃ start ∈ before.pending, s.Reaches start ty
  records : ∀ id ∈ before.unmet.records, id ∉ after.unmet.records →
    ∃ start ∈ before.pending, ∃ kind, s.Reaches start (.record kind id)
  enums : ∀ id ∈ before.unmet.enums, id ∉ after.unmet.enums →
    ∃ start ∈ before.pending, s.Reaches start (.enum id)

variable {s : Schema n}

theorem reaches_of_holds {ty next : Ty n} (h : ReflTransGen s.Holds ty next) :
    s.Reaches ty next := by
  induction h with
  | refl => exact .refl
  | tail _ hstep ih => exact ih.tail (.holds hstep)

namespace Advances

theorem refl (state : WalkState n) : s.Advances state state where
  covered := fun _ h => h
  fields := fun _ hmem hnot => absurd hmem hnot
  pending := fun ty hmem => ⟨ty, hmem, .refl⟩
  records := fun _ hmem hnot => absurd hmem hnot
  enums := fun _ hmem hnot => absurd hmem hnot

theorem trans {first second third : WalkState n} (h : s.Advances first second)
    (h' : s.Advances second third) : s.Advances first third where
  covered := fun ty hty => h'.covered ty (h.covered ty hty)
  fields := by
    intro id hfirst hthird field hfield ty hty
    by_cases hsecond : id ∈ second.unmet.records
    · exact h'.fields id hsecond hthird field hfield ty hty
    · exact h'.covered ty (h.fields id hfirst hsecond field hfield ty hty)
  pending := by
    intro ty hty
    obtain ⟨middle, hmiddle, hreach⟩ := h'.pending ty hty
    obtain ⟨start, hstart, hbefore⟩ := h.pending middle hmiddle
    exact ⟨start, hstart, hbefore.trans hreach⟩
  records := by
    intro id hfirst hthird
    by_cases hsecond : id ∈ second.unmet.records
    · obtain ⟨middle, hmiddle, kind, hreach⟩ := h'.records id hsecond hthird
      obtain ⟨start, hstart, hbefore⟩ := h.pending middle hmiddle
      exact ⟨start, hstart, kind, hbefore.trans hreach⟩
    · exact h.records id hfirst hsecond
  enums := by
    intro id hfirst hthird
    by_cases hsecond : id ∈ second.unmet.enums
    · obtain ⟨middle, hmiddle, hreach⟩ := h'.enums id hsecond hthird
      obtain ⟨start, hstart, hbefore⟩ := h.pending middle hmiddle
      exact ⟨start, hstart, hbefore.trans hreach⟩
    · exact h.enums id hfirst hsecond

theorem frame {before after : Unmet n} {starts ends : List (Ty n)}
    (h : s.Advances ⟨before, starts⟩ ⟨after, ends⟩) (below : List (Ty n)) :
    s.Advances ⟨before, starts ++ below⟩ ⟨after, ends ++ below⟩ := by
  have hwider : ∀ ty, s.Covered ⟨after, ends⟩ ty → s.Covered ⟨after, ends ++ below⟩ ty := by
    intro ty hty
    obtain hdone | ⟨start, hstart, hholds⟩ := hty
    · exact .inl hdone
    · exact .inr ⟨start, List.mem_append_left below hstart, hholds⟩
  constructor
  case covered =>
    intro ty hty
    obtain hdone | ⟨start, hstart, hholds⟩ := hty
    · exact hwider ty (h.covered ty (.inl hdone))
    · obtain hstart | hbelow := List.mem_append.mp hstart
      · exact hwider ty (h.covered ty (.inr ⟨start, hstart, hholds⟩))
      · exact .inr ⟨start, List.mem_append_right ends hbelow, hholds⟩
  case fields =>
    intro id hbefore hafter field hfield ty hty
    exact hwider ty (h.fields id hbefore hafter field hfield ty hty)
  case pending =>
    intro ty hty
    obtain hends | hbelow := List.mem_append.mp hty
    · obtain ⟨start, hstart, hreach⟩ := h.pending ty hends
      exact ⟨start, List.mem_append_left below hstart, hreach⟩
    · exact ⟨ty, List.mem_append_right starts hbelow, .refl⟩
  case records =>
    intro id hbefore hafter
    obtain ⟨start, hstart, hreach⟩ := h.records id hbefore hafter
    exact ⟨start, List.mem_append_left below hstart, hreach⟩
  case enums =>
    intro id hbefore hafter
    obtain ⟨start, hstart, hreach⟩ := h.enums id hbefore hafter
    exact ⟨start, List.mem_append_left below hstart, hreach⟩

end Advances

theorem Done.mono {before after : Unmet n} (hrecords : after.records ⊆ before.records)
    (henums : after.enums ⊆ before.enums) {ty : Ty n} (h : s.Done before ty) :
    s.Done after ty := by
  cases ty with
  | record kind id => exact fun hmem => h (hrecords hmem)
  | enum id => exact fun hmem => h (henums hmem)
  | _ => exact h

theorem done_of_ended {ty : Ty n} (h : ∀ next, ¬ s.Follows ty next) (hplain : ty.IsPlain)
    (unmet : Unmet n) : s.Done unmet ty := by
  have hnot : ¬ s.Circular ty := EndsAt.not_circular ⟨.refl, h⟩
  cases ty with
  | record kind id | enum id => exact False.elim hplain
  | _ => exact hnot

theorem holds_of_endsAt {ty core x : Ty n} (hends : s.EndsAt ty core)
    (h : ReflTransGen s.Holds ty x) :
    (∀ unmet, s.Done unmet x) ∨ ReflTransGen s.Holds core x := by
  obtain ⟨hchain, hended⟩ := hends
  induction hchain using ReflTransGen.head_induction_on with
  | refl => exact .inr h
  | head hstep hrest ih =>
      have hnot := EndsAt.not_circular ⟨.head hstep hrest, hended⟩
      cases hstep with
      | typedef id =>
          obtain rfl | ⟨next, hnext, hx⟩ := h.cases_head
          · exact .inl fun _ => hnot
          · cases hnext with
            | follow hfollows =>
                cases hfollows
                exact ih hx
            | part hpart => cases hpart

theorem Advances.pop {ty core : Ty n} {before after : Unmet n} (more : List (Ty n))
    {below : List (Ty n)} (hends : s.EndsAt ty core)
    (hrecords : after.records ⊆ before.records) (henums : after.enums ⊆ before.enums)
    (hcore : ∀ x, ReflTransGen s.Holds core x → s.Covered ⟨after, more ++ below⟩ x)
    (hmore : ∀ x ∈ more, s.Reaches core x)
    (hnewRecords : ∀ id ∈ before.records, id ∉ after.records →
      (∃ kind, core = .record kind id) ∧ ∀ field ∈ (s.record id).fields, field.ty ∈ more)
    (hnewEnums : ∀ id ∈ before.enums, id ∉ after.enums → core = .enum id) :
    s.Advances ⟨before, ty :: below⟩ ⟨after, more ++ below⟩ := by
  have htop : s.Reaches ty core := reaches_of_holds (holds_of_follows hends.chain)
  constructor
  case covered =>
    intro x hx
    obtain hdone | ⟨start, hstart, hholds⟩ := hx
    · exact .inl (hdone.mono hrecords henums)
    · obtain rfl | hbelow := List.mem_cons.mp hstart
      · obtain hdone | hrest := holds_of_endsAt hends hholds
        · exact .inl (hdone after)
        · exact hcore x hrest
      · exact .inr ⟨start, List.mem_append_right more hbelow, hholds⟩
  case fields =>
    intro id hbefore hafter field hfield x hx
    have hpushed := (hnewRecords id hbefore hafter).2 field hfield
    exact .inr ⟨field.ty, List.mem_append_left below hpushed, hx⟩
  case pending =>
    intro x hx
    obtain hmem | hbelow := List.mem_append.mp hx
    · exact ⟨ty, List.mem_cons_self, htop.trans (hmore x hmem)⟩
    · exact ⟨x, List.mem_cons_of_mem ty hbelow, .refl⟩
  case records =>
    intro id hbefore hafter
    obtain ⟨kind, rfl⟩ := (hnewRecords id hbefore hafter).1
    exact ⟨ty, List.mem_cons_self, kind, htop⟩
  case enums =>
    intro id hbefore hafter
    cases hnewEnums id hbefore hafter
    exact ⟨ty, List.mem_cons_self, htop⟩

section Steps

variable {unmet : Unmet n} {ty : Ty n} {below : List (Ty n)}

theorem eq_of_holds_enum {id : Fin n.enums} {x : Ty n}
    (h : ReflTransGen s.Holds (.enum id) x) : x = .enum id := by
  obtain rfl | ⟨next, hnext, _⟩ := h.cases_head
  · rfl
  · cases hnext with
    | follow hfollows => cases hfollows
    | part hpart => cases hpart

theorem eq_of_holds_record {kind : RecordKind} {id : Fin n.records} {x : Ty n}
    (h : ReflTransGen s.Holds (.record kind id) x) : x = .record kind id := by
  obtain rfl | ⟨next, hnext, _⟩ := h.cases_head
  · rfl
  · cases hnext with
    | follow hfollows => cases hfollows
    | part hpart => cases hpart

theorem advances_enum {id : Fin n.enums} (hdistinct : unmet.enums.Nodup)
    (hends : s.EndsAt ty (.enum id)) :
    s.Advances ⟨unmet, ty :: below⟩ ⟨{ unmet with enums := unmet.enums.erase id }, below⟩ := by
  refine Advances.pop [] hends (List.Subset.refl _) List.erase_subset ?_ nofun ?_ ?_
  · intro x hx
    rw [eq_of_holds_enum hx]
    exact .inl fun hmem => (hdistinct.mem_erase_iff.mp hmem).1 rfl
  · exact fun _ hmem hnot => absurd hmem hnot
  · intro other hmem hnot
    rw [hdistinct.mem_erase_iff] at hnot
    by_cases hsame : other = id
    · rw [hsame]
    · exact absurd ⟨hsame, hmem⟩ hnot

theorem advances_met {kind : RecordKind} {id : Fin n.records} (hmet : id ∉ unmet.records)
    (hends : s.EndsAt ty (.record kind id)) :
    s.Advances ⟨unmet, ty :: below⟩ ⟨unmet, below⟩ := by
  refine Advances.pop [] hends (List.Subset.refl _) (List.Subset.refl _) ?_ nofun ?_ ?_
  · intro x hx
    rw [eq_of_holds_record hx]
    exact .inl hmet
  · exact fun _ hmem hnot => absurd hmem hnot
  · exact fun _ hmem hnot => absurd hmem hnot

theorem advances_record {kind : RecordKind} {id : Fin n.records}
    (hdistinct : unmet.records.Nodup) (hends : s.EndsAt ty (.record kind id)) :
    s.Advances ⟨unmet, ty :: below⟩
      ⟨{ unmet with records := unmet.records.erase id },
        ((s.record id).fields.map (·.ty)).reverse ++ below⟩ := by
  refine Advances.pop _ hends List.erase_subset (List.Subset.refl _) ?_ ?_ ?_ ?_
  · intro x hx
    rw [eq_of_holds_record hx]
    exact .inl fun hmem => (hdistinct.mem_erase_iff.mp hmem).1 rfl
  · intro x hx
    obtain ⟨field, hfield, rfl⟩ := List.mem_map.mp (List.mem_reverse.mp hx)
    exact .single (.field hfield)
  · intro other hmem hnot
    rw [hdistinct.mem_erase_iff] at hnot
    by_cases hsame : other = id
    · subst hsame
      exact ⟨⟨kind, rfl⟩, fun field hfield =>
        List.mem_reverse.mpr (List.mem_map_of_mem hfield)⟩
    · exact absurd ⟨hsame, hmem⟩ hnot
  · exact fun _ hmem hnot => absurd hmem hnot

theorem advances_plain {core : Ty n} (hends : s.EndsAt ty core) (hplain : core.IsPlain) :
    s.Advances ⟨unmet, ty :: below⟩ ⟨unmet, core.parts ++ below⟩ := by
  refine Advances.pop _ hends (List.Subset.refl _) (List.Subset.refl _) ?_ ?_ ?_ ?_
  · intro x hx
    obtain rfl | ⟨next, hnext, hrest⟩ := hx.cases_head
    · exact .inl (done_of_ended hends.ended hplain unmet)
    · cases hnext with
      | follow hfollows => exact absurd hfollows (hends.ended next)
      | part hpart => exact .inr ⟨next, List.mem_append_left below hpart, hrest⟩
  · exact fun x hx => .single (.holds (.part hx))
  · exact fun _ hmem hnot => absurd hmem hnot
  · exact fun _ hmem hnot => absurd hmem hnot

end Steps

def WalksTo (s : Schema n) (state : WalkState n) : Except TypedefCycle (Unmet n) → Prop
  | .ok final =>
      s.Advances state ⟨final, []⟩ ∧ final.records.Nodup ∧ final.enums.Nodup
  | .error _ =>
      ∃ start ∈ state.pending, ∃ ty, s.Reaches start ty ∧ (s.HasFiniteTypedefs → s.Circular ty)

theorem WalksTo.of_advances {before after : WalkState n}
    {result : Except TypedefCycle (Unmet n)} (h : s.Advances before after)
    (hresult : s.WalksTo after result) : s.WalksTo before result := by
  cases result with
  | ok final => exact ⟨h.trans hresult.1, hresult.2⟩
  | error cycle =>
      obtain ⟨middle, hmiddle, ty, hreach, hcircular⟩ := hresult
      obtain ⟨start, hstart, hbefore⟩ := h.pending middle hmiddle
      exact ⟨start, hstart, ty, hbefore.trans hreach, hcircular⟩

theorem resolves_fieldShapes (id : Fin n.records) :
    List.Forall₂ s.Resolves ((s.record id).fields.map (·.ty)).reverse
      (s.fieldShapes id).reverse := by
  rw [List.forall₂_reverse_iff, fieldShapes, List.forall₂_map_left_iff,
    List.forall₂_map_right_iff, List.forall₂_same]
  exact fun field _ => resolves_shape field.ty

theorem walksTo_walk {unmet : Unmet n} {stack : List (Shape n)} {tys : List (Ty n)}
    (hrecords : unmet.records.Nodup) (henums : unmet.enums.Nodup)
    (hstack : List.Forall₂ s.Resolves tys stack) :
    s.WalksTo ⟨unmet, tys⟩ (s.walk unmet stack) := by
  -- Each turn of the walk is one step of `Advances`, with the types beside the shapes.
  fun_induction walk s unmet stack generalizing tys with
  | case1 unmet =>
      cases hstack
      exact ⟨.refl _, hrecords, henums⟩
  | case2 unmet cycle stack =>
      cases hstack with
      | cons hfirst _ =>
          cases hfirst with
          | cyclic hcircular => exact ⟨_, List.mem_cons_self, _, .refl, hcircular⟩
          | plain _ _ hshape _ _ => exact False.elim hshape
  | case3 unmet id stack ih =>
      cases hstack with
      | cons hfirst hrest =>
          cases hfirst with
          | enum hends =>
              exact .of_advances (advances_enum henums hends)
                (ih hrecords (henums.erase id) hrest)
          | plain _ _ hshape _ _ => exact False.elim hshape
  | case4 unmet id stack hmem ih =>
      cases hstack with
      | cons hfirst hrest =>
          cases hfirst with
          | record hends =>
              exact .of_advances (advances_record hrecords hends)
                (ih (hrecords.erase id) henums
                  (List.rel_append (resolves_fieldShapes id) hrest))
          | plain _ _ hshape _ _ => exact False.elim hshape
  | case5 unmet id stack hmet ih =>
      cases hstack with
      | cons hfirst hrest =>
          cases hfirst with
          | record hends =>
              exact .of_advances (advances_met hmet hends) (ih hrecords henums hrest)
          | plain _ _ hshape _ _ => exact False.elim hshape
  | case6 unmet shape stack hcyclic henum hrecord ih =>
      cases hstack with
      | cons hfirst hrest =>
          cases hfirst with
          | cyclic _ => exact absurd rfl (hcyclic _)
          | enum _ => exact absurd rfl (henum _)
          | record _ => exact absurd rfl (hrecord _)
          | plain hends hty _ hlength hparts =>
              have hpushed := List.forall₂_iff_zip.mpr
                ⟨hlength, fun {ty part} hpair => hparts (ty, part) hpair⟩
              exact .of_advances (advances_plain hends hty)
                (ih hrecords henums (List.rel_append hpushed hrest))

theorem walksTo_walkAll {unmet : Unmet n} {tys : List (Ty n)}
    (hrecords : unmet.records.Nodup) (henums : unmet.enums.Nodup) :
    s.WalksTo ⟨unmet, tys⟩ (s.walkAll unmet tys) := by
  induction tys generalizing unmet with
  | nil => exact ⟨.refl _, hrecords, henums⟩
  | cons ty tys ih =>
      have hfirst := walksTo_walk (s := s) hrecords henums (.cons (resolves_shape ty) .nil)
      rw [walkAll]
      cases hwalk : s.walk unmet [s.shape ty] with
      | error cycle =>
          rw [hwalk] at hfirst
          obtain ⟨start, hstart, hcycle⟩ := hfirst
          cases List.mem_singleton.mp hstart
          exact ⟨ty, List.mem_cons_self, hcycle⟩
      | ok middle =>
          rw [hwalk] at hfirst
          obtain ⟨hadvances, hmiddleRecords, hmiddleEnums⟩ := hfirst
          exact .of_advances (hadvances.frame tys) (ih hmiddleRecords hmiddleEnums)

def ReachesFrom (s : Schema n) (isStart : Ty n → Prop) (ty : Ty n) : Prop :=
  ∃ start, isStart start ∧ s.Reaches start ty

section Final

variable {starts : List (Ty n)} {final : Unmet n}

theorem done_of_advances (h : s.Advances ⟨.all n, starts⟩ ⟨final, []⟩) {ty : Ty n}
    (hty : s.ReachesFrom (· ∈ starts) ty) : s.Done final ty := by
  have hend : ∀ x, s.Covered ⟨final, []⟩ x → s.Done final x := by
    intro x hx
    obtain hdone | ⟨start, hstart, _⟩ := hx
    · exact hdone
    · cases hstart
  obtain ⟨start, hstart, hreach⟩ := hty
  -- From record to record the walk closes what a type holds, not only the type itself.
  suffices hall : ∀ x, ReflTransGen s.Holds ty x → s.Done final x from hall ty .refl
  induction hreach with
  | refl => exact fun x hx => hend x (h.covered x (.inr ⟨start, hstart, hx⟩))
  | tail _ hstep ih =>
      intro x hx
      cases hstep with
      | holds hholds => exact ih x (.head hholds hx)
      | field hfield =>
          have hmet := ih _ .refl
          exact hend x (h.fields _ (List.mem_finRange _) hmet _ hfield x hx)

theorem mem_metRecords_iff (h : s.Advances ⟨.all n, starts⟩ ⟨final, []⟩) (id : Fin n.records) :
    id ∈ final.metRecords ↔ ∃ kind, s.ReachesFrom (· ∈ starts) (.record kind id) := by
  have hmem : id ∈ final.metRecords ↔ id ∉ final.records := by
    simp [Unmet.metRecords]
  rw [hmem]
  constructor
  · intro hmet
    obtain ⟨start, hstart, kind, hreach⟩ := h.records id (List.mem_finRange id) hmet
    exact ⟨kind, start, hstart, hreach⟩
  · intro hreach
    obtain ⟨kind, hreach⟩ := hreach
    exact done_of_advances h hreach

theorem mem_metEnums_iff (h : s.Advances ⟨.all n, starts⟩ ⟨final, []⟩) (id : Fin n.enums) :
    id ∈ final.metEnums ↔ s.ReachesFrom (· ∈ starts) (.enum id) := by
  have hmem : id ∈ final.metEnums ↔ id ∉ final.enums := by
    simp [Unmet.metEnums]
  rw [hmem]
  constructor
  · intro hmet
    obtain ⟨start, hstart, hreach⟩ := h.enums id (List.mem_finRange id) hmet
    exact ⟨start, hstart, hreach⟩
  · exact done_of_advances h

theorem not_circular_of_advances (h : s.Advances ⟨.all n, starts⟩ ⟨final, []⟩) {ty : Ty n}
    (hty : s.ReachesFrom (· ∈ starts) ty) : ¬ s.Circular ty := by
  have hdone := done_of_advances h hty
  cases ty with
  | record kind id => exact EndsAt.not_circular (.self nofun)
  | enum id => exact EndsAt.not_circular (.self nofun)
  | _ => exact hdone

end Final

theorem walksTo_walkAll_all (starts : List (Ty n)) :
    s.WalksTo ⟨.all n, starts⟩ (s.walkAll (.all n) starts) :=
  walksTo_walkAll (List.nodup_finRange n.records) (List.nodup_finRange n.enums)

/-- A walk from types meets exactly what can be reached from them, and fails exactly if a chain that
comes back can be reached. -/
theorem walkAll_spec (hfinite : s.HasFiniteTypedefs) (starts : List (Ty n)) :
    match s.walkAll (.all n) starts with
    | .ok final =>
        (∀ id, id ∈ final.metRecords ↔ ∃ kind, s.ReachesFrom (· ∈ starts) (.record kind id)) ∧
        (∀ id, id ∈ final.metEnums ↔ s.ReachesFrom (· ∈ starts) (.enum id)) ∧
        ∀ ty, s.ReachesFrom (· ∈ starts) ty → ¬ s.Circular ty
    | .error _ => ∃ ty, s.ReachesFrom (· ∈ starts) ty ∧ s.Circular ty := by
  have hwalks := walksTo_walkAll_all (s := s) starts
  cases hresult : s.walkAll (.all n) starts with
  | ok final =>
      rw [hresult] at hwalks
      exact ⟨mem_metRecords_iff hwalks.1, mem_metEnums_iff hwalks.1,
        fun _ => not_circular_of_advances hwalks.1⟩
  | error cycle =>
      rw [hresult] at hwalks
      obtain ⟨start, hstart, ty, hreach, hcircular⟩ := hwalks
      exact ⟨ty, ⟨start, hstart, hreach⟩, hcircular hfinite⟩

/-- The type of a parameter of one of the service's own methods on the allow list. -/
def IsParameter (s : Schema n) (key : String) (id : Fin n.services) (ty : Ty n) : Prop :=
  ∃ m ∈ (s.service id).methods, m.isAllowListed key ∧ ∃ field ∈ m.params, field.ty = ty

/-- The type that a method on the allow list of the service or of an ancestor returns or throws. -/
def IsResult (s : Schema n) (key : String) (id : Fin n.services) (ty : Ty n) : Prop :=
  ∃ ancestor ∈ s.serviceChain id, ∃ m ∈ (s.service ancestor).methods, m.isAllowListed key ∧
    (m.returns = ty ∨ ∃ field ∈ m.throws, field.ty = ty)

theorem mem_parameterTypes_iff {key : String} {id : Fin n.services} {ty : Ty n} :
    ty ∈ s.parameterTypes key id ↔ s.IsParameter key id ty := by
  simp only [parameterTypes, listedMethods, IsParameter, List.mem_flatMap, List.mem_filter,
    List.mem_map, and_assoc]

theorem mem_resultTypes_iff {key : String} {id : Fin n.services} {ty : Ty n} :
    ty ∈ s.resultTypes key id ↔ s.IsResult key id ty := by
  simp only [resultTypes, listedMethods, IsResult, List.mem_flatMap, List.mem_filter,
    List.mem_cons, List.mem_map, and_assoc, eq_comm]

/-- What a service needs is what can be reached from its methods on the allow list, and the analysis
fails only where a chain of typedefs that can be reached comes back to itself. -/
theorem reach_eq_reachable (hfinite : s.HasFiniteTypedefs) (key : String) (id : Fin n.services) :
    (∀ result, s.reach key id = .ok result →
      (∀ record, record ∈ result.viaParameters ↔
        ∃ kind, s.ReachesFrom (s.IsParameter key id) (.record kind record)) ∧
      (∀ record, record ∈ result.viaResults ↔
        ∃ kind, s.ReachesFrom (s.IsResult key id) (.record kind record)) ∧
      ∀ enum, enum ∈ result.enums ↔
        s.ReachesFrom (s.IsParameter key id) (.enum enum) ∨
          s.ReachesFrom (s.IsResult key id) (.enum enum)) ∧
    ((∃ cycle, s.reach key id = .error cycle) ↔
      ∃ ty, (s.ReachesFrom (s.IsParameter key id) ty ∨ s.ReachesFrom (s.IsResult key id) ty) ∧
        s.Circular ty) := by
  have hparameters := walkAll_spec hfinite (s.parameterTypes key id)
  have hresults := walkAll_spec hfinite (s.resultTypes key id)
  simp only [mem_parameterTypes_iff] at hparameters
  simp only [mem_resultTypes_iff] at hresults
  rw [reach]
  cases hparametersWalk : s.walkAll (.all n) (s.parameterTypes key id) with
  | error cycle =>
      rw [hparametersWalk] at hparameters
      obtain ⟨ty, hty, hcircular⟩ := hparameters
      exact ⟨nofun, iff_of_true ⟨cycle, rfl⟩ ⟨ty, .inl hty, hcircular⟩⟩
  | ok parameters =>
      rw [hparametersWalk] at hparameters
      cases hresultsWalk : s.walkAll (.all n) (s.resultTypes key id) with
      | error cycle =>
          rw [hresultsWalk] at hresults
          obtain ⟨ty, hty, hcircular⟩ := hresults
          exact ⟨nofun, iff_of_true ⟨cycle, rfl⟩ ⟨ty, .inr hty, hcircular⟩⟩
      | ok results =>
          rw [hresultsWalk] at hresults
          refine ⟨fun result hresult => ?_, iff_of_false nofun ?_⟩
          · cases hresult
            refine ⟨hparameters.1, hresults.1, fun enum => ?_⟩
            rw [Reach.mem_union, hparameters.2.1 enum, hresults.2.1 enum]
          · intro hcycle
            obtain ⟨ty, hty | hty, hcircular⟩ := hcycle
            · exact hparameters.2.2 ty hty hcircular
            · exact hresults.2.2 ty hty hcircular

abbrev forestCensus : Census where
  records := 2
  enums := 1
  typedefs := 2
  services := 1

abbrev treeId : Fin forestCensus.records := ⟨0, by decide⟩
abbrev stoneId : Fin forestCensus.records := ⟨1, by decide⟩
abbrev seasonId : Fin forestCensus.enums := ⟨0, by decide⟩
abbrev treesId : Fin forestCensus.typedefs := ⟨0, by decide⟩
abbrev echoId : Fin forestCensus.typedefs := ⟨1, by decide⟩
abbrev forestId : Fin forestCensus.services := ⟨0, by decide⟩

/-- A record that holds a list of itself under a typedef, a record that nothing holds, and a typedef
that stands for itself. -/
def forest : Schema forestCensus where
  records := #v[
    { name := "Tree"
      fields := [
        { id := 1, name := "children", ty := .typedef treesId },
        { id := 2, name := "season", ty := .enum seasonId }] },
    { name := "Stone" }]
  enums := #v[{ name := "Season" }]
  typedefs := #v[
    { name := "Trees", target := .list (.record .struct treeId) },
    { name := "Echo", target := .typedef echoId }]
  services := #v[
    { name := "Forest"
      methods := [
        { name := "plant"
          params := [{ id := 1, name := "trees", ty := .typedef treesId }]
          annotations := [("quiet", "true")] },
        { name := "call"
          params := [{ id := 1, name := "echo", ty := .typedef echoId }]
          annotations := [("loud", "true")] }] }]

theorem forest_hasFiniteTypedefs : forest.HasFiniteTypedefs := by
  have hecho : ∀ {x}, ReflTransGen forest.Holds (.typedef echoId) x → x = .typedef echoId := by
    intro x hx
    induction hx with
    | refl => rfl
    | tail _ hstep ih =>
        subst ih
        cases hstep with
        | follow hfollows =>
            cases hfollows
            rfl
        | part hpart => cases hpart
  have htrees : ∀ {x}, ReflTransGen forest.Holds (.typedef treesId) x →
      x = .typedef treesId ∨ x = .list (.record .struct treeId) ∨ x = .record .struct treeId := by
    intro x hx
    obtain rfl | ⟨next, hnext, hrest⟩ := hx.cases_head
    · exact .inl rfl
    · cases hnext with
      | follow hfollows =>
          cases hfollows
          obtain rfl | ⟨part, hpart, hend⟩ := hrest.cases_head
          · exact .inr (.inl rfl)
          · cases hpart with
            | follow hfollows => cases hfollows
            | part hmem =>
                cases List.mem_singleton.mp hmem
                exact .inr (.inr (eq_of_holds_record hend))
      | part hpart => cases hpart
  intro id hinside
  obtain ⟨container, part, hcontainer, hpart, hback⟩ := hinside
  match id with
  | ⟨0, _⟩ =>
      obtain rfl | rfl | rfl := htrees hcontainer
      · cases hpart
      · cases List.mem_singleton.mp hpart
        cases eq_of_holds_record hback
      · cases hpart
  | ⟨1, _⟩ =>
      cases hecho hcontainer
      cases hpart

theorem walk_trees :
    forest.walk (.all forestCensus) [forest.shape (.typedef treesId)] = .ok ⟨[stoneId], []⟩ := by
  have hall : Unmet.all forestCensus = ⟨[treeId, stoneId], [seasonId]⟩ := rfl
  have hshape : forest.shape (.typedef treesId) =
      .list (.record .struct treeId) fun _ => .record treeId := rfl
  have hfields : (forest.fieldShapes treeId).reverse =
      [.enum seasonId, forest.shape (.typedef treesId)] := rfl
  rw [hall, hshape, walk, Shape.parts, List.singleton_append, walk, dif_pos (by decide), hfields,
    hshape]
  · change forest.walk _ [.enum seasonId, .list _ _] = _
    rw [walk, walk, Shape.parts, List.singleton_append, walk, dif_neg (by decide), walk]
    · rfl
    all_goals
      intros
      contradiction
  all_goals
    intros
    contradiction

theorem reach_quiet :
    forest.reach "quiet" forestId =
      .ok { viaParameters := [treeId], viaResults := [], enums := [seasonId] } := by
  have hparameters : forest.parameterTypes "quiet" forestId = [.typedef treesId] := rfl
  have hresults : forest.resultTypes "quiet" forestId = [.void] := rfl
  have hvoid : forest.walk (.all forestCensus) [forest.shape .void] =
      .ok (.all forestCensus) := by
    change forest.walk (.all forestCensus) [.void] = _
    rw [walk, Shape.parts, List.nil_append, walk]
    all_goals
      intros
      contradiction
  rw [reach, hparameters, hresults, walkAll, walk_trees, walkAll, hvoid]
  rfl

theorem reach_forest :
    forest.HasFiniteTypedefs ∧
      (∃ kind, forest.ReachesFrom (forest.IsParameter "quiet" forestId) (.record kind treeId)) ∧
      (¬ ∃ kind, forest.ReachesFrom (forest.IsParameter "quiet" forestId)
        (.record kind stoneId)) ∧
      ∃ cycle, forest.reach "loud" forestId = .error cycle := by
  have hfinite := forest_hasFiniteTypedefs
  have hrecords := ((reach_eq_reachable hfinite "quiet" forestId).1 _ reach_quiet).1
  refine ⟨hfinite, (hrecords treeId).mp (by decide), fun hstone => ?_, ?_⟩
  · exact absurd ((hrecords stoneId).mpr hstone) (by decide)
  · have hparameter : forest.IsParameter "loud" forestId (.typedef echoId) :=
      mem_parameterTypes_iff.mp (show _ ∈ [Ty.typedef echoId] from List.mem_cons_self)
    exact (reach_eq_reachable hfinite "loud" forestId).2.mpr
      ⟨_, .inl ⟨_, hparameter, .refl⟩, _, .refl, .single (.typedef echoId)⟩

end Schema

end WireIdl

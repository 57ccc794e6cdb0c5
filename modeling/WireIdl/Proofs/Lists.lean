import Mathlib.Data.List.Perm.Basic

/-! Lists that correspond part by part, as they stand or in some order, and lists that come from a
computation on each part. -/

namespace WireIdl

variable {α β γ δ : Type} {R : α → β → Prop} {as : List α} {bs : List β}

theorem exists_forall₂ (h : ∀ a ∈ as, ∃ b, R a b) : ∃ bs, List.Forall₂ R as bs := by
  induction as with
  | nil => exact ⟨[], .nil⟩
  | cons a as ih =>
      rw [List.forall_mem_cons] at h
      obtain ⟨b, hab⟩ := h.1
      obtain ⟨bs, hbs⟩ := ih h.2
      exact ⟨b :: bs, .cons hab hbs⟩

theorem exists_of_forall₂ {a : α} (h : List.Forall₂ R as bs) (ha : a ∈ as) :
    ∃ b ∈ bs, R a b := by
  induction h with
  | nil => cases ha
  | cons hfirst _ ih =>
      cases ha with
      | head => exact ⟨_, List.mem_cons_self, hfirst⟩
      | tail _ ha =>
          obtain ⟨b, hb, hab⟩ := ih ha
          exact ⟨b, List.mem_cons_of_mem _ hb, hab⟩

theorem forall_mem_of_forall₂ {p : β → Prop} (h : List.Forall₂ (fun _ b => p b) as bs) :
    ∀ b ∈ bs, p b := by
  induction h with
  | nil => simp
  | cons hfirst _ ih => exact List.forall_mem_cons.mpr ⟨hfirst, ih⟩

theorem forall₂_set {index : Nat} {a : α} {b : β} (h : List.Forall₂ R as bs)
    (ha : as[index]? = some a) (hab : R a b) : List.Forall₂ R as (bs.set index b) := by
  induction h generalizing index with
  | nil => exact .nil
  | cons hfirst hrest ih =>
      cases index with
      | zero =>
          cases ha
          exact .cons hab hrest
      | succ index => exact .cons hfirst (ih ha)

theorem map_eq_map_iff_forall₂ {f : α → γ} {g : β → γ} :
    as.map f = bs.map g ↔ List.Forall₂ (fun a b => f a = g b) as bs := by
  rw [← List.forall₂_eq_eq_eq, List.forall₂_map_left_iff, List.forall₂_map_right_iff]

theorem forall₂_trans {S : β → γ → Prop} {T : α → γ → Prop} {cs : List γ}
    (htrans : ∀ a b c, R a b → S b c → T a c) (h : List.Forall₂ R as bs)
    (h' : List.Forall₂ S bs cs) : List.Forall₂ T as cs := by
  induction h generalizing cs with
  | nil =>
      cases h'
      exact .nil
  | cons hfirst _ ih =>
      cases h' with
      | cons hnext hrest => exact .cons (htrans _ _ _ hfirst hnext) (ih hrest)

theorem forall₂_imp_of_mem {S : α → β → Prop} (himp : ∀ a ∈ as, ∀ b ∈ bs, R a b → S a b)
    (h : List.Forall₂ R as bs) : List.Forall₂ S as bs := by
  obtain ⟨hlength, hparts⟩ := List.forall₂_iff_zip.mp h
  refine List.forall₂_iff_zip.mpr ⟨hlength, fun {a b} hmem => ?_⟩
  exact himp a (List.of_mem_zip hmem).1 b (List.of_mem_zip hmem).2 (hparts hmem)

theorem forall₂_congr_of_mem {S : α → β → Prop} (h : ∀ a ∈ as, ∀ b ∈ bs, (R a b ↔ S a b)) :
    List.Forall₂ R as bs ↔ List.Forall₂ S as bs :=
  ⟨forall₂_imp_of_mem fun a ha b hb => (h a ha b hb).mp,
    forall₂_imp_of_mem fun a ha b hb => (h a ha b hb).mpr⟩

theorem except_bind_eq_ok {ε : Type} {x : Except ε α} {f : α → Except ε β} {b : β} :
    (x >>= f) = .ok b ↔ ∃ a, x = .ok a ∧ f a = .ok b := by
  cases x with
  | error fault => simp [bind, Except.bind]
  | ok a => simp [bind, Except.bind]

theorem except_bind_eq_error {ε : Type} {x : Except ε α} {f : α → Except ε β} {fault : ε} :
    (x >>= f) = .error fault ↔ x = .error fault ∨ ∃ a, x = .ok a ∧ f a = .error fault := by
  cases x with
  | error other => simp [bind, Except.bind]
  | ok a => simp [bind, Except.bind]

theorem exists_bind_pure_iff {ε : Type} {x : Except ε α} {f : α → β} :
    (∃ b, (do return f (← x)) = Except.ok b) ↔ ∃ a, x = .ok a := by
  cases x with
  | error fault => simp [bind, Except.bind]
  | ok a => simp [bind, Except.bind, pure, Except.pure]

theorem forall₂_of_mapM {ε : Type} {f : α → Except ε β} (h : as.mapM f = .ok bs) :
    List.Forall₂ (fun a b => f a = .ok b) as bs := by
  induction as generalizing bs with
  | nil =>
      cases h
      exact .nil
  | cons a as ih =>
      rw [List.mapM_cons, except_bind_eq_ok] at h
      obtain ⟨b, hfirst, hrest⟩ := h
      obtain ⟨others, hothers, hall⟩ := except_bind_eq_ok.mp hrest
      cases hall
      exact .cons hfirst (ih hothers)

theorem mapM_of_forall₂ {ε : Type} {f : α → Except ε β}
    (h : List.Forall₂ (fun a b => f a = .ok b) as bs) : as.mapM f = .ok bs := by
  induction h with
  | nil => rfl
  | cons hfirst _ ih =>
      rw [List.mapM_cons]
      exact except_bind_eq_ok.mpr ⟨_, hfirst, except_bind_eq_ok.mpr ⟨_, ih, rfl⟩⟩

theorem exists_mapM {ε : Type} {f : α → Except ε β} (h : ∀ a ∈ as, ∃ b, f a = .ok b) :
    ∃ bs, as.mapM f = .ok bs := by
  obtain ⟨bs, hbs⟩ := exists_forall₂ h
  exact ⟨bs, mapM_of_forall₂ hbs⟩

theorem exists_of_mapM {ε : Type} {f : α → Except ε β} {a : α} (h : as.mapM f = .ok bs)
    (ha : a ∈ as) : ∃ b ∈ bs, f a = .ok b :=
  exists_of_forall₂ (forall₂_of_mapM h) ha

theorem exists_error_of_mapM {ε : Type} {f : α → Except ε β} {fault : ε}
    (h : as.mapM f = .error fault) : ∃ a ∈ as, f a = .error fault := by
  induction as with
  | nil => cases h
  | cons a as ih =>
      rw [List.mapM_cons, except_bind_eq_error] at h
      obtain hfirst | ⟨b, _, hrest⟩ := h
      · exact ⟨a, List.mem_cons_self, hfirst⟩
      · obtain hothers | ⟨_, _, hpure⟩ := except_bind_eq_error.mp hrest
        · obtain ⟨other, hmem, hother⟩ := ih hothers
          exact ⟨other, List.mem_cons_of_mem a hmem, hother⟩
        · cases hpure

theorem eq_of_mapM_eq {ε : Type} {f g : α → Except ε β} {a : α} (hf : as.mapM f = .ok bs)
    (hg : as.mapM g = .ok bs) (ha : a ∈ as) : f a = g a := by
  have hparts := forall₂_of_mapM hf
  have hothers := forall₂_of_mapM hg
  clear hf hg
  induction hparts with
  | nil => cases ha
  | cons hfirst _ ih =>
      cases hothers with
      | cons hother hrest =>
          cases ha with
          | head => rw [hfirst, hother]
          | tail _ ha => exact ih ha hrest

theorem exists_mapM_of_sublist {ε : Type} {f : α → Except ε β} {others : List α}
    (hothers : others.Sublist as) (h : as.mapM f = .ok bs) :
    ∃ results, others.mapM f = .ok results ∧ results.Sublist bs := by
  have hall := forall₂_of_mapM h
  clear h
  induction hothers generalizing bs with
  | slnil => exact ⟨[], rfl, List.nil_sublist bs⟩
  | cons a _ ih =>
      cases hall with
      | cons _ hrest =>
          obtain ⟨results, hresults, hsub⟩ := ih hrest
          exact ⟨results, hresults, hsub.cons _⟩
  | cons_cons a _ ih =>
      cases hall with
      | @cons _ b _ _ hfirst hrest =>
          obtain ⟨results, hresults, hsub⟩ := ih hrest
          refine ⟨b :: results, mapM_of_forall₂ ?_, hsub.cons_cons b⟩
          exact .cons hfirst (forall₂_of_mapM hresults)

theorem find?_of_apart {p : α → Bool} {a : α} (ha : a ∈ as) (hp : p a = true)
    (hapart : as.Pairwise fun b c => ¬ (p b = true ∧ p c = true)) : as.find? p = some a := by
  induction as with
  | nil => cases ha
  | cons first as ih =>
      rw [List.pairwise_cons] at hapart
      cases ha with
      | head => exact List.find?_cons_of_pos hp
      | tail _ ha =>
          rw [List.find?_cons_of_neg fun hfirst => hapart.1 a ha ⟨hfirst, hp⟩]
          exact ih ha hapart.2

/-- Two lists that correspond part by part once the first is put in some order. -/
def Matched (R : α → β → Prop) (as : List α) (bs : List β) : Prop :=
  ∃ middle, as.Perm middle ∧ List.Forall₂ R middle bs

namespace Matched

theorem of_forall₂ (h : List.Forall₂ R as bs) : Matched R as bs :=
  ⟨as, .refl as, h⟩

theorem imp_of_mem {S : α → β → Prop} (himp : ∀ a ∈ as, ∀ b ∈ bs, R a b → S a b)
    (h : Matched R as bs) : Matched S as bs := by
  obtain ⟨middle, hperm, hparts⟩ := h
  exact ⟨middle, hperm, forall₂_imp_of_mem (fun a ha => himp a (hperm.mem_iff.mpr ha)) hparts⟩

theorem imp {S : α → β → Prop} (himp : ∀ a b, R a b → S a b) (h : Matched R as bs) :
    Matched S as bs :=
  h.imp_of_mem fun a _ b _ => himp a b

theorem length_eq (h : Matched R as bs) : as.length = bs.length := by
  obtain ⟨middle, hperm, hparts⟩ := h
  exact hperm.length_eq.trans hparts.length_eq

theorem exists_of_mem {a : α} (h : Matched R as bs) (ha : a ∈ as) : ∃ b ∈ bs, R a b := by
  obtain ⟨middle, hperm, hparts⟩ := h
  exact exists_of_forall₂ hparts (hperm.mem_iff.mp ha)

theorem cons {a : α} {b : β} (hab : R a b) (h : Matched R as bs) :
    Matched R (a :: as) (b :: bs) := by
  obtain ⟨middle, hperm, hparts⟩ := h
  exact ⟨a :: middle, hperm.cons a, .cons hab hparts⟩

theorem map {S : γ → δ → Prop} {f : α → γ} {g : β → δ} (hmap : ∀ a b, R a b → S (f a) (g b))
    (h : Matched R as bs) : Matched S (as.map f) (bs.map g) := by
  obtain ⟨middle, hperm, hparts⟩ := h
  refine ⟨middle.map f, hperm.map f, ?_⟩
  rw [List.forall₂_map_left_iff, List.forall₂_map_right_iff]
  exact hparts.imp hmap

theorem any_eq {p : α → Bool} {q : β → Bool} (hpq : ∀ a b, R a b → p a = q b)
    (h : Matched R as bs) : as.any p = bs.any q := by
  obtain ⟨middle, hperm, hparts⟩ := h
  rw [hperm.any_eq]
  clear hperm
  induction hparts with
  | nil => rfl
  | cons hab _ ih => rw [List.any_cons, List.any_cons, hpq _ _ hab, ih]

theorem perm_left {others : List α} (hperm : as.Perm others) (h : Matched R others bs) :
    Matched R as bs := by
  obtain ⟨middle, hmiddle, hparts⟩ := h
  exact ⟨middle, hperm.trans hmiddle, hparts⟩

theorem perm_right {others : List β} (h : Matched R as bs) (hperm : bs.Perm others) :
    Matched R as others := by
  obtain ⟨middle, hmiddle, hparts⟩ := h
  have hcomp : Relation.Comp (List.Forall₂ R) List.Perm middle others := ⟨bs, hparts, hperm⟩
  rw [List.forall₂_comp_perm_eq_perm_comp_forall₂] at hcomp
  obtain ⟨last, hlast, hothers⟩ := hcomp
  exact ⟨last, hmiddle.trans hlast, hothers⟩

theorem symm {S : β → α → Prop} (hsymm : ∀ a b, R a b → S b a) (h : Matched R as bs) :
    Matched S bs as := by
  obtain ⟨middle, hperm, hparts⟩ := h
  have hback : List.Forall₂ S bs middle := List.Forall₂.flip (hparts.imp hsymm)
  exact (of_forall₂ hback).perm_right hperm.symm

theorem trans {S : β → γ → Prop} {T : α → γ → Prop} {cs : List γ}
    (htrans : ∀ a b c, R a b → S b c → T a c) (h : Matched R as bs) (h' : Matched S bs cs) :
    Matched T as cs := by
  obtain ⟨middle, hperm, hparts⟩ := h'
  obtain ⟨first, hfirst, hmiddle⟩ := h.perm_right hperm
  exact ⟨first, hfirst, forall₂_trans htrans hmiddle hparts⟩

/-- Parts that go to different parts of a list go to a selection of it. -/
theorem exists_selection (hcover : ∀ a ∈ as, ∃ b ∈ bs, R a b)
    (hapart : as.Pairwise fun a a' => ∀ b, R a b → ¬ R a' b) :
    ∃ chosen left, bs.Perm (chosen ++ left) ∧ List.Forall₂ R as chosen := by
  induction as generalizing bs with
  | nil => exact ⟨[], bs, .refl bs, .nil⟩
  | cons a as ih =>
      rw [List.pairwise_cons] at hapart
      rw [List.forall_mem_cons] at hcover
      obtain ⟨b, hb, hab⟩ := hcover.1
      obtain ⟨before, after, rfl⟩ := List.append_of_mem hb
      have hothers : ∀ a' ∈ as, ∃ b' ∈ before ++ after, R a' b' := by
        intro a' ha'
        obtain ⟨b', hb', hab'⟩ := hcover.2 a' ha'
        obtain hbefore | rfl | hafter : b' ∈ before ∨ b' = b ∨ b' ∈ after := by simpa using hb'
        · exact ⟨b', List.mem_append_left after hbefore, hab'⟩
        · exact absurd hab' (hapart.1 a' ha' b' hab)
        · exact ⟨b', List.mem_append_right before hafter, hab'⟩
      obtain ⟨chosen, left, hperm, hchosen⟩ := ih hothers hapart.2
      exact ⟨b :: chosen, left, List.perm_middle.trans (hperm.cons b), .cons hab hchosen⟩

theorem of_apart (hlength : bs.length ≤ as.length) (hcover : ∀ a ∈ as, ∃ b ∈ bs, R a b)
    (hapart : as.Pairwise fun a a' => ∀ b, R a b → ¬ R a' b) : Matched R as bs := by
  obtain ⟨chosen, left, hperm, hchosen⟩ := exists_selection hcover hapart
  have hall := hperm.length_eq
  rw [List.length_append, ← hchosen.length_eq] at hall
  have hnone : left = [] := List.length_eq_zero_iff.mp (by omega)
  rw [hnone, List.append_nil] at hperm
  exact (of_forall₂ hchosen).perm_right hperm.symm

theorem of_covers (hcover : ∀ a ∈ as, ∃ b ∈ bs, R a b) (hback : ∀ b ∈ bs, ∃ a ∈ as, R a b)
    (hapart : as.Pairwise fun a a' => ∀ b, R a b → ¬ R a' b)
    (hbackApart : bs.Pairwise fun b b' => ∀ a, R a b → ¬ R a b') : Matched R as bs := by
  obtain ⟨chosen, left, hperm, hchosen⟩ := exists_selection hback hbackApart
  have hall := hperm.length_eq
  rw [List.length_append, ← hchosen.length_eq] at hall
  exact of_apart (by omega) hcover hapart

end Matched

end WireIdl

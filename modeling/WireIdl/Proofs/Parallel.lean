import Mathlib.Data.List.Forall2

/-! Two computations that fail together. -/

namespace WireIdl

variable {ε δ α β α' β' : Type}

/-- Both computations fail, or both give a result and the results are related. -/
inductive Parallel (R : α → β → Prop) : Except ε α → Except δ β → Prop where
  | ok {a : α} {b : β} (related : R a b) : Parallel R (.ok a) (.ok b)
  | error {e : ε} {d : δ} : Parallel R (.error e) (.error d)

namespace Parallel

variable {R : α → β → Prop} {S : α' → β' → Prop} {x : Except ε α} {y : Except δ β}

theorem imp {R' : α → β → Prop} (h : Parallel R x y) (himp : ∀ a b, R a b → R' a b) :
    Parallel R' x y := by
  cases h with
  | ok hab => exact .ok (himp _ _ hab)
  | error => exact .error

theorem refl {R : α → α → Prop} (hrefl : ∀ a, R a a) (x : Except ε α) : Parallel R x x := by
  cases x with
  | ok a => exact .ok (hrefl a)
  | error e => exact .error

theorem bind {f : α → Except ε α'} {g : β → Except δ β'} (h : Parallel R x y)
    (hnext : ∀ a b, R a b → Parallel S (f a) (g b)) : Parallel S (x >>= f) (y >>= g) := by
  cases h with
  | ok hab => exact hnext _ _ hab
  | error => exact .error

/-- The second computations may rely on what the first ones gave. -/
theorem bind_of_ok {f : α → Except ε α'} {g : β → Except δ β'} (h : Parallel R x y)
    (hnext : ∀ a b, x = .ok a → y = .ok b → R a b → Parallel S (f a) (g b)) :
    Parallel S (x >>= f) (y >>= g) := by
  cases h with
  | ok hab => exact hnext _ _ rfl rfl hab
  | error => exact .error

/-- Two computations that go on from the same result. -/
theorem bind_same {x : Except ε α} {y : Except δ α} {f : α → Except ε α'} {g : α → Except δ β'}
    (h : Parallel Eq x y) (hnext : ∀ a, Parallel S (f a) (g a)) :
    Parallel S (x >>= f) (y >>= g) := by
  refine h.bind fun a b hab => ?_
  cases hab
  exact hnext a

theorem mapM {f : α → Except ε α'} {g : β → Except δ β'} {as : List α} {bs : List β}
    (h : List.Forall₂ (fun a b => Parallel S (f a) (g b)) as bs) :
    Parallel (List.Forall₂ S) (as.mapM f) (bs.mapM g) := by
  induction h with
  | nil => exact .ok .nil
  | cons hfirst _ ih =>
      rw [List.mapM_cons, List.mapM_cons]
      refine hfirst.bind fun a b hab => ?_
      refine ih.bind fun as bs hrest => ?_
      exact .ok (.cons hab hrest)

theorem mapM_eq {f : α → Except ε α'} {g : β → Except δ α'} {as : List α} {bs : List β}
    (h : List.Forall₂ (fun a b => Parallel Eq (f a) (g b)) as bs) :
    Parallel Eq (as.mapM f) (bs.mapM g) := by
  refine (mapM h).imp fun _ _ hresults => ?_
  rwa [List.forall₂_eq_eq_eq] at hresults

/-- The same computation on each part, in two settings. -/
theorem mapM_same {f : α → Except ε α'} {g : α → Except δ α'} {as : List α}
    (h : ∀ a ∈ as, Parallel Eq (f a) (g a)) : Parallel Eq (as.mapM f) (as.mapM g) :=
  mapM_eq (List.forall₂_same.mpr h)

theorem of_ok {a : α} (h : Parallel R (.ok a : Except ε α) y) : ∃ b, y = .ok b ∧ R a b := by
  cases h with
  | ok hab => exact ⟨_, rfl, hab⟩

theorem eq_ok_iff {x : Except ε α} {y : Except δ α} (h : Parallel Eq x y) {a : α} :
    x = .ok a ↔ y = .ok a := by
  cases h with
  | ok hab => simp [hab]
  | error => simp

theorem of_error {e : ε} (h : Parallel R (.error e) y) : ∃ d, y = .error d := by
  cases h with
  | error => exact ⟨_, rfl⟩

end Parallel

end WireIdl

import WireIdl.Proofs.Schema.Expansion

/-! The chain of a type, typedef by typedef. It passes different typedefs until it stops, at a type
that is no typedef or at a typedef that it has passed; `trueType` is what it stops at. -/

namespace WireIdl.Schema

open Relation

variable {n : Census} {s : Schema n}

/-- The chain from a type passes typedefs, in this order, and comes to a type. -/
inductive Passes (s : Schema n) : Ty n → List (Fin n.typedefs) → Ty n → Prop where
  | here (ty : Ty n) : Passes s ty [] ty
  | next {id : Fin n.typedefs} {passed : List (Fin n.typedefs)} {last : Ty n}
      (rest : Passes s (s.typedef id).target passed last) :
      Passes s (.typedef id) (id :: passed) last

/-- A chain does not go on from a type that is no typedef, nor from a typedef it has passed. -/
def StopsAt (passed : List (Fin n.typedefs)) (last : Ty n) : Prop :=
  ∀ id, last = .typedef id → id ∈ passed

/-- What a chain gives that stops at a type. -/
def verdict (s : Schema n) : Ty n → Except TypedefCycle (Ty n)
  | .typedef id => .error ⟨(s.typedef id).name⟩
  | ty => .ok ty

variable {ty last core : Ty n} {passed : List (Fin n.typedefs)}

theorem verdict_eq_error_iff {cycle : TypedefCycle} :
    s.verdict last = .error cycle ↔
      ∃ id, last = .typedef id ∧ cycle.name = (s.typedef id).name := by
  constructor
  · intro h
    cases last with
    | typedef id =>
        cases h
        exact ⟨id, rfl, rfl⟩
    | _ => cases h
  · rintro ⟨id, rfl, hname⟩
    rw [verdict, ← hname]

namespace Passes

theorem chain (h : s.Passes ty passed last) : ReflTransGen s.Follows ty last := by
  induction h with
  | here => exact .refl
  | next _ ih => exact .head (.typedef _) ih

theorem snoc {id : Fin n.typedefs} (h : s.Passes ty passed (.typedef id)) :
    s.Passes ty (passed ++ [id]) (s.typedef id).target := by
  generalize hlast : Ty.typedef id = last at h
  induction h with
  | here =>
      cases hlast
      exact .next (.here _)
  | next _ ih => exact .next (ih hlast)

/-- A chain that has not stopped has a typedef left to pass, so it stops. -/
theorem exists_stop (room : Nat) (h : s.Passes ty passed last) (hnodup : passed.Nodup)
    (hroom : n.typedefs ≤ room + passed.length) :
    ∃ passed last, s.Passes ty passed last ∧ passed.Nodup ∧ StopsAt passed last := by
  induction room generalizing passed last with
  | zero =>
      refine ⟨passed, last, h, hnodup, fun id _ => ?_⟩
      by_contra hnew
      have hlength := nodup_length_le (List.nodup_cons.mpr ⟨hnew, hnodup⟩)
      rw [List.length_cons] at hlength
      omega
  | succ room ih =>
      by_cases hstops : StopsAt passed last
      · exact ⟨passed, last, h, hnodup, hstops⟩
      · simp only [StopsAt, not_forall] at hstops
        obtain ⟨id, rfl, hnew⟩ := hstops
        refine ih h.snoc ?_ ?_
        · rw [← List.concat_eq_append]
          exact hnodup.concat hnew
        · rw [List.length_append, List.length_singleton]
          omega

/-- The run along a chain, with some typedefs seen before it. -/
theorem followTypedefs_eq {steps : Nat} {seen : List (Fin n.typedefs)} (h : s.Passes ty passed last)
    (hnodup : passed.Nodup) (hnew : ∀ id ∈ passed, id ∉ seen)
    (hstops : ∀ id, last = .typedef id → id ∈ passed ∨ id ∈ seen) (hsteps : passed.length ≤ steps) :
    s.followTypedefs steps seen ty = s.verdict last := by
  induction h generalizing steps seen with
  | here ty =>
      cases ty with
      | typedef id =>
          have hseen : id ∈ seen := (hstops id rfl).resolve_left List.not_mem_nil
          cases steps with
          | zero | succ => rw [followTypedefs, if_pos hseen, verdict]
      | _ => simp [followTypedefs, verdict]
  | @next id passed last _ ih =>
      rw [List.nodup_cons] at hnodup
      rw [List.forall_mem_cons] at hnew
      cases steps with
      | zero => cases hsteps
      | succ steps =>
          rw [followTypedefs, if_neg hnew.1]
          refine ih hnodup.2 ?_ ?_ (Nat.le_of_succ_le_succ hsteps)
          · intro other hother hseen
            obtain rfl | hseen := List.mem_cons.mp hseen
            · exact hnodup.1 hother
            · exact hnew.2 other hother hseen
          · intro other hlast
            obtain hpassed | hseen := hstops other hlast
            · obtain rfl | hpassed := List.mem_cons.mp hpassed
              · exact .inr List.mem_cons_self
              · exact .inl hpassed
            · exact .inr (List.mem_cons_of_mem id hseen)

theorem followTypedefs_nil_eq {steps : Nat} (h : s.Passes ty passed last) (hnodup : passed.Nodup)
    (hstops : StopsAt passed last) (hsteps : passed.length ≤ steps) :
    s.followTypedefs steps [] ty = s.verdict last :=
  h.followTypedefs_eq hnodup (fun _ _ => List.not_mem_nil) (fun id hlast => .inl (hstops id hlast))
    hsteps

theorem trueType_eq (h : s.Passes ty passed last) (hnodup : passed.Nodup)
    (hstops : StopsAt passed last) : s.trueType ty = s.verdict last :=
  h.followTypedefs_nil_eq hnodup hstops (nodup_length_le hnodup)

end Passes

theorem EndsAt.of_reached {reached : Ty n} (h : s.EndsAt ty core)
    (hchain : ReflTransGen s.Follows ty reached) : s.EndsAt reached core := by
  obtain hback | hcore := ReflTransGen.total_of_right_unique Follows.rightUnique h.chain hchain
  · obtain rfl | ⟨next, hnext, _⟩ := hback.cases_head
    · exact ⟨.refl, h.ended⟩
    · exact absurd hnext (h.ended next)
  · exact ⟨hcore, h.ended⟩

theorem endsAt_iff :
    s.EndsAt ty core ↔ ReflTransGen s.Follows ty core ∧ ∀ id, core ≠ .typedef id := by
  constructor
  · exact fun h => ⟨h.chain, h.ne_typedef⟩
  · rintro ⟨hchain, hcore⟩
    exact (EndsAt.self hcore).of_chain hchain

theorem trueType_eq_ok_iff : s.trueType ty = .ok core ↔ s.EndsAt ty core := by
  refine ⟨endsAt_of_trueType, fun h => ?_⟩
  have houtcome := outcome_trueType (s := s) ty
  cases htrue : s.trueType ty with
  | ok other => rw [(endsAt_of_trueType htrue).unique h]
  | error cycle =>
      rw [htrue] at houtcome
      exact absurd houtcome h.not_circular

/-- The true type is where the chain leaves typedefs. A chain passes different typedefs before it
stops, and as many steps as it passes are enough to find the result. The result is a type exactly if
the chain comes to this type and it is no typedef, and all types on the way have the same one. It
is a cycle exactly if the chain never leaves typedefs, and has the name of the first typedef that is
met again. -/
theorem trueType_exact (s : Schema n) (ty : Ty n) :
    (∃ passed last, s.Passes ty passed last ∧ passed.Nodup ∧ passed.length ≤ n.typedefs ∧
      (∀ id, last = .typedef id → id ∈ passed) ∧
      ∀ steps, passed.length ≤ steps → s.followTypedefs steps [] ty = s.trueType ty) ∧
    (∀ core, s.trueType ty = .ok core ↔
      ReflTransGen s.Follows ty core ∧ ∀ id, core ≠ .typedef id) ∧
    ((∃ cycle, s.trueType ty = .error cycle) ↔
      ∀ reached, ReflTransGen s.Follows ty reached → ∃ id, reached = .typedef id) ∧
    (∀ cycle, s.trueType ty = .error cycle ↔
      ∃ passed id, s.Passes ty passed (.typedef id) ∧ passed.Nodup ∧ id ∈ passed ∧
        cycle.name = (s.typedef id).name) ∧
    ∀ reached core, ReflTransGen s.Follows ty reached →
      (s.trueType reached = .ok core ↔ s.trueType ty = .ok core) := by
  obtain ⟨passed, last, hpasses, hnodup, hstops⟩ :=
    Passes.exists_stop n.typedefs (.here (s := s) ty) List.nodup_nil (Nat.le_add_right _ _)
  have htrue := hpasses.trueType_eq hnodup hstops
  refine ⟨⟨passed, last, hpasses, hnodup, nodup_length_le hnodup, hstops, fun steps hsteps => ?_⟩,
    fun core => trueType_eq_ok_iff.trans endsAt_iff, ?_, fun cycle => ?_,
    fun reached core hchain => ?_⟩
  · rw [hpasses.followTypedefs_nil_eq hnodup hstops hsteps, htrue]
  · constructor
    · rintro ⟨cycle, hcycle⟩ reached hreached
      by_contra hleft
      have hends := endsAt_iff.mpr ⟨hreached, not_exists.mp hleft⟩
      rw [trueType_eq_ok_iff.mpr hends] at hcycle
      cases hcycle
    · intro hnever
      obtain ⟨id, rfl⟩ := hnever last hpasses.chain
      exact ⟨_, htrue⟩
  · constructor
    · intro hcycle
      obtain ⟨id, rfl, hname⟩ := verdict_eq_error_iff.mp (htrue.symm.trans hcycle)
      exact ⟨passed, id, hpasses, hnodup, hstops id rfl, hname⟩
    · rintro ⟨passed, id, hpasses, hnodup, hmem, hname⟩
      have hstops : StopsAt passed (.typedef id) := by
        rintro other ⟨⟩
        exact hmem
      rw [hpasses.trueType_eq hnodup hstops]
      exact verdict_eq_error_iff.mpr ⟨id, rfl, hname⟩
  · rw [trueType_eq_ok_iff, trueType_eq_ok_iff]
    exact ⟨.of_chain hchain, fun h => h.of_reached hchain⟩

def lassoCensus : Census where
  records := 0
  enums := 0
  typedefs := 3
  services := 0

def loopId : Fin lassoCensus.typedefs := ⟨0, by decide⟩
def knotId : Fin lassoCensus.typedefs := ⟨1, by decide⟩
def strandId : Fin lassoCensus.typedefs := ⟨2, by decide⟩

/-- `Strand` leads into a cycle that it is not part of. -/
def lasso : Schema lassoCensus where
  records := .ofFn Fin.elim0
  enums := .ofFn Fin.elim0
  typedefs := #v[
    { name := "Loop", target := .typedef knotId },
    { name := "Knot", target := .typedef loopId },
    { name := "Strand", target := .typedef knotId }]
  services := .ofFn Fin.elim0

theorem trueType_lasso :
    lasso.trueType (.typedef strandId) = .error ⟨"Knot"⟩ ∧
      ∀ reached, ReflTransGen lasso.Follows (.typedef strandId) reached →
        ∃ id, reached = .typedef id := by
  obtain ⟨_, _, hnever, hcycle, _⟩ := trueType_exact lasso (.typedef strandId)
  have hpasses : lasso.Passes (.typedef strandId) [strandId, knotId, loopId] (.typedef knotId) :=
    .next (.next (.next (.here _)))
  have hknot : lasso.trueType (.typedef strandId) = .error ⟨"Knot"⟩ :=
    (hcycle _).mpr ⟨_, knotId, hpasses, by decide, by decide, rfl⟩
  exact ⟨hknot, hnever.mp ⟨_, hknot⟩⟩

end WireIdl.Schema

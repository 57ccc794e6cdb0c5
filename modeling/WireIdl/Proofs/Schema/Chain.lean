import Mathlib.Data.List.Chain
import WireIdl.Proofs.Schema.Typedef

/-! The chain of a service: the service and all its ancestors, each once and in order, so that the
chain of its parent goes on from the rest of it. -/

namespace WireIdl.Schema

open Relation

variable {n : Census} {s : Schema n}

def Extends (s : Schema n) (id parent : Fin n.services) : Prop :=
  (s.service id).extends? = some parent

/-- A chain in the making. The parent of a service is in it, unless the service is still open. -/
structure Ancestry (s : Schema n) (start : Fin n.services) (isOpen : Fin n.services → Prop)
    (chain : List (Fin n.services)) : Prop where
  start_mem : start ∈ chain
  nodup : chain.Nodup
  above : ∀ id ∈ chain, ReflTransGen s.Extends start id
  closed : ∀ id ∈ chain, ¬ isOpen id → ∀ parent, s.Extends id parent → parent ∈ chain

variable {start id : Fin n.services} {chain : List (Fin n.services)}

theorem Ancestry.close (h : s.Ancestry start (· = id) chain)
    (hparent : ∀ parent, s.Extends id parent → parent ∈ chain) :
    s.Ancestry start (fun _ => False) chain := by
  refine ⟨h.start_mem, h.nodup, h.above, fun other hother _ => ?_⟩
  by_cases hsame : other = id
  · rw [hsame]
    exact hparent
  · exact h.closed other hother hsame

theorem Ancestry.extend {parent : Fin n.services} (h : s.Ancestry start (· = id) chain)
    (hid : id ∈ chain) (hparent : s.Extends id parent) (hnew : parent ∉ chain) :
    s.Ancestry start (· = parent) (chain ++ [parent]) := by
  constructor
  case start_mem => exact List.mem_append_left [parent] h.start_mem
  case nodup =>
    rw [← List.concat_eq_append]
    exact h.nodup.concat hnew
  case above =>
    rw [List.forall_mem_append, List.forall_mem_singleton]
    exact ⟨h.above, (h.above id hid).tail hparent⟩
  case closed =>
    intro other hother hnotParent next hnext
    obtain hmem | hlast := List.mem_append.mp hother
    · by_cases hsame : other = id
      · rw [hsame, Extends, hparent] at hnext
        cases hnext
        exact List.mem_append_right chain List.mem_cons_self
      · exact List.mem_append_left [parent] (h.closed other hmem hsame next hnext)
    · exact absurd (List.mem_singleton.mp hlast) hnotParent

theorem ancestry_climb (steps : Nat) (h : s.Ancestry start (· = id) chain) (hid : id ∈ chain)
    (hsteps : n.services ≤ steps + chain.length) :
    s.Ancestry start (fun _ => False) (s.climb steps chain id) := by
  induction steps generalizing chain id with
  | zero =>
      -- The chain is as long as there are services, so it holds all of them.
      refine h.close fun parent _ => ?_
      by_contra hnew
      have hlength := nodup_length_le (List.nodup_cons.mpr ⟨hnew, h.nodup⟩)
      rw [List.length_cons] at hlength
      omega
  | succ steps ih =>
      rw [climb]
      cases hextends : (s.service id).extends? with
      | none =>
          refine h.close fun parent hparent => ?_
          rw [Extends, hextends] at hparent
          cases hparent
      | some parent =>
          dsimp only
          split
          · next hmem =>
              refine h.close fun other hother => ?_
              rw [Extends, hextends] at hother
              cases hother
              exact hmem
          · next hnew =>
              refine ih (h.extend hid hextends hnew)
                (List.mem_append_right chain List.mem_cons_self) ?_
              rw [List.length_append, List.length_singleton]
              omega

theorem ancestry_serviceChain (s : Schema n) (id : Fin n.services) :
    s.Ancestry id (fun _ => False) (s.serviceChain id) := by
  refine ancestry_climb n.services ⟨List.mem_cons_self, List.nodup_singleton id, ?_, ?_⟩
    List.mem_cons_self (Nat.le_add_right _ _)
  · rw [List.forall_mem_singleton]
  · intro other hother hne
    exact absurd (List.mem_singleton.mp hother) hne

theorem mem_serviceChain_iff {other : Fin n.services} :
    other ∈ s.serviceChain id ↔ ReflTransGen s.Extends id other := by
  have hancestry := ancestry_serviceChain s id
  constructor
  · exact hancestry.above other
  · intro habove
    induction habove with
    | refl => exact hancestry.start_mem
    | tail _ hparent ih => exact hancestry.closed _ ih not_false _ hparent

theorem serviceChain_subset (h : id ∈ s.serviceChain start) :
    s.serviceChain id ⊆ s.serviceChain start := by
  intro other hother
  rw [mem_serviceChain_iff] at h hother ⊢
  exact h.trans hother

/-! ### The order of a chain -/

variable {parent : Fin n.services}

theorem Extends.rightUnique : Relator.RightUnique s.Extends := by
  intro id parent other hparent hother
  rw [Extends, hparent] at hother
  exact Option.some.inj hother

/-- Climbing only adds to a chain, and what it adds is the parent of what stands before it. -/
theorem isChain_climb (steps : Nat) (hlinked : chain.IsChain s.Extends)
    (hlast : chain.getLast? = some id) :
    (s.climb steps chain id).IsChain s.Extends ∧ chain <+: s.climb steps chain id := by
  induction steps generalizing chain id with
  | zero => exact ⟨hlinked, List.prefix_rfl⟩
  | succ steps ih =>
      rw [climb]
      cases hextends : (s.service id).extends? with
      | none => exact ⟨hlinked, List.prefix_rfl⟩
      | some parent =>
          dsimp only
          split
          · exact ⟨hlinked, List.prefix_rfl⟩
          · have hmore : (chain ++ [parent]).IsChain s.Extends := by
              refine hlinked.append (List.isChain_singleton parent) fun last hmem next hnext => ?_
              rw [hlast] at hmem
              cases hmem
              cases hnext
              exact hextends
            obtain ⟨hall, hinitial⟩ := ih hmore List.getLast?_concat
            exact ⟨hall, (List.prefix_append chain [parent]).trans hinitial⟩

theorem isChain_serviceChain (s : Schema n) (id : Fin n.services) :
    (s.serviceChain id).IsChain s.Extends :=
  (isChain_climb n.services (List.isChain_singleton id) rfl).1

theorem exists_serviceChain_eq_cons (s : Schema n) (id : Fin n.services) :
    ∃ above, s.serviceChain id = id :: above := by
  obtain ⟨above, habove⟩ := (isChain_climb (s := s) n.services (List.isChain_singleton id) rfl).2
  exact ⟨above, habove.symm⟩

theorem serviceChain_ends (s : Schema n) (id : Fin n.services) :
    ∃ last, (s.serviceChain id).getLast? = some last ∧
      ((s.service last).extends? = none ∨ ∃ parent ∈ s.serviceChain id, s.Extends last parent) := by
  obtain ⟨above, habove⟩ := exists_serviceChain_eq_cons s id
  have hne : s.serviceChain id ≠ [] := by
    rw [habove]
    exact List.cons_ne_nil id above
  refine ⟨_, List.getLast?_eq_some_getLast hne, ?_⟩
  cases hextends : (s.service ((s.serviceChain id).getLast hne)).extends? with
  | none => exact .inl rfl
  | some parent =>
      exact .inr ⟨parent, (ancestry_serviceChain s id).closed _ (List.getLast_mem hne) not_false _
        hextends, hextends⟩

theorem mem_serviceChain_parent_iff (h : s.Extends id parent) :
    id ∈ s.serviceChain parent ↔ TransGen s.Extends id id := by
  rw [mem_serviceChain_iff]
  constructor
  · exact TransGen.head' h
  · intro hcycle
    obtain ⟨other, hother, hback⟩ := TransGen.head'_iff.mp hcycle
    cases Extends.rightUnique h hother
    exact hback

theorem mem_tail_serviceChain_iff {other : Fin n.services} (h : s.Extends id parent) :
    other ∈ (s.serviceChain id).tail ↔ other ∈ s.serviceChain parent ∧ other ≠ id := by
  obtain ⟨above, habove⟩ := exists_serviceChain_eq_cons s id
  have hnodup := (ancestry_serviceChain s id).nodup
  have hmem : other ∈ s.serviceChain id ↔ ReflTransGen s.Extends id other := mem_serviceChain_iff
  rw [habove] at hnodup hmem
  rw [habove, List.tail_cons, mem_serviceChain_iff]
  constructor
  · intro hother
    have hne : other ≠ id := by
      rintro rfl
      exact (List.nodup_cons.mp hnodup).1 hother
    obtain rfl | ⟨next, hnext, hrest⟩ := (hmem.mp (List.mem_cons_of_mem id hother)).cases_head
    · exact absurd rfl hne
    · cases Extends.rightUnique h hnext
      exact ⟨hrest, hne⟩
  · rintro ⟨hreach, hne⟩
    exact (List.mem_cons.mp (hmem.mpr (.head h hreach))).resolve_left hne

/-- Of two chains from one service, one goes on where the other ends. -/
theorem initial_or_initial {above others : List (Fin n.services)}
    (hchain : (id :: above).IsChain s.Extends) (hother : (id :: others).IsChain s.Extends) :
    (id :: above) <+: (id :: others) ∨ (id :: others) <+: (id :: above) := by
  induction above generalizing id others with
  | nil => exact .inl ((List.prefix_cons_inj id).mpr List.nil_prefix)
  | cons next above ih =>
      cases others with
      | nil => exact .inr ((List.prefix_cons_inj id).mpr List.nil_prefix)
      | cons other others =>
          rw [List.isChain_cons_cons] at hchain hother
          cases Extends.rightUnique hchain.1 hother.1
          exact (ih hchain.2 hother.2).imp (List.prefix_cons_inj id).mpr
            (List.prefix_cons_inj id).mpr

theorem tail_serviceChain_initial (h : s.Extends id parent) :
    (s.serviceChain id).tail <+: s.serviceChain parent := by
  obtain ⟨above, habove⟩ := exists_serviceChain_eq_cons s id
  obtain ⟨others, hothers⟩ := exists_serviceChain_eq_cons s parent
  have hlinked := isChain_serviceChain s id
  have hnodup := (ancestry_serviceChain s id).nodup
  have hsubset : (s.serviceChain id).tail ⊆ s.serviceChain parent :=
    fun other hother => ((mem_tail_serviceChain_iff h).mp hother).1
  rw [habove] at hlinked hnodup hsubset ⊢
  cases above with
  | nil => exact List.nil_prefix
  | cons next above =>
      rw [List.isChain_cons_cons] at hlinked
      cases Extends.rightUnique h hlinked.1
      have hlinkedParent := isChain_serviceChain s parent
      rw [hothers] at hlinkedParent hsubset ⊢
      obtain hinitial | hback := initial_or_initial hlinked.2 hlinkedParent
      · exact hinitial
      · -- The chain of the parent has all that stands above the service.
        have hlength := ((List.nodup_cons.mp hnodup).2.subperm hsubset).length_le
        rw [hback.eq_of_length_le hlength, List.tail_cons]

theorem tail_serviceChain_eq_iff (h : s.Extends id parent) :
    (s.serviceChain id).tail = s.serviceChain parent ↔ ¬ TransGen s.Extends id id := by
  rw [← mem_serviceChain_parent_iff h]
  constructor
  · intro hsame hmem
    rw [← hsame, mem_tail_serviceChain_iff h] at hmem
    exact hmem.2 rfl
  · intro hapart
    have hsubset : s.serviceChain parent ⊆ (s.serviceChain id).tail := by
      intro other hother
      refine (mem_tail_serviceChain_iff h).mpr ⟨hother, ?_⟩
      rintro rfl
      exact hapart hother
    have hlength := ((ancestry_serviceChain s parent).nodup.subperm hsubset).length_le
    exact (tail_serviceChain_initial h).eq_of_length_le hlength

end WireIdl.Schema

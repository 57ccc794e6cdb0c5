import WireIdl.Proofs.Value.Building

/-! The order of keys. Where values of a kind are told apart by their order, an ordered container
is walked from its smallest key to its largest. -/

namespace WireIdl

theorem Double.bits_injective : Function.Injective Double.bits := by
  intro a b h
  cases a
  cases b
  exact congrArg Double.mk h

namespace Value

/-- Among the values of a kind, the order is a strict one, and only what is the same has the same
place in it. -/
structure Ranked (kind : Value → Prop) : Prop where
  swap : ∀ {a b : Value}, kind a → kind b → a.compare b = .lt → b.compare a = .gt
  trans : ∀ {a b c : Value}, kind a → kind b → kind c → a.compare b = .gt → b.compare c = .gt →
    a.compare c = .gt
  eq : ∀ {a b : Value}, kind a → kind b → a.compare b = .eq → a.same b = true

section Ranked

variable {kind : Value → Prop}

/-- Values that are compared by a key. -/
theorem ranked_of_key {κ ι : Type} [Ord ι] [Std.TransOrd ι] [Std.LawfulEqOrd ι]
    (make : κ → Value) {key : κ → ι} (hkey : Function.Injective key)
    (hcompare : ∀ a b, (make a).compare (make b) = Ord.compare (key a) (key b))
    (hproper : ∀ {v}, kind v → v.Proper) (hkind : ∀ {v}, kind v → ∃ a, make a = v) :
    Ranked kind where
  swap ha hb h := by
    obtain ⟨a, rfl⟩ := hkind ha
    obtain ⟨b, rfl⟩ := hkind hb
    rw [hcompare] at h ⊢
    exact Std.OrientedCmp.gt_of_lt h
  trans ha hb hc h h' := by
    obtain ⟨a, rfl⟩ := hkind ha
    obtain ⟨b, rfl⟩ := hkind hb
    obtain ⟨c, rfl⟩ := hkind hc
    rw [hcompare] at h h' ⊢
    exact Std.TransCmp.gt_trans h h'
  eq ha hb h := by
    have hself := (tells_proper (hproper ha) (hproper ha)).mpr (.refl _)
    obtain ⟨a, rfl⟩ := hkind ha
    obtain ⟨b, rfl⟩ := hkind hb
    rw [hcompare] at h
    rw [← hkey (Std.LawfulEqOrd.eq_of_compare h)]
    exact hself

theorem pairwise_insertBefore (hkind : Ranked kind) {part : Value} {parts : List Value}
    (hpart : kind part) (hparts : ∀ other ∈ parts, kind other)
    (hnew : ∀ other ∈ parts, part.compare other ≠ .eq)
    (h : parts.Pairwise fun a b => b.compare a = .gt) :
    (insertBefore id part parts).Pairwise fun a b => b.compare a = .gt := by
  induction parts with
  | nil => exact List.pairwise_singleton _ part
  | cons other parts ih =>
      rw [List.forall_mem_cons] at hparts hnew
      rw [List.pairwise_cons] at h
      rw [insertBefore]
      split
      · next hlt =>
          have hother := hkind.swap hpart hparts.1 (beq_iff_eq.mp hlt)
          refine List.pairwise_cons.mpr ⟨?_, List.pairwise_cons.mpr h⟩
          rw [List.forall_mem_cons]
          refine ⟨hother, fun last hlast => ?_⟩
          exact hkind.trans (hparts.2 last hlast) hparts.1 hpart (h.1 last hlast) hother
      · next hlt =>
          have hother : part.compare other = .gt := by
            cases hcompare : part.compare other with
            | lt => exact absurd (beq_iff_eq.mpr hcompare) hlt
            | eq => exact absurd hcompare hnew.1
            | gt => rfl
          refine List.pairwise_cons.mpr ⟨fun last hlast => ?_, ih hparts.2 hnew.2 h.2⟩
          have hperm := insertBefore_perm id part parts
          obtain rfl | hlast := List.mem_cons.mp (hperm.mem_iff.mp hlast)
          · exact hother
          · exact h.1 last hlast

theorem pairwise_insertItem (hkind : Ranked kind) {item : Value} {items : List Value}
    (hitem : kind item) (hitems : ∀ other ∈ items, kind other)
    (h : items.Pairwise fun a b => b.compare a = .gt) :
    (insertItem .ordered items item).Pairwise fun a b => b.compare a = .gt := by
  rw [insertItem]
  split
  · exact h
  · next hany =>
      refine pairwise_insertBefore hkind hitem hitems (fun other hother heq => hany ?_) h
      exact List.any_eq_true.mpr ⟨other, hother, hkind.eq hitem (hitems other hother) heq⟩

theorem sorted_foldl (hkind : Ranked kind) {items : List Value} (hitems : ∀ item ∈ items, kind item)
    (hproper : ∀ item ∈ items, item.Proper) :
    (items.foldl (insertItem .ordered) []).Pairwise fun a b => b.compare a = .gt := by
  induction items using List.reverseRecOn with
  | nil => exact .nil
  | append_singleton items item ih =>
      rw [List.forall_mem_append, List.forall_mem_singleton] at hitems hproper
      have hkeeps := keeps_foldl .ordered tells_proper hproper.1
      rw [List.foldl_append]
      refine pairwise_insertItem hkind hitems.2 (fun other hother => ?_) (ih hitems.1 hproper.1)
      exact hitems.1 other (hkeeps.mem other hother)

theorem same_eq_false_of_not_alike {a b : Value} (ha : a.Proper) (hb : b.Proper)
    (h : ¬ Alike True a b) : a.same b = false := by
  rw [← tells_proper ha hb, Bool.not_eq_true] at h
  exact h

/-- A set that is built is walked as it would be if it were built from what it holds. -/
theorem pairwise_before_foldl (form : KeyedForm) (hkind : Ranked kind) {items : List Value}
    (hitems : ∀ item ∈ items, kind item) (hproper : ∀ item ∈ items, item.Proper) :
    (items.foldl (insertItem form) []).Pairwise (Before form) := by
  have hkeeps := keeps_foldl form tells_proper hproper
  have hapart : (items.foldl (insertItem form) []).Pairwise fun a b =>
      a.same b = false ∧ b.same a = false := by
    refine hkeeps.apart.imp_of_mem fun {a b} ha hb hne => ?_
    have hpa := hproper a (hkeeps.mem a ha)
    have hpb := hproper b (hkeeps.mem b hb)
    exact ⟨same_eq_false_of_not_alike hpa hpb hne,
      same_eq_false_of_not_alike hpb hpa fun halike => hne halike.symm⟩
  cases form with
  | hashed => exact hapart.imp fun hne => ⟨hne.1, hne.2, fun hform => by cases hform⟩
  | ordered =>
      have hsorted := sorted_foldl hkind hitems hproper
      exact (hapart.and hsorted).imp fun h => ⟨h.1.1, h.1.2, fun _ => h.2⟩

theorem pairwise_before_keys (form : KeyedForm) (hkind : Ranked kind)
    {entries : List (Value × Value)} (hkeys : ∀ entry ∈ entries, kind entry.1)
    (hproper : ∀ entry ∈ entries, entry.1.Proper) :
    (entries.foldl (insertEntry form) []).Pairwise fun a b => Before form a.1 b.1 := by
  rw [← List.pairwise_map (f := Prod.fst), keys_foldl]
  exact pairwise_before_foldl form hkind (List.forall_mem_map.mpr hkeys)
    (List.forall_mem_map.mpr hproper)

end Ranked

theorem length_foldl_insertItem_le (form : KeyedForm) (items : List Value) :
    (items.foldl (insertItem form) []).length ≤ items.length := by
  induction items using List.reverseRecOn with
  | nil => exact Nat.le_refl 0
  | append_singleton items item ih =>
      rw [List.foldl_append, List.foldl_cons, List.foldl_nil, List.length_append, insertItem]
      split
      · exact Nat.le_add_right_of_le ih
      · rw [(addPart_perm form id _ item).length_eq]
        exact Nat.succ_le_succ ih

theorem length_foldl_insertEntry_le (form : KeyedForm) (entries : List (Value × Value)) :
    (entries.foldl (insertEntry form) []).length ≤ entries.length := by
  have hkeys := length_foldl_insertItem_le form (entries.map (·.1))
  rw [List.length_map] at hkeys
  rw [← List.length_map Prod.fst, keys_foldl]
  exact hkeys

end Value

end WireIdl

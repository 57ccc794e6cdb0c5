import Mathlib.Data.List.Induction
import WireIdl.Proofs.Value.Identity

/-! What sets and maps are made of. Whichever way a container finds its keys, and in whichever order
its parts come, it keeps one of each group of parts that are alike. -/

namespace WireIdl.Value

section Insertion

variable {α : Type} (form : KeyedForm) (key : α → Value)

theorem insertBefore_perm (part : α) (parts : List α) :
    (insertBefore key part parts).Perm (part :: parts) := by
  induction parts with
  | nil => exact .refl _
  | cons other parts ih =>
      rw [insertBefore]
      split
      · exact .refl _
      · exact (ih.cons other).trans (.swap part other parts)

theorem addPart_perm (parts : List α) (part : α) :
    (addPart form key parts part).Perm (part :: parts) := by
  cases form with
  | hashed => exact List.perm_append_comm
  | ordered => exact insertBefore_perm key part parts

theorem map_insertBefore (part : α) (parts : List α) :
    (insertBefore key part parts).map key = insertBefore id (key part) (parts.map key) := by
  induction parts with
  | nil => rfl
  | cons other parts ih =>
      rw [insertBefore, List.map_cons, insertBefore]
      split
      · rw [if_pos ‹_›]
        rfl
      · rw [if_neg ‹_›, List.map_cons, ih]

theorem map_addPart (parts : List α) (part : α) :
    (addPart form key parts part).map key = addPart form id (parts.map key) (key part) := by
  cases form with
  | hashed => simp [addPart]
  | ordered => exact map_insertBefore key part parts

end Insertion

/-- Among the values of a kind, being the same says what being alike says. -/
def Tells (held : Prop) (kind : Value → Prop) : Prop :=
  ∀ {a b : Value}, kind a → kind b → (a.same b = true ↔ Alike held a b)

theorem tells_proper : Tells True Proper :=
  fun ha hb => ha.decided hb

theorem not_alike_of_same_eq_false {a b : Value} (ha : a.Proper) (hb : b.Proper)
    (h : a.same b = false) : ¬ Alike True a b := by
  rw [← tells_proper ha hb, h]
  exact Bool.false_ne_true

/-- What a container keeps of the parts that came. -/
structure Keeps (held : Prop) (items kept : List Value) : Prop where
  mem : ∀ item ∈ kept, item ∈ items
  cover : ∀ item ∈ items, ∃ other ∈ kept, Alike held item other
  apart : kept.Pairwise fun a b => ¬ Alike held a b

section Keeps

variable {held : Prop} {kind : Value → Prop} {items kept : List Value}

theorem Keeps.insertItem (form : KeyedForm) (hkind : Tells held kind) {item : Value}
    (hitem : kind item) (hitems : ∀ other ∈ items, kind other) (h : Keeps held items kept) :
    Keeps held (items ++ [item]) (insertItem form kept item) := by
  have hsame : ∀ other ∈ kept, (item.same other = true ↔ Alike held item other) :=
    fun other hother => hkind hitem (hitems other (h.mem other hother))
  rw [Value.insertItem]
  split
  · next hany =>
      obtain ⟨other, hother, hold⟩ := List.any_eq_true.mp hany
      refine ⟨fun x hx => List.mem_append_left [item] (h.mem x hx), ?_, h.apart⟩
      rw [List.forall_mem_append, List.forall_mem_singleton]
      exact ⟨h.cover, other, hother, (hsame other hother).mp hold⟩
  · next hany =>
      have hperm : (addPart form id kept item).Perm (item :: kept) := addPart_perm form id kept item
      constructor
      case mem =>
        intro x hx
        obtain rfl | hx := List.mem_cons.mp (hperm.mem_iff.mp hx)
        · exact List.mem_append_right items List.mem_cons_self
        · exact List.mem_append_left [item] (h.mem x hx)
      case cover =>
        rw [List.forall_mem_append, List.forall_mem_singleton]
        constructor
        · intro x hx
          obtain ⟨other, hother, halike⟩ := h.cover x hx
          exact ⟨other, hperm.mem_iff.mpr (List.mem_cons_of_mem item hother), halike⟩
        · exact ⟨item, hperm.mem_iff.mpr List.mem_cons_self, .refl item⟩
      case apart =>
        rw [hperm.pairwise_iff fun hne halike => hne halike.symm, List.pairwise_cons]
        refine ⟨fun other hother halike => hany ?_, h.apart⟩
        exact List.any_eq_true.mpr ⟨other, hother, (hsame other hother).mpr halike⟩

theorem keeps_foldl (form : KeyedForm) (hkind : Tells held kind)
    (hitems : ∀ item ∈ items, kind item) :
    Keeps held items (items.foldl (Value.insertItem form) []) := by
  induction items using List.reverseRecOn with
  | nil => exact ⟨nofun, nofun, .nil⟩
  | append_singleton items item ih =>
      rw [List.forall_mem_append, List.forall_mem_singleton] at hitems
      rw [List.foldl_append]
      exact (ih hitems.1).insertItem form hkind hitems.2 hitems.1

theorem Keeps.matched {others kept' : List Value} (h : Keeps held items kept)
    (h' : Keeps held others kept') (hitems : ∀ a ∈ items, ∃ b ∈ others, Alike held a b)
    (hothers : ∀ b ∈ others, ∃ a ∈ items, Alike held a b) : Matched (Alike held) kept kept' := by
  refine .of_covers ?_ ?_ ?_ ?_
  · intro a ha
    obtain ⟨b, hb, hab⟩ := hitems a (h.mem a ha)
    obtain ⟨c, hc, hbc⟩ := h'.cover b hb
    exact ⟨c, hc, hab.trans hbc⟩
  · intro b hb
    obtain ⟨a, ha, hab⟩ := hothers b (h'.mem b hb)
    obtain ⟨c, hc, hac⟩ := h.cover a ha
    exact ⟨c, hc, hac.symm.trans hab⟩
  · exact h.apart.imp fun hne b hab hab' => hne (hab.trans hab'.symm)
  · exact h'.apart.imp fun hne a hab hab' => hne (hab.symm.trans hab')

end Keeps

section Sets

variable {form other : KeyedForm} {items others : List Value}

theorem proper_setOf (h : ∀ item ∈ items, item.Proper) : (setOf form items).Proper := by
  have hkeeps := keeps_foldl form tells_proper h
  exact .set hkeeps.apart fun item hmem => h item (hkeeps.mem item hmem)

theorem hash_setOf_congr (h : ∀ item ∈ items, item.Proper)
    (hmem : ∀ item, item ∈ items ↔ item ∈ others) :
    (setOf form items).hash = (setOf other others).hash := by
  have hothers : ∀ item ∈ others, item.Proper := fun item hitem => h item ((hmem item).mpr hitem)
  have hmatched := (keeps_foldl form tells_proper h).matched
    (keeps_foldl other tells_proper hothers)
    (fun a ha => ⟨a, (hmem a).mp ha, .refl a⟩)
    (fun b hb => ⟨b, (hmem b).mpr hb, .refl b⟩)
  exact (Alike.of_matched nofun (hmatched.imp fun _ _ halike => halike.loosen)).hash_eq

end Sets

section Maps

variable {form : KeyedForm} {entries : List (Value × Value)}

theorem keys_insertEntry (entries : List (Value × Value)) (entry : Value × Value) :
    (insertEntry form entries entry).map (·.1) = insertItem form (entries.map (·.1)) entry.1 := by
  rw [insertEntry, insertItem, List.any_map]
  split
  · rw [if_pos ‹_›, List.map_map]
    refine List.map_congr_left fun old _ => ?_
    simp only [Function.comp_apply]
    split <;> rfl
  · rw [if_neg ‹_›]
    exact map_addPart form Prod.fst entries entry

theorem keys_foldl (start entries : List (Value × Value)) :
    (entries.foldl (insertEntry form) start).map (·.1) =
      (entries.map (·.1)).foldl (insertItem form) (start.map (·.1)) := by
  induction entries generalizing start with
  | nil => rfl
  | cons entry entries ih =>
      rw [List.foldl_cons, ih, keys_insertEntry, List.map_cons, List.foldl_cons]

theorem keeps_keys {held : Prop} {kind : Value → Prop} (hkind : Tells held kind)
    (hkeys : ∀ entry ∈ entries, kind entry.1) :
    Keeps held (entries.map (·.1)) ((entries.foldl (insertEntry form) []).map (·.1)) := by
  rw [keys_foldl]
  exact keeps_foldl form hkind (List.forall_mem_map.mpr hkeys)

theorem value_of_mem_insertEntry {entry old : Value × Value}
    (h : old ∈ insertEntry form entries entry) : old.2 = entry.2 ∨ old ∈ entries := by
  rw [insertEntry] at h
  split at h
  · obtain ⟨before, hbefore, rfl⟩ := List.mem_map.mp h
    split
    · exact .inl rfl
    · exact .inr hbefore
  · obtain rfl | hmem := List.mem_cons.mp ((addPart_perm form Prod.fst entries entry).mem_iff.mp h)
    · exact .inl rfl
    · exact .inr hmem

theorem forall_values_foldl {p : Value → Prop} {start : List (Value × Value)}
    (hstart : ∀ entry ∈ start, p entry.2) (h : ∀ entry ∈ entries, p entry.2) :
    ∀ entry ∈ entries.foldl (insertEntry form) start, p entry.2 := by
  induction entries generalizing start with
  | nil => exact hstart
  | cons entry entries ih =>
      rw [List.forall_mem_cons] at h
      refine ih (fun old hold => ?_) h.2
      obtain hnew | hmem := value_of_mem_insertEntry hold
      · rw [hnew]
        exact h.1
      · exact hstart old hmem

theorem forall_keys_foldl {p : Value → Prop} (h : ∀ entry ∈ entries, p entry.1)
    (hkind : ∀ entry ∈ entries, entry.1.Proper) :
    ∀ entry ∈ entries.foldl (insertEntry form) [], p entry.1 := by
  intro entry hmem
  obtain ⟨old, hold, hkey⟩ := List.mem_map.mp
    ((keeps_keys tells_proper hkind).mem entry.1 (List.mem_map_of_mem hmem))
  rw [← hkey]
  exact h old hold

theorem proper_mapOf (hkeys : ∀ entry ∈ entries, entry.1.Proper)
    (hvalues : ∀ entry ∈ entries, entry.2.Proper) : (mapOf form entries).Proper :=
  .map (List.pairwise_map.mp (keeps_keys tells_proper hkeys).apart)
    (forall_keys_foldl hkeys hkeys) (forall_values_foldl nofun hvalues)

theorem foldl_insertEntry_perm (hkeys : ∀ entry ∈ entries, entry.1.Proper)
    (hapart : entries.Pairwise fun a b => ¬ Alike True a.1 b.1) :
    (entries.foldl (insertEntry form) []).Perm entries := by
  induction entries using List.reverseRecOn with
  | nil => exact .refl _
  | append_singleton entries entry ih =>
      rw [List.forall_mem_append, List.forall_mem_singleton] at hkeys
      rw [List.pairwise_append] at hapart
      have hkept := ih hkeys.1 hapart.1
      rw [List.foldl_append, List.foldl_cons, List.foldl_nil, insertEntry, if_neg]
      · refine (addPart_perm form Prod.fst _ entry).trans ((hkept.cons entry).trans ?_)
        exact (List.perm_append_singleton entry entries).symm
      · intro hany
        obtain ⟨old, hold, hsame⟩ := List.any_eq_true.mp hany
        have hmem := hkept.mem_iff.mp hold
        have halike := (tells_proper hkeys.2 (hkeys.1 old hmem)).mp hsame
        exact hapart.2.2 old hmem entry List.mem_cons_self halike.symm

theorem hash_mapOf_of_perm {other : KeyedForm} {others : List (Value × Value)}
    (hkeys : ∀ entry ∈ entries, entry.1.Proper)
    (hapart : entries.Pairwise fun a b => ¬ Alike True a.1 b.1) (hperm : entries.Perm others) :
    (mapOf form entries).hash = (mapOf other others).hash := by
  have hothers : ∀ entry ∈ others, entry.1.Proper :=
    fun entry hmem => hkeys entry (hperm.mem_iff.mpr hmem)
  have hothersApart : others.Pairwise fun a b => ¬ Alike True a.1 b.1 :=
    (hperm.pairwise_iff fun hne halike => hne halike.symm).mp hapart
  have hkept : (entries.foldl (insertEntry form) []).Perm
      (others.foldl (insertEntry other) []) :=
    (foldl_insertEntry_perm hkeys hapart).trans
      (hperm.trans (foldl_insertEntry_perm hothers hothersApart).symm)
  have hmatched : Matched (AlikeEntry False) (entries.foldl (insertEntry form) [])
      (others.foldl (insertEntry other) []) :=
    ⟨_, hkept, List.forall₂_same.mpr fun entry _ => ⟨.refl entry.1, .refl entry.2⟩⟩
  exact (Alike.of_matchedEntries nofun hmatched).hash_eq

end Maps

end WireIdl.Value

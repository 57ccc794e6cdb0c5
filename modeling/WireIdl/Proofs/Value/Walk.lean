import WireIdl.Proofs.Lists
import WireIdl.Value.Keyed

/-! The order in which sets and maps are walked. A container that is built from its own parts, in
the order in which it is walked, is that container again. -/

namespace WireIdl.Value

/-- Two keys of one container, the first walked before the second. -/
structure Before (form : KeyedForm) (a b : Value) : Prop where
  not_same : a.same b = false
  not_same_symm : b.same a = false
  ordered : form = .ordered → b.compare a = .gt

section Insertion

variable {α : Type} {form : KeyedForm} {key : α → Value}

theorem insertBefore_of_largest {parts : List α} {part : α}
    (h : ∀ other ∈ parts, (key part).compare (key other) = .gt) :
    insertBefore key part parts = parts ++ [part] := by
  induction parts with
  | nil => rfl
  | cons other parts ih =>
      rw [List.forall_mem_cons] at h
      rw [insertBefore, h.1, ih h.2]
      rfl

theorem addPart_of_before {parts : List α} {part : α}
    (h : ∀ other ∈ parts, Before form (key other) (key part)) :
    addPart form key parts part = parts ++ [part] := by
  cases form with
  | hashed => rfl
  | ordered => exact insertBefore_of_largest fun other hmem => (h other hmem).ordered rfl

theorem any_same_of_before {parts : List α} {part : α}
    (h : ∀ other ∈ parts, Before form (key other) (key part)) :
    parts.any (fun other => (key part).same (key other)) = false := by
  rw [List.any_eq_false]
  intro other hmem
  rw [(h other hmem).not_same_symm]
  decide

theorem foldl_insert_of_pairwise {insert : List α → α → List α}
    (hinsert : ∀ parts part, (∀ other ∈ parts, Before form (key other) (key part)) →
      insert parts part = parts ++ [part])
    (done : List α) {parts : List α}
    (h : (done ++ parts).Pairwise fun a b => Before form (key a) (key b)) :
    parts.foldl insert done = done ++ parts := by
  induction parts generalizing done with
  | nil => exact (List.append_nil done).symm
  | cons part parts ih =>
      have hbefore : ∀ other ∈ done, Before form (key other) (key part) :=
        fun other hmem => (List.pairwise_append.mp h).2.2 other hmem part List.mem_cons_self
      rw [List.append_cons] at h
      rw [List.foldl_cons, hinsert done part hbefore, ih _ h, ← List.append_cons]

end Insertion

theorem setOf_of_pairwise {form : KeyedForm} {items : List Value}
    (h : items.Pairwise (Before form)) : setOf form items = .set form items := by
  have hinsert : ∀ parts part, (∀ other ∈ parts, Before form (id other) (id part)) →
      insertItem form parts part = parts ++ [part] := by
    intro parts part hbefore
    have hnew := any_same_of_before hbefore
    rw [insertItem]
    exact (if_neg (by simpa using hnew)).trans (addPart_of_before hbefore)
  rw [setOf, foldl_insert_of_pairwise hinsert [] h]
  rfl

theorem mapOf_of_pairwise {form : KeyedForm} {entries : List (Value × Value)}
    (h : entries.Pairwise fun a b => Before form a.1 b.1) :
    mapOf form entries = .map form entries := by
  have hinsert : ∀ parts part, (∀ other ∈ parts, Before form (Prod.fst other) (Prod.fst part)) →
      insertEntry form parts part = parts ++ [part] := by
    intro parts part hbefore
    have hnew := any_same_of_before hbefore
    rw [insertEntry]
    exact (if_neg (by simpa using hnew)).trans (addPart_of_before hbefore)
  rw [mapOf, foldl_insert_of_pairwise hinsert [] h]
  rfl

/-- The same value, its hashed containers walked in other orders. Keys stay as they are, since what
is found by hash cannot be a key. -/
inductive Rewalk : Value → Value → Prop where
  | refl (v : Value) : Rewalk v v
  | option {v w : Value} (part : Rewalk v w) : Rewalk (.option (some v)) (.option (some w))
  | pointer {form : PointerForm} {v w : Value} (part : Rewalk v w) :
      Rewalk (.pointer form v) (.pointer form w)
  | seq {form : SeqForm} {items others : List Value} (length : items.length = others.length)
      (parts : ∀ pair ∈ items.zip others, Rewalk pair.1 pair.2) :
      Rewalk (.seq form items) (.seq form others)
  | set {items others : List Value} (walk : items.Perm others) :
      Rewalk (.set .hashed items) (.set .hashed others)
  | map {form : KeyedForm} {entries middle others : List (Value × Value)}
      (walk : entries.Perm middle) (fixed : form = .ordered → middle = entries)
      (keys : middle.map (·.1) = others.map (·.1))
      (parts : ∀ pair ∈ middle.zip others, Rewalk pair.1.2 pair.2.2) :
      Rewalk (.map form entries) (.map form others)
  | record {slots others : Slots} (present : slots.map (·.isSome) = others.map (·.isSome))
      (parts : ∀ pair ∈ slots.zip others, ∀ v ∈ pair.1, ∀ w ∈ pair.2, Rewalk v w) :
      Rewalk (.record slots) (.record others)

theorem Rewalk.of_seq {form : SeqForm} {items : List Value} {w : Value}
    (h : (Value.seq form items).Rewalk w) :
    ∃ others, w = .seq form others ∧ List.Forall₂ Rewalk items others := by
  cases h with
  | refl => exact ⟨items, rfl, List.forall₂_same.mpr fun v _ => .refl v⟩
  | seq hlength hparts =>
      exact ⟨_, rfl, List.forall₂_iff_zip.mpr ⟨hlength, fun hmem => hparts _ hmem⟩⟩

theorem Rewalk.of_set {form : KeyedForm} {items : List Value} {w : Value}
    (h : (Value.set form items).Rewalk w) : ∃ others, w = .set form others ∧ items.Perm others := by
  cases h with
  | refl => exact ⟨items, rfl, .refl items⟩
  | set hwalk => exact ⟨_, rfl, hwalk⟩

theorem Rewalk.of_map {form : KeyedForm} {entries : List (Value × Value)} {w : Value}
    (h : (Value.map form entries).Rewalk w) :
    ∃ middle others, w = .map form others ∧ entries.Perm middle ∧
      List.Forall₂ (fun a b => a.1 = b.1 ∧ a.2.Rewalk b.2) middle others := by
  cases h with
  | refl =>
      exact ⟨entries, entries, rfl, .refl entries,
        List.forall₂_same.mpr fun entry _ => ⟨rfl, .refl entry.2⟩⟩
  | map hwalk _ hkeys hparts =>
      obtain ⟨hlength, hpairs⟩ := List.forall₂_iff_zip.mp (map_eq_map_iff_forall₂.mp hkeys)
      exact ⟨_, _, rfl, hwalk,
        List.forall₂_iff_zip.mpr ⟨hlength, fun hmem => ⟨hpairs hmem, hparts _ hmem⟩⟩⟩

theorem forall₂_slots {R : Value → Value → Prop} {slots others : Slots}
    (present : slots.map (·.isSome) = others.map (·.isSome))
    (parts : ∀ pair ∈ slots.zip others, ∀ v ∈ pair.1, ∀ w ∈ pair.2, R v w) :
    List.Forall₂ (Option.Rel R) slots others := by
  obtain ⟨hlength, hpairs⟩ := List.forall₂_iff_zip.mp (map_eq_map_iff_forall₂.mp present)
  refine List.forall₂_iff_zip.mpr ⟨hlength, fun {slot other} hmem => ?_⟩
  have hboth := hpairs hmem
  cases slot with
  | none =>
      cases other with
      | none => exact .none
      | some w => cases hboth
  | some v =>
      cases other with
      | none => cases hboth
      | some w => exact .some (parts _ hmem v rfl w rfl)

theorem Rewalk.of_record {slots : Slots} {w : Value} (h : (Value.record slots).Rewalk w) :
    ∃ others, w = .record others ∧ List.Forall₂ (Option.Rel Rewalk) slots others := by
  cases h with
  | refl =>
      refine ⟨slots, rfl, List.forall₂_same.mpr fun slot _ => ?_⟩
      cases slot with
      | none => exact .none
      | some v => exact .some (.refl v)
  | record hpresent hparts => exact ⟨_, rfl, forall₂_slots hpresent hparts⟩

theorem itemsWithin_iff {as bs : List Value} :
    itemsWithin as bs = true ↔ ∀ a ∈ as, ∃ b ∈ bs, a.same b = true := by
  induction as with
  | nil => simp [itemsWithin]
  | cons a as ih =>
      rw [itemsWithin, Bool.and_eq_true, ih, List.any_eq_true, List.forall_mem_cons]

theorem entriesWithin_iff {as bs : List (Value × Value)} :
    entriesWithin as bs = true ↔
      ∀ a ∈ as, ∃ b, bs.find? (a.1.same ·.1) = some b ∧ a.2.same b.2 = true := by
  induction as with
  | nil => simp [entriesWithin]
  | cons a as ih =>
      rw [entriesWithin, Bool.and_eq_true, ih, List.forall_mem_cons]
      refine and_congr_left fun _ => ?_
      cases bs.find? (a.1.same ·.1) with
      | none => simp
      | some b => simp

theorem sameItems_iff {as bs : List Value} :
    sameItems as bs = true ↔ List.Forall₂ (fun a b => a.same b = true) as bs := by
  induction as generalizing bs with
  | nil => cases bs <;> simp [sameItems]
  | cons a as ih =>
      cases bs with
      | nil => simp [sameItems]
      | cons b bs => rw [sameItems, Bool.and_eq_true, ih, List.forall₂_cons]

theorem sameSlots_iff {as bs : Slots} :
    sameSlots as bs = true ↔ List.Forall₂ (Option.Rel fun a b => a.same b = true) as bs := by
  induction as generalizing bs with
  | nil => cases bs <;> simp [sameSlots]
  | cons a as ih =>
      cases bs with
      | nil => cases a <;> simp [sameSlots]
      | cons b bs =>
          cases a <;> cases b <;> simp [sameSlots, ih]

theorem find?_key {entries : List (Value × Value)} {entry : Value × Value}
    (hkeys : (entries.map (·.1)).Pairwise fun a b => a.same b = false ∧ b.same a = false)
    (hmem : entry ∈ entries) (hself : entry.1.same entry.1 = true) :
    entries.find? (entry.1.same ·.1) = some entry := by
  induction entries with
  | nil => cases hmem
  | cons first entries ih =>
      rw [List.map_cons, List.pairwise_cons] at hkeys
      cases hmem with
      | head => exact List.find?_cons_of_pos hself
      | tail _ hmem =>
          have hother := (hkeys.1 entry.1 (List.mem_map_of_mem hmem)).2
          rw [List.find?_cons_of_neg (by simpa using hother)]
          exact ih hkeys.2 hmem

theorem pairwise_keys_of_perm {form : KeyedForm} {entries middle others : List (Value × Value)}
    (h : entries.Pairwise fun a b => Before form a.1 b.1) (hperm : entries.Perm middle)
    (hkeys : middle.map (·.1) = others.map (·.1)) :
    (others.map (·.1)).Pairwise fun a b => a.same b = false ∧ b.same a = false := by
  rw [← hkeys, ← (hperm.map _).pairwise_iff And.symm, List.pairwise_map]
  exact h.imp fun hbefore => ⟨hbefore.not_same, hbefore.not_same_symm⟩

end WireIdl.Value

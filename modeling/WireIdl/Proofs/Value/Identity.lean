import WireIdl.Proofs.Value.Alike

/-! Equality and hash of values. Of the values that containers can make, two are the same exactly if
they are alike, so being the same is an equivalence; and values that are alike have one hash. -/

namespace WireIdl.Value

/-- Values that containers can make: no set has two elements that are alike, and no map two such
keys. -/
inductive Proper : Value → Prop where
  | leaf {v : Value} (leaf : v.IsLeaf) : Proper v
  | option {v : Value} (part : Proper v) : Proper (.option (some v))
  | pointer {form : PointerForm} {v : Value} (part : Proper v) : Proper (.pointer form v)
  | seq {form : SeqForm} {items : List Value} (parts : ∀ item ∈ items, Proper item) :
      Proper (.seq form items)
  | set {form : KeyedForm} {items : List Value} (apart : items.Pairwise fun a b => ¬ Alike True a b)
      (parts : ∀ item ∈ items, Proper item) : Proper (.set form items)
  | map {form : KeyedForm} {entries : List (Value × Value)}
      (apart : entries.Pairwise fun a b => ¬ Alike True a.1 b.1)
      (keys : ∀ entry ∈ entries, Proper entry.1) (values : ∀ entry ∈ entries, Proper entry.2) :
      Proper (.map form entries)
  | record {slots : Slots} (parts : ∀ slot ∈ slots, ∀ v ∈ slot, Proper v) : Proper (.record slots)

section Parts

variable {v : Value} {items : List Value} {entries : List (Value × Value)} {slots : Slots}

theorem Proper.of_option (h : (Value.option (some v)).Proper) : v.Proper := by
  cases h with
  | leaf hleaf => cases hleaf
  | option hpart => exact hpart

theorem Proper.of_pointer {form : PointerForm} (h : (Value.pointer form v).Proper) :
    v.Proper := by
  cases h with
  | leaf hleaf => cases hleaf
  | pointer hpart => exact hpart

theorem Proper.of_seq {form : SeqForm} (h : (Value.seq form items).Proper) :
    ∀ item ∈ items, item.Proper := by
  cases h with
  | leaf hleaf => cases hleaf
  | seq hparts => exact hparts

theorem Proper.of_set {form : KeyedForm} (h : (Value.set form items).Proper) :
    items.Pairwise (fun a b => ¬ Alike True a b) ∧ ∀ item ∈ items, item.Proper := by
  cases h with
  | leaf hleaf => cases hleaf
  | set hapart hparts => exact ⟨hapart, hparts⟩

theorem Proper.of_map {form : KeyedForm} (h : (Value.map form entries).Proper) :
    entries.Pairwise (fun a b => ¬ Alike True a.1 b.1) ∧
      ∀ entry ∈ entries, entry.1.Proper ∧ entry.2.Proper := by
  cases h with
  | leaf hleaf => cases hleaf
  | map hapart hkeys hvalues =>
      exact ⟨hapart, fun entry hmem => ⟨hkeys entry hmem, hvalues entry hmem⟩⟩

theorem Proper.of_record (h : (Value.record slots).Proper) :
    ∀ slot ∈ slots, ∀ v ∈ slot, v.Proper := by
  cases h with
  | leaf hleaf => cases hleaf
  | record hparts => exact hparts

end Parts

section Same

variable {v w : Value}

theorem rank_eq_of_same (h : v.same w = true) : v.rank = w.rank := by
  unfold same at h
  split at h
  case h_18 => cases h
  all_goals rfl

theorem same_leaf_iff (hv : v.IsLeaf) : v.same w = true ↔ v = w := by
  constructor
  · intro h
    unfold same at h
    split at h
    all_goals simp_all [IsLeaf]
  · intro h
    subst h
    cases v with
    | option v =>
        cases v with
        | none => rw [same]
        | some v => cases hv
    | pointer | seq | set | map | record => cases hv
    | _ => simp [same]

theorem same_option_iff :
    same (.option (some v)) w = true ↔ ∃ u, w = .option (some u) ∧ v.same u = true := by
  constructor
  · intro h
    have hrank := rank_eq_of_same h
    cases w with
    | option w =>
        cases w with
        | none => simp [same] at h
        | some u => exact ⟨u, rfl, by rwa [same] at h⟩
    | _ => cases hrank
  · intro h
    obtain ⟨u, rfl, hsame⟩ := h
    rwa [same]

theorem same_pointer_iff {form : PointerForm} :
    same (.pointer form v) w = true ↔ ∃ u, w = .pointer form u ∧ v.same u = true := by
  constructor
  · intro h
    have hrank := rank_eq_of_same h
    cases w with
    | pointer g u =>
        rw [same, Bool.and_eq_true, beq_iff_eq] at h
        exact ⟨u, by rw [h.1], h.2⟩
    | _ => cases hrank
  · intro h
    obtain ⟨u, rfl, hsame⟩ := h
    rw [same, Bool.and_eq_true]
    exact ⟨beq_self_eq_true _, hsame⟩

theorem same_seq_iff {form : SeqForm} {items : List Value} :
    same (.seq form items) w = true ↔
      ∃ others, w = .seq form others ∧ List.Forall₂ (fun a b => a.same b = true) items others := by
  constructor
  · intro h
    have hrank := rank_eq_of_same h
    cases w with
    | seq g others =>
        rw [same, Bool.and_eq_true, beq_iff_eq, sameItems_iff] at h
        exact ⟨others, by rw [h.1], h.2⟩
    | _ => cases hrank
  · intro h
    obtain ⟨others, rfl, hparts⟩ := h
    rw [same, Bool.and_eq_true, sameItems_iff]
    exact ⟨beq_self_eq_true _, hparts⟩

theorem same_set_iff {form : KeyedForm} {items : List Value} :
    same (.set form items) w = true ↔
      ∃ others, w = .set form others ∧ items.length = others.length ∧
        ∀ a ∈ items, ∃ b ∈ others, a.same b = true := by
  constructor
  · intro h
    have hrank := rank_eq_of_same h
    cases w with
    | set g others =>
        rw [same, Bool.and_eq_true, Bool.and_eq_true, beq_iff_eq, beq_iff_eq, itemsWithin_iff] at h
        exact ⟨others, by rw [h.1.1], h.1.2, h.2⟩
    | _ => cases hrank
  · intro h
    obtain ⟨others, rfl, hlength, hparts⟩ := h
    rw [same, Bool.and_eq_true, Bool.and_eq_true, beq_iff_eq, beq_iff_eq, itemsWithin_iff]
    exact ⟨⟨rfl, hlength⟩, hparts⟩

theorem same_map_iff {form : KeyedForm} {entries : List (Value × Value)} :
    same (.map form entries) w = true ↔
      ∃ others, w = .map form others ∧ entries.length = others.length ∧
        ∀ a ∈ entries, ∃ b, others.find? (a.1.same ·.1) = some b ∧ a.2.same b.2 = true := by
  constructor
  · intro h
    have hrank := rank_eq_of_same h
    cases w with
    | map g others =>
        rw [same, Bool.and_eq_true, Bool.and_eq_true, beq_iff_eq, beq_iff_eq,
          entriesWithin_iff] at h
        exact ⟨others, by rw [h.1.1], h.1.2, h.2⟩
    | _ => cases hrank
  · intro h
    obtain ⟨others, rfl, hlength, hparts⟩ := h
    rw [same, Bool.and_eq_true, Bool.and_eq_true, beq_iff_eq, beq_iff_eq, entriesWithin_iff]
    exact ⟨⟨rfl, hlength⟩, hparts⟩

theorem same_record_iff {slots : Slots} :
    same (.record slots) w = true ↔
      ∃ others, w = .record others ∧
        List.Forall₂ (Option.Rel fun a b => a.same b = true) slots others := by
  constructor
  · intro h
    have hrank := rank_eq_of_same h
    cases w with
    | record others =>
        rw [same, sameSlots_iff] at h
        exact ⟨others, rfl, h⟩
    | _ => cases hrank
  · intro h
    obtain ⟨others, rfl, hslots⟩ := h
    rwa [same, sameSlots_iff]

end Same

/-- Being the same as a value says what being alike to it says. -/
def Decided (v : Value) : Prop :=
  ∀ {w : Value}, w.Proper → (v.same w = true ↔ Alike True v w)

section Decided

variable {v : Value} {items : List Value} {entries : List (Value × Value)} {slots : Slots}

theorem decided_option (hv : v.Decided) : (Value.option (some v)).Decided := by
  intro w hw
  rw [same_option_iff]
  constructor
  · intro h
    obtain ⟨u, rfl, hsame⟩ := h
    exact .option ((hv hw.of_option).mp hsame)
  · intro h
    obtain ⟨u, rfl, halike⟩ := h.option_inv
    exact ⟨u, rfl, (hv hw.of_option).mpr halike⟩

theorem decided_pointer {form : PointerForm} (hv : v.Decided) :
    (Value.pointer form v).Decided := by
  intro w hw
  rw [same_pointer_iff]
  constructor
  · intro h
    obtain ⟨u, rfl, hsame⟩ := h
    exact .pointer ((hv hw.of_pointer).mp hsame)
  · intro h
    obtain ⟨u, rfl, halike⟩ := h.pointer_inv
    exact ⟨u, rfl, (hv hw.of_pointer).mpr halike⟩

theorem decided_seq {form : SeqForm} (hitems : ∀ item ∈ items, item.Decided) :
    (Value.seq form items).Decided := by
  intro w hw
  have hparts : ∀ {others : List Value}, (∀ other ∈ others, other.Proper) →
      (List.Forall₂ (fun a b => a.same b = true) items others ↔
        List.Forall₂ (Alike True) items others) := fun hothers =>
    forall₂_congr_of_mem fun a ha b hb => hitems a ha (hothers b hb)
  rw [same_seq_iff]
  constructor
  · intro h
    obtain ⟨others, rfl, hsame⟩ := h
    exact .of_forall₂ (fun _ => rfl) ((hparts hw.of_seq).mp hsame)
  · intro h
    obtain ⟨g, others, rfl, hform, halike⟩ := h.seq_inv
    exact ⟨others, by rw [hform trivial], (hparts hw.of_seq).mpr halike⟩

theorem decided_set {form : KeyedForm} (hapart : items.Pairwise fun a b => ¬ Alike True a b)
    (hitems : ∀ item ∈ items, item.Decided) : (Value.set form items).Decided := by
  intro w hw
  rw [same_set_iff]
  constructor
  · intro h
    obtain ⟨others, rfl, hlength, hwithin⟩ := h
    refine .of_matched (fun _ => rfl) (.of_apart (Nat.le_of_eq hlength.symm) ?_ ?_)
    · intro a ha
      obtain ⟨b, hb, hsame⟩ := hwithin a ha
      exact ⟨b, hb, (hitems a ha (hw.of_set.2 b hb)).mp hsame⟩
    · exact hapart.imp fun hne b hab hab' => hne (hab.trans hab'.symm)
  · intro h
    obtain ⟨g, others, rfl, hform, hmatched⟩ := h.set_inv
    refine ⟨others, by rw [hform trivial], hmatched.length_eq, fun a ha => ?_⟩
    obtain ⟨b, hb, halike⟩ := hmatched.exists_of_mem ha
    exact ⟨b, hb, (hitems a ha (hw.of_set.2 b hb)).mpr halike⟩

theorem decided_map {form : KeyedForm} (hapart : entries.Pairwise fun a b => ¬ Alike True a.1 b.1)
    (hkeys : ∀ entry ∈ entries, entry.1.Decided) (hvalues : ∀ entry ∈ entries, entry.2.Decided) :
    (Value.map form entries).Decided := by
  intro w hw
  rw [same_map_iff]
  constructor
  · intro h
    obtain ⟨others, rfl, hlength, hwithin⟩ := h
    refine .of_matchedEntries (fun _ => rfl) (.of_apart (Nat.le_of_eq hlength.symm) ?_ ?_)
    · intro a ha
      obtain ⟨b, hfind, hvalue⟩ := hwithin a ha
      have hb := List.mem_of_find?_eq_some hfind
      have hkey := List.find?_some hfind
      obtain ⟨hkeyProper, hvalueProper⟩ := hw.of_map.2 b hb
      exact ⟨b, hb, (hkeys a ha hkeyProper).mp hkey,
        (hvalues a ha hvalueProper).mp hvalue⟩
    · exact hapart.imp fun hne b hab hab' => hne (hab.1.trans hab'.1.symm)
  · intro h
    obtain ⟨g, others, rfl, hform, hmatched⟩ := h.map_inv
    refine ⟨others, by rw [hform trivial], hmatched.length_eq, fun a ha => ?_⟩
    obtain ⟨b, hb, hkey, hvalue⟩ := hmatched.exists_of_mem ha
    have hsame : ∀ c ∈ others, (a.1.same c.1 = true ↔ Alike True a.1 c.1) :=
      fun c hc => hkeys a ha (hw.of_map.2 c hc).1
    refine ⟨b, ?_, (hvalues a ha (hw.of_map.2 b hb).2).mpr hvalue⟩
    -- Two keys that are the same as the one looked for would be alike.
    refine find?_of_apart hb ((hsame b hb).mpr hkey) ?_
    refine hw.of_map.1.imp_of_mem fun {c d} hc hd hne hboth => hne ?_
    exact ((hsame c hc).mp hboth.1).symm.trans ((hsame d hd).mp hboth.2)

theorem decided_record (hslots : ∀ slot ∈ slots, ∀ v ∈ slot, v.Decided) :
    (Value.record slots).Decided := by
  intro w hw
  have hparts : ∀ {others : Slots}, (∀ other ∈ others, ∀ w ∈ other, w.Proper) →
      (List.Forall₂ (Option.Rel fun a b => a.same b = true) slots others ↔
        List.Forall₂ (Option.Rel (Alike True)) slots others) := by
    intro others hothers
    refine forall₂_congr_of_mem fun slot hslot other hother => ?_
    cases slot with
    | none => cases other <;> simp
    | some v =>
        cases other with
        | none => simp
        | some u =>
            rw [Option.rel_some_some, Option.rel_some_some]
            exact hslots _ hslot v rfl (hothers _ hother u rfl)
  rw [same_record_iff]
  constructor
  · intro h
    obtain ⟨others, rfl, hsame⟩ := h
    exact .of_slots ((hparts hw.of_record).mp hsame)
  · intro h
    obtain ⟨others, rfl, halike⟩ := h.record_inv
    exact ⟨others, rfl, (hparts hw.of_record).mpr halike⟩

end Decided

theorem Proper.decided {v : Value} (h : v.Proper) : v.Decided := by
  induction h with
  | leaf hleaf =>
      intro w _
      rw [same_leaf_iff hleaf, Alike.leaf_iff hleaf]
  | option _ ih => exact decided_option ih
  | pointer _ ih => exact decided_pointer ih
  | seq _ ih => exact decided_seq fun item hmem => ih item hmem
  | set hapart _ ih => exact decided_set hapart fun item hmem => ih item hmem
  | map hapart _ _ ihKeys ihValues =>
      exact decided_map hapart (fun entry hmem => ihKeys entry hmem)
        fun entry hmem => ihValues entry hmem
  | record _ ih => exact decided_record fun slot hslot v hv => ih slot hslot v hv

theorem hashSeq_eq_foldl (start : Int32) (items : List Value) :
    hashSeq start items = (items.map hash).foldl mix start := by
  induction items generalizing start with
  | nil => rfl
  | cons item items ih => rw [hashSeq, ih, List.map_cons, List.foldl_cons]

theorem hashSet_eq_foldr (items : List Value) :
    hashSet items = (items.map hash).foldr (· + ·) 0 := by
  induction items with
  | nil => rfl
  | cons item items ih => rw [hashSet, ih, List.map_cons, List.foldr_cons]

theorem hashMap_eq_foldr (entries : List (Value × Value)) :
    hashMap entries = (entries.map fun entry => entry.1.hash ^^^ entry.2.hash).foldr (· + ·) 0 := by
  induction entries with
  | nil => rfl
  | cons entry entries ih => rw [hashMap, ih, List.map_cons, List.foldr_cons]

theorem hashSlots_congr {slots others : Slots}
    (h : List.Forall₂ (Option.Rel fun a b => a.hash = b.hash) slots others) (start : Int32) :
    hashSlots start slots = hashSlots start others := by
  induction h generalizing start with
  | nil => rfl
  | cons hfirst _ ih =>
      cases hfirst with
      | none => rw [hashSlots, hashSlots, ih]
      | some hslot => rw [hashSlots, hashSlots, hslot, ih]

theorem sum_eq_of_matched {α : Type} {part : α → Int32} {as bs : List α}
    (h : Matched (fun a b => part a = part b) as bs) :
    (as.map part).foldr (· + ·) 0 = (bs.map part).foldr (· + ·) 0 := by
  obtain ⟨middle, hperm, hparts⟩ := h
  rw [(hperm.map part).foldr_eq 0, map_eq_map_iff_forall₂.mpr hparts]

theorem Alike.hash_eq {held : Prop} {v w : Value} (h : Alike held v w) : v.hash = w.hash := by
  induction h with
  | refl _ => rfl
  | option _ ih => exact ih
  | pointer _ ih => exact ih
  | seq _ length _ ih =>
      have hparts := List.forall₂_iff_zip.mpr ⟨length, fun {a b} hmem => ih (a, b) hmem⟩
      rw [hash, hash, hashSeq_eq_foldl, hashSeq_eq_foldl, map_eq_map_iff_forall₂.mpr hparts]
  | set _ walk length _ ih =>
      have hparts := List.forall₂_iff_zip.mpr ⟨length, fun {a b} hmem => ih (a, b) hmem⟩
      rw [hash, hash, hashSet_eq_foldr, hashSet_eq_foldr, sum_eq_of_matched ⟨_, walk, hparts⟩]
  | map _ walk length _ _ ihKeys ihValues =>
      rw [hash, hash, hashMap_eq_foldr, hashMap_eq_foldr]
      refine sum_eq_of_matched ⟨_, walk, List.forall₂_iff_zip.mpr ⟨length, fun hmem => ?_⟩⟩
      rw [ihKeys _ hmem, ihValues _ hmem]
  | record present _ ih => exact hashSlots_congr (forall₂_slots present ih) fnvOffset

end WireIdl.Value

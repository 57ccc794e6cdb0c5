import WireIdl.Config
import WireIdl.Proofs.Value.Building

/-! Values that two configurations make of the same parts. They have one content, each in the
containers of its configuration. -/

namespace WireIdl.Value

/-- All containers of a value are those of a configuration. -/
inductive HeldAs (c : Config) : Value → Prop where
  | leaf {v : Value} (leaf : v.IsLeaf) : HeldAs c v
  | seq {items : List Value} (parts : ∀ item ∈ items, HeldAs c item) :
      HeldAs c (.seq c.list.toSeq items)
  | set {items : List Value} (parts : ∀ item ∈ items, HeldAs c item) : HeldAs c (.set c.set items)
  | map {entries : List (Value × Value)} (keys : ∀ entry ∈ entries, HeldAs c entry.1)
      (values : ∀ entry ∈ entries, HeldAs c entry.2) : HeldAs c (.map c.map entries)
  | record {slots : Slots} (parts : ∀ slot ∈ slots, ∀ v ∈ slot, HeldAs c v) :
      HeldAs c (.record slots)

variable {c d : Config}

theorem HeldAs.alike {v w : Value} (hv : v.HeldAs c) (hw : w.HeldAs c) (h : Alike False v w) :
    Alike True v w := by
  induction hv generalizing w with
  | leaf hleaf =>
      rw [Alike.leaf_iff hleaf] at h ⊢
      exact h
  | seq _ ih =>
      obtain ⟨_, others, rfl, _, hothers⟩ := h.seq_inv
      cases hw with
      | leaf hleaf => cases hleaf
      | seq hparts =>
          refine .of_forall₂ (fun _ => rfl) (forall₂_imp_of_mem (fun a ha b hb => ?_) hothers)
          exact ih a ha (hparts b hb)
  | set _ ih =>
      obtain ⟨_, others, rfl, _, hothers⟩ := h.set_inv
      cases hw with
      | leaf hleaf => cases hleaf
      | set hparts =>
          refine .of_matched (fun _ => rfl) (hothers.imp_of_mem fun a ha b hb => ?_)
          exact ih a ha (hparts b hb)
  | map _ _ ihKeys ihValues =>
      obtain ⟨_, others, rfl, _, hothers⟩ := h.map_inv
      cases hw with
      | leaf hleaf => cases hleaf
      | map hkeys hvalues =>
          refine .of_matchedEntries (fun _ => rfl) (hothers.imp_of_mem fun a ha b hb hab => ?_)
          exact ⟨ihKeys a ha (hkeys b hb) hab.1, ihValues a ha (hvalues b hb) hab.2⟩
  | record _ ih =>
      obtain ⟨others, rfl, hothers⟩ := h.record_inv
      cases hw with
      | leaf hleaf => cases hleaf
      | record hparts =>
          refine .of_slots (forall₂_imp_of_mem (fun slot hslot other hother hrel => ?_) hothers)
          cases hrel with
          | none => exact .none
          | some hpart => exact .some (ih _ hslot _ rfl (hparts _ hother _ rfl) hpart)

/-- The values that a configuration makes. -/
structure MadeBy (c : Config) (v : Value) : Prop where
  proper : v.Proper
  held : v.HeldAs c

theorem tells_madeBy : Tells False (MadeBy c) := by
  intro a b ha hb
  rw [tells_proper ha.proper hb.proper]
  exact ⟨Alike.loosen, ha.held.alike hb.held⟩

theorem madeBy_of_isLeaf {v : Value} (h : v.IsLeaf) : v.MadeBy c :=
  ⟨.leaf h, .leaf h⟩

theorem madeBy_seq {items : List Value} (h : ∀ item ∈ items, item.MadeBy c) :
    (Value.seq c.list.toSeq items).MadeBy c :=
  ⟨.seq fun item hmem => (h item hmem).proper, .seq fun item hmem => (h item hmem).held⟩

theorem madeBy_setOf {items : List Value} (h : ∀ item ∈ items, item.MadeBy c) :
    (setOf c.set items).MadeBy c := by
  have hkeeps := keeps_foldl c.set tells_madeBy h
  exact ⟨proper_setOf fun item hmem => (h item hmem).proper,
    .set fun item hmem => (h item (hkeeps.mem item hmem)).held⟩

theorem madeBy_mapOf {entries : List (Value × Value)} (hkeys : ∀ entry ∈ entries, entry.1.MadeBy c)
    (hvalues : ∀ entry ∈ entries, entry.2.MadeBy c) : (mapOf c.map entries).MadeBy c := by
  have hproper : ∀ entry ∈ entries, entry.1.Proper := fun entry hmem => (hkeys entry hmem).proper
  exact ⟨proper_mapOf hproper fun entry hmem => (hvalues entry hmem).proper,
    .map (forall_keys_foldl (fun entry hmem => (hkeys entry hmem).held) hproper)
      (forall_values_foldl nofun fun entry hmem => (hvalues entry hmem).held)⟩

theorem madeBy_record {slots : Slots} (h : ∀ slot ∈ slots, ∀ v ∈ slot, v.MadeBy c) :
    (Value.record slots).MadeBy c :=
  ⟨.record fun slot hmem v hv => (h slot hmem v hv).proper,
    .record fun slot hmem v hv => (h slot hmem v hv).held⟩

/-- One content, made by two configurations. -/
structure Twin (c d : Config) (v w : Value) : Prop where
  left : v.MadeBy c
  right : w.MadeBy d
  alike : Alike False v w

theorem Twin.symm {v w : Value} (h : Twin c d v w) : Twin d c w v :=
  ⟨h.right, h.left, h.alike.symm⟩

structure TwinEntry (c d : Config) (a b : Value × Value) : Prop where
  key : Twin c d a.1 b.1
  value : Twin c d a.2 b.2

theorem TwinEntry.symm {a b : Value × Value} (h : TwinEntry c d a b) : TwinEntry d c b a :=
  ⟨h.key.symm, h.value.symm⟩

theorem twin_of_isLeaf {v : Value} (h : v.IsLeaf) : Twin c d v v :=
  ⟨madeBy_of_isLeaf h, madeBy_of_isLeaf h, .refl v⟩

theorem Twin.same_eq {v w v' w' : Value} (h : Twin c d v w) (h' : Twin c d v' w') :
    v.same v' = w.same w' := by
  rw [Bool.eq_iff_iff, tells_madeBy h.left h'.left, tells_madeBy h.right h'.right]
  constructor
  · intro halike
    exact h.alike.symm.trans (halike.trans h'.alike)
  · intro halike
    exact h.alike.trans (halike.trans h'.alike.symm)

section Lists

variable {items others : List Value}

theorem madeBy_of_twins (h : List.Forall₂ (Twin c d) items others) :
    ∀ item ∈ items, item.MadeBy c := by
  intro item hmem
  obtain ⟨other, _, htwin⟩ := exists_of_forall₂ h hmem
  exact htwin.left

theorem twins_symm (h : List.Forall₂ (Twin c d) items others) :
    List.Forall₂ (Twin d c) others items :=
  List.Forall₂.flip (h.imp fun _ _ => Twin.symm)

theorem twin_seq (h : List.Forall₂ (Twin c d) items others) :
    Twin c d (.seq c.list.toSeq items) (.seq d.list.toSeq others) where
  left := madeBy_seq (madeBy_of_twins h)
  right := madeBy_seq (madeBy_of_twins (twins_symm h))
  alike := .of_forall₂ nofun (h.imp fun _ _ htwin => htwin.alike)

theorem twin_setOf (h : List.Forall₂ (Twin c d) items others) :
    Twin c d (setOf c.set items) (setOf d.set others) := by
  have hitems := madeBy_of_twins h
  have hothers := madeBy_of_twins (twins_symm h)
  refine ⟨madeBy_setOf hitems, madeBy_setOf hothers, .of_matched nofun ?_⟩
  refine (keeps_foldl c.set tells_madeBy hitems).matched
    (keeps_foldl d.set tells_madeBy hothers) ?_ ?_
  · intro a ha
    obtain ⟨b, hb, htwin⟩ := exists_of_forall₂ h ha
    exact ⟨b, hb, htwin.alike⟩
  · intro b hb
    obtain ⟨a, ha, htwin⟩ := exists_of_forall₂ (twins_symm h) hb
    exact ⟨a, ha, htwin.alike.symm⟩

end Lists

section Maps

variable {entries others : List (Value × Value)}

/-- An entry replaces the value of a key on both sides, or is new on both. -/
theorem twins_insertEntry {f g : KeyedForm} {a b : Value × Value}
    (h : Matched (TwinEntry c d) entries others) (hab : TwinEntry c d a b) :
    Matched (TwinEntry c d) (insertEntry f entries a) (insertEntry g others b) := by
  have hsame : ∀ old old', TwinEntry c d old old' → a.1.same old.1 = b.1.same old'.1 :=
    fun _ _ hold => hab.key.same_eq hold.key
  rw [insertEntry, insertEntry, h.any_eq hsame]
  split
  · refine h.map fun old old' hold => ?_
    rw [hsame old old' hold]
    split
    · exact ⟨hold.key, hab.value⟩
    · exact hold
  · have hadded := (Matched.cons hab h).perm_left (addPart_perm f Prod.fst entries a)
    exact hadded.perm_right (addPart_perm g Prod.fst others b).symm

theorem twins_foldl {f g : KeyedForm} {start start' : List (Value × Value)}
    (hstart : Matched (TwinEntry c d) start start')
    (h : List.Forall₂ (TwinEntry c d) entries others) :
    Matched (TwinEntry c d) (entries.foldl (insertEntry f) start)
      (others.foldl (insertEntry g) start') := by
  induction h generalizing start start' with
  | nil => exact hstart
  | cons hab _ ih => exact ih (twins_insertEntry hstart hab)

theorem madeBy_mapOf_of_twins (h : List.Forall₂ (TwinEntry c d) entries others) :
    (mapOf c.map entries).MadeBy c := by
  refine madeBy_mapOf ?_ ?_
  · intro a ha
    obtain ⟨b, _, hab⟩ := exists_of_forall₂ h ha
    exact hab.key.left
  · intro a ha
    obtain ⟨b, _, hab⟩ := exists_of_forall₂ h ha
    exact hab.value.left

theorem twin_mapOf (h : List.Forall₂ (TwinEntry c d) entries others) :
    Twin c d (mapOf c.map entries) (mapOf d.map others) := by
  have hback : List.Forall₂ (TwinEntry d c) others entries :=
    List.Forall₂.flip (h.imp fun _ _ => TwinEntry.symm)
  refine ⟨madeBy_mapOf_of_twins h, madeBy_mapOf_of_twins hback, .of_matchedEntries nofun ?_⟩
  exact (twins_foldl (.of_forall₂ .nil) h).imp fun _ _ hab => ⟨hab.key.alike, hab.value.alike⟩

end Maps

section Records

variable {slots others : Slots}

theorem madeBy_record_of_twins (h : List.Forall₂ (Option.Rel (Twin c d)) slots others) :
    (Value.record slots).MadeBy c := by
  refine madeBy_record fun slot hslot v hv => ?_
  obtain ⟨other, _, hrel⟩ := exists_of_forall₂ h hslot
  rw [Option.mem_def] at hv
  rw [hv] at hrel
  cases hrel with
  | some htwin => exact htwin.left

theorem twinSlots_symm (h : List.Forall₂ (Option.Rel (Twin c d)) slots others) :
    List.Forall₂ (Option.Rel (Twin d c)) others slots := by
  refine List.Forall₂.flip (h.imp fun slot other hrel => ?_)
  cases hrel with
  | none => exact .none
  | some htwin => exact .some htwin.symm

theorem twin_record (h : List.Forall₂ (Option.Rel (Twin c d)) slots others) :
    Twin c d (.record slots) (.record others) := by
  refine ⟨madeBy_record_of_twins h, madeBy_record_of_twins (twinSlots_symm h),
    .of_slots (h.imp fun slot other hrel => ?_)⟩
  cases hrel with
  | none => exact .none
  | some htwin => exact .some htwin.alike

end Records

end WireIdl.Value

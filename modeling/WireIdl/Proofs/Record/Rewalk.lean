import WireIdl.Proofs.Record.Depth
import WireIdl.Proofs.Record.Tolerant

/-! Values whose hashed containers are walked in other orders. They have the shape they had, are as
short, and nest as deep; in a value with ordered containers only, there is no other order. -/

namespace WireIdl

section Corresponding

variable {α β γ : Type}

theorem forall_mem_of_zip {p : α → Prop} {q : β → Prop} {as : List α} {bs : List β}
    (hlength : as.length = bs.length) (h : ∀ pair ∈ as.zip bs, p pair.1 → q pair.2)
    (hp : ∀ a ∈ as, p a) : ∀ b ∈ bs, q b :=
  forall_mem_of_forall₂ (List.forall₂_iff_zip.mpr
    ⟨hlength, fun hmem => h _ hmem (hp _ (List.of_mem_zip hmem).1)⟩)

theorem eq_of_forall₂ {as bs : List α} (h : List.Forall₂ (fun a b => b = a) as bs) : bs = as := by
  rw [← List.forall₂_eq_eq_eq]
  exact h.flip

theorem forall_mem_of_map_eq {p : γ → Prop} {f : α → γ} {g : β → γ} {as : List α} {bs : List β}
    (hmap : as.map f = bs.map g) (h : ∀ a ∈ as, p (f a)) : ∀ b ∈ bs, p (g b) := by
  rw [← List.forall_mem_map, ← hmap, List.forall_mem_map]
  exact h

end Corresponding

namespace Value

section Walks

variable {form : KeyedForm} {v w : Value}

theorem Before.symm {a b : Value} (h : Before .hashed a b) : Before .hashed b a where
  not_same := h.not_same_symm
  not_same_symm := h.not_same
  ordered := fun hform => by cases hform

theorem pairwise_before_of_perm {items others : List Value} (h : items.Pairwise (Before form))
    (hperm : items.Perm others) (hfixed : form = .ordered → others = items) :
    others.Pairwise (Before form) := by
  cases form with
  | hashed => exact (hperm.pairwise_iff Before.symm).mp h
  | ordered => exact (hfixed rfl).symm ▸ h

theorem Rewalk.set_cases {items : List Value} (h : (Value.set form items).Rewalk w) :
    ∃ others, w = .set form others ∧ items.Perm others ∧ (form = .ordered → others = items) := by
  cases h with
  | refl => exact ⟨items, rfl, .refl items, fun _ => rfl⟩
  | set hwalk => exact ⟨_, rfl, hwalk, fun hform => by cases hform⟩

theorem Rewalk.map_cases {entries : List (Value × Value)} (h : (Value.map form entries).Rewalk w) :
    ∃ middle others, w = .map form others ∧ entries.Perm middle ∧
      (form = .ordered → middle = entries) ∧
      List.Forall₂ (fun a b => a.1 = b.1 ∧ a.2.Rewalk b.2) middle others := by
  cases h with
  | refl =>
      exact ⟨entries, entries, rfl, .refl entries, fun _ => rfl,
        List.forall₂_same.mpr fun entry _ => ⟨rfl, .refl entry.2⟩⟩
  | map hwalk hfixed hkeys hparts =>
      obtain ⟨hlength, hpairs⟩ := List.forall₂_iff_zip.mp (map_eq_map_iff_forall₂.mp hkeys)
      exact ⟨_, _, rfl, hwalk, hfixed,
        List.forall₂_iff_zip.mpr ⟨hlength, fun hmem => ⟨hpairs hmem, hparts _ hmem⟩⟩⟩

end Walks

/-- What holds of the parts there are holds of those that correspond to them. -/
theorem forall_slots_of_imp {p q : Value → Prop} {slots others : Slots}
    (present : slots.map (·.isSome) = others.map (·.isSome))
    (parts : ∀ pair ∈ slots.zip others, ∀ v ∈ pair.1, ∀ w ∈ pair.2, p v → q w)
    (h : ∀ slot ∈ slots, ∀ v ∈ slot, p v) : ∀ other ∈ others, ∀ w ∈ other, q w := by
  refine forall_mem_of_forall₂ (forall₂_imp_of_mem (fun slot hslot other _ hrel w hw => ?_)
    (forall₂_slots present parts))
  cases hrel with
  | none => cases hw
  | some himp =>
      cases hw
      exact himp (h _ hslot _ rfl)

theorem Rewalk.short {v w : Value} (hwalk : v.Rewalk w) (h : v.Short) : w.Short := by
  induction hwalk with
  | refl => exact h
  | option _ ih =>
      cases h with
      | option hpart =>
          refine .option fun w hw => ?_
          cases hw
          exact ih (hpart _ rfl)
  | pointer _ ih =>
      cases h with
      | pointer hpart => exact .pointer (ih hpart)
  | seq length _ ih =>
      cases h with
      | seq hlength hparts =>
          exact .seq (length ▸ hlength) (forall_mem_of_zip length ih hparts)
  | set walk =>
      cases h with
      | set hlength hparts =>
          exact .set (walk.length_eq ▸ hlength) fun item hmem => hparts item (walk.mem_iff.mpr hmem)
  | map walk _ keys _ ih =>
      cases h with
      | map hlength hkeys hvalues =>
          have hsize := (map_eq_map_iff_forall₂.mp keys).length_eq
          refine .map ?_ ?_ ?_
          · rw [← hsize, ← walk.length_eq]
            exact hlength
          · exact forall_mem_of_map_eq keys fun entry hmem => hkeys entry (walk.mem_iff.mpr hmem)
          · exact forall_mem_of_zip hsize ih fun entry hmem =>
              hvalues entry (walk.mem_iff.mpr hmem)
  | record present _ ih =>
      cases h with
      | record hparts => exact .record (forall_slots_of_imp present ih hparts)

section Frames

variable {limit : Nat}

theorem frames_le_of_itemFrames_le {items : List Value} (h : itemFrames items ≤ limit) :
    ∀ item ∈ items, item.frames ≤ limit := by
  induction items with
  | nil => exact List.forall_mem_nil _
  | cons item items ih =>
      obtain ⟨hitem, hitems⟩ := Nat.max_le.mp h
      exact List.forall_mem_cons.mpr ⟨hitem, ih hitems⟩

theorem frames_le_of_entryFrames_le {entries : List (Value × Value)}
    (h : entryFrames entries ≤ limit) :
    ∀ entry ∈ entries, entry.1.frames ≤ limit ∧ entry.2.frames ≤ limit := by
  induction entries with
  | nil => exact List.forall_mem_nil _
  | cons entry entries ih =>
      obtain ⟨hentry, hentries⟩ := Nat.max_le.mp h
      exact List.forall_mem_cons.mpr ⟨Nat.max_le.mp hentry, ih hentries⟩

theorem frames_le_of_slotFrames_le {slots : Slots} (h : slotFrames slots ≤ limit) :
    ∀ slot ∈ slots, ∀ v ∈ slot, v.frames ≤ limit := by
  induction slots with
  | nil => exact List.forall_mem_nil _
  | cons slot slots ih =>
      rw [List.forall_mem_cons]
      cases slot with
      | none => exact ⟨fun v hv => absurd hv (Option.not_mem_none v), ih h⟩
      | some v =>
          obtain ⟨hv, hslots⟩ := Nat.max_le.mp h
          exact ⟨fun w hw => Option.mem_some.mp hw ▸ hv, ih hslots⟩

theorem Rewalk.frames_le {v w : Value} (hwalk : v.Rewalk w) (h : v.frames ≤ limit) :
    w.frames ≤ limit := by
  induction hwalk generalizing limit with
  | refl => exact h
  | option _ ih | pointer _ ih => exact ih h
  | seq length _ ih =>
      have hitems := frames_le_of_itemFrames_le h
      exact itemFrames_le (forall_mem_of_zip length (fun pair hmem => ih pair hmem) hitems)
  | set walk =>
      have hitems := frames_le_of_itemFrames_le h
      exact itemFrames_le fun item hmem => hitems item (walk.mem_iff.mpr hmem)
  | map walk _ keys _ ih =>
      have hentries := frames_le_of_entryFrames_le h
      apply entryFrames_le
      · exact forall_mem_of_map_eq (p := fun key => key.frames ≤ limit) keys fun entry hmem =>
          (hentries entry (walk.mem_iff.mpr hmem)).1
      · exact forall_mem_of_zip (map_eq_map_iff_forall₂.mp keys).length_eq
          (fun pair hmem => ih pair hmem) fun entry hmem =>
            (hentries entry (walk.mem_iff.mpr hmem)).2
  | record present _ ih =>
      cases limit with
      | zero => cases h
      | succ limit =>
          have hslots := frames_le_of_slotFrames_le (Nat.le_of_succ_le_succ h)
          exact Nat.succ_le_succ (slotFrames_le (forall_slots_of_imp present
            (fun pair hmem v hv w hw => ih pair hmem v hv w hw) hslots))

end Frames

end Value

namespace Target.Fits

variable {n : Census} {t : Target n} {shape : Shape n} {v w : Value}

theorem rewalk (h : t.Fits shape v) (hwalk : v.Rewalk w) : t.Fits shape w := by
  induction h generalizing w with
  | bool | byte | i16 | i32 | i64 | double | string | binary =>
      cases hwalk
      constructor
  | enum member =>
      cases hwalk
      exact .enum member
  | list parts ih =>
      obtain ⟨others, rfl, hothers⟩ := hwalk.of_seq
      exact .list (forall_mem_of_forall₂ (forall₂_imp_of_mem (fun a ha _ _ => ih a ha) hothers))
  | set walk parts ih =>
      obtain ⟨others, rfl, hperm, hfixed⟩ := hwalk.set_cases
      refine .set (Value.pairwise_before_of_perm walk hperm hfixed) fun other hmem => ?_
      exact parts other (hperm.mem_iff.mpr hmem)
  | map walk keys values ihKeys ihValues =>
      obtain ⟨middle, others, rfl, hperm, hfixed, hothers⟩ := hwalk.map_cases
      have hkeys := map_eq_map_iff_forall₂.mpr (hothers.imp fun _ _ hentry => hentry.1)
      refine .map ?_ ?_ ?_
      · rw [← List.pairwise_map (f := Prod.fst), ← hkeys]
        exact Value.pairwise_before_of_perm (List.pairwise_map.mpr walk) (hperm.map _)
          fun hform => congrArg _ (hfixed hform)
      · exact forall_mem_of_map_eq hkeys fun entry hmem => keys entry (hperm.mem_iff.mpr hmem)
      · refine forall_mem_of_forall₂ (forall₂_imp_of_mem (fun a ha b _ hentry => ?_) hothers)
        exact ihValues a (hperm.mem_iff.mpr ha) hentry.2
  | @record id slots length parts defaults built ih =>
      obtain ⟨others, rfl, hothers⟩ := hwalk.of_record
      have hslots := (fits_record_iff.mp (.record length parts defaults built)).1
      obtain ⟨_, hpairs⟩ := List.forall₂_iff_zip.mp hslots
      have hfields : List.Forall₂ (fun field slot => t.SlotFits field slot ∧
          ∀ v ∈ slot, ∀ w, v.Rewalk w → t.Fits (t.schema.shape field.ty) w)
          (t.schema.record id).fields slots :=
        List.forall₂_iff_zip.mpr
          ⟨length, fun hmem => ⟨hpairs hmem, fun v hv _ hwalk => ih _ hmem v hv hwalk⟩⟩
      refine fits_record_iff.mpr ⟨forall₂_trans (fun field slot other hslot hrel => ?_)
        hfields hothers, ?_⟩
      · cases hrel with
        | none => exact hslot.1
        | some hpart => exact hslot.2 _ rfl _ hpart
      · obtain ⟨_, hbuilt⟩ | ⟨fault, hfault, _⟩ :=
          (t.schema.record id).build_of_forall₂ hothers
        · exact hbuilt
        · rw [built] at hfault
          cases hfault

/-- Ordered containers have one order to be walked in. -/
theorem eq_of_rewalk (hset : t.config.set = .ordered) (hmap : t.config.map = .ordered)
    (h : t.Fits shape v) (hwalk : v.Rewalk w) : w = v := by
  induction h generalizing w with
  | bool | byte | i16 | i32 | i64 | double | string | binary | enum =>
      cases hwalk
      rfl
  | list parts ih =>
      obtain ⟨others, rfl, hothers⟩ := hwalk.of_seq
      rw [eq_of_forall₂ (forall₂_imp_of_mem (fun a ha _ _ => ih a ha) hothers)]
  | set walk parts ih =>
      obtain ⟨others, rfl, hperm, hfixed⟩ := hwalk.set_cases
      rw [hfixed hset]
  | map walk keys values ihKeys ihValues =>
      obtain ⟨middle, others, rfl, hperm, hfixed, hothers⟩ := hwalk.map_cases
      rw [hfixed hmap] at hothers
      rw [eq_of_forall₂ (forall₂_imp_of_mem (fun a ha _ _ hentry =>
        Prod.ext hentry.1.symm (ihValues a ha hentry.2)) hothers)]
  | @record id slots length parts defaults built ih =>
      obtain ⟨others, rfl, hothers⟩ := hwalk.of_record
      have hslots : ∀ slot ∈ slots, ∀ v ∈ slot, ∀ {w : Value}, v.Rewalk w → w = v :=
        forall_mem_of_forall₂ (List.forall₂_iff_zip.mpr ⟨length, fun hmem => ih _ hmem⟩)
      rw [eq_of_forall₂ (forall₂_imp_of_mem (fun slot hslot other _ hrel => ?_) hothers)]
      cases hrel with
      | none => rfl
      | some hpart => exact congrArg some (hslots _ hslot _ rfl hpart)

end Target.Fits

end WireIdl

import WireIdl.Proofs.Value.Walk

/-! Values of the same content. The parts of a set or map may be walked in any order; whether the
containers have to be held in the same form is left open. -/

namespace WireIdl.Value

def IsLeaf : Value → Prop
  | .option (some _) | .pointer _ _ | .seq _ _ | .set _ _ | .map _ _ | .record _ => False
  | _ => True

/-- The same content, and if `held` is true, in containers of the same form. -/
inductive Alike (held : Prop) : Value → Value → Prop where
  | refl (v : Value) : Alike held v v
  | option {v w : Value} (part : Alike held v w) : Alike held (.option (some v)) (.option (some w))
  | pointer {form : PointerForm} {v w : Value} (part : Alike held v w) :
      Alike held (.pointer form v) (.pointer form w)
  | seq {f g : SeqForm} {items others : List Value} (forms : held → f = g)
      (length : items.length = others.length)
      (parts : ∀ pair ∈ items.zip others, Alike held pair.1 pair.2) :
      Alike held (.seq f items) (.seq g others)
  | set {f g : KeyedForm} {items middle others : List Value} (forms : held → f = g)
      (walk : items.Perm middle) (length : middle.length = others.length)
      (parts : ∀ pair ∈ middle.zip others, Alike held pair.1 pair.2) :
      Alike held (.set f items) (.set g others)
  | map {f g : KeyedForm} {entries middle others : List (Value × Value)} (forms : held → f = g)
      (walk : entries.Perm middle) (length : middle.length = others.length)
      (keys : ∀ pair ∈ middle.zip others, Alike held pair.1.1 pair.2.1)
      (values : ∀ pair ∈ middle.zip others, Alike held pair.1.2 pair.2.2) :
      Alike held (.map f entries) (.map g others)
  | record {slots others : Slots} (present : slots.map (·.isSome) = others.map (·.isSome))
      (parts : ∀ pair ∈ slots.zip others, ∀ v ∈ pair.1, ∀ w ∈ pair.2, Alike held v w) :
      Alike held (.record slots) (.record others)

/-- Two entries with keys and values of the same content. -/
def AlikeEntry (held : Prop) (a b : Value × Value) : Prop :=
  a.1.Alike held b.1 ∧ a.2.Alike held b.2

variable {held : Prop}

namespace Alike

theorem of_forall₂ {f g : SeqForm} {items others : List Value} (forms : held → f = g)
    (h : List.Forall₂ (Alike held) items others) : Alike held (.seq f items) (.seq g others) := by
  obtain ⟨hlength, hparts⟩ := List.forall₂_iff_zip.mp h
  exact .seq forms hlength fun _ hmem => hparts hmem

theorem of_matched {f g : KeyedForm} {items others : List Value} (forms : held → f = g)
    (h : Matched (Alike held) items others) : Alike held (.set f items) (.set g others) := by
  obtain ⟨middle, hperm, hmiddle⟩ := h
  obtain ⟨hlength, hparts⟩ := List.forall₂_iff_zip.mp hmiddle
  exact .set forms hperm hlength fun _ hmem => hparts hmem

theorem of_matchedEntries {f g : KeyedForm} {entries others : List (Value × Value)}
    (forms : held → f = g) (h : Matched (AlikeEntry held) entries others) :
    Alike held (.map f entries) (.map g others) := by
  obtain ⟨middle, hperm, hmiddle⟩ := h
  obtain ⟨hlength, hparts⟩ := List.forall₂_iff_zip.mp hmiddle
  exact .map forms hperm hlength (fun _ hmem => (hparts hmem).1) fun _ hmem => (hparts hmem).2

theorem of_slots {slots others : Slots} (h : List.Forall₂ (Option.Rel (Alike held)) slots others) :
    Alike held (.record slots) (.record others) := by
  obtain ⟨hlength, hpairs⟩ := List.forall₂_iff_zip.mp h
  refine .record (map_eq_map_iff_forall₂.mpr (h.imp fun slot other hrel => ?_)) ?_
  · cases hrel <;> rfl
  · intro pair hmem v hv w hw
    have hrel := hpairs hmem
    rw [Option.mem_def] at hv hw
    rw [hv, hw] at hrel
    cases hrel with
    | some h => exact h

theorem leaf_iff {v w : Value} (hv : v.IsLeaf) : Alike held v w ↔ v = w := by
  constructor
  · intro h
    cases h with
    | refl => rfl
    | _ => cases hv
  · intro h
    subst h
    exact .refl v

theorem option_inv {v w : Value} (h : Alike held (.option (some v)) w) :
    ∃ u, w = .option (some u) ∧ Alike held v u := by
  cases h with
  | refl => exact ⟨v, rfl, .refl v⟩
  | option part => exact ⟨_, rfl, part⟩

theorem pointer_inv {form : PointerForm} {v w : Value} (h : Alike held (.pointer form v) w) :
    ∃ u, w = .pointer form u ∧ Alike held v u := by
  cases h with
  | refl => exact ⟨v, rfl, .refl v⟩
  | pointer part => exact ⟨_, rfl, part⟩

theorem seq_inv {f : SeqForm} {items : List Value} {w : Value} (h : Alike held (.seq f items) w) :
    ∃ g others, w = .seq g others ∧ (held → f = g) ∧ List.Forall₂ (Alike held) items others := by
  cases h with
  | refl => exact ⟨f, items, rfl, fun _ => rfl, List.forall₂_same.mpr fun item _ => .refl item⟩
  | seq forms length parts =>
      exact ⟨_, _, rfl, forms, List.forall₂_iff_zip.mpr ⟨length, fun hmem => parts _ hmem⟩⟩

theorem set_inv {f : KeyedForm} {items : List Value} {w : Value} (h : Alike held (.set f items) w) :
    ∃ g others, w = .set g others ∧ (held → f = g) ∧ Matched (Alike held) items others := by
  cases h with
  | refl =>
      exact ⟨f, items, rfl, fun _ => rfl,
        .of_forall₂ (List.forall₂_same.mpr fun item _ => .refl item)⟩
  | set forms walk length parts =>
      exact ⟨_, _, rfl, forms, _, walk, List.forall₂_iff_zip.mpr ⟨length, fun hmem => parts _ hmem⟩⟩

theorem map_inv {f : KeyedForm} {entries : List (Value × Value)} {w : Value}
    (h : Alike held (.map f entries) w) :
    ∃ g others, w = .map g others ∧ (held → f = g) ∧
      Matched (AlikeEntry held) entries others := by
  cases h with
  | refl =>
      refine ⟨f, entries, rfl, fun _ => rfl, .of_forall₂ (List.forall₂_same.mpr ?_)⟩
      exact fun entry _ => ⟨.refl entry.1, .refl entry.2⟩
  | map forms walk length keys values =>
      exact ⟨_, _, rfl, forms, _, walk,
        List.forall₂_iff_zip.mpr ⟨length, fun hmem => ⟨keys _ hmem, values _ hmem⟩⟩⟩

theorem record_inv {slots : Slots} {w : Value} (h : Alike held (.record slots) w) :
    ∃ others, w = .record others ∧ List.Forall₂ (Option.Rel (Alike held)) slots others := by
  cases h with
  | refl =>
      refine ⟨slots, rfl, List.forall₂_same.mpr fun slot _ => ?_⟩
      cases slot with
      | none => exact .none
      | some v => exact .some (.refl v)
  | record present parts => exact ⟨_, rfl, forall₂_slots present parts⟩

theorem loosen {v w : Value} (h : Alike held v w) : Alike False v w := by
  induction h with
  | refl v => exact .refl v
  | option _ ih => exact .option ih
  | pointer _ ih => exact .pointer ih
  | seq _ length _ ih => exact .seq nofun length ih
  | set _ walk length _ ih => exact .set nofun walk length ih
  | map _ walk length _ _ ihKeys ihValues => exact .map nofun walk length ihKeys ihValues
  | record present _ ih => exact .record present ih

theorem symm {v w : Value} (h : Alike held v w) : Alike held w v := by
  induction h with
  | refl v => exact .refl v
  | option _ ih => exact .option ih
  | pointer _ ih => exact .pointer ih
  | seq forms length _ ih =>
      refine .of_forall₂ (fun hheld => (forms hheld).symm) (List.Forall₂.flip ?_)
      exact List.forall₂_iff_zip.mpr ⟨length, fun hmem => ih _ hmem⟩
  | set forms walk length _ ih =>
      refine .of_matched (fun hheld => (forms hheld).symm) ?_
      have hparts := List.forall₂_iff_zip.mpr ⟨length, fun {a b} hmem => ih (a, b) hmem⟩
      exact Matched.symm (fun _ _ hab => hab) ⟨_, walk, hparts⟩
  | map forms walk length _ _ ihKeys ihValues =>
      refine .of_matchedEntries (fun hheld => (forms hheld).symm) ?_
      have hparts := List.forall₂_iff_zip.mpr
        ⟨length, fun {a b} hmem => And.intro (ihKeys (a, b) hmem) (ihValues (a, b) hmem)⟩
      exact Matched.symm (fun _ _ hab => hab) ⟨_, walk, hparts⟩
  | record present _ ih =>
      have hslots := forall₂_slots present ih
      refine .of_slots (List.Forall₂.flip (hslots.imp fun slot other hrel => ?_))
      cases hrel with
      | none => exact .none
      | some h => exact .some h

theorem trans {u v w : Value} (h : Alike held u v) (h' : Alike held v w) : Alike held u w := by
  induction h generalizing w with
  | refl _ => exact h'
  | option _ ih =>
      obtain ⟨_, rfl, hpart⟩ := h'.option_inv
      exact .option (ih hpart)
  | pointer _ ih =>
      obtain ⟨_, rfl, hpart⟩ := h'.pointer_inv
      exact .pointer (ih hpart)
  | seq forms length _ ih =>
      obtain ⟨_, _, rfl, forms', hothers⟩ := h'.seq_inv
      refine .of_forall₂ (fun hheld => (forms hheld).trans (forms' hheld)) ?_
      have hparts := List.forall₂_iff_zip.mpr ⟨length, fun {a b} hmem {c} => @ih (a, b) hmem c⟩
      exact forall₂_trans (fun _ _ _ hab hbc => hab hbc) hparts hothers
  | set forms walk length _ ih =>
      obtain ⟨_, _, rfl, forms', hothers⟩ := h'.set_inv
      refine .of_matched (fun hheld => (forms hheld).trans (forms' hheld)) ?_
      have hparts := List.forall₂_iff_zip.mpr ⟨length, fun {a b} hmem {c} => @ih (a, b) hmem c⟩
      exact Matched.trans (fun _ _ _ hab hbc => hab hbc) ⟨_, walk, hparts⟩ hothers
  | map forms walk length _ _ ihKeys ihValues =>
      obtain ⟨_, _, rfl, forms', hothers⟩ := h'.map_inv
      refine .of_matchedEntries (fun hheld => (forms hheld).trans (forms' hheld)) ?_
      have hparts := List.forall₂_iff_zip.mpr ⟨length, fun {a b} hmem =>
        And.intro (fun {c} => @ihKeys (a, b) hmem c) (fun {c} => @ihValues (a, b) hmem c)⟩
      exact Matched.trans (fun _ _ _ hab hbc => ⟨hab.1 hbc.1, hab.2 hbc.2⟩) ⟨_, walk, hparts⟩
        hothers
  | record present _ ih =>
      obtain ⟨_, rfl, hothers⟩ := h'.record_inv
      refine .of_slots (forall₂_trans (fun slot other third hrel hnext => ?_)
        (forall₂_slots present ih) hothers)
      cases hrel with
      | none => exact hnext
      | some h =>
          cases hnext with
          | some hpart => exact .some (h hpart)

end Alike

end WireIdl.Value

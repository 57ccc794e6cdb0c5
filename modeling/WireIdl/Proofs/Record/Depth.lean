import WireIdl.Proofs.Record.RoundTrip

/-! How deep the records in a value can be nested, as far as the schema bounds it. -/

namespace WireIdl

variable {n : Census}

/-- Whether every record that the shape names is one of some records. -/
def Shape.holdsOnly (records : Fin n.records → Bool) : Shape n → Bool
  | .record id => records id
  | .list _ element | .set _ element => (element ()).holdsOnly records
  | .map _ key _ value => (key ()).holdsOnly records && (value ()).holdsOnly records
  | _ => true

/-- Whether a record and what it holds are at most `frames` records inside each other. -/
def Schema.nestsWithin (s : Schema n) : Nat → Fin n.records → Bool
  | 0, _ => false
  | frames + 1, id =>
      (s.record id).fields.all fun field => (s.shape field.ty).holdsOnly (s.nestsWithin frames)

namespace Value

variable {limit : Nat}

theorem itemFrames_le {items : List Value} (h : ∀ item ∈ items, item.frames ≤ limit) :
    itemFrames items ≤ limit := by
  induction items with
  | nil => exact Nat.zero_le limit
  | cons item items ih =>
      rw [List.forall_mem_cons] at h
      exact Nat.max_le.mpr ⟨h.1, ih h.2⟩

theorem entryFrames_le {entries : List (Value × Value)}
    (hkeys : ∀ entry ∈ entries, entry.1.frames ≤ limit)
    (hvalues : ∀ entry ∈ entries, entry.2.frames ≤ limit) : entryFrames entries ≤ limit := by
  induction entries with
  | nil => exact Nat.zero_le limit
  | cons entry entries ih =>
      rw [List.forall_mem_cons] at hkeys hvalues
      exact Nat.max_le.mpr ⟨Nat.max_le.mpr ⟨hkeys.1, hvalues.1⟩, ih hkeys.2 hvalues.2⟩

theorem slotFrames_le {slots : Slots} (h : ∀ slot ∈ slots, ∀ v ∈ slot, v.frames ≤ limit) :
    slotFrames slots ≤ limit := by
  induction slots with
  | nil => exact Nat.zero_le limit
  | cons slot slots ih =>
      rw [List.forall_mem_cons] at h
      cases slot with
      | none => exact ih h.2
      | some v => exact Nat.max_le.mpr ⟨h.1 v rfl, ih h.2⟩

end Value

theorem Target.Fits.frames_le {t : Target n} {shape : Shape n} {v : Value} (h : t.Fits shape v)
    {limit : Nat} (hshape : shape.holdsOnly (t.schema.nestsWithin limit) = true) :
    v.frames ≤ limit := by
  induction h generalizing limit with
  | bool | byte | i16 | i32 | i64 | double | string | binary | enum => exact Nat.zero_le limit
  | list parts ih => exact Value.itemFrames_le fun item hmem => ih item hmem hshape
  | set walk parts ih => exact Value.itemFrames_le fun item hmem => ih item hmem hshape
  | map walk keys values ihKeys ihValues =>
      obtain ⟨hkey, hvalue⟩ := (Bool.and_eq_true _ _).mp hshape
      exact Value.entryFrames_le (fun entry hmem => ihKeys entry hmem hkey)
        fun entry hmem => ihValues entry hmem hvalue
  | @record id slots hlength parts defaults built ih =>
      cases limit with
      | zero => cases hshape
      | succ limit =>
          have hfields := List.all_eq_true.mp hshape
          refine Nat.succ_le_succ (Value.slotFrames_le ?_)
          intro slot hslot v hv
          rw [← List.map_snd_zip (Nat.le_of_eq hlength.symm)] at hslot
          obtain ⟨pair, hpair, rfl⟩ := List.mem_map.mp hslot
          exact ih pair hpair v hv (hfields pair.1 (List.of_mem_zip hpair).1)

end WireIdl

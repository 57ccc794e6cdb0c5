import WireIdl.Proofs.Demo

/-! What the loop over the fields of a record comes to. Whatever the order, the repetitions and the
strangers among the fields, the record is built from the last value of each declared field. -/

namespace WireIdl

variable {n : Census}

namespace Target

/-- What is promised of a field of a record, with `frames` frames open around it. -/
structure AdmitsField (t : Target n) (id : Fin n.records) (frames : Nat)
    (part : Int16 × WireValue) : Prop where
  wellFormed : part.2.WellFormed
  declared : ∀ field ∈ (t.schema.record id).fields, field.id = part.1 →
    ∃ v, t.valueOf? (t.schema.shape field.ty) part.2 = some v
  undeclared : (∀ field ∈ (t.schema.record id).fields, field.id ≠ part.1) →
    part.2.nest ≤ maxFrames
  shallow : frames + part.2.frames ≤ maxFrames

/-- The last value of a field, or its default, or nothing. -/
def lastSlot (t : Target n) (parts : List (Int16 × WireValue)) (field : Field n) : Option Value :=
  match lastFor field.id parts with
  | some w => t.valueOf? (t.schema.shape field.ty) w
  | none => t.defaultValue? field

def lastSlots (t : Target n) (id : Fin n.records) (parts : List (Int16 × WireValue)) : Slots :=
  (t.schema.record id).fields.map (t.lastSlot parts)

variable {t : Target n}

theorem AdmitsField.readable {id : Fin n.records} {frames : Nat} {part : Int16 × WireValue}
    (h : t.AdmitsField id frames part) :
    t.Readable (t.schema.knownFields (t.schema.record id).fields) part := by
  rw [Readable]
  split
  · next known hfind =>
      obtain ⟨field, hmem, rfl⟩ := List.mem_map.mp (List.mem_of_find?_eq_some hfind)
      have hid := List.find?_some hfind
      exact h.declared field hmem (beq_iff_eq.mp hid)
  · next hfind =>
      refine h.undeclared fun field hmem => ?_
      simpa using List.find?_eq_none.mp hfind _ (List.mem_map_of_mem hmem)

theorem find?_knownField {known : List (KnownField n)} (hids : (known.map (·.id)).Nodup)
    {field : KnownField n} (hmem : field ∈ known) :
    known.find? (·.id == field.id) = some field := by
  induction known with
  | nil => cases hmem
  | cons first known ih =>
      rw [List.map_cons, List.nodup_cons] at hids
      cases hmem with
      | head => exact List.find?_cons_of_pos (beq_self_eq_true _)
      | tail _ hmem =>
          have hne : first.id ≠ field.id := fun heq =>
            hids.1 (heq ▸ List.mem_map_of_mem hmem)
          rw [List.find?_cons_of_neg (by simpa using hne)]
          exact ih hids.2 hmem

theorem lastFor_fieldValues? {known : List (KnownField n)} {id : Int16} {field : KnownField n}
    (hfind : known.find? (·.id == id) = some field) {parts : List (Int16 × WireValue)}
    {values : List (Int16 × Value)} (h : t.fieldValues? known parts = some values) :
    (lastFor id parts).map (t.valueOf? field.shape) = (lastFor id values).map some := by
  induction parts generalizing values with
  | nil =>
      cases h
      rfl
  | cons part parts ih =>
      obtain ⟨other, w⟩ := part
      rw [fieldValues?] at h
      by_cases hid : other = id
      · subst hid
        simp only [hfind, Option.bind_eq_some_iff, Option.map_eq_some_iff] at h
        obtain ⟨v, hv, rest, hrest, rfl⟩ := h
        rw [lastFor_cons_self, lastFor_cons_self, Option.map_or, Option.map_or, ih hrest,
          Option.map_some, hv, Option.map_some]
      · rw [lastFor_cons_of_ne hid]
        split at h
        · simp only [Option.bind_eq_some_iff, Option.map_eq_some_iff] at h
          obtain ⟨v, hv, rest, hrest, rfl⟩ := h
          rw [lastFor_cons_of_ne hid]
          exact ih hrest
        · split at h
          · exact ih h
          · cases h

/-- For a known field either nothing came, or the last that came has a value. -/
theorem lastFor_values {known : List (KnownField n)} (hids : (known.map (·.id)).Nodup)
    {field : KnownField n} (hmem : field ∈ known) {parts : List (Int16 × WireValue)}
    {values : List (Int16 × Value)} (h : t.fieldValues? known parts = some values) :
    lastFor field.id parts = none ∧ lastFor field.id values = none ∨
      ∃ w v, lastFor field.id parts = some w ∧ t.valueOf? field.shape w = some v ∧
        lastFor field.id values = some v := by
  have hlast := lastFor_fieldValues? (find?_knownField hids hmem) h
  cases hpart : lastFor field.id parts with
  | none =>
      rw [hpart, Option.map_none, eq_comm, Option.map_eq_none_iff] at hlast
      exact .inl ⟨rfl, hlast⟩
  | some w =>
      rw [hpart, Option.map_some, eq_comm, Option.map_eq_some_iff] at hlast
      obtain ⟨v, hv, hw⟩ := hlast
      exact .inr ⟨w, v, rfl, hw.symm, hv⟩

theorem after_new_eq_lastSlots (hids : t.schema.HasDistinctIds) {id : Fin n.records}
    {parts : List (Int16 × WireValue)} {values : List (Int16 × Value)}
    (h : t.fieldValues? (t.schema.knownFields (t.schema.record id).fields) parts = some values) :
    Slots.after (t.schema.knownFields (t.schema.record id).fields) (Builder.new t id).slots values =
      t.lastSlots id parts := by
  rw [Slots.after, Builder.new, Schema.knownFields, List.zipWith_map, List.zipWith_self, lastSlots]
  refine List.map_congr_left fun field hmem => ?_
  rw [lastSlot]
  obtain ⟨hpart, hvalue⟩ | ⟨w, v, hpart, hv, hvalue⟩ :=
    lastFor_values (t.schema.nodup_knownFields hids id) (List.mem_map_of_mem hmem) h
  · rw [hpart, hvalue, Option.none_or]
  · rw [hpart, hvalue, Option.some_or]
    exact hv.symm

theorem readRecord_eq_build (hids : t.schema.HasDistinctIds) {id : Fin n.records}
    {parts : List (Int16 × WireValue)} {source : Source} (hopen : source.frames < maxFrames)
    (hparts : ∀ part ∈ parts, t.AdmitsField id (source.frames + 1) part) :
    t.readRecord id (source.prepend (WireValue.struct parts).bytes) =
      match Builder.build t.schema ⟨id, t.lastSlots id parts⟩ with
      | .ok v => .ok v source
      | .error fault => .error (.build fault) source := by
  obtain ⟨values, hvalues⟩ := exists_fieldValues?_iff.mpr fun part hmem =>
    (hparts part hmem).readable
  have hframes : source.frames + (WireValue.struct parts).frames ≤ maxFrames := by
    have hfields := (WireValue.add_fieldDepth_le_iff hopen).mpr
      fun part hmem => (hparts part hmem).shallow
    change source.frames + (WireValue.fieldDepth _ parts + 1) ≤ maxFrames
    omega
  obtain ⟨fuel, hfuel⟩ : ∃ fuel, maxFrames = fuel + 1 := ⟨63, rfl⟩
  have hrecord : source.frames < maxFrames →
      t.ReadsRecords (source.frames + 1) (t.readRecordWithin fuel) :=
    fun _ => readsRecords_readRecordWithin hids (by omega)
  have hslots := (takesIf_readSlots hids hrecord
    (.struct fun part hmem => (hparts part hmem).wellFormed) hvalues).takes hframes source.unread
  rw [after_new_eq_lastSlots hids hvalues] at hslots
  rw [readRecord, hfuel, readRecordWithin]
  refine (Reader.bind_of_ok hslots).trans ?_
  rw [Builder.build]
  cases (t.schema.record id).build (t.lastSlots id parts) with
  | ok v => rfl
  | error fault => rfl

theorem lastSlots_congr {id : Fin n.records} {parts other : List (Int16 × WireValue)}
    (h : ∀ field ∈ (t.schema.record id).fields,
      other.filter (·.1 == field.id) = parts.filter (·.1 == field.id)) :
    t.lastSlots id other = t.lastSlots id parts := by
  refine List.map_congr_left fun field hmem => ?_
  rw [lastSlot, lastSlot, lastFor, lastFor, h field hmem]

end Target

namespace Demo

/-- Reading a record builds it from the last value of each declared field. Fields that are not
declared change nothing wherever they stand, and neither does the order of fields of different
ids. -/
theorem readRecord_builds_lastSlots {t : Target census} (ht : t ∈ targets)
    (id : Fin census.records) {parts : List (Int16 × WireValue)} (source : Source)
    (hopen : source.frames < maxFrames)
    (hparts : ∀ part ∈ parts, t.AdmitsField id (source.frames + 1) part) :
    t.readRecord id (source.prepend (WireValue.struct parts).bytes) =
        (match Builder.build t.schema ⟨id, t.lastSlots id parts⟩ with
        | .ok v => .ok v source
        | .error fault => .error (.build fault) source) ∧
      (∀ before after extra, parts = before ++ after →
        (∀ field ∈ (t.schema.record id).fields, field.id ≠ extra.1) →
        t.AdmitsField id (source.frames + 1) extra →
        t.readRecord id (source.prepend (WireValue.struct (before ++ extra :: after)).bytes) =
          t.readRecord id (source.prepend (WireValue.struct parts).bytes)) ∧
      ∀ other, (∀ key, other.filter (·.1 == key) = parts.filter (·.1 == key)) →
        t.readRecord id (source.prepend (WireValue.struct other).bytes) =
          t.readRecord id (source.prepend (WireValue.struct parts).bytes) := by
  have hids := hasDistinctIds_of_mem_targets ht
  have hread := Target.readRecord_eq_build hids hopen hparts
  refine ⟨hread, ?_, ?_⟩
  · intro before after extra hsplit hextra hadmits
    have hinserted : ∀ part ∈ before ++ extra :: after,
        t.AdmitsField id (source.frames + 1) part := by
      intro part hmem
      rw [List.mem_append, List.mem_cons] at hmem
      obtain hbefore | rfl | hafter := hmem
      · exact hparts part (hsplit ▸ List.mem_append_left after hbefore)
      · exact hadmits
      · exact hparts part (hsplit ▸ List.mem_append_right before hafter)
    have hslots : t.lastSlots id (before ++ extra :: after) = t.lastSlots id parts := by
      refine Target.lastSlots_congr fun field hmem => ?_
      have hdropped : (extra :: after).filter (·.1 == field.id) =
          after.filter (·.1 == field.id) :=
        List.filter_cons_of_neg (by simpa using (hextra field hmem).symm)
      rw [hsplit, List.filter_append, List.filter_append, hdropped]
    rw [hread, Target.readRecord_eq_build hids hopen hinserted, hslots]
  · intro other hother
    have hrearranged : ∀ part ∈ other, t.AdmitsField id (source.frames + 1) part := by
      intro part hmem
      have hfiltered : part ∈ other.filter (·.1 == part.1) :=
        List.mem_filter.mpr ⟨hmem, beq_self_eq_true _⟩
      rw [hother] at hfiltered
      exact hparts part (List.mem_of_mem_filter hfiltered)
    rw [hread, Target.readRecord_eq_build hids hopen hrearranged,
      Target.lastSlots_congr fun field _ => hother field.id]

def repeatedLimit : List (Int16 × WireValue) :=
  [(1, .i32 3), (9, .struct [(1, .list Tag.void [])]), (1, .i32 4)]

theorem admitsField_limit (v : Int32) : hashed.AdmitsField limitsId 1 (1, .i32 v) where
  wellFormed := .i32 v
  declared := by
    intro field hmem hid
    change field ∈ limits.fields at hmem
    simp only [limits, List.mem_cons, List.not_mem_nil, or_false] at hmem
    obtain rfl | rfl := hmem
    · exact ⟨.i32 v, rfl⟩
    · exact absurd hid (by decide : (2 : Int16) ≠ 1)
  undeclared := fun _ => (by decide : 1 ≤ maxFrames)
  shallow := (by decide : 1 + 0 ≤ maxFrames)

theorem repeatedLimit_admitted :
    ∀ part ∈ repeatedLimit, hashed.AdmitsField limitsId 1 part := by
  intro part hmem
  simp only [repeatedLimit, List.mem_cons, List.not_mem_nil, or_false] at hmem
  obtain rfl | rfl | rfl := hmem
  · exact admitsField_limit 3
  · exact {
      wellFormed := .struct fun part hmem => by
        rw [List.mem_singleton.mp hmem]
        exact .list (by decide) (by simp) (by simp)
      declared := fun field hmem hid =>
        absurd hid ((by decide : ∀ field ∈ limits.fields, field.id ≠ 9) field hmem)
      undeclared := fun _ => by decide
      shallow := by decide }
  · exact admitsField_limit 4

theorem readRecord_repeatedLimit :
    hashed ∈ targets ∧ (∀ part ∈ repeatedLimit, hashed.AdmitsField limitsId 1 part) ∧
      hashed.readRecord limitsId ⟨(WireValue.struct repeatedLimit).bytes, 0⟩ =
        .ok (.record [some (.i32 4), some (.string .owned "all")]) ⟨[], 0⟩ := by
  have hmem : hashed ∈ targets := List.mem_cons_self
  refine ⟨hmem, repeatedLimit_admitted, ?_⟩
  have hread := (readRecord_builds_lastSlots hmem limitsId ⟨[], 0⟩ (by decide)
    repeatedLimit_admitted).1
  rw [Source.prepend, List.append_nil] at hread
  exact hread

end Demo

end WireIdl

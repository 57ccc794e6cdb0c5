import WireIdl.Proofs.Record.LastField

/-! Writing a value and reading it back. Writing has no limit on nesting and reading has, so what
comes back is the value, or the fault of too many open frames. -/

namespace WireIdl

namespace Value

mutual

/-- How many records are nested in each other. -/
def frames : Value → Nat
  | .option (some v) | .pointer _ v => v.frames
  | .seq _ items | .set _ items => itemFrames items
  | .map _ entries => entryFrames entries
  | .record slots => slotFrames slots + 1
  | _ => 0

def itemFrames : List Value → Nat
  | [] => 0
  | item :: items => max item.frames (itemFrames items)

def entryFrames : List (Value × Value) → Nat
  | [] => 0
  | (key, value) :: entries => max (max key.frames value.frames) (entryFrames entries)

def slotFrames : Slots → Nat
  | [] => 0
  | none :: slots => slotFrames slots
  | some v :: slots => max v.frames (slotFrames slots)

end

/-- No text and no container in the value is too long for a 32-bit length. -/
inductive Short : Value → Prop where
  | bool (v : Bool) : Short (.bool v)
  | byte (v : Int8) : Short (.byte v)
  | ubyte (v : UInt8) : Short (.ubyte v)
  | i16 (v : Int16) : Short (.i16 v)
  | i32 (v : Int32) : Short (.i32 v)
  | i64 (v : Int64) : Short (.i64 v)
  | double (v : Double) : Short (.double v)
  | enum (v : Int32) : Short (.enum v)
  | string {form : TextForm} {v : String} (length : (Bytes.ofString v).length < 2 ^ 31) :
      Short (.string form v)
  | binary {v : Bytes} (length : v.length < 2 ^ 31) : Short (.binary v)
  | option {v : Option Value} (part : ∀ w ∈ v, Short w) : Short (.option v)
  | pointer {form : PointerForm} {v : Value} (part : Short v) : Short (.pointer form v)
  | seq {form : SeqForm} {items : List Value} (length : items.length < 2 ^ 31)
      (parts : ∀ item ∈ items, Short item) : Short (.seq form items)
  | set {form : KeyedForm} {items : List Value} (length : items.length < 2 ^ 31)
      (parts : ∀ item ∈ items, Short item) : Short (.set form items)
  | map {form : KeyedForm} {entries : List (Value × Value)} (length : entries.length < 2 ^ 31)
      (keys : ∀ entry ∈ entries, Short entry.1) (values : ∀ entry ∈ entries, Short entry.2) :
      Short (.map form entries)
  | record {slots : Slots} (parts : ∀ slot ∈ slots, ∀ v ∈ slot, Short v) : Short (.record slots)

end Value

theorem Encoding.collectionSize_of_lt {length : Nat} (h : length < 2 ^ 31) :
    collectionSize length = .ok (Int32.ofNat length) :=
  if_pos (Nat.le_of_lt_succ h)

theorem Encoding.sized_of_lt {length : Nat} (h : length < 2 ^ 31) (output : Int32 → Output) :
    sized length output = output (Int32.ofNat length) := by
  rw [sized, collectionSize_of_lt h]

theorem Encoding.binary_of_lt {bytes : Bytes} (h : bytes.length < 2 ^ 31) :
    Encoding.binary bytes = .ok (Bytes.ofI32 (Int32.ofNat bytes.length) ++ bytes) := by
  rw [Encoding.binary, sized_of_lt h]

variable {n : Census}

namespace Target

/-- A value and its form on the wire: the bytes are the same, and so is what they stand for. -/
structure Codes (t : Target n) (shape : Shape n) (v : Value) (w : WireValue) : Prop where
  encoded : t.schema.encode shape v = .ok w.bytes
  wellFormed : w.WellFormed
  meaning : t.valueOf? shape w = some v
  frames : w.frames = v.frames

variable {t : Target n}

theorem codes_bool (v : Bool) : t.Codes .bool (.bool v) (.bool (if v then 1 else 0)) where
  encoded := rfl
  wellFormed := .bool _
  meaning := by cases v <;> rfl
  frames := rfl

theorem codes_byte (v : Int8) : t.Codes .byte (.byte v) (.byte v.toUInt8) where
  encoded := rfl
  wellFormed := .byte _
  meaning := rfl
  frames := rfl

theorem codes_string {v : String} (h : (Bytes.ofString v).length < 2 ^ 31) :
    t.Codes .string (.string .owned v) (.string (Bytes.ofString v)) where
  encoded := Encoding.binary_of_lt h
  wellFormed := .string h
  meaning := by
    rw [valueOf?_string, Bytes.toString?_ofString]
    rfl
  frames := rfl

section Items

variable {shape : Shape n} {items : List Value} {parts : List WireValue}

theorem encodeItems_of_codes (h : List.Forall₂ (t.Codes shape) items parts) :
    t.schema.encodeItems shape items = .ok (WireValue.itemBytes parts) := by
  induction h with
  | nil => rfl
  | cons hfirst _ ih =>
      rw [Schema.encodeItems, hfirst.encoded, ih]
      rfl

theorem itemValues?_of_codes (h : List.Forall₂ (t.Codes shape) items parts) :
    t.itemValues? shape parts = some items :=
  itemValues?_eq_some_iff.mpr (List.Forall₂.flip (h.imp fun _ _ hcodes => hcodes.meaning))

theorem itemFrames_of_codes (h : List.Forall₂ (t.Codes shape) items parts) :
    WireValue.itemDepth (fun type => if type = .struct then 1 else 0) parts =
      Value.itemFrames items := by
  induction h with
  | nil => rfl
  | cons hfirst _ ih => rw [WireValue.itemDepth, Value.itemFrames, ih, ← hfirst.frames]; rfl

theorem wellFormed_of_codes (h : List.Forall₂ (t.Codes shape) items parts) :
    ∀ w ∈ parts, w.WellFormed :=
  forall_mem_of_forall₂ (h.imp fun _ _ hcodes => hcodes.wellFormed)

theorem tag_of_codes (h : List.Forall₂ (t.Codes shape) items parts) :
    ∀ w ∈ parts, w.tag = shape.tag :=
  forall_mem_of_forall₂ (h.imp fun _ _ hcodes => tag_of_valueOf? hcodes.meaning)

end Items

theorem codes_list {written : Ty n} {element : Unit → Shape n} {items : List Value}
    {parts : List WireValue} (hlength : items.length < 2 ^ 31)
    (h : List.Forall₂ (t.Codes (element ())) items parts) :
    t.Codes (.list written element) (.seq t.config.list.toSeq items)
      (.list (element ()).tag parts) where
  encoded := by
    rw [Schema.encode, Encoding.sized_of_lt hlength, Shape.element,
      encodeItems_of_codes h, h.length_eq]
    rfl
  wellFormed := .list (h.length_eq ▸ hlength) (tag_of_codes h) (wellFormed_of_codes h)
  meaning := by
    rw [valueOf?_list, itemValues?_of_codes h]
    rfl
  frames := itemFrames_of_codes h

theorem codes_set {written : Ty n} {element : Unit → Shape n} {items : List Value}
    {parts : List WireValue} (hlength : items.length < 2 ^ 31)
    (hwalk : items.Pairwise (Value.Before t.config.set))
    (h : List.Forall₂ (t.Codes (element ())) items parts) :
    t.Codes (.set written element) (.set t.config.set items) (.set (element ()).tag parts) where
  encoded := by
    rw [Schema.encode, Encoding.sized_of_lt hlength, Shape.element,
      encodeItems_of_codes h, h.length_eq]
    rfl
  wellFormed := .set (h.length_eq ▸ hlength) (tag_of_codes h) (wellFormed_of_codes h)
  meaning := by
    rw [valueOf?_set, itemValues?_of_codes h, Option.map_some, Value.setOf_of_pairwise hwalk]
  frames := itemFrames_of_codes h

section Entries

variable {keyShape valueShape : Shape n} {entries : List (Value × Value)}
  {parts : List (WireValue × WireValue)}

def CodesEntry (t : Target n) (keyShape valueShape : Shape n) (entry : Value × Value)
    (part : WireValue × WireValue) : Prop :=
  t.Codes keyShape entry.1 part.1 ∧ t.Codes valueShape entry.2 part.2

theorem encodeEntries_of_codes
    (h : List.Forall₂ (t.CodesEntry keyShape valueShape) entries parts) :
    t.schema.encodeEntries keyShape valueShape entries = .ok (WireValue.entryBytes parts) := by
  induction h with
  | nil => rfl
  | cons hfirst _ ih =>
      rw [Schema.encodeEntries, hfirst.1.encoded, hfirst.2.encoded, ih]
      rfl

theorem entryValues?_of_codes
    (h : List.Forall₂ (t.CodesEntry keyShape valueShape) entries parts) :
    t.entryValues? keyShape valueShape parts = some entries :=
  entryValues?_eq_some_iff.mpr
    (List.Forall₂.flip (h.imp fun _ _ hcodes => ⟨hcodes.1.meaning, hcodes.2.meaning⟩))

theorem entryFrames_of_codes
    (h : List.Forall₂ (t.CodesEntry keyShape valueShape) entries parts) :
    WireValue.entryDepth (fun type => if type = .struct then 1 else 0) parts =
      Value.entryFrames entries := by
  induction h with
  | nil => rfl
  | cons hfirst _ ih =>
      rw [WireValue.entryDepth, Value.entryFrames, ih, ← hfirst.1.frames, ← hfirst.2.frames]
      rfl

end Entries

theorem codes_map {writtenKey writtenValue : Ty n} {key value : Unit → Shape n}
    {entries : List (Value × Value)} {parts : List (WireValue × WireValue)}
    (hlength : entries.length < 2 ^ 31)
    (hwalk : entries.Pairwise fun a b => Value.Before t.config.map a.1 b.1)
    (h : List.Forall₂ (t.CodesEntry (key ()) (value ())) entries parts) :
    t.Codes (.map writtenKey key writtenValue value) (.map t.config.map entries)
      (.map (key ()).tag (value ()).tag parts) where
  encoded := by
    rw [Schema.encode, Encoding.sized_of_lt hlength, Shape.key, Shape.value,
      encodeEntries_of_codes h, h.length_eq]
    rfl
  wellFormed := by
    refine .map (h.length_eq ▸ hlength) ?_ ?_ ?_ ?_
    · exact forall_mem_of_forall₂ (h.imp fun _ _ hcodes => tag_of_valueOf? hcodes.1.meaning)
    · exact forall_mem_of_forall₂ (h.imp fun _ _ hcodes => tag_of_valueOf? hcodes.2.meaning)
    · exact forall_mem_of_forall₂ (h.imp fun _ _ hcodes => hcodes.1.wellFormed)
    · exact forall_mem_of_forall₂ (h.imp fun _ _ hcodes => hcodes.2.wellFormed)
  meaning := by
    rw [valueOf?_map, entryValues?_of_codes h, Option.map_some, Value.mapOf_of_pairwise hwalk]
  frames := entryFrames_of_codes h

inductive Written (t : Target n) :
    List (Field n) → Slots → List (Int16 × WireValue) → Prop where
  | nil : Written t [] [] []
  | absent {field : Field n} {fields : List (Field n)} {slots : Slots}
      {parts : List (Int16 × WireValue)} (default : t.defaultValue? field = none)
      (rest : Written t fields slots parts) : Written t (field :: fields) (none :: slots) parts
  | present {field : Field n} {fields : List (Field n)} {slots : Slots}
      {parts : List (Int16 × WireValue)} {v : Value} {w : WireValue}
      (codes : t.Codes (t.schema.shape field.ty) v w) (rest : Written t fields slots parts) :
      Written t (field :: fields) (some v :: slots) ((field.id, w) :: parts)

namespace Written

variable {fields : List (Field n)} {slots : Slots} {parts : List (Int16 × WireValue)}

theorem encodeFields (h : t.Written fields slots parts) :
    t.schema.encodeFields fields slots = .ok (WireValue.fieldBytes parts) := by
  induction h with
  | nil => rfl
  | absent _ _ ih =>
      rw [Schema.encodeFields]
      exact ih
  | present hcodes _ ih =>
      rw [Schema.encodeFields, hcodes.encoded, ih, ← tag_of_valueOf? hcodes.meaning]
      rfl

theorem slotFrames (h : t.Written fields slots parts) :
    WireValue.fieldDepth (fun type => if type = .struct then 1 else 0) parts =
      Value.slotFrames slots := by
  induction h with
  | nil => rfl
  | absent _ _ ih => exact ih
  | present hcodes _ ih =>
      rw [WireValue.fieldDepth, Value.slotFrames, ih, ← hcodes.frames]
      rfl

theorem wellFormed (h : t.Written fields slots parts) : ∀ part ∈ parts, part.2.WellFormed := by
  induction h with
  | nil => simp
  | absent _ _ ih => exact ih
  | present hcodes _ ih => exact List.forall_mem_cons.mpr ⟨hcodes.wellFormed, ih⟩

theorem declared (h : t.Written fields slots parts) :
    ∀ part ∈ parts, ∃ field ∈ fields, field.id = part.1 ∧
      ∃ v, t.valueOf? (t.schema.shape field.ty) part.2 = some v := by
  induction h with
  | nil => simp
  | absent _ _ ih =>
      intro part hmem
      obtain ⟨field, hfield, hpart⟩ := ih part hmem
      exact ⟨field, List.mem_cons_of_mem _ hfield, hpart⟩
  | present hcodes _ ih =>
      intro part hmem
      cases hmem with
      | head => exact ⟨_, List.mem_cons_self, rfl, _, hcodes.meaning⟩
      | tail _ hmem =>
          obtain ⟨field, hfield, hpart⟩ := ih part hmem
          exact ⟨field, List.mem_cons_of_mem _ hfield, hpart⟩

theorem lastFor_eq_none {id : Int16} (h : t.Written fields slots parts)
    (hid : id ∉ fields.map (·.id)) : lastFor id parts = none := by
  rw [lastFor, Option.map_eq_none_iff, List.getLast?_eq_none_iff, List.filter_eq_nil_iff]
  intro part hmem heq
  obtain ⟨field, hfield, hpart, _⟩ := h.declared part hmem
  rw [← beq_iff_eq.mp heq, ← hpart] at hid
  exact hid (List.mem_map_of_mem hfield)

theorem lastSlots (h : t.Written fields slots parts) (hids : (fields.map (·.id)).Nodup) :
    fields.map (t.lastSlot parts) = slots := by
  induction h with
  | nil => rfl
  | absent hdefault hrest ih =>
      rw [List.map_cons, List.nodup_cons] at hids
      rw [List.map_cons, lastSlot, hrest.lastFor_eq_none hids.1, ih hids.2, hdefault]
  | present hcodes hrest ih =>
      rename_i field fields slots parts v w
      rw [List.map_cons, List.nodup_cons] at hids
      have hothers : ∀ other ∈ fields, field.id ≠ other.id := fun other hmem heq =>
        hids.1 (heq ▸ List.mem_map_of_mem hmem)
      have hrests : fields.map (t.lastSlot ((field.id, w) :: parts)) = slots := by
        rw [← ih hids.2]
        refine List.map_congr_left fun other hmem => ?_
        rw [lastSlot, lastSlot, lastFor_cons_of_ne (hothers other hmem)]
      rw [List.map_cons, hrests, lastSlot, lastFor_cons_self, hrest.lastFor_eq_none hids.1]
      exact congrArg (· :: slots) hcodes.meaning

end Written

theorem codes_record (hids : t.schema.HasDistinctIds) {id : Fin n.records} {slots : Slots}
    {parts : List (Int16 × WireValue)}
    (h : t.Written (t.schema.record id).fields slots parts)
    (hbuilt : (t.schema.record id).build slots = .ok (.record slots)) :
    t.Codes (.record id) (.record slots) (.struct parts) where
  encoded := h.encodeFields
  wellFormed := .struct h.wellFormed
  meaning := by
    have hreadable : ∀ part ∈ parts,
        t.Readable (t.schema.knownFields (t.schema.record id).fields) part := by
      intro part hmem
      obtain ⟨field, hfield, hid, hmeaning⟩ := h.declared part hmem
      rw [Readable, ← hid, find?_knownField (t.schema.nodup_knownFields hids id)
        (List.mem_map_of_mem hfield)]
      exact hmeaning
    obtain ⟨values, hvalues⟩ := exists_fieldValues?_iff.mpr hreadable
    rw [valueOf?_struct, hvalues, Option.bind_some, after_new_eq_lastSlots hids hvalues,
      Target.lastSlots, h.lastSlots (hids id), hbuilt]
    rfl
  frames := congrArg (· + 1) h.slotFrames

theorem exists_written {fields : List (Field n)} {slots : Slots}
    (hlength : fields.length = slots.length)
    (hparts : ∀ pair ∈ fields.zip slots, ∀ v ∈ pair.2,
      ∃ w, t.Codes (t.schema.shape pair.1.ty) v w)
    (hdefaults : ∀ pair ∈ fields.zip slots, pair.2 = none → t.defaultValue? pair.1 = none) :
    ∃ parts, t.Written fields slots parts := by
  induction fields generalizing slots with
  | nil =>
      cases slots with
      | nil => exact ⟨[], .nil⟩
      | cons slot slots => cases hlength
  | cons field fields ih =>
      cases slots with
      | nil => cases hlength
      | cons slot slots =>
          rw [List.zip_cons_cons, List.forall_mem_cons] at hparts hdefaults
          obtain ⟨parts, hrest⟩ := ih (Nat.succ.inj hlength) hparts.2 hdefaults.2
          cases slot with
          | none => exact ⟨parts, .absent (hdefaults.1 rfl) hrest⟩
          | some v =>
              obtain ⟨w, hcodes⟩ := hparts.1 v rfl
              exact ⟨(field.id, w) :: parts, .present hcodes hrest⟩

theorem Fits.exists_codes (hids : t.schema.HasDistinctIds) {shape : Shape n} {v : Value}
    (h : t.Fits shape v) (hshort : v.Short) : ∃ w, t.Codes shape v w := by
  induction h with
  | bool v => exact ⟨_, codes_bool v⟩
  | byte v => exact ⟨_, codes_byte v⟩
  | i16 v => exact ⟨.i16 v, rfl, .i16 v, rfl, rfl⟩
  | i32 v => exact ⟨.i32 v, rfl, .i32 v, rfl, rfl⟩
  | i64 v => exact ⟨.i64 v, rfl, .i64 v, rfl, rfl⟩
  | double v => exact ⟨.double v, rfl, .double v, rfl, rfl⟩
  | string v =>
      cases hshort with
      | string hlength => exact ⟨_, codes_string hlength⟩
  | binary v =>
      cases hshort with
      | binary hlength =>
          exact ⟨.string v, Encoding.binary_of_lt hlength, .string hlength, rfl, rfl⟩
  | enum hmember =>
      rename_i id v
      obtain ⟨member, hmember⟩ := Option.isSome_iff_exists.mp hmember
      refine ⟨.i32 v, rfl, .i32 v, ?_, rfl⟩
      rw [valueOf?_enum, hmember]
      rfl
  | list parts ih =>
      cases hshort with
      | seq hlength hparts =>
          obtain ⟨ws, hws⟩ := exists_forall₂ fun item hmem => ih item hmem (hparts item hmem)
          exact ⟨_, codes_list hlength hws⟩
  | set walk parts ih =>
      cases hshort with
      | set hlength hparts =>
          obtain ⟨ws, hws⟩ := exists_forall₂ fun item hmem => ih item hmem (hparts item hmem)
          exact ⟨_, codes_set hlength walk hws⟩
  | map walk keys values ihKeys ihValues =>
      rename_i writtenKey writtenValue key value entries
      cases hshort with
      | map hlength hkeys hvalues =>
          have hentries : ∀ entry ∈ entries, ∃ part,
              t.CodesEntry (key ()) (value ()) entry part := by
            intro entry hmem
            obtain ⟨k, hk⟩ := ihKeys entry hmem (hkeys entry hmem)
            obtain ⟨w, hw⟩ := ihValues entry hmem (hvalues entry hmem)
            exact ⟨(k, w), hk, hw⟩
          obtain ⟨ws, hws⟩ := exists_forall₂ hentries
          exact ⟨_, codes_map hlength walk hws⟩
  | record length parts defaults built ih =>
      cases hshort with
      | record hparts =>
          obtain ⟨ws, hws⟩ := exists_written length
            (fun pair hmem v hv =>
              ih pair hmem v hv (hparts pair.2 (List.of_mem_zip hmem).2 v hv)) defaults
          exact ⟨_, codes_record hids hws built⟩

end Target

namespace Demo

/-- Whatever a builder builds can be written, and reading it back gives the same value and leaves
what follows, unless too many frames would be open at a time. The value may come with its hashed
containers walked in any order. -/
theorem readRecord_of_encodeRecord {t : Target census} (ht : t ∈ targets) {b : Builder census}
    {v : Value} (hb : t.Collects b) (hv : b.build t.schema = .ok v) (hshort : v.Short) :
    ∃ bytes, t.schema.encodeRecord b.id v = .ok bytes ∧ ∀ rest,
      (v.frames ≤ maxFrames →
        ∃ u, t.readRecord b.id ⟨bytes ++ rest, 0⟩ = .ok u ⟨rest, 0⟩ ∧
          ∀ w, v.Rewalk w → u.same w = true) ∧
      (maxFrames < v.frames →
        ∃ left, t.readRecord b.id ⟨bytes ++ rest, 0⟩ = .error (.depthLimit maxFrames) left) := by
  have hids := hasDistinctIds_of_mem_targets ht
  have hfits := hb.fits_of_build (defaultsFit_of_mem_targets ht) hv
  obtain ⟨w, hcodes⟩ := hfits.exists_codes hids hshort
  have hread : Reader.TakesIf (0 + w.frames ≤ maxFrames) (t.readRecord b.id) 0 w.bytes v :=
    Target.readsRecords_readRecordWithin hids (Nat.le_add_left maxFrames 0) hcodes.wellFormed
      hcodes.meaning
  rw [Nat.zero_add, hcodes.frames] at hread
  refine ⟨w.bytes, hcodes.encoded, fun rest => ⟨fun hframes => ?_, fun hframes => ?_⟩⟩
  · exact ⟨v, hread.takes hframes rest, fun _ hwalk => hfits.same_of_rewalk hwalk⟩
  · exact hread.refuses (Nat.not_le.mpr hframes) rest

def withScopes (first second : String) : Value :=
  .record [some (.string .owned "user"), none, none,
    some (.set .hashed [.string .owned first, .string .owned second]), none]

def scopesBuilder : Builder census :=
  ((Builder.new hashed credentialsId).set 0 (.string .owned "user")).set 3
    (.set .hashed [.string .owned "write", .string .owned "read"])

theorem scopesBuilder_collects : hashed.Collects scopesBuilder := by
  refine .set (.set (.new credentialsId) rfl (.string "user")) rfl (.set ?_ ?_)
  · refine List.pairwise_pair.mpr ⟨?_, ?_, nofun⟩
    · simp [Value.same]
    · simp [Value.same]
  · simp only [List.mem_cons, List.not_mem_nil, or_false]
    intro item hitem
    obtain rfl | rfl := hitem
    · exact .string "write"
    · exact .string "read"

theorem withScopes_short : (withScopes "write" "read").Short := by
  refine .record fun slot hslot v hv => ?_
  simp only [List.mem_cons, List.not_mem_nil, or_false] at hslot
  obtain rfl | rfl | rfl | rfl | rfl := hslot
  · cases hv
    exact .string (by decide)
  · cases hv
  · cases hv
  · cases hv
    refine .set (by decide) fun item hitem => ?_
    simp only [List.mem_cons, List.not_mem_nil, or_false] at hitem
    obtain rfl | rfl := hitem
    · exact .string (by decide)
    · exact .string (by decide)
  · cases hv

theorem withScopes_rewalk (first second : String) :
    (withScopes first second).Rewalk (withScopes second first) := by
  refine .record rfl fun pair hpair v hv w hw => ?_
  simp only [List.zip_cons_cons, List.zip_nil_left, List.mem_cons, List.not_mem_nil, or_false]
    at hpair
  obtain rfl | rfl | rfl | rfl | rfl := hpair
  · cases hv
    cases hw
    exact .refl _
  · cases hv
  · cases hv
  · cases hv
    cases hw
    exact .set (.swap _ _ _)
  · cases hv

theorem readRecord_withScopes :
    hashed ∈ targets ∧ hashed.Collects scopesBuilder ∧
      scopesBuilder.build hashed.schema = .ok (withScopes "write" "read") ∧
      (withScopes "write" "read").Short ∧
      ∃ bytes u, hashed.schema.encodeRecord credentialsId (withScopes "write" "read") = .ok bytes ∧
        hashed.readRecord credentialsId ⟨bytes ++ [7], 0⟩ = .ok u ⟨[7], 0⟩ ∧
        u.same (withScopes "read" "write") = true := by
  have hmem : hashed ∈ targets := List.mem_cons_self
  have hbuild : scopesBuilder.build hashed.schema = .ok (withScopes "write" "read") := rfl
  refine ⟨hmem, scopesBuilder_collects, hbuild, withScopes_short, ?_⟩
  obtain ⟨bytes, hencode, hread⟩ :=
    readRecord_of_encodeRecord hmem scopesBuilder_collects hbuild withScopes_short
  obtain ⟨u, hu, hsame⟩ := (hread [7]).1 (by decide)
  exact ⟨bytes, u, hencode, hu, hsame _ (withScopes_rewalk "write" "read")⟩

end Demo

end WireIdl

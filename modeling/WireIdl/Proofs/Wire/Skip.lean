import WireIdl.Proofs.Wire.Grammar
import WireIdl.Wire.Skip

/-! Skipping takes the values of the grammar, as far as they stay within its two limits, and takes
nothing else. -/

namespace WireIdl

namespace WireValue

/-- The limits of a skip that may go down `levels` more values while `opened` frames are open. -/
def Within (levels opened : Nat) (w : WireValue) : Prop :=
  w.nest ≤ levels ∧ opened + w.frames ≤ maxFrames

variable {levels opened : Nat}

theorem within_fields_iff {fields : List (Int16 × WireValue)} (hopened : opened ≤ maxFrames) :
    (∀ field ∈ fields, field.2.Within levels opened) ↔
      fieldDepth (fun _ => 1) fields ≤ levels ∧
        opened + fieldDepth (fun type => if type = .struct then 1 else 0) fields ≤ maxFrames := by
  rw [fieldDepth_le_iff, add_fieldDepth_le_iff hopened, ← forall₂_and]
  rfl

theorem within_items_iff {items : List WireValue} (hopened : opened ≤ maxFrames) :
    (∀ w ∈ items, w.Within levels opened) ↔
      itemDepth (fun _ => 1) items ≤ levels ∧
        opened + itemDepth (fun type => if type = .struct then 1 else 0) items ≤ maxFrames := by
  rw [itemDepth_le_iff, add_itemDepth_le_iff hopened, ← forall₂_and]
  rfl

theorem within_entries_iff {entries : List (WireValue × WireValue)} (hopened : opened ≤ maxFrames) :
    (∀ entry ∈ entries, entry.1.Within levels opened ∧ entry.2.Within levels opened) ↔
      entryDepth (fun _ => 1) entries ≤ levels ∧
        opened + entryDepth (fun type => if type = .struct then 1 else 0) entries ≤ maxFrames := by
  rw [entryDepth_le_iff, add_entryDepth_le_iff hopened, ← forall₂_and]
  exact forall₂_congr fun entry _ => and_and_and_comm

end WireValue

theorem WireType.tag_of_ofTag? {tag : Tag} {type : WireType}
    (h : WireType.ofTag? tag = some type) : type.tag = tag := by
  apply UInt8.toNat_inj.mp
  rw [WireType.ofTag?] at h
  split at h <;> cases h <;> exact Eq.symm ‹_›

namespace Reader

theorem fields_succ {σ : Type} (field : FieldHeader → σ → Reader σ) (steps : Nat) (state : σ) :
    fields field (steps + 1) state = fieldHeader >>= fun header =>
      if header.tag = Tag.stop then pure state else field header state >>= fields field steps := by
  rw [fields]

/-- The loop over the fields of a struct: `next` says what each field does to the state. -/
theorem TakesIf.fields {σ : Type} {field : FieldHeader → σ → Reader σ} {frames : Nat}
    {parts : List (Int16 × WireValue)} {fits : Int16 × WireValue → Prop} (inv : σ → Prop)
    (next : σ → Int16 × WireValue → σ)
    (hfield : ∀ part ∈ parts, ∀ state, inv state →
      TakesIf (fits part) (field ⟨part.2.tag, part.1⟩ state) frames part.2.bytes (next state part))
    (hinv : ∀ part ∈ parts, ∀ state, inv state → inv (next state part))
    {start : σ} (hstart : inv start) {steps : Nat}
    (hsteps : (WireValue.fieldBytes parts).length ≤ steps) :
    TakesIf (∀ part ∈ parts, fits part) (Reader.fields field steps start) frames
      (WireValue.fieldBytes parts) (parts.foldl next start) := by
  induction parts generalizing start steps with
  | nil =>
      cases steps with
      | zero => simp [WireValue.fieldBytes, Encoding.fieldStop] at hsteps
      | succ steps =>
          refine (always fun rest => ?_).congr (by simp)
          rw [fields_succ]
          refine bind_eq_ok.mpr ⟨_, rest, fieldHeader_eq_ok.mpr (.inl ⟨rfl, rfl⟩), ?_⟩
          rw [if_pos rfl]
          rfl
  | cons part parts ih =>
      obtain ⟨id, w⟩ := part
      cases steps with
      | zero => simp [WireValue.fieldBytes, Encoding.fieldHeader] at hsteps
      | succ steps =>
          have hfirst := hfield (id, w) List.mem_cons_self start hstart
          have hsteps : (WireValue.fieldBytes parts).length ≤ steps := by
            simp only [WireValue.fieldBytes, Encoding.fieldHeader, List.length_append,
              List.length_cons] at hsteps
            omega
          have hrest := ih
            (fun other hother => hfield other (List.mem_cons_of_mem _ hother))
            (fun other hother => hinv other (List.mem_cons_of_mem _ hother))
            (hinv (id, w) List.mem_cons_self start hstart) hsteps
          rw [fields_succ, WireValue.fieldBytes, List.append_assoc]
          refine TakesIf.after (a := ⟨w.tag, id⟩)
            (fun rest => fieldHeader_eq_ok.mpr (.inr ⟨w.tag_ne_stop, rfl⟩)) ?_
          rw [if_neg w.tag_ne_stop]
          exact (hfirst.bind hrest).congr List.forall_mem_cons.symm

theorem TakesIf.skip_leaf {α : Type} {item : Reader α} {w : WireValue} {a : α}
    {levels opened : Nat} (hopened : opened ≤ maxFrames)
    (hskip : Reader.skipWithin (levels + 1) w.tag = discard item)
    (hitem : ∀ rest : Source, item (rest.prepend w.bytes) = .ok a rest)
    (hnest : w.nest = 1) (hframes : w.frames = 0) :
    TakesIf (w.Within (levels + 1) opened) (Reader.skipWithin (levels + 1) w.tag) opened
      w.bytes () := by
  rw [hskip]
  refine (always fun rest => discard_eq_ok.mpr ⟨a, hitem rest⟩).congr ?_
  rw [WireValue.Within, hnest, hframes]
  exact iff_of_true trivial ⟨Nat.le_add_left 1 levels, hopened⟩

theorem TakesIf.skip_items {element : Tag} {items : List WireValue} {levels opened : Nat}
    (hlength : items.length < 2 ^ 31)
    (hitems : ∀ w ∈ items,
      TakesIf (w.Within levels opened) (Reader.skipWithin levels element) opened w.bytes ()) :
    TakesIf (∀ w ∈ items, w.Within levels opened)
      (Reader.itemsHeader >>= fun header =>
        Reader.times (Reader.skipWithin levels header.element) header.size) opened
      (Encoding.itemsHeader element (Int32.ofNat items.length) ++ WireValue.itemBytes items)
      () := by
  rw [WireValue.itemBytes_eq_flatMap]
  exact TakesIf.after (a := ⟨element, items.length⟩)
    (fun rest => itemsHeader_eq_ok.mpr ⟨hlength, rfl⟩) (TakesIf.times hitems)

theorem TakesIf.skip_entries {key value : Tag} {entries : List (WireValue × WireValue)}
    {levels opened : Nat} (hlength : entries.length < 2 ^ 31)
    (hkeys : ∀ entry ∈ entries, TakesIf (entry.1.Within levels opened)
      (Reader.skipWithin levels key) opened entry.1.bytes ())
    (hvalues : ∀ entry ∈ entries, TakesIf (entry.2.Within levels opened)
      (Reader.skipWithin levels value) opened entry.2.bytes ()) :
    TakesIf (∀ entry ∈ entries, entry.1.Within levels opened ∧ entry.2.Within levels opened)
      (Reader.entriesHeader >>= fun header =>
        Reader.times
          (Reader.skipWithin levels header.key >>= fun _ =>
            Reader.skipWithin levels header.value)
          header.size) opened
      (Encoding.entriesHeader key value (Int32.ofNat entries.length) ++
        WireValue.entryBytes entries) () := by
  rw [WireValue.entryBytes_eq_flatMap]
  exact TakesIf.after (a := ⟨key, value, entries.length⟩)
    (fun rest => entriesHeader_eq_ok.mpr ⟨hlength, rfl⟩)
    (TakesIf.times fun entry hmem => (hkeys entry hmem).bind (hvalues entry hmem))

theorem TakesIf.skipWithin {w : WireValue} (hw : w.WellFormed) (levels : Nat) {opened : Nat}
    (hopened : opened ≤ maxFrames) :
    TakesIf (w.Within levels opened) (Reader.skipWithin levels w.tag) opened w.bytes () := by
  -- The induction is on the levels that are left; the frames that are open go up on the way down.
  induction levels generalizing w opened with
  | zero =>
      refine (never fun rest => ⟨_, rfl⟩).congr ?_
      have := w.one_le_nest
      exact iff_of_false id fun hwithin => by have := hwithin.1; omega
  | succ levels ih =>
      cases hw with
      | bool v | byte v =>
          exact skip_leaf hopened rfl (fun _ => rawByte_eq_ok.mpr rfl) rfl rfl
      | i16 v => exact skip_leaf hopened rfl (fun _ => i16_eq_ok.mpr rfl) rfl rfl
      | i32 v | enum v => exact skip_leaf hopened rfl (fun _ => i32_eq_ok.mpr rfl) rfl rfl
      | i64 v => exact skip_leaf hopened rfl (fun _ => i64_eq_ok.mpr rfl) rfl rfl
      | double v => exact skip_leaf hopened rfl (fun _ => double_eq_ok.mpr rfl) rfl rfl
      | string hlength =>
          exact skip_leaf hopened rfl (fun _ => binary_eq_ok.mpr ⟨hlength, rfl⟩) rfl rfl
      | @struct fields hparts =>
          have hbody : opened < maxFrames → ∀ steps, (WireValue.fieldBytes fields).length ≤ steps →
              TakesIf (∀ field ∈ fields, field.2.Within levels (opened + 1))
                (Reader.fields (fun header _ => Reader.skipWithin levels header.tag) steps ())
                (opened + 1) (WireValue.fieldBytes fields) () := by
            intro hlt steps hsteps
            exact TakesIf.fields (fun _ => True) (fun _ _ => ())
              (fun field hfield _ _ => ih (hparts field hfield) hlt) (fun _ _ _ _ => trivial)
              trivial hsteps
          refine (TakesIf.frame hbody).congr ?_
          change _ ↔ WireValue.fieldDepth _ fields + 1 ≤ levels + 1 ∧
            opened + (WireValue.fieldDepth _ fields + 1) ≤ maxFrames
          constructor
          · intro hboth
            rcases hboth with ⟨hlt, hfields⟩
            have := (WireValue.within_fields_iff hlt).mp hfields
            omega
          · intro hwithin
            have hlt : opened < maxFrames := by omega
            exact ⟨hlt, (WireValue.within_fields_iff hlt).mpr (by omega)⟩
      | @list element items hlength htags hparts | @set element items hlength htags hparts =>
          have hitems : ∀ w ∈ items, TakesIf (w.Within levels opened)
              (Reader.skipWithin levels element) opened w.bytes () := by
            intro w hmem
            rw [← htags w hmem]
            exact ih (hparts w hmem) hopened
          refine (TakesIf.skip_items hlength hitems).congr ?_
          rw [WireValue.within_items_iff hopened]
          exact and_congr_left' Nat.succ_le_succ_iff.symm
      | @map key value entries hlength hkeyTags hvalueTags hkeys hvalues =>
          have hkeys : ∀ entry ∈ entries, TakesIf (entry.1.Within levels opened)
              (Reader.skipWithin levels key) opened entry.1.bytes () := by
            intro entry hmem
            rw [← hkeyTags entry hmem]
            exact ih (hkeys entry hmem) hopened
          have hvalues : ∀ entry ∈ entries, TakesIf (entry.2.Within levels opened)
              (Reader.skipWithin levels value) opened entry.2.bytes () := by
            intro entry hmem
            rw [← hvalueTags entry hmem]
            exact ih (hvalues entry hmem) hopened
          refine (TakesIf.skip_entries hlength hkeys hvalues).congr ?_
          rw [WireValue.within_entries_iff hopened]
          exact and_congr_left' Nat.succ_le_succ_iff.symm

/-! The other way: what a skip has taken. -/

theorem parts_of_times {ω : Type} {item : Reader Unit} (encode : ω → Bytes) (good : ω → Prop)
    {frames : Nat}
    (hitem : ∀ {source rest : Source}, source.frames = frames → item source = .ok () rest →
      ∃ part, good part ∧ source = rest.prepend (encode part))
    {count : Nat} {source rest : Source} (hframes : source.frames = frames)
    (h : times item count source = .ok () rest) :
    ∃ parts : List ω, parts.length = count ∧ (∀ part ∈ parts, good part) ∧
      source = rest.prepend (parts.flatMap encode) := by
  induction count generalizing source with
  | zero =>
      obtain ⟨-, rfl⟩ := pure_eq_ok.mp h
      exact ⟨[], rfl, by simp, rfl⟩
  | succ count ih =>
      obtain ⟨_, middle, hfirst, hrest⟩ := bind_eq_ok.mp h
      obtain ⟨part, hgood, rfl⟩ := hitem hframes hfirst
      have hmiddle : middle.frames = frames := hframes
      obtain ⟨parts, rfl, hparts, rfl⟩ := ih hmiddle hrest
      refine ⟨part :: parts, rfl, List.forall_mem_cons.mpr ⟨hgood, hparts⟩, ?_⟩
      rw [Source.prepend_prepend, List.flatMap_cons]

theorem parts_of_fields {σ : Type} {field : FieldHeader → σ → Reader σ} (good : WireValue → Prop)
    {frames : Nat}
    (hfield : ∀ {header : FieldHeader} {state final : σ} {source rest : Source},
      source.frames = frames → field header state source = .ok final rest →
      ∃ w : WireValue, w.tag = header.tag ∧ good w ∧ source = rest.prepend w.bytes)
    {steps : Nat} {start final : σ} {source rest : Source} (hframes : source.frames = frames)
    (h : fields field steps start source = .ok final rest) :
    ∃ parts : List (Int16 × WireValue), (∀ part ∈ parts, good part.2) ∧
      source = rest.prepend (WireValue.fieldBytes parts) := by
  induction steps generalizing start source with
  | zero => cases h
  | succ steps ih =>
      rw [fields_succ] at h
      obtain ⟨header, middle, hheader, hbody⟩ := bind_eq_ok.mp h
      rcases fieldHeader_eq_ok.mp hheader with ⟨rfl, rfl⟩ | ⟨hstop, rfl⟩
      · rw [if_pos rfl] at hbody
        obtain ⟨-, rfl⟩ := pure_eq_ok.mp hbody
        exact ⟨[], by simp, rfl⟩
      · rw [if_neg hstop] at hbody
        obtain ⟨state, behind, hfirst, hrest⟩ := bind_eq_ok.mp hbody
        have hmiddle : middle.frames = frames := hframes
        obtain ⟨w, htag, hgood, rfl⟩ := hfield hmiddle hfirst
        have hbehind : behind.frames = frames := hframes
        obtain ⟨parts, hparts, rfl⟩ := ih hbehind hrest
        refine ⟨(header.id, w) :: parts, List.forall_mem_cons.mpr ⟨hgood, hparts⟩, ?_⟩
        rw [Source.prepend_prepend, Source.prepend_prepend, WireValue.fieldBytes, htag,
          List.append_assoc]

theorem frame_eq_ok {σ : Type} {field : FieldHeader → σ → Reader σ} {start final : σ}
    {source rest : Source} (h : frame field start source = .ok final rest) :
    source.frames < maxFrames ∧ ∃ inner : Source,
      fields field source.unread.length start { source with frames := source.frames + 1 } =
        .ok final inner ∧ rest = { inner with frames := inner.frames - 1 } := by
  obtain ⟨_, opened, hopen, hbody⟩ := bind_eq_ok.mp h
  obtain ⟨state, same, hget, hloop⟩ := bind_eq_ok.mp hbody
  obtain ⟨final', inner, hfields, hclose⟩ := bind_eq_ok.mp hloop
  cases hget
  by_cases hframes : source.frames < maxFrames
  · rw [openFrame_of_lt hframes] at hopen
    cases hopen
    cases hclose
    exact ⟨hframes, inner, hfields, rfl⟩
  · rw [openFrame_of_le (Nat.not_lt.mp hframes)] at hopen
    cases hopen

/-- What one skip of `levels` levels from `source` to `rest` has taken. -/
structure Took (levels : Nat) (source rest : Source) (w : WireValue) : Prop where
  wellFormed : w.WellFormed
  bytes : source = rest.prepend w.bytes
  within : source.frames ≤ maxFrames → w.Within levels source.frames

theorem took_of_discard {α : Type} {item : Reader α} (make : α → WireValue) {levels : Nat}
    {source rest : Source} (h : discard item source = .ok () rest)
    (hitem : ∀ a, item source = .ok a rest →
      (make a).WellFormed ∧ source = rest.prepend (make a).bytes)
    (hnest : ∀ a, (make a).nest = 1) (hframes : ∀ a, (make a).frames = 0) :
    ∃ a, Took (levels + 1) source rest (make a) := by
  obtain ⟨a, ha⟩ := discard_eq_ok.mp h
  obtain ⟨hwellFormed, hbytes⟩ := hitem a ha
  refine ⟨a, hwellFormed, hbytes, fun hopened => ?_⟩
  rw [WireValue.Within, hnest, hframes]
  exact ⟨Nat.le_add_left 1 levels, hopened⟩

def SkipsTo (levels : Nat) : Prop :=
  ∀ {tag : Tag} {source rest : Source}, skipWithin levels tag source = .ok () rest →
    ∃ w : WireValue, w.tag = tag ∧ Took levels source rest w

theorem took_items {levels : Nat} (hskip : SkipsTo levels) {source rest : Source}
    (h : (itemsHeader >>= fun header => times (skipWithin levels header.element) header.size)
      source = .ok () rest) :
    ∃ (element : Tag) (items : List WireValue), items.length < 2 ^ 31 ∧
      (∀ w ∈ items, w.tag = element) ∧ (∀ w ∈ items, w.WellFormed) ∧
      source = rest.prepend (Encoding.itemsHeader element (Int32.ofNat items.length) ++
        WireValue.itemBytes items) ∧
      (source.frames ≤ maxFrames → ∀ w ∈ items, w.Within levels source.frames) := by
  obtain ⟨header, middle, hheader, htimes⟩ := bind_eq_ok.mp h
  obtain ⟨hsize, rfl⟩ := itemsHeader_eq_ok.mp hheader
  obtain ⟨items, hlength, hitems, rfl⟩ := parts_of_times WireValue.bytes
    (fun w => w.tag = header.element ∧ w.WellFormed ∧
      (middle.frames ≤ maxFrames → w.Within levels middle.frames))
    (by
      intro source rest hframes hitem
      obtain ⟨w, htag, hwellFormed, hbytes, hwithin⟩ := hskip hitem
      rw [hframes] at hwithin
      exact ⟨w, ⟨htag, hwellFormed, hwithin⟩, hbytes⟩)
    rfl htimes
  refine ⟨header.element, items, hlength ▸ hsize, fun w hw => (hitems w hw).1,
    fun w hw => (hitems w hw).2.1, ?_, fun hopened w hw => (hitems w hw).2.2 hopened⟩
  rw [Source.prepend_prepend, hlength, WireValue.itemBytes_eq_flatMap]

theorem took_map {levels : Nat} (hskip : SkipsTo levels) {source rest : Source}
    (h : (entriesHeader >>= fun header =>
        times (skipWithin levels header.key >>= fun _ => skipWithin levels header.value)
          header.size) source = .ok () rest) :
    ∃ key value entries, Took (levels + 1) source rest (.map key value entries) := by
  obtain ⟨header, middle, hheader, htimes⟩ := bind_eq_ok.mp h
  obtain ⟨hsize, rfl⟩ := entriesHeader_eq_ok.mp hheader
  obtain ⟨entries, hlength, hentries, rfl⟩ := parts_of_times
    (fun entry : WireValue × WireValue => entry.1.bytes ++ entry.2.bytes)
    (fun entry => (entry.1.tag = header.key ∧ entry.2.tag = header.value) ∧
      (entry.1.WellFormed ∧ entry.2.WellFormed) ∧
      (middle.frames ≤ maxFrames →
        entry.1.Within levels middle.frames ∧ entry.2.Within levels middle.frames))
    (by
      intro source rest hframes hentry
      obtain ⟨_, between, hfirst, hsecond⟩ := bind_eq_ok.mp hentry
      obtain ⟨key, hkeyTag, hkey, rfl, hkeyWithin⟩ := hskip hfirst
      obtain ⟨value, hvalueTag, hvalue, rfl, hvalueWithin⟩ := hskip hsecond
      rw [hframes] at hkeyWithin
      have hbetween : (rest.prepend value.bytes).frames = middle.frames := hframes
      rw [hbetween] at hvalueWithin
      exact ⟨(key, value), ⟨⟨hkeyTag, hvalueTag⟩, ⟨hkey, hvalue⟩,
        fun hopened => ⟨hkeyWithin hopened, hvalueWithin hopened⟩⟩,
        rest.prepend_prepend _ _⟩)
    rfl htimes
  refine ⟨header.key, header.value, entries, ?_, ?_, fun hopened => ?_⟩
  · exact .map (hlength ▸ hsize) (fun entry he => (hentries entry he).1.1)
      (fun entry he => (hentries entry he).1.2) (fun entry he => (hentries entry he).2.1.1)
      (fun entry he => (hentries entry he).2.1.2)
  · rw [Source.prepend_prepend, WireValue.bytes, hlength, WireValue.entryBytes_eq_flatMap]
  · have hwithin := (WireValue.within_entries_iff hopened).mp
      fun entry he => (hentries entry he).2.2 hopened
    exact ⟨Nat.succ_le_succ hwithin.1, hwithin.2⟩

theorem took_struct {levels : Nat} (hskip : SkipsTo levels) {source rest : Source}
    (h : frame (fun header _ => skipWithin levels header.tag) () source = .ok () rest) :
    ∃ fields, Took (levels + 1) source rest (.struct fields) := by
  obtain ⟨hlt, inner, hfields, rfl⟩ := frame_eq_ok h
  obtain ⟨fields, hparts, hsource⟩ := parts_of_fields
    (fun w => w.WellFormed ∧ w.Within levels (source.frames + 1))
    (by
      intro header _ _ outer rest hframes hfield
      obtain ⟨w, htag, hwellFormed, hbytes, hwithin⟩ := hskip hfield
      rw [hframes] at hwithin
      exact ⟨w, htag, ⟨hwellFormed, hwithin hlt⟩, hbytes⟩)
    rfl hfields
  have hinner : source.frames + 1 = inner.frames := congrArg Source.frames hsource
  refine ⟨fields, .struct fun field hf => (hparts field hf).1, ?_, fun _ => ?_⟩
  · rcases source with ⟨unread, frames⟩
    have hunread : unread = WireValue.fieldBytes fields ++ inner.unread :=
      congrArg Source.unread hsource
    simp [Source.prepend, WireValue.bytes, hunread, ← hinner]
  · have hwithin := (WireValue.within_fields_iff hlt).mp fun field hf => (hparts field hf).2
    refine ⟨Nat.succ_le_succ hwithin.1, ?_⟩
    calc
      source.frames + (WireValue.fieldDepth _ fields + 1) =
          source.frames + 1 + WireValue.fieldDepth _ fields := by omega
      _ ≤ maxFrames := hwithin.2

theorem skipsTo (levels : Nat) : SkipsTo levels := by
  induction levels with
  | zero =>
      intro tag source rest h
      cases h
  | succ levels ih =>
      intro tag source rest h
      rw [skipWithin] at h
      cases htype : WireType.ofTag? tag with
      | none =>
          rw [htype] at h
          cases h
      | some type =>
          have htag := WireType.tag_of_ofTag? htype
          rw [htype] at h
          cases type with
          | bool =>
              obtain ⟨v, hv⟩ := took_of_discard .bool h
                (fun v hv => ⟨.bool v, rawByte_eq_ok.mp hv⟩) (fun _ => rfl) fun _ => rfl
              exact ⟨.bool v, htag, hv⟩
          | byte =>
              obtain ⟨v, hv⟩ := took_of_discard .byte h
                (fun v hv => ⟨.byte v, rawByte_eq_ok.mp hv⟩) (fun _ => rfl) fun _ => rfl
              exact ⟨.byte v, htag, hv⟩
          | i16 =>
              obtain ⟨v, hv⟩ := took_of_discard .i16 h
                (fun v hv => ⟨.i16 v, i16_eq_ok.mp hv⟩) (fun _ => rfl) fun _ => rfl
              exact ⟨.i16 v, htag, hv⟩
          | i32 =>
              obtain ⟨v, hv⟩ := took_of_discard .i32 h
                (fun v hv => ⟨.i32 v, i32_eq_ok.mp hv⟩) (fun _ => rfl) fun _ => rfl
              exact ⟨.i32 v, htag, hv⟩
          | enum =>
              obtain ⟨v, hv⟩ := took_of_discard .enum h
                (fun v hv => ⟨.enum v, i32_eq_ok.mp hv⟩) (fun _ => rfl) fun _ => rfl
              exact ⟨.enum v, htag, hv⟩
          | i64 =>
              obtain ⟨v, hv⟩ := took_of_discard .i64 h
                (fun v hv => ⟨.i64 v, i64_eq_ok.mp hv⟩) (fun _ => rfl) fun _ => rfl
              exact ⟨.i64 v, htag, hv⟩
          | double =>
              obtain ⟨v, hv⟩ := took_of_discard .double h
                (fun v hv => ⟨.double v, double_eq_ok.mp hv⟩) (fun _ => rfl) fun _ => rfl
              exact ⟨.double v, htag, hv⟩
          | string =>
              obtain ⟨v, hv⟩ := took_of_discard .string h
                (fun v hv => (binary_eq_ok.mp hv).imp .string id) (fun _ => rfl) fun _ => rfl
              exact ⟨.string v, htag, hv⟩
          | struct =>
              obtain ⟨fields, hfields⟩ := took_struct ih h
              exact ⟨.struct fields, htag, hfields⟩
          | list =>
              obtain ⟨element, items, hlength, htags, hparts, hbytes, hwithin⟩ := took_items ih h
              refine ⟨.list element items, htag, .list hlength htags hparts, hbytes, ?_⟩
              intro hopened
              have := (WireValue.within_items_iff hopened).mp (hwithin hopened)
              exact ⟨Nat.succ_le_succ this.1, this.2⟩
          | set =>
              obtain ⟨element, items, hlength, htags, hparts, hbytes, hwithin⟩ := took_items ih h
              refine ⟨.set element items, htag, .set hlength htags hparts, hbytes, ?_⟩
              intro hopened
              have := (WireValue.within_items_iff hopened).mp (hwithin hopened)
              exact ⟨Nat.succ_le_succ this.1, this.2⟩
          | map =>
              obtain ⟨key, value, entries, hentries⟩ := took_map ih h
              exact ⟨.map key value entries, htag, hentries⟩

/-- A skip accepts the grammar of the wire and nothing else. Over a value of the grammar it ends
right behind the value if at most 64 values are nested in each other and at most 64 frames would be
open, and stops at the depth limit otherwise. Whatever it accepts is a value of the grammar. -/
theorem skip_recognises_wireValues :
    (∀ (w : WireValue) (rest : Bytes) (opened : Nat), w.WellFormed → opened ≤ 64 →
      (skip w.tag ⟨w.bytes ++ rest, opened⟩ = .ok () ⟨rest, opened⟩ ↔
        w.nest ≤ 64 ∧ opened + w.frames ≤ 64) ∧
      (¬ (w.nest ≤ 64 ∧ opened + w.frames ≤ 64) →
        ∃ left, skip w.tag ⟨w.bytes ++ rest, opened⟩ = .error (.depthLimit 64) left)) ∧
    (∀ (tag : Tag) (source rest : Source), skip tag source = .ok () rest →
      ∃ w : WireValue, w.tag = tag ∧ w.WellFormed ∧
        source.unread = w.bytes ++ rest.unread ∧ rest.frames = source.frames ∧
        (source.frames ≤ 64 → w.nest ≤ 64 ∧ source.frames + w.frames ≤ 64)) := by
  constructor
  · intro w rest opened hw hopened
    have hskip := TakesIf.skipWithin hw maxFrames hopened
    refine ⟨⟨fun h => ?_, fun h => hskip.takes h rest⟩, fun h => hskip.refuses h rest⟩
    by_contra hnot
    obtain ⟨left, hleft⟩ := hskip.refuses hnot rest
    cases hleft.symm.trans h
  · intro tag source rest h
    obtain ⟨w, htag, hwellFormed, rfl, hwithin⟩ := skipsTo maxFrames h
    exact ⟨w, htag, hwellFormed, rfl, rfl, hwithin⟩

/-- A struct that holds a struct in a list, and an empty map of unknown types. -/
def sampleStruct : WireValue :=
  .struct [(1, .list 12 [.struct []]), (2, .map 99 7 [])]

theorem sampleStruct_wellFormed : sampleStruct.WellFormed := by
  have hinner : (WireValue.struct []).WellFormed := .struct (by simp)
  have hlist : (WireValue.list 12 [.struct []]).WellFormed :=
    .list (by decide) (List.forall_mem_singleton.mpr rfl) (List.forall_mem_singleton.mpr hinner)
  have hmap : (WireValue.map 99 7 []).WellFormed :=
    .map (by decide) (by simp) (by simp) (by simp) (by simp)
  exact .struct (by simpa using ⟨hlist, hmap⟩)

theorem skip_sampleStruct :
    skip 12 ⟨sampleStruct.bytes ++ [7], 62⟩ = .ok () ⟨[7], 62⟩ ∧
      ∃ left, skip 12 ⟨sampleStruct.bytes ++ [7], 63⟩ = .error (.depthLimit 64) left := by
  have hshallow :=
    skip_recognises_wireValues.1 sampleStruct [7] 62 sampleStruct_wellFormed (by decide)
  have hdeep :=
    skip_recognises_wireValues.1 sampleStruct [7] 63 sampleStruct_wellFormed (by decide)
  exact ⟨hshallow.1.mpr (by decide), hdeep.2 (by decide)⟩

end Reader

end WireIdl

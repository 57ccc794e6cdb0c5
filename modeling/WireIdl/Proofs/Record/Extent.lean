import WireIdl.Demo.Targets
import WireIdl.Proofs.Wire.Skip

/-! Where a record ends. A reader of records goes by what is declared, a skip by the tags it meets.
They find the same end if the containers in declared places hold what is declared. The tags in the
header of a container are not compared with the declaration: there the two can part. -/

namespace WireIdl

variable {n : Census}

namespace Reader

variable {α β : Type}

/-- On a source that starts with these bytes the reader fails or stops right behind them. -/
def EndsBehind (reader : Reader α) (bytes : Bytes) : Prop :=
  ∀ frames ≤ maxFrames, ∀ rest a left,
    reader ⟨bytes ++ rest, frames⟩ = .ok a left → left = ⟨rest, frames⟩

theorem endsBehind_of_ok {reader : Reader α} {bytes : Bytes} {a : α}
    (h : ∀ rest : Source, reader (rest.prepend bytes) = .ok a rest) :
    EndsBehind reader bytes := by
  intro frames _ rest b left hread
  have hok := h ⟨rest, frames⟩
  rw [Source.prepend, hread] at hok
  cases hok
  rfl

theorem endsBehind_pure (a : α) : EndsBehind (pure a) [] :=
  endsBehind_of_ok fun _ => rfl

theorem endsBehind_throw (fault : Fault) (bytes : Bytes) :
    EndsBehind (throw fault : Reader α) bytes := by
  intro frames _ rest a left hread
  cases hread

theorem EndsBehind.bind {reader : Reader α} {f : α → Reader β} {bytes more : Bytes}
    (h : EndsBehind reader bytes) (hf : ∀ a, EndsBehind (f a) more) :
    EndsBehind (reader >>= f) (bytes ++ more) := by
  intro frames hframes rest b left hread
  obtain ⟨a, middle, hfirst, hsecond⟩ := bind_eq_ok.mp hread
  rw [List.append_assoc] at hfirst
  obtain rfl := h frames hframes _ a middle hfirst
  exact hf a frames hframes rest b left hsecond

theorem EndsBehind.finish {reader : Reader α} {f : α → Reader β} {bytes : Bytes}
    (h : EndsBehind reader bytes) (hf : ∀ a, EndsBehind (f a) []) :
    EndsBehind (reader >>= f) bytes := by
  have hbind := h.bind hf
  rw [List.append_nil] at hbind
  exact hbind

/-- What is read first is known, so only what follows it needs to be looked at. -/
theorem endsBehind_after {reader : Reader α} {f : α → Reader β} {bytes more : Bytes} {a : α}
    (h : ∀ rest : Source, reader (rest.prepend bytes) = .ok a rest)
    (hf : EndsBehind (f a) more) : EndsBehind (reader >>= f) (bytes ++ more) := by
  intro frames hframes rest b left hread
  have hfirst : reader ⟨(bytes ++ more) ++ rest, frames⟩ = .ok a ⟨more ++ rest, frames⟩ := by
    rw [List.append_assoc]
    exact h ⟨more ++ rest, frames⟩
  rw [bind_of_ok hfirst] at hread
  exact hf frames hframes rest b left hread

theorem endsBehind_string {v : Bytes} (hlength : v.length < 2 ^ 31) :
    EndsBehind string (WireValue.string v).bytes := by
  refine (endsBehind_of_ok fun rest => binary_eq_ok.mpr ⟨hlength, rfl⟩).finish ?_
  intro bytes
  rw [decoded]
  cases bytes.toString? with
  | none => exact endsBehind_throw _ _
  | some text => exact endsBehind_pure text

theorem EndsBehind.collect {ω : Type} {item : Reader α} {encode : ω → Bytes} {parts : List ω}
    (h : ∀ part ∈ parts, EndsBehind item (encode part)) :
    EndsBehind (Reader.collect item parts.length) (parts.flatMap encode) := by
  induction parts with
  | nil => exact endsBehind_pure []
  | cons part parts ih =>
      have hrest := ih fun other hother => h other (List.mem_cons_of_mem part hother)
      rw [List.length_cons, Reader.collect, List.flatMap_cons]
      exact (h part List.mem_cons_self).bind fun _ => hrest.finish fun _ => endsBehind_pure _

theorem EndsBehind.fields {σ : Type} {field : FieldHeader → σ → Reader σ}
    {parts : List (Int16 × WireValue)}
    (h : ∀ part ∈ parts, ∀ state,
      EndsBehind (field ⟨part.2.tag, part.1⟩ state) part.2.bytes) (steps : Nat) (start : σ) :
    EndsBehind (Reader.fields field steps start) (WireValue.fieldBytes parts) := by
  induction steps generalizing parts start with
  | zero => exact endsBehind_throw _ _
  | succ steps ih =>
      rw [fields_succ]
      cases parts with
      | nil =>
          rw [WireValue.fieldBytes, ← List.append_nil Encoding.fieldStop]
          refine endsBehind_after (a := ⟨Tag.stop, 0⟩)
            (fun rest => fieldHeader_eq_ok.mpr (.inl ⟨rfl, rfl⟩)) ?_
          rw [if_pos rfl]
          exact endsBehind_pure start
      | cons part parts =>
          obtain ⟨id, w⟩ := part
          rw [WireValue.fieldBytes, List.append_assoc]
          refine endsBehind_after (a := ⟨w.tag, id⟩)
            (fun rest => fieldHeader_eq_ok.mpr (.inr ⟨w.tag_ne_stop, rfl⟩)) ?_
          rw [if_neg w.tag_ne_stop]
          apply (h (id, w) List.mem_cons_self start).bind
          exact ih fun other hother => h other (List.mem_cons_of_mem _ hother)

theorem EndsBehind.frame {σ : Type} {field : FieldHeader → σ → Reader σ} {start : σ}
    {bytes : Bytes} (h : ∀ steps, EndsBehind (Reader.fields field steps start) bytes) :
    EndsBehind (Reader.frame field start) bytes := by
  intro frames _ rest final left hread
  obtain ⟨hopen, inner, hfields, rfl⟩ := frame_eq_ok hread
  obtain rfl := h _ (frames + 1) hopen rest final inner hfields
  rfl

theorem endsBehind_skip {w : WireValue} (hw : w.WellFormed) :
    EndsBehind (skip w.tag) w.bytes := by
  intro frames hframes rest a left hread
  have hskip := TakesIf.skipWithin hw maxFrames hframes
  by_cases hwithin : w.Within maxFrames frames
  · rw [skip, hskip.takes hwithin rest] at hread
    cases hread
    rfl
  · obtain ⟨stopped, hstopped⟩ := hskip.refuses hwithin rest
    rw [skip, hstopped] at hread
    cases hread

end Reader

/-- What stands on the wire is of the declared form, down to the parts of containers. A field that
is not declared, or comes with another tag than declared, may hold anything. -/
inductive Schema.Conforms (s : Schema n) : Shape n → WireValue → Prop where
  | bool (v : UInt8) : Conforms s .bool (.bool v)
  | byte (v : UInt8) : Conforms s .byte (.byte v)
  | i16 (v : Int16) : Conforms s .i16 (.i16 v)
  | i32 (v : Int32) : Conforms s .i32 (.i32 v)
  | i64 (v : Int64) : Conforms s .i64 (.i64 v)
  | double (v : Double) : Conforms s .double (.double v)
  | string (v : Bytes) : Conforms s .string (.string v)
  | binary (v : Bytes) : Conforms s .binary (.string v)
  | enum (id : Fin n.enums) (v : Int32) : Conforms s (.enum id) (.i32 v)
  | list {written : Ty n} {element : Unit → Shape n} {tag : Tag} {items : List WireValue}
      (parts : ∀ w ∈ items, Conforms s (element ()) w) :
      Conforms s (.list written element) (.list tag items)
  | set {written : Ty n} {element : Unit → Shape n} {tag : Tag} {items : List WireValue}
      (parts : ∀ w ∈ items, Conforms s (element ()) w) :
      Conforms s (.set written element) (.set tag items)
  | map {writtenKey writtenValue : Ty n} {key value : Unit → Shape n} {keyTag valueTag : Tag}
      {entries : List (WireValue × WireValue)}
      (keys : ∀ entry ∈ entries, Conforms s (key ()) entry.1)
      (values : ∀ entry ∈ entries, Conforms s (value ()) entry.2) :
      Conforms s (.map writtenKey key writtenValue value) (.map keyTag valueTag entries)
  | record {id : Fin n.records} {parts : List (Int16 × WireValue)}
      (declared : ∀ part ∈ parts, ∀ field ∈ s.knownFields (s.record id).fields,
        field.id = part.1 → part.2.tag = field.shape.tag → Conforms s field.shape part.2) :
      Conforms s (.record id) (.struct parts)

namespace Target

open Reader

variable {t : Target n}

theorem endsBehind_readEnum (id : Fin n.enums) (v : Int32) :
    EndsBehind (t.readEnum id) (Bytes.ofI32 v) := by
  refine (endsBehind_of_ok fun rest => i32_eq_ok.mpr rfl).finish ?_
  intro value
  cases (t.schema.enum id).memberByValue? value with
  | none => exact endsBehind_throw _ _
  | some _ => exact endsBehind_pure _

section Records

variable {record : Fin n.records → Reader Value}

theorem endsBehind_readItems {shape : Shape n} {tag : Tag} {items : List WireValue}
    (hlength : items.length < 2 ^ 31)
    (hitems : ∀ w ∈ items, EndsBehind (t.readValueWith record shape) w.bytes)
    (make : List Value → Value) :
    EndsBehind (do
        let header ← Reader.itemsHeader
        return make (← Reader.collect (t.readValueWith record shape) header.size))
      (Encoding.itemsHeader tag (Int32.ofNat items.length) ++ WireValue.itemBytes items) := by
  rw [WireValue.itemBytes_eq_flatMap]
  exact endsBehind_after (a := ⟨tag, items.length⟩)
    (fun rest => itemsHeader_eq_ok.mpr ⟨hlength, rfl⟩)
    ((EndsBehind.collect hitems).finish fun _ => endsBehind_pure _)

theorem endsBehind_readValueWith
    (hrecord : ∀ id w, w.WellFormed → t.schema.Conforms (.record id) w →
      EndsBehind (record id) w.bytes)
    {shape : Shape n} {w : WireValue} (hw : w.WellFormed) (h : t.schema.Conforms shape w) :
    EndsBehind (t.readValueWith record shape) w.bytes := by
  induction h with
  | bool v | byte v =>
      have hbyte : EndsBehind rawByte [v] := endsBehind_of_ok fun _ => rawByte_eq_ok.mpr rfl
      exact (hbyte.finish fun _ => endsBehind_pure _).finish fun _ => endsBehind_pure _
  | i16 v => exact (endsBehind_of_ok fun _ => i16_eq_ok.mpr rfl).finish fun _ => endsBehind_pure _
  | i32 v => exact (endsBehind_of_ok fun _ => i32_eq_ok.mpr rfl).finish fun _ => endsBehind_pure _
  | i64 v => exact (endsBehind_of_ok fun _ => i64_eq_ok.mpr rfl).finish fun _ => endsBehind_pure _
  | double v =>
      exact (endsBehind_of_ok fun _ => double_eq_ok.mpr rfl).finish fun _ => endsBehind_pure _
  | string v =>
      cases hw with
      | string hlength => exact (endsBehind_string hlength).finish fun _ => endsBehind_pure _
  | binary v =>
      cases hw with
      | string hlength =>
          have hbinary := endsBehind_of_ok fun rest => binary_eq_ok.mpr ⟨hlength, rfl⟩
          exact hbinary.finish fun _ => endsBehind_pure _
  | enum id v => exact endsBehind_readEnum id v
  | list _ ih =>
      cases hw with
      | list hlength _ hparts =>
          exact endsBehind_readItems hlength (fun w hmem => ih w hmem (hparts w hmem)) _
  | set _ ih =>
      cases hw with
      | set hlength _ hparts =>
          exact endsBehind_readItems hlength (fun w hmem => ih w hmem (hparts w hmem)) _
  | @map _ _ _ _ keyTag valueTag entries _ _ ihKeys ihValues =>
      cases hw with
      | map hlength _ _ hkeys hvalues =>
          rw [WireValue.bytes, WireValue.entryBytes_eq_flatMap]
          refine endsBehind_after (a := ⟨keyTag, valueTag, entries.length⟩)
            (fun rest => entriesHeader_eq_ok.mpr ⟨hlength, rfl⟩) ?_
          refine EndsBehind.finish (EndsBehind.collect ?_) fun _ => endsBehind_pure _
          intro entry hmem
          apply (ihKeys entry hmem (hkeys entry hmem)).bind
          intro key
          exact (ihValues entry hmem (hvalues entry hmem)).finish fun _ => endsBehind_pure _
  | record declared => exact hrecord _ _ hw (.record declared)

theorem endsBehind_mismatched (field : KnownField n) {w : WireValue} (hw : w.WellFormed)
    (id : Int16) : EndsBehind (t.mismatched field ⟨w.tag, id⟩) w.bytes := by
  rw [mismatched]
  split
  · exact endsBehind_throw _ _
  · exact endsBehind_skip hw

theorem endsBehind_readField
    (hrecord : ∀ id w, w.WellFormed → t.schema.Conforms (.record id) w →
      EndsBehind (record id) w.bytes)
    {known : List (KnownField n)} {id : Int16} {w : WireValue} (hw : w.WellFormed)
    (hdeclared : ∀ field ∈ known, field.id = id → w.tag = field.shape.tag →
      t.schema.Conforms field.shape w) (slots : Slots) :
    EndsBehind (t.readField record known ⟨w.tag, id⟩ slots) w.bytes := by
  induction known generalizing slots with
  | nil => exact (endsBehind_skip hw).finish fun _ => endsBehind_pure _
  | cons field known ih =>
      cases slots with
      | nil => exact (endsBehind_skip hw).finish fun _ => endsBehind_pure _
      | cons slot slots =>
          rw [readField]
          split
          · next hid =>
              split
              · next htag =>
                  have hconforms := hdeclared field List.mem_cons_self hid htag
                  exact (endsBehind_readValueWith hrecord hw hconforms).finish
                    fun _ => endsBehind_pure _
              · exact (endsBehind_mismatched field hw id).finish fun _ => endsBehind_pure _
          · have hrest := ih fun other hother => hdeclared other (List.mem_cons_of_mem field hother)
            exact (hrest slots).finish fun _ => endsBehind_pure _

end Records

theorem endsBehind_readRecordWithin (fuel : Nat) (id : Fin n.records) {w : WireValue}
    (hw : w.WellFormed) (h : t.schema.Conforms (.record id) w) :
    EndsBehind (t.readRecordWithin fuel id) w.bytes := by
  -- The fuel bounds the records that are open; what is below it is the reader of nested records.
  induction fuel generalizing id w with
  | zero => exact endsBehind_throw _ _
  | succ fuel ih =>
      cases h with
      | @record _ parts hdeclared =>
          cases hw with
          | struct hparts =>
              have hfields := EndsBehind.fields fun part hmem =>
                endsBehind_readField (fun id w => ih id) (hparts part hmem) (hdeclared part hmem)
              refine (EndsBehind.frame fun steps => hfields steps _).finish ?_
              intro slots
              cases (t.schema.record id).build slots with
              | ok v => exact endsBehind_pure v
              | error fault => exact endsBehind_throw _ _

/-- If a record is read from a source and skipped from the same source, both stop at the same
place, provided that what stands there conforms to the declaration of the record. -/
theorem readRecord_ends_where_skip_ends (t : Target n) (id : Fin n.records) {bytes : Bytes}
    (hconforms : ∃ w left, w.WellFormed ∧ t.schema.Conforms (.record id) w ∧
      bytes = w.bytes ++ left)
    {v : Value} {behindRead behindSkip : Source}
    (hread : t.readRecord id ⟨bytes, 0⟩ = .ok v behindRead)
    (hskip : Reader.skip WireType.struct.tag ⟨bytes, 0⟩ = .ok () behindSkip) :
    behindRead = behindSkip := by
  obtain ⟨w, left, hw, hdeclared, rfl⟩ := hconforms
  have hstruct : WireType.struct.tag = w.tag := by
    cases hdeclared
    rfl
  rw [hstruct] at hskip
  have hzero : 0 ≤ maxFrames := Nat.zero_le _
  rw [endsBehind_readRecordWithin maxFrames id hw hdeclared 0 hzero left v behindRead hread,
    endsBehind_skip hw 0 hzero left () behindSkip hskip]

end Target

namespace Demo

/-- An input whose tags are labelled as bytes, of which there is one. Read as declared, the tag is
an empty text of four bytes. -/
def mislabelledTags : Bytes :=
  [11, 0, 1, 0, 0, 0, 0, 15, 0, 3, 3, 0, 0, 0, 1, 0, 0, 0, 0, 0]

theorem readRecord_parts_from_skip :
    ¬ ∀ (id : Fin census.records) (bytes : Bytes) (v : Value) (behindRead behindSkip : Source),
      hashed.readRecord id ⟨bytes, 0⟩ = .ok v behindRead →
      Reader.skip WireType.struct.tag ⟨bytes, 0⟩ = .ok () behindSkip →
      behindRead.unread.length = behindSkip.unread.length := by
  intro hsame
  have hread : hashed.readRecord inputId ⟨mislabelledTags, 0⟩ =
      .ok (.record [some (.string .owned ""), some (.enum 2),
        some (.seq .vec [.string .owned ""]), none]) ⟨[], 0⟩ := rfl
  have hskip : Reader.skip WireType.struct.tag ⟨mislabelledTags, 0⟩ = .ok () ⟨[0, 0, 0], 0⟩ := rfl
  exact absurd (hsame inputId mislabelledTags _ _ _ hread hskip) (by decide)

/-- An input with a tag, between fields that are not declared. -/
def taggedInput : List (Int16 × WireValue) :=
  [(9, .list 3 [.byte 1]), (1, .string []), (3, .list 11 [.string [98]]), (7, .bool 1)]

theorem taggedInput_wellFormed : (WireValue.struct taggedInput).WellFormed := by
  apply WireValue.WellFormed.struct
  intro part hmem
  simp only [taggedInput, List.mem_cons, List.not_mem_nil, or_false] at hmem
  obtain rfl | rfl | rfl | rfl := hmem
  · exact .list (by decide) (by simp [WireValue.tag, WireValue.wireType, WireType.tag])
      (by simp [WireValue.WellFormed.byte])
  · exact .string (by decide)
  · exact .list (by decide) (by simp [WireValue.tag, WireValue.wireType, WireType.tag])
      (by simpa using WireValue.WellFormed.string (by decide))
  · exact .bool 1

theorem taggedInput_conforms : schema.Conforms (.record inputId) (.struct taggedInput) := by
  apply Schema.Conforms.record
  intro part hmem field hfield hid _
  change field ∈ schema.knownFields input.fields at hfield
  have hundeclared : field.id ≠ 9 ∧ field.id ≠ 7 := by
    revert hfield
    exact (by decide : ∀ field ∈ schema.knownFields input.fields, field.id ≠ 9 ∧ field.id ≠ 7) field
  simp only [Schema.knownFields, input, List.map_cons, List.map_nil, List.mem_cons,
    List.not_mem_nil, or_false] at hfield
  simp only [taggedInput, List.mem_cons, List.not_mem_nil, or_false] at hmem
  obtain rfl | rfl | rfl | rfl := hmem
  · exact absurd hid hundeclared.1
  · obtain rfl | rfl | rfl | rfl := hfield
    case inl => exact .string []
    all_goals exact absurd hid (by decide)
  · obtain rfl | rfl | rfl | rfl := hfield
    case inr.inr.inl => exact .list (by simpa using .string [98])
    all_goals exact absurd hid (by decide)
  · exact absurd hid hundeclared.2

theorem readRecord_taggedInput :
    (WireValue.struct taggedInput).WellFormed ∧
      schema.Conforms (.record inputId) (.struct taggedInput) ∧
      Reader.skip WireType.struct.tag ⟨(WireValue.struct taggedInput).bytes ++ [5], 0⟩ =
        .ok () ⟨[5], 0⟩ ∧
      ∃ v left, hashed.readRecord inputId ⟨(WireValue.struct taggedInput).bytes ++ [5], 0⟩ =
        .ok v left ∧ left = ⟨[5], 0⟩ := by
  have hskip : Reader.skip WireType.struct.tag
      ⟨(WireValue.struct taggedInput).bytes ++ [5], 0⟩ = .ok () ⟨[5], 0⟩ := rfl
  have hread : ∃ v left, hashed.readRecord inputId
      ⟨(WireValue.struct taggedInput).bytes ++ [5], 0⟩ = .ok v left := ⟨_, _, rfl⟩
  refine ⟨taggedInput_wellFormed, taggedInput_conforms, hskip, ?_⟩
  obtain ⟨v, left, hread⟩ := hread
  exact ⟨v, left, hread, Target.readRecord_ends_where_skip_ends hashed inputId
    ⟨_, [5], taggedInput_wellFormed, taggedInput_conforms, rfl⟩ hread hskip⟩

end Demo

end WireIdl

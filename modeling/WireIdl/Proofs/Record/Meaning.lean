import WireIdl.Proofs.Wire.Skip
import WireIdl.Record.Decode

/-! What a wire value means at a shape. A struct means the record that its declared fields build,
each with the last value that came for it; fields that are not declared mean nothing. -/

namespace WireIdl

variable {n : Census}

/-- No two fields of a record have one id. -/
def Schema.HasDistinctIds (s : Schema n) : Prop :=
  ∀ id, ((s.record id).fields.map (·.id)).Nodup

theorem Schema.nodup_knownFields (s : Schema n) (h : s.HasDistinctIds) (id : Fin n.records) :
    ((s.knownFields (s.record id).fields).map (·.id)).Nodup := by
  rw [knownFields, List.map_map]
  exact h id

/-- The last of what came for an id. -/
def lastFor {α : Type} (id : Int16) (parts : List (Int16 × α)) : Option α :=
  (parts.filter (·.1 == id)).getLast?.map (·.2)

theorem lastFor_append {α : Type} (id : Int16) (first later : List (Int16 × α)) :
    lastFor id (first ++ later) = (lastFor id later).or (lastFor id first) := by
  rw [lastFor, List.filter_append, List.getLast?_append, Option.map_or]
  rfl

theorem lastFor_cons_self {α : Type} (id : Int16) (a : α) (parts : List (Int16 × α)) :
    lastFor id ((id, a) :: parts) = (lastFor id parts).or (some a) := by
  rw [← List.singleton_append, lastFor_append]
  simp [lastFor]

theorem lastFor_cons_of_ne {α : Type} {id other : Int16} (h : other ≠ id) (a : α)
    (parts : List (Int16 × α)) : lastFor id ((other, a) :: parts) = lastFor id parts := by
  simp [lastFor, h]

/-- The slots of known fields after values have come for some ids: each slot holds the last value
for its id, or what it held before. -/
def Slots.after (known : List (KnownField n)) (start : Slots) (values : List (Int16 × Value)) :
    Slots :=
  List.zipWith (fun field slot => (lastFor field.id values).or slot) known start

namespace Target

mutual

/-- The value that a wire value stands for at a shape. It has to be of the wire type of the shape;
text has to be UTF-8, an enum has to have the number, and a record has to be complete, with no
unknown field nested too deep to be skipped. -/
def valueOf? (t : Target n) (shape : Shape n) : WireValue → Option Value
  | .bool v =>
      match shape with
      | .bool => some (.bool (v != 0))
      | _ => none
  | .byte v =>
      match shape with
      | .byte => some (.byte v.toInt8)
      | _ => none
  | .i16 v =>
      match shape with
      | .i16 => some (.i16 v)
      | _ => none
  | .i32 v =>
      match shape with
      | .i32 => some (.i32 v)
      | .enum id => ((t.schema.enum id).memberByValue? v).map fun _ => .enum v
      | _ => none
  | .enum _ => none
  | .i64 v =>
      match shape with
      | .i64 => some (.i64 v)
      | _ => none
  | .double v =>
      match shape with
      | .double => some (.double v)
      | _ => none
  | .string v =>
      match shape with
      | .string => v.toString?.map (.string .owned)
      | .binary => some (.binary v)
      | _ => none
  | .struct fields =>
      match shape with
      | .record id =>
          let decl := t.schema.record id
          (t.fieldValues? (t.schema.knownFields decl.fields) fields).bind fun values =>
            (decl.build (Slots.after (t.schema.knownFields decl.fields)
              (Builder.new t id).slots values)).toOption
      | _ => none
  | .list _ items =>
      match shape with
      | .list _ element => (t.itemValues? (element ()) items).map (.seq t.config.list.toSeq)
      | _ => none
  | .set _ items =>
      match shape with
      | .set _ element => (t.itemValues? (element ()) items).map (.setOf t.config.set)
      | _ => none
  | .map _ _ entries =>
      match shape with
      | .map _ key _ value =>
          (t.entryValues? (key ()) (value ()) entries).map (.mapOf t.config.map)
      | _ => none

def itemValues? (t : Target n) (shape : Shape n) : List WireValue → Option (List Value)
  | [] => some []
  | w :: items =>
      (t.valueOf? shape w).bind fun v => (t.itemValues? shape items).map (v :: ·)

def entryValues? (t : Target n) (keyShape valueShape : Shape n) :
    List (WireValue × WireValue) → Option (List (Value × Value))
  | [] => some []
  | (key, value) :: entries =>
      (t.valueOf? keyShape key).bind fun k => (t.valueOf? valueShape value).bind fun v =>
        (t.entryValues? keyShape valueShape entries).map ((k, v) :: ·)

def fieldValues? (t : Target n) (known : List (KnownField n)) :
    List (Int16 × WireValue) → Option (List (Int16 × Value))
  | [] => some []
  | (id, w) :: fields =>
      match known.find? (·.id == id) with
      | some field =>
          (t.valueOf? field.shape w).bind fun v =>
            (t.fieldValues? known fields).map ((id, v) :: ·)
      | none => if w.nest ≤ maxFrames then t.fieldValues? known fields else none

end

section Equations

variable (t : Target n)

theorem valueOf?_string (v : Bytes) :
    t.valueOf? .string (.string v) = v.toString?.map (.string .owned) := rfl

theorem valueOf?_enum (id : Fin n.enums) (v : Int32) :
    t.valueOf? (.enum id) (.i32 v) =
      ((t.schema.enum id).memberByValue? v).map fun _ => .enum v := rfl

theorem valueOf?_list (written : Ty n) (element : Unit → Shape n) (tag : Tag)
    (items : List WireValue) :
    t.valueOf? (.list written element) (.list tag items) =
      (t.itemValues? (element ()) items).map (.seq t.config.list.toSeq) := rfl

theorem valueOf?_set (written : Ty n) (element : Unit → Shape n) (tag : Tag)
    (items : List WireValue) :
    t.valueOf? (.set written element) (.set tag items) =
      (t.itemValues? (element ()) items).map (.setOf t.config.set) := rfl

theorem valueOf?_map (writtenKey : Ty n) (key : Unit → Shape n) (writtenValue : Ty n)
    (value : Unit → Shape n) (keyTag valueTag : Tag) (entries : List (WireValue × WireValue)) :
    t.valueOf? (.map writtenKey key writtenValue value) (.map keyTag valueTag entries) =
      (t.entryValues? (key ()) (value ()) entries).map (.mapOf t.config.map) := rfl

theorem valueOf?_struct (id : Fin n.records) (fields : List (Int16 × WireValue)) :
    t.valueOf? (.record id) (.struct fields) =
      (t.fieldValues? (t.schema.knownFields (t.schema.record id).fields) fields).bind fun values =>
        ((t.schema.record id).build (Slots.after
          (t.schema.knownFields (t.schema.record id).fields) (Builder.new t id).slots
          values)).toOption := rfl

end Equations

end Target

namespace Slots

theorem length_after (known : List (KnownField n)) {start : Slots} (values : List (Int16 × Value))
    (hlength : start.length = known.length) : (after known start values).length = known.length := by
  rw [after, List.length_zipWith, hlength, Nat.min_self]

theorem after_nil (known : List (KnownField n)) {start : Slots}
    (hlength : start.length = known.length) : after known start [] = start := by
  rw [after]
  induction known generalizing start with
  | nil => exact (List.length_eq_zero_iff.mp hlength).symm
  | cons field known ih =>
      cases start with
      | nil => simp at hlength
      | cons slot start =>
          rw [List.zipWith_cons_cons, ih (Nat.succ.inj hlength)]
          rfl

theorem after_append (known : List (KnownField n)) (start : Slots)
    (first later : List (Int16 × Value)) :
    after known start (first ++ later) = after known (after known start first) later := by
  simp only [after]
  induction known generalizing start with
  | nil => rfl
  | cons field known ih =>
      cases start with
      | nil => rfl
      | cons slot start =>
          rw [List.zipWith_cons_cons, List.zipWith_cons_cons, List.zipWith_cons_cons, ih,
            lastFor_append, Option.or_assoc]

theorem after_cons_self (field : KnownField n) (known : List (KnownField n)) (slot : Option Value)
    (start : Slots) (v : Value) :
    after (field :: known) (slot :: start) [(field.id, v)] =
      some v :: after known start [(field.id, v)] := by
  rw [after, List.zipWith_cons_cons, lastFor_cons_self]
  rfl

theorem after_cons_of_ne {field : KnownField n} {id : Int16} (hid : field.id ≠ id)
    (known : List (KnownField n)) (slot : Option Value) (start : Slots) (v : Value) :
    after (field :: known) (slot :: start) [(id, v)] = slot :: after known start [(id, v)] := by
  rw [after, List.zipWith_cons_cons, lastFor_cons_of_ne (Ne.symm hid)]
  rfl

theorem after_of_not_mem {known : List (KnownField n)} {start : Slots} {id : Int16} (v : Value)
    (hlength : start.length = known.length) (hid : ∀ field ∈ known, field.id ≠ id) :
    after known start [(id, v)] = start := by
  induction known generalizing start with
  | nil => exact (List.length_eq_zero_iff.mp hlength).symm
  | cons field known ih =>
      cases start with
      | nil => simp at hlength
      | cons slot start =>
          rw [List.forall_mem_cons] at hid
          rw [after_cons_of_ne hid.1, ih (Nat.succ.inj hlength) hid.2]

end Slots

namespace Target

variable {t : Target n}

theorem tag_of_valueOf? {shape : Shape n} {w : WireValue} {v : Value}
    (h : t.valueOf? shape w = some v) : w.tag = shape.tag := by
  cases w <;> cases shape <;> first | rfl | cases h

theorem takesIf_readField_declared {record : Fin n.records → Reader Value}
    {known : List (KnownField n)} {slots : Slots} {field : KnownField n} {id : Int16}
    {w : WireValue} {v : Value} {p : Prop} {frames : Nat}
    (hids : (known.map (·.id)).Nodup) (hlength : slots.length = known.length)
    (hfind : known.find? (·.id == id) = some field) (htag : w.tag = field.shape.tag)
    (hvalue : Reader.TakesIf p (t.readValueWith record field.shape) frames w.bytes v) :
    Reader.TakesIf p (t.readField record known ⟨w.tag, id⟩ slots) frames w.bytes
      (Slots.after known slots [(id, v)]) := by
  induction known generalizing slots with
  | nil => cases hfind
  | cons first known ih =>
      cases slots with
      | nil => simp at hlength
      | cons slot slots =>
          have htail : slots.length = known.length := Nat.succ.inj hlength
          rw [List.map_cons, List.nodup_cons] at hids
          rw [readField]
          by_cases hid : first.id = id
          · rw [List.find?_cons_of_pos (by simpa using hid)] at hfind
            cases hfind
            subst hid
            have hothers : ∀ other ∈ known, other.id ≠ field.id := by
              intro other hmem heq
              exact hids.1 (heq ▸ List.mem_map_of_mem hmem)
            rw [if_pos rfl, if_pos htag, Slots.after_cons_self,
              Slots.after_of_not_mem v htail hothers]
            exact hvalue.bind_pure
          · rw [List.find?_cons_of_neg (by simpa using hid)] at hfind
            rw [if_neg hid, Slots.after_cons_of_ne hid]
            exact (ih hids.2 htail hfind).bind_pure

theorem takesIf_readField_undeclared {record : Fin n.records → Reader Value}
    {known : List (KnownField n)} {slots : Slots} {id : Int16} {w : WireValue} {frames : Nat}
    (hlength : slots.length = known.length) (hfind : known.find? (·.id == id) = none)
    (hw : w.WellFormed) (hnest : w.nest ≤ maxFrames) (hframes : frames ≤ maxFrames) :
    Reader.TakesIf (frames + w.frames ≤ maxFrames) (t.readField record known ⟨w.tag, id⟩ slots)
      frames w.bytes slots := by
  induction known generalizing slots with
  | nil =>
      have hskip := Reader.TakesIf.skipWithin hw maxFrames hframes
      have hthen : Reader.TakesIf (w.Within maxFrames frames)
          (Reader.skip w.tag >>= fun _ => pure slots) frames w.bytes slots := hskip.bind_pure
      rw [List.length_eq_zero_iff.mp hlength] at hthen ⊢
      exact hthen.congr (and_iff_right hnest)
  | cons first known ih =>
      cases slots with
      | nil => simp at hlength
      | cons slot slots =>
          have hid : first.id ≠ id := by
            simpa using List.find?_eq_none.mp hfind first List.mem_cons_self
          rw [List.find?_cons_of_neg (by simpa using hid)] at hfind
          rw [readField, if_neg hid]
          exact (ih (Nat.succ.inj hlength) hfind).bind_pure

theorem itemValues?_eq_some_iff {shape : Shape n} {items : List WireValue} {values : List Value} :
    t.itemValues? shape items = some values ↔
      List.Forall₂ (fun w v => t.valueOf? shape w = some v) items values := by
  induction items generalizing values with
  | nil =>
      rw [itemValues?, List.forall₂_nil_left_iff]
      exact Option.some_inj.trans eq_comm
  | cons w items ih =>
      rw [itemValues?, Option.bind_eq_some_iff, List.forall₂_cons_left_iff]
      simp only [Option.map_eq_some_iff, ih]
      constructor
      · intro hvalues
        rcases hvalues with ⟨v, hv, rest, hrest, rfl⟩
        exact ⟨v, rest, hv, hrest, rfl⟩
      · intro hparts
        rcases hparts with ⟨v, rest, hv, hrest, rfl⟩
        exact ⟨v, hv, rest, hrest, rfl⟩

theorem entryValues?_eq_some_iff {keyShape valueShape : Shape n}
    {entries : List (WireValue × WireValue)} {values : List (Value × Value)} :
    t.entryValues? keyShape valueShape entries = some values ↔
      List.Forall₂ (fun entry v => t.valueOf? keyShape entry.1 = some v.1 ∧
        t.valueOf? valueShape entry.2 = some v.2) entries values := by
  induction entries generalizing values with
  | nil =>
      rw [entryValues?, List.forall₂_nil_left_iff]
      exact Option.some_inj.trans eq_comm
  | cons entry entries ih =>
      rw [entryValues?, Option.bind_eq_some_iff, List.forall₂_cons_left_iff]
      simp only [Option.bind_eq_some_iff, Option.map_eq_some_iff, ih]
      constructor
      · intro hvalues
        rcases hvalues with ⟨k, hk, v, hv, rest, hrest, rfl⟩
        exact ⟨(k, v), rest, ⟨hk, hv⟩, hrest, rfl⟩
      · intro hparts
        rcases hparts with ⟨⟨k, v⟩, rest, ⟨hk, hv⟩, hrest, rfl⟩
        exact ⟨k, hk, v, hv, rest, hrest, rfl⟩

/-- A reader of records that gives what their wire values stand for, `frames` frames being open. -/
def ReadsRecords (t : Target n) (frames : Nat) (record : Fin n.records → Reader Value) : Prop :=
  ∀ {id : Fin n.records} {w : WireValue} {v : Value}, w.WellFormed →
    t.valueOf? (.record id) w = some v →
    Reader.TakesIf (frames + w.frames ≤ maxFrames) (record id) frames w.bytes v

theorem takesIf_readItems {record : Fin n.records → Reader Value} {shape : Shape n}
    {element : Tag} {items : List WireValue} {values : List Value} {frames : Nat}
    (hframes : frames ≤ maxFrames) (hlength : items.length < 2 ^ 31)
    (hparts : ∀ w ∈ items, w.WellFormed) (hvalues : t.itemValues? shape items = some values)
    (hread : ∀ {w : WireValue} {v : Value}, w.WellFormed → t.valueOf? shape w = some v →
      Reader.TakesIf (frames + w.frames ≤ maxFrames) (t.readValueWith record shape) frames
        w.bytes v)
    (make : List Value → Value) :
    Reader.TakesIf
      (frames + WireValue.itemDepth (fun type => if type = .struct then 1 else 0) items ≤
        maxFrames)
      (Reader.itemsHeader >>= fun header =>
        Reader.collect (t.readValueWith record shape) header.size >>= fun values =>
          pure (make values))
      frames
      (Encoding.itemsHeader element (Int32.ofNat items.length) ++ WireValue.itemBytes items)
      (make values) := by
  have hitems := (List.forall₂_and_left _ _).mpr ⟨hparts, itemValues?_eq_some_iff.mp hvalues⟩
  have hreads : List.Forall₂ (fun w v => Reader.TakesIf (frames + w.frames ≤ maxFrames)
      (t.readValueWith record shape) frames w.bytes v) items values :=
    hitems.imp fun _ _ hitem => hread hitem.1 hitem.2
  rw [WireValue.itemBytes_eq_flatMap]
  refine Reader.TakesIf.after (a := ⟨element, items.length⟩)
    (fun rest => Reader.itemsHeader_eq_ok.mpr ⟨hlength, rfl⟩) ?_
  exact (Reader.TakesIf.collect hreads).bind_pure.congr
    (WireValue.add_itemDepth_le_iff hframes).symm

theorem takesIf_readEntries {record : Fin n.records → Reader Value}
    {keyShape valueShape : Shape n} {key value : Tag} {entries : List (WireValue × WireValue)}
    {values : List (Value × Value)} {frames : Nat} (hframes : frames ≤ maxFrames)
    (hlength : entries.length < 2 ^ 31) (hkeys : ∀ entry ∈ entries, entry.1.WellFormed)
    (hparts : ∀ entry ∈ entries, entry.2.WellFormed)
    (hvalues : t.entryValues? keyShape valueShape entries = some values)
    (hreadKey : ∀ {w : WireValue} {v : Value}, w.WellFormed → t.valueOf? keyShape w = some v →
      Reader.TakesIf (frames + w.frames ≤ maxFrames) (t.readValueWith record keyShape) frames
        w.bytes v)
    (hreadValue : ∀ {w : WireValue} {v : Value}, w.WellFormed →
      t.valueOf? valueShape w = some v →
      Reader.TakesIf (frames + w.frames ≤ maxFrames) (t.readValueWith record valueShape) frames
        w.bytes v)
    (make : List (Value × Value) → Value) :
    Reader.TakesIf
      (frames + WireValue.entryDepth (fun type => if type = .struct then 1 else 0) entries ≤
        maxFrames)
      (Reader.entriesHeader >>= fun header =>
        Reader.collect
          (t.readValueWith record keyShape >>= fun key =>
            t.readValueWith record valueShape >>= fun value => pure (key, value))
          header.size >>= fun values => pure (make values))
      frames
      (Encoding.entriesHeader key value (Int32.ofNat entries.length) ++
        WireValue.entryBytes entries)
      (make values) := by
  have hentries := (List.forall₂_and_left _ _).mpr
    ⟨fun entry hmem => And.intro (hkeys entry hmem) (hparts entry hmem),
      entryValues?_eq_some_iff.mp hvalues⟩
  rw [WireValue.entryBytes_eq_flatMap]
  refine Reader.TakesIf.after (a := ⟨key, value, entries.length⟩)
    (fun rest => Reader.entriesHeader_eq_ok.mpr ⟨hlength, rfl⟩) ?_
  refine (Reader.TakesIf.collect ?_).bind_pure.congr
    (WireValue.add_entryDepth_le_iff hframes).symm
  refine hentries.imp fun entry v hentry => ?_
  have hkey := hreadKey hentry.1.1 hentry.2.1
  have hvalue := hreadValue hentry.1.2 hentry.2.2
  exact hkey.bind hvalue.bind_pure

theorem readEnum_eq_ok {id : Fin n.enums} {v : Int32} {member : EnumMember}
    (hmember : (t.schema.enum id).memberByValue? v = some member) (rest : Source) :
    t.readEnum id (rest.prepend (Bytes.ofI32 v)) = .ok (.enum v) rest := by
  rw [readEnum]
  refine Reader.bind_eq_ok.mpr ⟨v, rest, Reader.i32_eq_ok.mpr rfl, ?_⟩
  rw [hmember]
  rfl

theorem readString_eq_ok {bytes : Bytes} {text : String} (hlength : bytes.length < 2 ^ 31)
    (htext : bytes.toString? = some text) (rest : Source) :
    Reader.string (rest.prepend (Bytes.ofI32 (Int32.ofNat bytes.length) ++ bytes)) =
      .ok text rest := by
  rw [Reader.string]
  refine Reader.bind_eq_ok.mpr ⟨bytes, rest, Reader.binary_eq_ok.mpr ⟨hlength, rfl⟩, ?_⟩
  rw [Reader.decoded, htext]
  rfl

theorem takesIf_unframed {reader : Reader Value} {w : WireValue} {v : Value} {frames : Nat}
    (hframes : frames ≤ maxFrames) (hzero : w.frames = 0)
    (hread : ∀ rest : Source, reader (rest.prepend w.bytes) = .ok v rest) :
    Reader.TakesIf (frames + w.frames ≤ maxFrames) reader frames w.bytes v := by
  refine (Reader.TakesIf.always hread).congr (iff_of_true trivial ?_)
  rw [hzero]
  exact hframes

theorem takesIf_readValueWith {record : Fin n.records → Reader Value} {frames : Nat}
    (hrecord : t.ReadsRecords frames record) (hframes : frames ≤ maxFrames) {shape : Shape n}
    {w : WireValue} {v : Value} (hw : w.WellFormed) (hv : t.valueOf? shape w = some v) :
    Reader.TakesIf (frames + w.frames ≤ maxFrames) (t.readValueWith record shape) frames
      w.bytes v := by
  induction shape generalizing w v with
  | bool =>
      cases w with
      | bool b =>
          cases hv
          exact takesIf_unframed hframes rfl fun _ => Reader.bind_pure_eq_ok.mpr
            ⟨_, Reader.bind_pure_eq_ok.mpr ⟨b, Reader.rawByte_eq_ok.mpr rfl, rfl⟩, rfl⟩
      | _ => cases hv
  | byte =>
      cases w with
      | byte b =>
          cases hv
          exact takesIf_unframed hframes rfl fun _ => Reader.bind_pure_eq_ok.mpr
            ⟨_, Reader.bind_pure_eq_ok.mpr ⟨b, Reader.rawByte_eq_ok.mpr rfl, rfl⟩, rfl⟩
      | _ => cases hv
  | i16 =>
      cases w with
      | i16 k =>
          cases hv
          exact takesIf_unframed hframes rfl fun _ => Reader.bind_pure_eq_ok.mpr
            ⟨k, Reader.i16_eq_ok.mpr rfl, rfl⟩
      | _ => cases hv
  | i32 =>
      cases w with
      | i32 k =>
          cases hv
          exact takesIf_unframed hframes rfl fun _ => Reader.bind_pure_eq_ok.mpr
            ⟨k, Reader.i32_eq_ok.mpr rfl, rfl⟩
      | _ => cases hv
  | i64 =>
      cases w with
      | i64 k =>
          cases hv
          exact takesIf_unframed hframes rfl fun _ => Reader.bind_pure_eq_ok.mpr
            ⟨k, Reader.i64_eq_ok.mpr rfl, rfl⟩
      | _ => cases hv
  | double =>
      cases w with
      | double x =>
          cases hv
          exact takesIf_unframed hframes rfl fun _ => Reader.bind_pure_eq_ok.mpr
            ⟨x, Reader.double_eq_ok.mpr rfl, rfl⟩
      | _ => cases hv
  | string =>
      cases w with
      | string bytes =>
          rw [valueOf?_string, Option.map_eq_some_iff] at hv
          obtain ⟨text, htext, rfl⟩ := hv
          cases hw with
          | string hlength =>
              exact takesIf_unframed hframes rfl fun rest => Reader.bind_pure_eq_ok.mpr
                ⟨text, readString_eq_ok hlength htext rest, rfl⟩
      | _ => cases hv
  | binary =>
      cases w with
      | string bytes =>
          cases hv
          cases hw with
          | string hlength =>
              exact takesIf_unframed hframes rfl fun _ => Reader.bind_pure_eq_ok.mpr
                ⟨bytes, Reader.binary_eq_ok.mpr ⟨hlength, rfl⟩, rfl⟩
      | _ => cases hv
  | enum id =>
      cases w with
      | i32 k =>
          rw [valueOf?_enum, Option.map_eq_some_iff] at hv
          obtain ⟨member, hmember, rfl⟩ := hv
          exact takesIf_unframed hframes rfl (readEnum_eq_ok hmember)
      | _ => cases hv
  | record id => exact hrecord hw hv
  | list written element ih =>
      cases w with
      | list tag items =>
          rw [valueOf?_list, Option.map_eq_some_iff] at hv
          obtain ⟨values, hvalues, rfl⟩ := hv
          cases hw with
          | list hlength _ hparts =>
              exact takesIf_readItems hframes hlength hparts hvalues (ih ()) _
      | _ => cases hv
  | set written element ih =>
      cases w with
      | set tag items =>
          rw [valueOf?_set, Option.map_eq_some_iff] at hv
          obtain ⟨values, hvalues, rfl⟩ := hv
          cases hw with
          | set hlength _ hparts =>
              exact takesIf_readItems hframes hlength hparts hvalues (ih ()) _
      | _ => cases hv
  | map writtenKey key writtenValue value ihKey ihValue =>
      cases w with
      | map keyTag valueTag entries =>
          rw [valueOf?_map, Option.map_eq_some_iff] at hv
          obtain ⟨values, hvalues, rfl⟩ := hv
          cases hw with
          | map hlength _ _ hkeys hparts =>
              exact takesIf_readEntries hframes hlength hkeys hparts hvalues (ihKey ())
                (ihValue ()) _
      | _ => cases hv
  | void | service id | cyclic cycle => cases w <;> cases hv

/-- A field that a reader of the known fields gets past: a known one stands for a value, any other
can be skipped. -/
def Readable (t : Target n) (known : List (KnownField n)) (part : Int16 × WireValue) : Prop :=
  match known.find? (·.id == part.1) with
  | some field => ∃ v, t.valueOf? field.shape part.2 = some v
  | none => part.2.nest ≤ maxFrames

theorem exists_fieldValues?_iff {known : List (KnownField n)} {parts : List (Int16 × WireValue)} :
    (∃ values, t.fieldValues? known parts = some values) ↔
      ∀ part ∈ parts, t.Readable known part := by
  induction parts with
  | nil => exact iff_of_true ⟨[], rfl⟩ (by simp)
  | cons part parts ih =>
      obtain ⟨id, w⟩ := part
      rw [List.forall_mem_cons, ← ih, fieldValues?, Readable]
      cases hfind : known.find? (·.id == id) with
      | none =>
          by_cases hnest : w.nest ≤ maxFrames
          · simp [hnest]
          · simp [hnest]
      | some field =>
          simp only [Option.bind_eq_some_iff, Option.map_eq_some_iff]
          constructor
          · intro h
            obtain ⟨_, v, hv, rest, hrest, _⟩ := h
            exact ⟨⟨v, hv⟩, rest, hrest⟩
          · intro h
            obtain ⟨⟨v, hv⟩, rest, hrest⟩ := h
            exact ⟨(id, v) :: rest, v, hv, rest, hrest, rfl⟩

def store (t : Target n) (known : List (KnownField n)) (slots : Slots)
    (part : Int16 × WireValue) : Slots :=
  match known.find? (·.id == part.1) with
  | some field =>
      match t.valueOf? field.shape part.2 with
      | some v => Slots.after known slots [(part.1, v)]
      | none => slots
  | none => slots

theorem length_store {known : List (KnownField n)} {slots : Slots}
    (hlength : slots.length = known.length) (part : Int16 × WireValue) :
    (t.store known slots part).length = known.length := by
  rw [store]
  split
  · split
    · exact Slots.length_after known _ hlength
    · exact hlength
  · exact hlength

theorem foldl_store {known : List (KnownField n)} {parts : List (Int16 × WireValue)}
    {values : List (Int16 × Value)} {start : Slots} (hlength : start.length = known.length)
    (h : t.fieldValues? known parts = some values) :
    parts.foldl (t.store known) start = Slots.after known start values := by
  induction parts generalizing start values with
  | nil =>
      cases h
      exact (Slots.after_nil known hlength).symm
  | cons part parts ih =>
      have hstored := length_store (t := t) hlength part
      rw [List.foldl_cons]
      rw [fieldValues?] at h
      rw [store] at hstored ⊢
      cases hfind : known.find? (·.id == part.1) with
      | none =>
          simp only [hfind] at h
          split at h
          · exact ih hlength h
          · cases h
      | some field =>
          simp only [hfind, Option.bind_eq_some_iff, Option.map_eq_some_iff] at h hstored
          obtain ⟨v, hv, rest, hrest, rfl⟩ := h
          simp only [hv] at hstored ⊢
          rw [ih hstored hrest, ← Slots.after_append]
          rfl

theorem takesIf_readFields {record : Fin n.records → Reader Value} {known : List (KnownField n)}
    {start : Slots} {parts : List (Int16 × WireValue)} {values : List (Int16 × Value)}
    {frames : Nat} (hids : (known.map (·.id)).Nodup) (hlength : start.length = known.length)
    (hrecord : frames < maxFrames → t.ReadsRecords (frames + 1) record)
    (hw : (WireValue.struct parts).WellFormed)
    (hvalues : t.fieldValues? known parts = some values) :
    Reader.TakesIf (frames + (WireValue.struct parts).frames ≤ maxFrames)
      (Reader.frame (t.readField record known) start) frames (WireValue.fieldBytes parts)
      (Slots.after known start values) := by
  have hreadable := exists_fieldValues?_iff.mp ⟨values, hvalues⟩
  cases hw with
  | struct hparts =>
      have hbody : frames < maxFrames → ∀ steps, (WireValue.fieldBytes parts).length ≤ steps →
          Reader.TakesIf (∀ part ∈ parts, frames + 1 + part.2.frames ≤ maxFrames)
            (Reader.fields (t.readField record known) steps start) (frames + 1)
            (WireValue.fieldBytes parts) (Slots.after known start values) := by
        intro hlt steps hsteps
        rw [← foldl_store hlength hvalues]
        refine Reader.TakesIf.fields (fun slots => slots.length = known.length) (t.store known)
          ?_ (fun part _ slots hslots => length_store hslots part) hlength hsteps
        intro part hmem slots hslots
        have hpart := hreadable part hmem
        rw [Readable] at hpart
        rw [store]
        cases hfind : known.find? (·.id == part.1) with
        | none =>
            rw [hfind] at hpart
            exact takesIf_readField_undeclared hslots hfind (hparts part hmem) hpart hlt
        | some field =>
            simp only [hfind] at hpart
            obtain ⟨v, hv⟩ := hpart
            simp only [hv]
            exact takesIf_readField_declared hids hslots hfind (tag_of_valueOf? hv)
              (takesIf_readValueWith (hrecord hlt) hlt (hparts part hmem) hv)
      refine (Reader.TakesIf.frame hbody).congr ?_
      change _ ↔ frames + (WireValue.fieldDepth _ parts + 1) ≤ maxFrames
      constructor
      · intro h
        have hfields := (WireValue.add_fieldDepth_le_iff h.1).mpr h.2
        omega
      · intro h
        have hlt : frames < maxFrames := by omega
        exact ⟨hlt, (WireValue.add_fieldDepth_le_iff hlt).mp (by omega)⟩

theorem length_new (id : Fin n.records) :
    (Builder.new t id).slots.length =
      (t.schema.knownFields (t.schema.record id).fields).length := by
  rw [Schema.knownFields, List.length_map]
  exact List.length_map _

theorem takesIf_readSlots (hids : t.schema.HasDistinctIds) {id : Fin n.records} {fuel frames : Nat}
    (hrecord : frames < maxFrames → t.ReadsRecords (frames + 1) (t.readRecordWithin fuel))
    {parts : List (Int16 × WireValue)} {values : List (Int16 × Value)}
    (hw : (WireValue.struct parts).WellFormed)
    (hvalues :
      t.fieldValues? (t.schema.knownFields (t.schema.record id).fields) parts = some values) :
    Reader.TakesIf (frames + (WireValue.struct parts).frames ≤ maxFrames)
      (Reader.frame (t.readField (t.readRecordWithin fuel)
        (t.schema.knownFields (t.schema.record id).fields)) (Builder.new t id).slots)
      frames (WireValue.struct parts).bytes
      (Slots.after (t.schema.knownFields (t.schema.record id).fields) (Builder.new t id).slots
        values) :=
  takesIf_readFields (t.schema.nodup_knownFields hids id) (length_new id) hrecord hw hvalues

/-- With as much fuel as frames may still be opened, reading a record gives what its wire value
stands for. -/
theorem readsRecords_readRecordWithin (hids : t.schema.HasDistinctIds) {fuel frames : Nat}
    (hfuel : maxFrames ≤ frames + fuel) : t.ReadsRecords frames (t.readRecordWithin fuel) := by
  induction fuel generalizing frames with
  | zero =>
      -- Out of fuel the reader gives the fault that the frame itself would have given.
      intro id w v hw hv
      cases w with
      | struct parts =>
          have hdeep : ¬ frames + (WireValue.struct parts).frames ≤ maxFrames := by
            have hone := WireValue.one_le_frames_struct parts
            omega
          exact (Reader.TakesIf.never fun _ => ⟨_, rfl⟩).congr (iff_of_false not_false hdeep)
      | _ => cases hv
  | succ fuel ih =>
      intro id w v hw hv
      cases w with
      | struct parts =>
          rw [valueOf?_struct, Option.bind_eq_some_iff] at hv
          obtain ⟨values, hvalues, hbuild⟩ := hv
          have hslots := takesIf_readSlots hids
            (fun _ => ih (show maxFrames ≤ frames + 1 + fuel by omega)) hw hvalues
          refine hslots.bind_ok fun rest => ?_
          cases hresult : (t.schema.record id).build
              (Slots.after (t.schema.knownFields (t.schema.record id).fields)
                (Builder.new t id).slots values) with
          | error fault =>
              rw [hresult] at hbuild
              cases hbuild
          | ok u =>
              rw [hresult] at hbuild
              cases hbuild
              rfl
      | _ => cases hv

end Target

end WireIdl

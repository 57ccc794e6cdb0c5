import WireIdl.Proofs.Wire.Reader

/-! The grammar of the wire: what one value looks like, whoever reads it. A container says once what
its parts are; with no parts it may say anything. -/

namespace WireIdl

inductive WireValue where
  /-- Any byte but zero is true. -/
  | bool (v : UInt8)
  | byte (v : UInt8)
  | i16 (v : Int16)
  | i32 (v : Int32)
  | enum (v : Int32)
  | i64 (v : Int64)
  | double (v : Double)
  | string (v : Bytes)
  | struct (fields : List (Int16 × WireValue))
  | list (element : Tag) (items : List WireValue)
  | set (element : Tag) (items : List WireValue)
  | map (key value : Tag) (entries : List (WireValue × WireValue))

namespace WireValue

def wireType : WireValue → WireType
  | .bool _ => .bool
  | .byte _ => .byte
  | .i16 _ => .i16
  | .i32 _ => .i32
  | .enum _ => .enum
  | .i64 _ => .i64
  | .double _ => .double
  | .string _ => .string
  | .struct _ => .struct
  | .list _ _ => .list
  | .set _ _ => .set
  | .map _ _ _ => .map

def tag (w : WireValue) : Tag :=
  w.wireType.tag

mutual

def bytes : WireValue → Bytes
  | .bool v | .byte v => [v]
  | .i16 v => Bytes.ofI16 v
  | .i32 v | .enum v => Bytes.ofI32 v
  | .i64 v => Bytes.ofI64 v
  | .double v => Bytes.ofDouble v
  | .string v => Bytes.ofI32 (Int32.ofNat v.length) ++ v
  | .struct fields => fieldBytes fields
  | .list element items | .set element items =>
      Encoding.itemsHeader element (Int32.ofNat items.length) ++ itemBytes items
  | .map key value entries =>
      Encoding.entriesHeader key value (Int32.ofNat entries.length) ++ entryBytes entries

def fieldBytes : List (Int16 × WireValue) → Bytes
  | [] => Encoding.fieldStop
  | (id, w) :: fields => Encoding.fieldHeader id w.tag ++ w.bytes ++ fieldBytes fields

def itemBytes : List WireValue → Bytes
  | [] => []
  | w :: items => w.bytes ++ itemBytes items

def entryBytes : List (WireValue × WireValue) → Bytes
  | [] => []
  | (key, value) :: entries => key.bytes ++ value.bytes ++ entryBytes entries

end

mutual

/-- The largest sum of weights over values that are nested in each other. -/
def depth (weight : WireType → Nat) : WireValue → Nat
  | .struct fields => fieldDepth weight fields + weight .struct
  | .list _ items => itemDepth weight items + weight .list
  | .set _ items => itemDepth weight items + weight .set
  | .map _ _ entries => entryDepth weight entries + weight .map
  | w => weight w.wireType

def fieldDepth (weight : WireType → Nat) : List (Int16 × WireValue) → Nat
  | [] => 0
  | (_, w) :: fields => max (w.depth weight) (fieldDepth weight fields)

def itemDepth (weight : WireType → Nat) : List WireValue → Nat
  | [] => 0
  | w :: items => max (w.depth weight) (itemDepth weight items)

def entryDepth (weight : WireType → Nat) : List (WireValue × WireValue) → Nat
  | [] => 0
  | (key, value) :: entries =>
      max (max (key.depth weight) (value.depth weight)) (entryDepth weight entries)

end

/-- How deep values are nested in each other, whatever their types. -/
def nest (w : WireValue) : Nat :=
  w.depth fun _ => 1

/-- How many structs are open at a time. -/
def frames (w : WireValue) : Nat :=
  w.depth fun type => if type = .struct then 1 else 0

/-- Lengths fit a 32-bit integer, and the parts of a container are what it says they are. -/
inductive WellFormed : WireValue → Prop where
  | bool (v : UInt8) : WellFormed (.bool v)
  | byte (v : UInt8) : WellFormed (.byte v)
  | i16 (v : Int16) : WellFormed (.i16 v)
  | i32 (v : Int32) : WellFormed (.i32 v)
  | enum (v : Int32) : WellFormed (.enum v)
  | i64 (v : Int64) : WellFormed (.i64 v)
  | double (v : Double) : WellFormed (.double v)
  | string {v : Bytes} (length : v.length < 2 ^ 31) : WellFormed (.string v)
  | struct {fields : List (Int16 × WireValue)}
      (parts : ∀ field ∈ fields, WellFormed field.2) : WellFormed (.struct fields)
  | list {element : Tag} {items : List WireValue} (length : items.length < 2 ^ 31)
      (tags : ∀ w ∈ items, w.tag = element) (parts : ∀ w ∈ items, WellFormed w) :
      WellFormed (.list element items)
  | set {element : Tag} {items : List WireValue} (length : items.length < 2 ^ 31)
      (tags : ∀ w ∈ items, w.tag = element) (parts : ∀ w ∈ items, WellFormed w) :
      WellFormed (.set element items)
  | map {key value : Tag} {entries : List (WireValue × WireValue)}
      (length : entries.length < 2 ^ 31)
      (keyTags : ∀ entry ∈ entries, entry.1.tag = key)
      (valueTags : ∀ entry ∈ entries, entry.2.tag = value)
      (keys : ∀ entry ∈ entries, WellFormed entry.1)
      (values : ∀ entry ∈ entries, WellFormed entry.2) :
      WellFormed (.map key value entries)

theorem tag_ne_stop (w : WireValue) : w.tag ≠ Tag.stop := by
  rw [tag]
  cases w.wireType <;> decide

@[simp] theorem ofTag?_tag (w : WireValue) : WireType.ofTag? w.tag = some w.wireType :=
  WireType.ofTag?_tag w.wireType

theorem itemBytes_eq_flatMap (items : List WireValue) : itemBytes items = items.flatMap bytes := by
  induction items with
  | nil => rfl
  | cons w items ih => rw [itemBytes, ih, List.flatMap_cons]

theorem entryBytes_eq_flatMap (entries : List (WireValue × WireValue)) :
    entryBytes entries = entries.flatMap fun entry => entry.1.bytes ++ entry.2.bytes := by
  induction entries with
  | nil => rfl
  | cons entry entries ih => rw [entryBytes, ih, List.flatMap_cons]

theorem one_le_nest (w : WireValue) : 1 ≤ w.nest := by
  cases w <;> simp [nest, depth]

theorem one_le_frames_struct (fields : List (Int16 × WireValue)) :
    1 ≤ (WireValue.struct fields).frames :=
  Nat.le_add_left 1 _

theorem fieldDepth_le_iff {weight : WireType → Nat} {fields : List (Int16 × WireValue)}
    {limit : Nat} :
    fieldDepth weight fields ≤ limit ↔ ∀ field ∈ fields, field.2.depth weight ≤ limit := by
  induction fields with
  | nil => simp [fieldDepth]
  | cons field fields ih => rw [fieldDepth, Nat.max_le, ih, List.forall_mem_cons]

theorem itemDepth_le_iff {weight : WireType → Nat} {items : List WireValue} {limit : Nat} :
    itemDepth weight items ≤ limit ↔ ∀ w ∈ items, w.depth weight ≤ limit := by
  induction items with
  | nil => simp [itemDepth]
  | cons w items ih => rw [itemDepth, Nat.max_le, ih, List.forall_mem_cons]

theorem entryDepth_le_iff {weight : WireType → Nat} {entries : List (WireValue × WireValue)}
    {limit : Nat} :
    entryDepth weight entries ≤ limit ↔
      ∀ entry ∈ entries, entry.1.depth weight ≤ limit ∧ entry.2.depth weight ≤ limit := by
  induction entries with
  | nil => simp [entryDepth]
  | cons entry entries ih => rw [entryDepth, Nat.max_le, Nat.max_le, ih, List.forall_mem_cons]

theorem add_fieldDepth_le_iff {weight : WireType → Nat} {fields : List (Int16 × WireValue)}
    {base limit : Nat} (hbase : base ≤ limit) :
    base + fieldDepth weight fields ≤ limit ↔
      ∀ field ∈ fields, base + field.2.depth weight ≤ limit := by
  rw [← Nat.le_sub_iff_add_le' hbase, fieldDepth_le_iff]
  exact forall₂_congr fun field _ => Nat.le_sub_iff_add_le' hbase

theorem add_itemDepth_le_iff {weight : WireType → Nat} {items : List WireValue}
    {base limit : Nat} (hbase : base ≤ limit) :
    base + itemDepth weight items ≤ limit ↔ ∀ w ∈ items, base + w.depth weight ≤ limit := by
  rw [← Nat.le_sub_iff_add_le' hbase, itemDepth_le_iff]
  exact forall₂_congr fun w _ => Nat.le_sub_iff_add_le' hbase

theorem add_entryDepth_le_iff {weight : WireType → Nat} {entries : List (WireValue × WireValue)}
    {base limit : Nat} (hbase : base ≤ limit) :
    base + entryDepth weight entries ≤ limit ↔
      ∀ entry ∈ entries,
        base + entry.1.depth weight ≤ limit ∧ base + entry.2.depth weight ≤ limit := by
  rw [← Nat.le_sub_iff_add_le' hbase, entryDepth_le_iff]
  exact forall₂_congr fun entry _ =>
    and_congr (Nat.le_sub_iff_add_le' hbase) (Nat.le_sub_iff_add_le' hbase)

end WireValue

end WireIdl

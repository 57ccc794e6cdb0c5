import WireIdl.Wire.Bytes

/-!
Values of the emitted types. A container is a list of its parts: a sequence in its own order, a set
or map in the order in which it is walked. How a value is held (`Vec` or `VecDeque`, hashed or
ordered, behind a pointer) is part of the value, since values held differently are never the same.
-/

namespace WireIdl

inductive TextForm where
  | owned
  | boxed
  deriving DecidableEq

inductive PointerForm where
  | box
  | reference
  deriving DecidableEq

inductive SeqForm where
  | vec
  | slice
  | deque
  deriving DecidableEq

inductive KeyedForm where
  | hashed
  | ordered
  deriving DecidableEq

inductive Value where
  | bool (v : Bool)
  | byte (v : Int8)
  | ubyte (v : UInt8)
  | i16 (v : Int16)
  | i32 (v : Int32)
  | i64 (v : Int64)
  | double (v : Double)
  | string (form : TextForm) (v : String)
  | binary (v : Bytes)
  | enum (v : Int32)
  | option (v : Option Value)
  | pointer (form : PointerForm) (v : Value)
  | seq (form : SeqForm) (items : List Value)
  | set (form : KeyedForm) (items : List Value)
  | map (form : KeyedForm) (entries : List (Value × Value))
  | record (slots : List (Option Value))

/-- The fields of a record in the order of declaration, each with its value if it has one. -/
abbrev Slots := List (Option Value)

namespace Value

mutual

/-- Whether the order in which every set and map is walked is fixed: it is for ordered containers
and for those of less than two parts. -/
def hasFixedOrder : Value → Bool
  | .option (some v) | .pointer _ v => v.hasFixedOrder
  | .seq _ items => itemsHaveFixedOrder items
  | .set form items => (form == .ordered || items.length < 2) && itemsHaveFixedOrder items
  | .map form entries => (form == .ordered || entries.length < 2) && entriesHaveFixedOrder entries
  | .record slots => slotsHaveFixedOrder slots
  | _ => true

def itemsHaveFixedOrder : List Value → Bool
  | [] => true
  | item :: items => item.hasFixedOrder && itemsHaveFixedOrder items

def entriesHaveFixedOrder : List (Value × Value) → Bool
  | [] => true
  | (key, value) :: entries =>
      key.hasFixedOrder && value.hasFixedOrder && entriesHaveFixedOrder entries

def slotsHaveFixedOrder : Slots → Bool
  | [] => true
  | none :: slots => slotsHaveFixedOrder slots
  | some v :: slots => v.hasFixedOrder && slotsHaveFixedOrder slots

end

end Value

end WireIdl

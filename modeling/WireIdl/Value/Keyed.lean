import WireIdl.Value.Identity

/-!
Building sets and maps. A set keeps the first of several same elements; a map keeps the first of
several same keys with the last of their values. A hashed container is walked in some order, here
that of insertion; an ordered one in the order of its keys.
-/

namespace WireIdl.Value

/-- The place of a kind of value among the others, where values of two kinds are compared. -/
def rank : Value → Nat
  | .bool _ => 0
  | .byte _ => 1
  | .ubyte _ => 2
  | .i16 _ => 3
  | .i32 _ => 4
  | .i64 _ => 5
  | .double _ => 6
  | .string _ _ => 7
  | .binary _ => 8
  | .enum _ => 9
  | .option _ => 10
  | .pointer _ _ => 11
  | .seq _ _ => 12
  | .set _ _ => 13
  | .map _ _ => 14
  | .record _ => 15

mutual

/-- The order of keys: numbers by value, text by code point, enum members by number, and containers
part by part. -/
def compare : Value → Value → Ordering
  | .bool a, .bool b => Ord.compare a b
  | .byte a, .byte b => Ord.compare a.toInt b.toInt
  | .ubyte a, .ubyte b => Ord.compare a b
  | .i16 a, .i16 b => Ord.compare a.toInt b.toInt
  | .i32 a, .i32 b => Ord.compare a.toInt b.toInt
  | .i64 a, .i64 b => Ord.compare a.toInt b.toInt
  | .double a, .double b => Ord.compare a.bits b.bits
  | .string _ a, .string _ b => Ord.compare a b
  | .binary a, .binary b => Ord.compare a b
  | .enum a, .enum b => Ord.compare a.toInt b.toInt
  | .option none, .option none => .eq
  | .option none, .option (some _) => .lt
  | .option (some _), .option none => .gt
  | .option (some a), .option (some b) => a.compare b
  | .pointer _ a, .pointer _ b => a.compare b
  | .seq _ as, .seq _ bs => compareItems as bs
  | .set _ as, .set _ bs => compareItems as bs
  | .map _ as, .map _ bs => compareEntries as bs
  | .record as, .record bs => compareSlots as bs
  | a, b => Ord.compare a.rank b.rank

def compareItems : List Value → List Value → Ordering
  | [], [] => .eq
  | [], _ :: _ => .lt
  | _ :: _, [] => .gt
  | a :: as, b :: bs => (a.compare b).then (compareItems as bs)

def compareEntries : List (Value × Value) → List (Value × Value) → Ordering
  | [], [] => .eq
  | [], _ :: _ => .lt
  | _ :: _, [] => .gt
  | (k, v) :: as, (l, w) :: bs => ((k.compare l).then (v.compare w)).then (compareEntries as bs)

def compareSlots : Slots → Slots → Ordering
  | [], [] => .eq
  | [], _ :: _ => .lt
  | _ :: _, [] => .gt
  | none :: as, none :: bs => compareSlots as bs
  | none :: _, some _ :: _ => .lt
  | some _ :: _, none :: _ => .gt
  | some a :: as, some b :: bs => (a.compare b).then (compareSlots as bs)

end

def insertBefore {α : Type} (key : α → Value) (part : α) : List α → List α
  | [] => [part]
  | other :: parts =>
      if (key part).compare (key other) == .lt then part :: other :: parts
      else other :: insertBefore key part parts

def addPart {α : Type} (form : KeyedForm) (key : α → Value) (parts : List α) (part : α) : List α :=
  match form with
  | .hashed => parts ++ [part]
  | .ordered => insertBefore key part parts

def insertItem (form : KeyedForm) (items : List Value) (item : Value) : List Value :=
  if items.any (item.same ·) then items else addPart form id items item

def insertEntry (form : KeyedForm) (entries : List (Value × Value)) (entry : Value × Value) :
    List (Value × Value) :=
  if entries.any (entry.1.same ·.1) then
    entries.map fun old => if entry.1.same old.1 then (old.1, entry.2) else old
  else addPart form Prod.fst entries entry

def setOf (form : KeyedForm) (items : List Value) : Value :=
  .set form (items.foldl (insertItem form) [])

def mapOf (form : KeyedForm) (entries : List (Value × Value)) : Value :=
  .map form (entries.foldl (insertEntry form) [])

end WireIdl.Value

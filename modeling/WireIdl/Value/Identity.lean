import WireIdl.Text.Hex
import WireIdl.Value.Basic

/-!
Identity of values: a total equality and a 32-bit hash that agree. Doubles compare and hash by bit
pattern. The hash of a set or map is a sum over its parts, so it depends neither on their order nor
on how the container finds its keys; that of a record folds its fields with the FNV constants.
-/

namespace WireIdl.Value

def foldWord (bits : UInt64) : Int32 :=
  (bits ^^^ (bits >>> 32)).toUInt32.toInt32

def utf16Units (c : Char) : List Nat :=
  let n := c.toNat
  if n < 0x10000 then [n]
  else [0xd800 + (n - 0x10000) / 0x400, 0xdc00 + (n - 0x10000) % 0x400]

def mix (h part : Int32) : Int32 :=
  h * 31 + part

def hashString (s : String) : Int32 :=
  (s.toList.flatMap utf16Units).foldl (fun h unit => mix h (Int32.ofNat unit)) 0

def hashBytes (bytes : Bytes) : Int32 :=
  bytes.foldl (fun h b => mix h b.toInt8.toInt32) 1

def fnvOffset : Int32 := 16777619

def fnvFactor : Int32 := (0x811c9dc5 : UInt32).toInt32

mutual

def hash : Value → Int32
  | .bool v => if v then 1231 else 1237
  | .byte v => v.toInt32
  | .ubyte v => v.toInt8.toInt32
  | .i16 v => v.toInt32
  | .i32 v => v
  | .i64 v => foldWord v.toUInt64
  | .double v => foldWord v.bits
  | .string _ v => hashString v
  | .binary v => hashBytes v
  | .enum v => v
  | .option none => 0
  | .option (some v) => v.hash
  | .pointer _ v => v.hash
  | .seq _ items => hashSeq 1 items
  | .set _ items => hashSet items
  | .map _ entries => hashMap entries
  | .record slots => hashSlots fnvOffset slots

def hashSeq (h : Int32) : List Value → Int32
  | [] => h
  | item :: items => hashSeq (mix h item.hash) items

def hashSet : List Value → Int32
  | [] => 0
  | item :: items => item.hash + hashSet items

def hashMap : List (Value × Value) → Int32
  | [] => 0
  | (key, value) :: entries => (key.hash ^^^ value.hash) + hashMap entries

def hashSlots (h : Int32) : Slots → Int32
  | [] => h
  | none :: slots => hashSlots (h * fnvFactor) slots
  | some v :: slots => hashSlots ((h ^^^ v.hash) * fnvFactor) slots

end

mutual

/-- Whether two values are the same. A set has the same number of elements and each in the other; a
map the same number of entries and each key in the other with the same value. -/
def same : Value → Value → Bool
  | .bool a, .bool b => a == b
  | .byte a, .byte b => a == b
  | .ubyte a, .ubyte b => a == b
  | .i16 a, .i16 b => a == b
  | .i32 a, .i32 b => a == b
  | .i64 a, .i64 b => a == b
  | .double a, .double b => a == b
  | .string f a, .string g b => f == g && a == b
  | .binary a, .binary b => a == b
  | .enum a, .enum b => a == b
  | .option none, .option none => true
  | .option (some a), .option (some b) => a.same b
  | .pointer f a, .pointer g b => f == g && a.same b
  | .seq f as, .seq g bs => f == g && sameItems as bs
  | .set f as, .set g bs => f == g && as.length == bs.length && itemsWithin as bs
  | .map f as, .map g bs => f == g && as.length == bs.length && entriesWithin as bs
  | .record as, .record bs => sameSlots as bs
  | _, _ => false

def sameItems : List Value → List Value → Bool
  | [], [] => true
  | a :: as, b :: bs => a.same b && sameItems as bs
  | _, _ => false

def itemsWithin : List Value → List Value → Bool
  | [], _ => true
  | a :: as, bs => bs.any (a.same ·) && itemsWithin as bs

def entriesWithin : List (Value × Value) → List (Value × Value) → Bool
  | [], _ => true
  | (key, value) :: as, bs =>
      (match bs.find? (key.same ·.1) with
        | some entry => value.same entry.2
        | none => false) && entriesWithin as bs

def sameSlots : Slots → Slots → Bool
  | [], [] => true
  | none :: as, none :: bs => sameSlots as bs
  | some a :: as, some b :: bs => a.same b && sameSlots as bs
  | _, _ => false

end

def hashText (v : Value) : String :=
  String.ofList ((Text.hexDigits 8 v.hash.toUInt32.toNat).map Char.toUpper)

end WireIdl.Value

import WireIdl.Decimal.Double
import WireIdl.Text.Hex

/-!
Numbers and text as bytes. Integers are big-endian in two's complement, doubles are their bit
pattern, and text is UTF-8.
-/

namespace WireIdl

abbrev Bytes := List UInt8

namespace Bytes

/-- The lowest `width` bytes of a number, most significant first. -/
def ofNat : Nat → Nat → Bytes
  | 0, _ => []
  | width + 1, k => (k / Nat.pow 256 width).toUInt8 :: ofNat width k

@[simp] theorem length_ofNat (width k : Nat) : (ofNat width k).length = width := by
  induction width with
  | zero => rfl
  | succ width ih => simp [ofNat, ih]

def toNat (bytes : Bytes) : Nat :=
  bytes.foldl (fun k b => 256 * k + b.toNat) 0

def ofI8 (v : Int8) : Bytes :=
  [v.toUInt8]

def ofI16 (v : Int16) : Bytes :=
  ofNat 2 v.toUInt16.toNat

def ofI32 (v : Int32) : Bytes :=
  ofNat 4 v.toUInt32.toNat

def ofI64 (v : Int64) : Bytes :=
  ofNat 8 v.toUInt64.toNat

def ofDouble (v : Double) : Bytes :=
  ofNat 8 v.bits.toNat

def ofString (s : String) : Bytes :=
  s.toUTF8.data.toList

def toI16 (bytes : Bytes) : Int16 :=
  bytes.toNat.toUInt16.toInt16

def toI32 (bytes : Bytes) : Int32 :=
  bytes.toNat.toUInt32.toInt32

def toI64 (bytes : Bytes) : Int64 :=
  bytes.toNat.toUInt64.toInt64

def toDouble (bytes : Bytes) : Double :=
  ⟨bytes.toNat.toUInt64⟩

def toString? (bytes : Bytes) : Option String :=
  String.fromUTF8? ⟨bytes.toArray⟩

@[simp] theorem toString?_ofString (s : String) : toString? (ofString s) = some s := by
  have hvalid : (ByteArray.mk (ofString s).toArray).IsValidUTF8 := s.isValidUTF8
  simp only [toString?, String.fromUTF8?, hvalid, ↓reduceDIte]
  rfl

def hex (bytes : Bytes) : String :=
  String.ofList (bytes.flatMap fun b => Text.hexDigits 2 b.toNat)

def ofHexDigits? : List Char → Option Bytes
  | [] => some []
  | high :: low :: rest => do
      let high ← Text.hexDigit? high
      let low ← Text.hexDigit? low
      return (16 * high + low).toUInt8 :: (← ofHexDigits? rest)
  | _ => none

def ofHex? (s : String) : Option Bytes :=
  ofHexDigits? s.toList

end Bytes

end WireIdl

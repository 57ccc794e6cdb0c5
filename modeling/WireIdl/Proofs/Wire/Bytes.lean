import WireIdl.Wire.Encoding
import Mathlib.Tactic.Ring

/-! Numbers read back from their bytes, and bytes from their numbers. -/

namespace WireIdl.Bytes

theorem toNat_foldl (bytes : Bytes) (k : Nat) :
    bytes.foldl (fun k b => 256 * k + b.toNat) k =
      256 ^ bytes.length * k + bytes.toNat := by
  induction bytes generalizing k with
  | nil => simp [toNat]
  | cons b bytes ih =>
      rw [toNat, List.foldl_cons, List.foldl_cons, ih, ih (256 * 0 + b.toNat), List.length_cons,
        pow_succ]
      ring

theorem toNat_cons (b : UInt8) (bytes : Bytes) :
    toNat (b :: bytes) = 256 ^ bytes.length * b.toNat + bytes.toNat := by
  rw [toNat, List.foldl_cons, toNat_foldl]
  simp

theorem toNat_lt (bytes : Bytes) : bytes.toNat < 256 ^ bytes.length := by
  induction bytes with
  | nil => simp [toNat]
  | cons b bytes ih =>
      have hb : b.toNat + 1 ≤ 256 := b.toNat_lt
      calc
        toNat (b :: bytes) = 256 ^ bytes.length * b.toNat + toNat bytes := toNat_cons b bytes
        _ < 256 ^ bytes.length * b.toNat + 256 ^ bytes.length := Nat.add_lt_add_left ih _
        _ = 256 ^ bytes.length * (b.toNat + 1) := by ring
        _ ≤ 256 ^ bytes.length * 256 := Nat.mul_le_mul_left _ hb
        _ = 256 ^ (b :: bytes).length := by rw [List.length_cons, pow_succ]

theorem toNat_ofNat (width k : Nat) : (ofNat width k).toNat = k % 256 ^ width := by
  induction width with
  | zero => simp [ofNat, toNat, Nat.mod_one]
  | succ width ih =>
      have hhigh : (k / Nat.pow 256 width).toUInt8.toNat = k / 256 ^ width % 256 := by
        simp
      rw [ofNat, toNat_cons, ih, length_ofNat, hhigh, pow_succ, Nat.mod_mul]
      ring

theorem eq_of_toNat_eq {xs ys : Bytes} (hlength : xs.length = ys.length)
    (h : xs.toNat = ys.toNat) : xs = ys := by
  induction xs generalizing ys with
  | nil => exact (List.length_eq_zero_iff.mp hlength.symm).symm
  | cons x xs ih =>
      cases ys with
      | nil => simp at hlength
      | cons y ys =>
          have htail : xs.length = ys.length := Nat.succ.inj hlength
          rw [toNat_cons, toNat_cons, htail] at h
          have hxs := toNat_lt xs
          have hys := toNat_lt ys
          rw [htail] at hxs
          have hpos : 0 < 256 ^ ys.length := Nat.pow_pos (by decide)
          have hhigh : x.toNat = y.toNat := by
            have hdiv := congrArg (· / 256 ^ ys.length) h
            simpa [Nat.mul_add_div hpos, Nat.div_eq_of_lt hxs, Nat.div_eq_of_lt hys] using hdiv
          have hlow : toNat xs = toNat ys := by
            rw [hhigh] at h
            exact Nat.add_left_cancel h
          rw [UInt8.toNat_inj.mp hhigh, ih htail hlow]

theorem ofNat_toNat {bytes : Bytes} {width : Nat} (hlength : bytes.length = width) :
    ofNat width bytes.toNat = bytes := by
  apply eq_of_toNat_eq
  · rw [length_ofNat, hlength]
  · rw [toNat_ofNat, ← hlength, Nat.mod_eq_of_lt (toNat_lt bytes)]

@[simp] theorem length_ofI16 (v : Int16) : (ofI16 v).length = 2 := length_ofNat _ _

@[simp] theorem length_ofI32 (v : Int32) : (ofI32 v).length = 4 := length_ofNat _ _

@[simp] theorem length_ofI64 (v : Int64) : (ofI64 v).length = 8 := length_ofNat _ _

@[simp] theorem length_ofDouble (v : Double) : (ofDouble v).length = 8 := length_ofNat _ _

@[simp] theorem toI16_ofI16 (v : Int16) : toI16 (ofI16 v) = v := by
  have hlt : v.toUInt16.toNat < 256 ^ 2 := v.toUInt16.toNat_lt
  rw [toI16, ofI16, toNat_ofNat, Nat.mod_eq_of_lt hlt]
  simp

@[simp] theorem toI32_ofI32 (v : Int32) : toI32 (ofI32 v) = v := by
  have hlt : v.toUInt32.toNat < 256 ^ 4 := v.toUInt32.toNat_lt
  rw [toI32, ofI32, toNat_ofNat, Nat.mod_eq_of_lt hlt]
  simp

@[simp] theorem toI64_ofI64 (v : Int64) : toI64 (ofI64 v) = v := by
  have hlt : v.toUInt64.toNat < 256 ^ 8 := v.toUInt64.toNat_lt
  rw [toI64, ofI64, toNat_ofNat, Nat.mod_eq_of_lt hlt]
  simp

@[simp] theorem toDouble_ofDouble (v : Double) : toDouble (ofDouble v) = v := by
  have hlt : v.bits.toNat < 256 ^ 8 := v.bits.toNat_lt
  rw [toDouble, ofDouble, toNat_ofNat, Nat.mod_eq_of_lt hlt]
  simp

theorem ofI16_toI16 {bytes : Bytes} (hlength : bytes.length = 2) :
    ofI16 bytes.toI16 = bytes := by
  have hlt := toNat_lt bytes
  rw [hlength] at hlt
  have hword : bytes.toNat.toUInt16.toNat = bytes.toNat := UInt16.toNat_ofNat_of_lt' hlt
  rw [ofI16, toI16, UInt16.toUInt16_toInt16, hword, ofNat_toNat hlength]

theorem ofI32_toI32 {bytes : Bytes} (hlength : bytes.length = 4) :
    ofI32 bytes.toI32 = bytes := by
  have hlt := toNat_lt bytes
  rw [hlength] at hlt
  have hword : bytes.toNat.toUInt32.toNat = bytes.toNat := UInt32.toNat_ofNat_of_lt' hlt
  rw [ofI32, toI32, UInt32.toUInt32_toInt32, hword, ofNat_toNat hlength]

theorem ofI64_toI64 {bytes : Bytes} (hlength : bytes.length = 8) :
    ofI64 bytes.toI64 = bytes := by
  have hlt := toNat_lt bytes
  rw [hlength] at hlt
  have hword : bytes.toNat.toUInt64.toNat = bytes.toNat := UInt64.toNat_ofNat_of_lt' hlt
  rw [ofI64, toI64, UInt64.toUInt64_toInt64, hword, ofNat_toNat hlength]

theorem ofDouble_toDouble {bytes : Bytes} (hlength : bytes.length = 8) :
    ofDouble bytes.toDouble = bytes := by
  have hlt := toNat_lt bytes
  rw [hlength] at hlt
  have hword : bytes.toNat.toUInt64.toNat = bytes.toNat := UInt64.toNat_ofNat_of_lt' hlt
  rw [ofDouble, toDouble, hword, ofNat_toNat hlength]

theorem ofString_of_toString? {bytes : Bytes} {s : String} (h : bytes.toString? = some s) :
    ofString s = bytes := by
  rw [toString?, String.fromUTF8?] at h
  split at h
  · cases h
    simp [ofString, String.fromUTF8]
  · cases h

end WireIdl.Bytes

import Mathlib.Data.UInt

/-!
# Conversions of `utils.cc`

Numbers in a message are sent low byte first.
-/

namespace Avarice

def u16ToB2 (l : UInt16) : List UInt8 :=
  [(l &&& 0xff).toUInt8, ((l >>> 8) &&& 0xff).toUInt8]

def u32ToB4 (l : UInt32) : List UInt8 :=
  [(l &&& 0xff).toUInt8, ((l >>> 8) &&& 0xff).toUInt8, ((l >>> 16) &&& 0xff).toUInt8,
    ((l >>> 24) &&& 0xff).toUInt8]

def b2ToU16 (b0 b1 : UInt8) : UInt16 :=
  b0.toUInt16 + b1.toUInt16 <<< 8

def b4ToU32 (b0 b1 b2 b3 : UInt8) : UInt32 :=
  b0.toUInt32 + b1.toUInt32 <<< 8 + b2.toUInt32 <<< 16 + b3.toUInt32 <<< 24

theorem toNat_pos {n : UInt32} (some : n ≠ 0) : 0 < n.toNat :=
  Nat.pos_of_ne_zero fun none => some (UInt32.toNat_inj.mp none)

theorem toNat_b2ToU16 (b0 b1 : UInt8) :
    (b2ToU16 b0 b1).toNat = b0.toNat + b1.toNat * 2 ^ 8 := by
  have low := b0.toNat_lt
  have high := b1.toNat_lt
  simp only [b2ToU16, UInt16.toNat_add, UInt16.toNat_shiftLeft, UInt8.toNat_toUInt16,
    Nat.shiftLeft_eq]
  show (b0.toNat + b1.toNat * 2 ^ 8 % 2 ^ 16) % 2 ^ 16 = _
  omega

theorem toNat_b4ToU32 (b0 b1 b2 b3 : UInt8) :
    (b4ToU32 b0 b1 b2 b3).toNat =
      b0.toNat + b1.toNat * 2 ^ 8 + b2.toNat * 2 ^ 16 + b3.toNat * 2 ^ 24 := by
  have first := b0.toNat_lt
  have second := b1.toNat_lt
  have third := b2.toNat_lt
  have fourth := b3.toNat_lt
  simp only [b4ToU32, UInt32.toNat_add, UInt32.toNat_shiftLeft, UInt8.toNat_toUInt32,
    Nat.shiftLeft_eq]
  show (((b0.toNat + b1.toNat * 2 ^ 8 % 2 ^ 32) % 2 ^ 32 + b2.toNat * 2 ^ 16 % 2 ^ 32) % 2 ^ 32 +
    b3.toNat * 2 ^ 24 % 2 ^ 32) % 2 ^ 32 = _
  omega

theorem toNat_byte16 (l : UInt16) : (l &&& 0xff).toUInt8.toNat = l.toNat % 2 ^ 8 := by
  rw [UInt16.toNat_toUInt8, UInt16.toNat_and]
  have mask : l.toNat &&& 255 = l.toNat % 256 := Nat.and_two_pow_sub_one_eq_mod l.toNat 8
  calc (l.toNat &&& 255) % 256 = l.toNat % 256 % 256 := by rw [mask]
    _ = l.toNat % 2 ^ 8 := Nat.mod_mod l.toNat 256

theorem toNat_byte32 (l : UInt32) : (l &&& 0xff).toUInt8.toNat = l.toNat % 2 ^ 8 := by
  rw [UInt32.toNat_toUInt8, UInt32.toNat_and]
  have mask : l.toNat &&& 255 = l.toNat % 256 := Nat.and_two_pow_sub_one_eq_mod l.toNat 8
  calc (l.toNat &&& 255) % 256 = l.toNat % 256 % 256 := by rw [mask]
    _ = l.toNat % 2 ^ 8 := Nat.mod_mod l.toNat 256

theorem u16ToB2_b2ToU16 (b0 b1 : UInt8) : u16ToB2 (b2ToU16 b0 b1) = [b0, b1] := by
  have low := b0.toNat_lt
  have high := b1.toNat_lt
  simp only [u16ToB2, List.cons.injEq, and_true, ← UInt8.toNat_inj, toNat_byte16,
    UInt16.toNat_shiftRight, Nat.shiftRight_eq_div_pow, toNat_b2ToU16]
  constructor
  · omega
  · show (b0.toNat + b1.toNat * 2 ^ 8) / 2 ^ 8 % 2 ^ 8 = _
    omega

theorem u32ToB4_b4ToU32 (b0 b1 b2 b3 : UInt8) :
    u32ToB4 (b4ToU32 b0 b1 b2 b3) = [b0, b1, b2, b3] := by
  have first := b0.toNat_lt
  have second := b1.toNat_lt
  have third := b2.toNat_lt
  have fourth := b3.toNat_lt
  simp only [u32ToB4, List.cons.injEq, and_true, ← UInt8.toNat_inj, toNat_byte32,
    UInt32.toNat_shiftRight, Nat.shiftRight_eq_div_pow, toNat_b4ToU32]
  refine ⟨by omega, ?_, ?_, ?_⟩
  · show _ / 2 ^ 8 % 2 ^ 8 = _
    omega
  · show _ / 2 ^ 16 % 2 ^ 8 = _
    omega
  · show _ / 2 ^ 24 % 2 ^ 8 = _
    omega

theorem b2ToU16_u16ToB2 (l : UInt16) :
    b2ToU16 (l &&& 0xff).toUInt8 ((l >>> 8) &&& 0xff).toUInt8 = l := by
  have width := l.toNat_lt
  rw [← UInt16.toNat_inj, toNat_b2ToU16, toNat_byte16, toNat_byte16, UInt16.toNat_shiftRight,
    Nat.shiftRight_eq_div_pow]
  show l.toNat % 2 ^ 8 + l.toNat / 2 ^ 8 % 2 ^ 8 * 2 ^ 8 = l.toNat
  omega

theorem b4ToU32_u32ToB4 (l : UInt32) :
    b4ToU32 (l &&& 0xff).toUInt8 ((l >>> 8) &&& 0xff).toUInt8
      ((l >>> 16) &&& 0xff).toUInt8 ((l >>> 24) &&& 0xff).toUInt8 = l := by
  have width := l.toNat_lt
  rw [← UInt32.toNat_inj, toNat_b4ToU32]
  simp only [toNat_byte32, UInt32.toNat_shiftRight, Nat.shiftRight_eq_div_pow]
  show l.toNat % 2 ^ 8 + l.toNat / 2 ^ 8 % 2 ^ 8 * 2 ^ 8 + l.toNat / 2 ^ 16 % 2 ^ 8 * 2 ^ 16 +
    l.toNat / 2 ^ 24 % 2 ^ 8 * 2 ^ 24 = l.toNat
  omega

end Avarice

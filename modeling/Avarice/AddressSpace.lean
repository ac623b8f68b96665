import Mathlib.Data.UInt
import Avarice.Constants

/-!
# Address spaces

Addresses carry the memory space they are meant for in their upper bits, as
the debugger encodes it.  Both protocols take these bits off in the same way,
and name the space by a code of their own.
-/

namespace Avarice

abbrev flashSpaceAddrOffset : UInt64 := 0x000000
abbrev dataSpaceAddrOffset : UInt64 := 0x800000
abbrev eepromSpaceAddrOffset : UInt64 := 0x810000
abbrev fuseSpaceAddrOffset : UInt64 := 0x820000
abbrev lockSpaceAddrOffset : UInt64 := 0x830000
abbrev sigSpaceAddrOffset : UInt64 := 0x840000
abbrev breakpointSpaceAddrOffset : UInt64 := 0x900000

abbrev addrSpaceMask : UInt64 :=
  dataSpaceAddrOffset ||| eepromSpaceAddrOffset ||| fuseSpaceAddrOffset |||
    lockSpaceAddrOffset ||| sigSpaceAddrOffset ||| breakpointSpaceAddrOffset

/-- The space bits of an address and the address without them.  They cannot
just be masked off, because 0x10000 to 0x1ffff are valid code addresses. -/
def splitAddress (addr : UInt64) : UInt64 × UInt64 :=
  if addr &&& dataSpaceAddrOffset ≠ 0 then (addr &&& addrSpaceMask, addr &&& ~~~addrSpaceMask)
  else (0, addr)

theorem splitAddress_le (addr : UInt64) : (splitAddress addr).2.toNat ≤ addr.toNat := by
  rw [splitAddress]
  split
  · rw [UInt64.toNat_and]
    exact Nat.and_le_left
  · exact Nat.le_refl _

section Bits

variable {w : Nat} {high mask low : BitVec w} (inside : high &&& mask = high)
  (outside : low &&& mask = 0#w)
include inside outside

theorem add_eq_or_of_mask : high + low = high ||| low := by
  refine BitVec.add_eq_or_of_and_eq_zero _ _ ?_
  rw [← inside, BitVec.and_assoc, BitVec.and_comm mask, outside, BitVec.and_zero]

theorem or_and_mask : (high ||| low) &&& mask = high := by
  rw [BitVec.and_or_distrib_right, inside, outside, BitVec.or_zero]

theorem or_and_not_mask : (high ||| low) &&& ~~~mask = low := by
  ext bit
  have high' := congrArg (fun value => value[bit]) inside
  have low' := congrArg (fun value => value[bit]) outside
  simp only [BitVec.getElem_and, BitVec.getElem_zero] at high' low'
  simp only [BitVec.getElem_and, BitVec.getElem_or, BitVec.getElem_not]
  revert high' low'
  cases high[bit] <;> cases mask[bit] <;> cases low[bit] <;> decide

end Bits

theorem splitAddress_add {space offset : UInt64} (isSpace : space &&& addrSpaceMask = space)
    (isData : space &&& dataSpaceAddrOffset = dataSpaceAddrOffset)
    (free : offset &&& addrSpaceMask = 0) :
    splitAddress (space + offset) = (space, offset) := by
  have inside : space.toBitVec &&& addrSpaceMask.toBitVec = space.toBitVec :=
    congrArg UInt64.toBitVec isSpace
  have outside : offset.toBitVec &&& addrSpaceMask.toBitVec = 0#64 :=
    congrArg UInt64.toBitVec free
  have sum : space + offset = space ||| offset := by
    rw [← UInt64.toBitVec_inj]
    exact add_eq_or_of_mask inside outside
  have spaceBits : (space ||| offset) &&& addrSpaceMask = space := by
    rw [← UInt64.toBitVec_inj]
    exact or_and_mask inside outside
  have offsetBits : (space ||| offset) &&& ~~~addrSpaceMask = offset := by
    rw [← UInt64.toBitVec_inj]
    exact or_and_not_mask inside outside
  have inMask : addrSpaceMask &&& dataSpaceAddrOffset = dataSpaceAddrOffset := by decide
  have data : (space ||| offset) &&& dataSpaceAddrOffset ≠ 0 := by
    rw [← inMask, ← UInt64.and_assoc, spaceBits, isData]
    decide
  rw [splitAddress, sum, if_pos data, spaceBits, offsetBits]

theorem and_addrSpaceMask {a : UInt64} (small : a < 0x10000) : a &&& addrSpaceMask = 0 := by
  have low : a &&& 0xffff = a := by
    rw [← UInt64.toNat_inj, UInt64.toNat_and]
    exact (Nat.and_two_pow_sub_one_eq_mod a.toNat 16).trans
      (Nat.mod_eq_of_lt (UInt64.lt_iff_toNat_lt.mp small))
  calc a &&& addrSpaceMask = a &&& (0xffff &&& addrSpaceMask) := by rw [← UInt64.and_assoc, low]
    _ = 0 := UInt64.and_zero

/-- An address without the bits of a power of two is the next lower multiple. -/
theorem toNat_and_not_mask {k : Nat} (small : k < 32) (addr : UInt32) :
    (addr &&& ~~~(Nat.toUInt32 (2 ^ k) - 1)).toNat = addr.toNat / 2 ^ k * 2 ^ k := by
  have bound : 2 ^ k < 2 ^ 32 := Nat.pow_lt_pow_right (by decide) small
  have positive : 0 < 2 ^ k := Nat.two_pow_pos k
  have mask : (Nat.toUInt32 (2 ^ k) - 1).toNat = 2 ^ k - 1 := by
    rw [UInt32.toNat_sub_of_le]
    · rw [UInt32.toNat_ofNat_of_lt' bound]
      rfl
    · rw [UInt32.le_iff_toNat_le, UInt32.toNat_ofNat_of_lt' bound]
      exact positive
  have complement : (~~~(Nat.toUInt32 (2 ^ k) - 1)).toNat = 2 ^ 32 - (2 ^ k - 1 + 1) := by
    rw [UInt32.toNat_not, mask]
    show 2 ^ 32 - 1 - (2 ^ k - 1) = _
    omega
  rw [UInt32.toNat_and, complement]
  apply Nat.eq_of_testBit_eq
  intro bit
  rw [Nat.testBit_and, Nat.testBit_two_pow_sub_succ (by omega), Nat.testBit_two_pow_sub_one,
    ← Nat.shiftRight_eq_div_pow, ← Nat.shiftLeft_eq, Nat.testBit_shiftLeft]
  have width := addr.toNat_lt
  rcases Nat.lt_or_ge bit k with low | high
  · simp [low, Nat.not_le.mpr low]
  · rw [Nat.testBit_shiftRight, Nat.add_sub_cancel' high]
    rcases Nat.lt_or_ge bit 32 with inside | outside
    · simp [high, inside]
    · have clear : addr.toNat.testBit bit = false := by
        apply Nat.testBit_lt_two_pow
        exact Nat.lt_of_lt_of_le width (Nat.pow_le_pow_right (by decide) outside)
      simp [clear]

end Avarice

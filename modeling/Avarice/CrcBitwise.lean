import Avarice.Crc16
import Avarice.Library.ShiftRegister

/-!
# The CRC bit by bit

The table of `crc16.c` holds what eight steps of a shift register make of a byte,
so that one lookup takes the place of the steps.
-/

namespace Avarice

open ShiftRegister

/-- The polynomial that the table has been made from. -/
abbrev crcPoly : BitVec 16 := 0x8408

/-- The lowest bit is shifted out, and the polynomial added if it was set. -/
def crcBit (crc : UInt16) : UInt16 :=
  if crc &&& 1 = 1 then (crc >>> 1) ^^^ 0x8408 else crc >>> 1

def crcByte (crc : UInt16) (byte : UInt8) : UInt16 :=
  crcBit^[8] (crc ^^^ byte.toUInt16)

def crcBitwise (message : List UInt8) (start : UInt16) : UInt16 :=
  message.foldl crcByte start

/-! ## The table -/

theorem crcTable_entries :
    crcTable.toList.map UInt16.toBitVec =
      (List.range 256).map fun i => (step crcPoly)^[8] (BitVec.ofNat 16 i) := by
  decide +kernel

theorem crcTable_eq (i : Nat) (inside : i < 256) :
    (crcTable.getD i 0).toBitVec = (step crcPoly)^[8] (BitVec.ofNat 16 i) := by
  have entry := congrArg (fun entries => entries[i]?) crcTable_entries
  simp only [List.getElem?_map, Array.getElem?_toList, List.getElem?_range inside,
    Option.map_some] at entry
  obtain ⟨value, found, same⟩ := Option.map_eq_some_iff.mp entry
  rw [Array.getD_eq_getD_getElem?, found, Option.getD_some, same]

/-- A step of the table is eight steps of the register. -/
theorem toBitVec_crc (crcval : UInt16) (newchar : UInt8) :
    (crc crcval newchar).toBitVec =
      (step crcPoly)^[8] (crcval.toBitVec ^^^ newchar.toBitVec.setWidth 16) := by
  have index : ((crcval ^^^ newchar.toUInt16) &&& 0x00ff).toNat < 256 := by
    rw [UInt16.toNat_and]
    exact Nat.lt_succ_of_le Nat.and_le_right
  have low : BitVec.ofNat 16 ((crcval ^^^ newchar.toUInt16) &&& 0x00ff).toNat =
      (crcval.toBitVec ^^^ newchar.toBitVec.setWidth 16) &&& 0x00ff := by
    apply BitVec.eq_of_toNat_eq
    rw [BitVec.toNat_ofNat, Nat.mod_eq_of_lt (Nat.lt_trans index (by decide))]
    rfl
  have high : (crcval >>> 8).toBitVec =
      (crcval.toBitVec ^^^ newchar.toBitVec.setWidth 16) >>> 8 := by
    apply BitVec.eq_of_getLsbD_eq
    intro i inside
    show (crcval.toBitVec >>> 8).getLsbD i = _
    simp [BitVec.getLsbD_of_ge]
  rw [crc, UInt16.toBitVec_xor, crcTable_eq _ index, low, high]
  generalize crcval.toBitVec ^^^ newchar.toBitVec.setWidth 16 = x
  have shifted : (step crcPoly)^[8] ((x >>> 8) <<< 8) = x >>> 8 := by
    apply iterate_step_shiftLeft
    intro i above
    rw [BitVec.getLsbD_ushiftRight, BitVec.getLsbD_of_ge _ _ (by omega)]
  have split : x = ((x >>> 8) <<< 8) ^^^ (x &&& 0x00ff) := by
    have mask : ∀ i < 16, (0x00ff : BitVec 16).getLsbD i = decide (i < 8) := by decide
    apply BitVec.eq_of_getLsbD_eq
    intro i inside
    rw [BitVec.getLsbD_xor, BitVec.getLsbD_and, BitVec.getLsbD_shiftLeft,
      BitVec.getLsbD_ushiftRight, mask i inside]
    rcases Nat.lt_or_ge i 8 with below | above
    · simp [below]
    · simp [inside, Nat.not_lt.mpr above, Nat.add_sub_cancel' above]
  conv_rhs => rw [split, iterate_step_xor, shifted]

/-! ## The bits -/

theorem and_one_eq_one_iff (crc : UInt16) : crc &&& 1 = 1 ↔ crc.toBitVec.getLsbD 0 = true := by
  rw [← UInt16.toBitVec_inj, UInt16.toBitVec_and]
  show crc.toBitVec &&& 1#16 = 1#16 ↔ _
  rw [BitVec.and_one_eq_setWidth_ofBool_getLsbD]
  cases crc.toBitVec.getLsbD 0 <;> decide

theorem toBitVec_crcBit (crc : UInt16) : (crcBit crc).toBitVec = step crcPoly crc.toBitVec := by
  unfold crcBit step
  by_cases set : crc &&& 1 = 1
  · rw [if_pos set, if_pos ((and_one_eq_one_iff crc).mp set)]
    rfl
  · rw [if_neg set, if_neg (mt (and_one_eq_one_iff crc).mpr set)]
    exact BitVec.xor_zero.symm

theorem crc_eq_crcByte (crcval : UInt16) (newchar : UInt8) :
    crc crcval newchar = crcByte crcval newchar := by
  have steps : Function.Semiconj UInt16.toBitVec crcBit (step crcPoly) := toBitVec_crcBit
  rw [← UInt16.toBitVec_inj, toBitVec_crc, crcByte, (steps.iterate_right 8).eq,
    UInt16.toBitVec_xor]
  rfl

/-- The CRC of any part of a message, from any value. -/
theorem crcsum_eq_crcBitwise (message : List UInt8) (length : Nat) (start : UInt16) :
    crcsum message length start = crcBitwise (message.take length) start := by
  unfold crcsum crcBitwise
  induction message.take length generalizing start with
  | nil => rfl
  | cons byte rest inductionHypothesis =>
      rw [List.foldl_cons, List.foldl_cons, crc_eq_crcByte]
      exact inductionHypothesis _

end Avarice

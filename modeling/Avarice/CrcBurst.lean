import Avarice.CrcBitwise

/-!
# Bursts of wrong bits

The CRC of `crc16.c` is a shift register of 16 bits that takes the bits of a
message, the lowest one of each byte first.  Wrong bits that lie within 16
neighbours are therefore always found.
-/

namespace Avarice

open ShiftRegister

/-- The bits of bytes, in the order in which they go through the register. -/
def bitsOf (bytes : List UInt8) : List Bool :=
  bytes.flatMap fun byte => (List.range 8).map byte.toBitVec.getLsbD

def corrupt (message errors : List UInt8) : List UInt8 :=
  List.zipWith (· ^^^ ·) message errors

/-! ## The bits of a message -/

theorem getElem?_bitsOf_byte (byte : UInt8) (i : Nat) :
    (bitsOf [byte])[i]? = if i < 8 then some (byte.toBitVec.getLsbD i) else none := by
  rw [bitsOf, List.flatMap_singleton, List.getElem?_map]
  rcases Nat.lt_or_ge i 8 with below | above
  · rw [List.getElem?_range below, if_pos below]
    rfl
  · rw [List.getElem?_eq_none (by simpa using above), if_neg (Nat.not_lt.mpr above)]
    rfl

theorem bitsOf_byte_length (byte : UInt8) : (bitsOf [byte]).length = 8 := by
  simp [bitsOf]

theorem word_bitsOf_byte (byte : UInt8) :
    (word (bitsOf [byte]) : BitVec 16) = byte.toBitVec.setWidth 16 := by
  apply BitVec.eq_of_getLsbD_eq
  intro i inside
  rw [getLsbD_word, getElem?_bitsOf_byte, BitVec.getLsbD_setWidth]
  rcases Nat.lt_or_ge i 8 with below | above
  · simp [below]
  · simp [inside, Nat.not_lt.mpr above, BitVec.getLsbD_of_ge _ _ above]

theorem bitsOf_cons (byte : UInt8) (rest : List UInt8) :
    bitsOf (byte :: rest) = bitsOf [byte] ++ bitsOf rest := by
  simp [bitsOf]

theorem bitsOf_append (first second : List UInt8) :
    bitsOf (first ++ second) = bitsOf first ++ bitsOf second := by
  simp [bitsOf]

theorem bitsOf_length (bytes : List UInt8) : (bitsOf bytes).length = 8 * bytes.length := by
  induction bytes with
  | nil => rfl
  | cons byte rest inductionHypothesis =>
      rw [bitsOf_cons, List.length_append, inductionHypothesis, bitsOf_byte_length,
        List.length_cons]
      omega

theorem toBitVec_foldl_crc (start : UInt16) (message : List UInt8) :
    (message.foldl crc start).toBitVec = serial crcPoly start.toBitVec (bitsOf message) := by
  induction message generalizing start with
  | nil => rfl
  | cons byte rest inductionHypothesis =>
      have short : (bitsOf [byte]).length ≤ 16 := by
        rw [bitsOf_byte_length]
        decide
      rw [List.foldl_cons, inductionHypothesis, bitsOf_cons, serial_append,
        serial_eq_iterate crcPoly start.toBitVec short, word_bitsOf_byte, toBitVec_crc,
        bitsOf_byte_length]

theorem bitsOf_corrupt {message errors : List UInt8} (same : message.length = errors.length) :
    bitsOf (corrupt message errors) = List.zipWith xor (bitsOf message) (bitsOf errors) := by
  induction message generalizing errors with
  | nil =>
      cases errors with
      | nil => rfl
      | cons _ _ => cases same
  | cons byte rest inductionHypothesis =>
      cases errors with
      | nil => cases same
      | cons error others =>
          have later := inductionHypothesis (Nat.succ.inj same)
          have here : bitsOf [byte ^^^ error] =
              List.zipWith xor (bitsOf [byte]) (bitsOf [error]) := by
            simp [bitsOf, List.zipWith_map]
          rw [corrupt] at later ⊢
          rw [List.zipWith_cons_cons, bitsOf_cons, bitsOf_cons byte, bitsOf_cons error, later, here,
            List.zipWith_append (by rw [bitsOf_byte_length, bitsOf_byte_length])]

/-! ## Verification -/

/-- The CRC that is expected, as the bits of the two bytes that carry it. -/
theorem word_bitsOf_pair {expected : UInt16} {c0 c1 : UInt8}
    (low : expected &&& 0xff = c0.toUInt16) (high : (expected >>> 8) &&& 0xff = c1.toUInt16) :
    (word (bitsOf [c0, c1]) : BitVec 16) = expected.toBitVec := by
  have mask : ∀ i < 16, (0xff : UInt16).toBitVec.getLsbD i = decide (i < 8) := by decide
  apply BitVec.eq_of_getLsbD_eq
  intro i inside
  rw [getLsbD_word, bitsOf_cons, List.getElem?_append, bitsOf_byte_length,
    getElem?_bitsOf_byte, getElem?_bitsOf_byte]
  rcases Nat.lt_or_ge i 8 with below | above
  · have bit := congrArg (fun x : UInt16 => x.toBitVec.getLsbD i) low
    simp only [UInt16.toBitVec_and, BitVec.getLsbD_and, mask i inside] at bit
    have byte : c0.toUInt16.toBitVec.getLsbD i = c0.toBitVec.getLsbD i := by
      show (c0.toBitVec.setWidth 16).getLsbD i = _
      rw [BitVec.getLsbD_setWidth]
      simp [inside]
    rw [byte] at bit
    simpa [below, inside] using bit.symm
  · obtain ⟨j, rfl⟩ := Nat.exists_eq_add_of_le above
    have small : j < 8 := by omega
    have bit := congrArg (fun x : UInt16 => x.toBitVec.getLsbD j) high
    have shifted : (expected >>> 8).toBitVec.getLsbD j = expected.toBitVec.getLsbD (8 + j) :=
      BitVec.getLsbD_ushiftRight _ _ _
    simp only [UInt16.toBitVec_and, BitVec.getLsbD_and, mask j (by omega), shifted] at bit
    have byte : c1.toUInt16.toBitVec.getLsbD j = c1.toBitVec.getLsbD j := by
      show (c1.toBitVec.setWidth 16).getLsbD j = _
      rw [BitVec.getLsbD_setWidth]
      simp [Nat.lt_trans small]
    rw [byte] at bit
    have notFirst : ¬ 8 + j < 8 := by omega
    simpa [notFirst, small, inside] using bit.symm

theorem serial_of_crcverify {message : List UInt8} {c0 c1 : UInt8}
    (verified : crcverify (message ++ [c0, c1]) (message.length + 2) = true) :
    serial crcPoly crcInit.toBitVec (bitsOf (message ++ [c0, c1])) = 0 := by
  have expected :
      crcsum (message ++ [c0, c1]) message.length crcInit = message.foldl crc crcInit := by
    rw [crcsum, List.take_left' rfl]
  rw [crcverify, Nat.add_sub_cancel, expected, Bool.and_eq_true, beq_iff_eq, beq_iff_eq] at verified
  obtain ⟨low, high⟩ := verified
  have first : (message ++ [c0, c1]).getD message.length 0 = c0 := by simp
  have second : (message ++ [c0, c1]).getD (message.length + 2 - 1) 0 = c1 := by
    simp [List.getD_eq_getElem?_getD]
  rw [first] at low
  rw [second] at high
  have short : (bitsOf [c0, c1]).length ≤ 16 := Nat.le_of_eq (bitsOf_length [c0, c1])
  rw [bitsOf_append, serial_append, serial_eq_iterate crcPoly _ short, word_bitsOf_pair low high,
    ← toBitVec_foldl_crc, BitVec.xor_self]
  exact iterate_step_zero crcPoly _

/-- Wrong bits within 16 neighbours are found, in the message or in its CRC. -/
theorem crcverify_burst (message errors : List UInt8) (length : errors.length = message.length + 2)
    (burst : IsBurst 16 (bitsOf errors)) :
    crcverify (corrupt (crcappend message message.length) errors) (message.length + 2) = false := by
  have sent := crcverify_crcappend message
  rw [crcappend, List.take_length] at sent ⊢
  generalize (crcsum message message.length crcInit &&& 0xff).toUInt8 = c0 at sent ⊢
  generalize ((crcsum message message.length crcInit >>> 8) &&& 0xff).toUInt8 = c1 at sent ⊢
  have same : (message ++ [c0, c1]).length = errors.length := by
    rw [length, List.length_append]
    rfl
  by_contra accepted
  rw [Bool.not_eq_false] at accepted
  obtain ⟨message', d0, d1, split, length'⟩ : ∃ message' d0 d1,
      corrupt (message ++ [c0, c1]) errors = message' ++ [d0, d1] ∧
        message'.length = message.length := by
    have total : (corrupt (message ++ [c0, c1]) errors).length = message.length + 2 := by
      rw [corrupt, List.length_zipWith, ← same, Nat.min_self, List.length_append]
      rfl
    have tail : ((corrupt (message ++ [c0, c1]) errors).drop message.length).length = 2 := by
      rw [List.length_drop, total]
      omega
    obtain ⟨d0, d1, pair⟩ := List.length_eq_two.mp tail
    refine ⟨(corrupt (message ++ [c0, c1]) errors).take message.length, d0, d1, ?_, ?_⟩
    · rw [← pair, List.take_append_drop]
    · rw [List.length_take_of_le]
      omega
  rw [split, ← length'] at accepted
  have received := serial_of_crcverify accepted
  rw [← split, bitsOf_corrupt same, ← BitVec.xor_zero (x := crcInit.toBitVec),
    serial_xor crcPoly (by rw [bitsOf_length, bitsOf_length, same]),
    serial_of_crcverify sent] at received
  exact serial_burst_ne_zero (by decide) burst (BitVec.zero_xor.symm.trans received)

/-- Two wrong bits, one in the message and one in its CRC. -/
theorem crcverify_burst_two_bits :
    crcverify (corrupt (crcappend [0x31, 0x32] 2) [0x00, 0x80, 0x01, 0x00]) 4 = false := by
  refine crcverify_burst [0x31, 0x32] [0x00, 0x80, 0x01, 0x00] rfl ⟨⟨15, by decide⟩, 15, ?_⟩
  intro i set
  have bits : ∀ i < 32, (bitsOf [0x00, 0x80, 0x01, 0x00])[i]? = some true → 15 ≤ i ∧ i < 31 := by
    decide
  exact bits i (List.getElem?_eq_some_iff.mp set).1 set

end Avarice

import Avarice.Mk1.RoundTrip
import Avarice.Mk2.Access

/-!
# Flash reads by either protocol

Out of programming mode, both protocols read flash in pairs of bytes from an
even address on, and move what they got down to the address they were asked
for.
-/

namespace Avarice.FlashReads

open Throwing PagedMemory Mk2 Mk2.Memory Mk2.Access Mk1.Memory

/-- The ICE of the mkII returns exactly the bytes of the range requested. -/
def ReturnsBytes {Ice : Type} (attempt : List UInt8 → Ice → Attempt × Ice)
    (flash : Nat → UInt8) : Prop :=
  ∀ (ice : Ice) (numBytes addr : UInt32), ∃ code,
    (attempt (Access.readCommand mtypeSpm numBytes addr) ice).1 =
        .response code (slice flash addr.toNat numBytes.toNat) ∧
      isPositive [code] = true

/-- The check of the mkI on the number of locations. -/
def Accepted (addr : UInt64) (numBytes : UInt32) : Prop :=
  (if addr &&& 1 ≠ 0 then (numBytes + 2) / 2 else (numBytes + 1) / 2) ≤ 256

section Mk2

variable {Ice : Type} {attempt : List UInt8 → Ice → Attempt × Ice} {flash : Nat → UInt8}

theorem memorySpace_flash {addr : UInt64} (isProgram : IsProgram addr) :
    Access.memorySpace false false addr = (mtypeSpm, addr) := by
  rw [Access.memorySpace, splitAddress, if_neg (not_not.mpr isProgram.noData)]
  rfl

theorem toNat_evenAddr {addr : UInt64} (isProgram : IsProgram addr) :
    (addr &&& ~~~1).toUInt32.toNat = addr.toNat / 2 * 2 := by
  have bound := isProgram.lt
  have even := toNat_and_not_mask (by decide : 1 < 32) addr.toUInt32
  rw [UInt64.toNat_toUInt32, Nat.mod_eq_of_lt (by omega)] at even
  rw [UInt64.toUInt32_and]
  exact even

theorem toNat_evenLength (numBytes : UInt32) :
    ((numBytes + 1) &&& ~~~1).toNat = (numBytes + 1).toNat / 2 * 2 :=
  toNat_and_not_mask (by decide : 1 < 32) (numBytes + 1)

theorem toNat_odd (addr : UInt64) : (addr &&& 1).toNat = addr.toNat % 2 := by
  rw [UInt64.toNat_and]
  exact Nat.and_one_is_mod _

theorem jtagRead_spm (returns : ReturnsBytes attempt flash) (s : Jtag2 Ice)
    (off : s.programmingEnabled = false) (noWire : s.useDebugWire = false) {addr : UInt64}
    {numBytes : UInt32} (some : numBytes ≠ 0) (isProgram : IsProgram addr) :
    ∃ code, (s.jtagRead attempt addr numBytes).value =
      .some (Access.moveDown (1 + addr.toNat % 2)
        (code :: slice flash (addr.toNat / 2 * 2) ((numBytes + 1).toNat / 2 * 2))) := by
  obtain ⟨code, answered, positive⟩ :=
    returns s.ice ((numBytes + 1) &&& ~~~1) (addr &&& ~~~1).toUInt32
  have value := checkedCommand_positive answered positive
  rw [toNat_evenAddr isProgram, toNat_evenLength] at value
  refine ⟨code, ?_⟩
  rw [Jtag2.jtagRead, if_neg some, off, noWire, memorySpace_flash isProgram]
  dsimp only
  rw [inProgmode_of_lt (by decide), Jtag2.readSpace, if_pos rfl, Jtag2.readUnpaged]
  dsimp only
  rw [value, toNat_odd]
  rfl

theorem moveDown_even (code : UInt8) {addr numBytes : Nat} (even : addr % 2 = 0) :
    (Access.moveDown (1 + addr % 2)
      (code :: slice flash (addr / 2 * 2) ((numBytes + 1) / 2 * 2))).take numBytes =
        slice flash addr numBytes := by
  have same : addr / 2 * 2 = addr := by omega
  rw [even, same, Access.moveDown, List.drop_succ_cons, List.drop_zero,
    List.take_append_of_le_length (by simp; omega), slice_take numBytes (by omega)]

theorem moveDown_odd_odd (code : UInt8) {addr numBytes : Nat} (odd : addr % 2 = 1)
    (oddLength : numBytes % 2 = 1) :
    (Access.moveDown (1 + addr % 2)
      (code :: slice flash (addr / 2 * 2) ((numBytes + 1) / 2 * 2))).take numBytes =
        slice flash addr numBytes := by
  have next : addr / 2 * 2 + 1 = addr := by omega
  have longer : (numBytes + 1) / 2 * 2 - 1 = numBytes := by omega
  rw [odd, Access.moveDown, List.drop_succ_cons, slice_drop 1 (by omega), next, longer,
    List.take_left' slice_length]

theorem moveDown_odd_even (code : UInt8) {addr numBytes : Nat} (odd : addr % 2 = 1)
    (evenLength : (numBytes + 2) % 2 = 0) :
    (Access.moveDown (1 + addr % 2)
      (code :: slice flash (addr / 2 * 2) ((numBytes + 2 + 1) / 2 * 2))).take (numBytes + 2) =
        slice flash addr (numBytes + 1) ++ [flash (addr + numBytes - 1)] := by
  have next : addr / 2 * 2 + 1 = addr := by omega
  have length : (numBytes + 2 + 1) / 2 * 2 = numBytes + 2 := by omega
  have left : (code :: slice flash (addr / 2 * 2) (numBytes + 2)).length - 2 = numBytes + 1 := by
    simp
  have behind : addr / 2 * 2 + numBytes = addr + numBytes - 1 := by omega
  rw [odd, length, Access.moveDown, left, List.drop_succ_cons, slice_drop 1 (by omega), next,
    List.drop_succ_cons, slice_drop numBytes (by omega), behind]
  have two : numBytes + 2 - numBytes = 1 + 1 := by omega
  rw [two, slice_add 1 1, ← List.append_assoc, List.take_left' (by simp)]
  rfl

theorem slice_last (start count : Nat) :
    slice flash start (count + 1) = slice flash start count ++ [flash (start + count)] :=
  slice_add count 1

/-- The buffer begins with the bytes asked for, unless the address is odd and
the length even: then its last byte has to be that of two addresses before. -/
theorem moveDown_take_iff (code : UInt8) {addr numBytes : Nat} (some : 0 < numBytes) :
    (Access.moveDown (1 + addr % 2)
      (code :: slice flash (addr / 2 * 2) ((numBytes + 1) / 2 * 2))).take numBytes =
        slice flash addr numBytes ↔
      addr % 2 = 0 ∨ numBytes % 2 = 1 ∨
        flash (addr + numBytes - 3) = flash (addr + numBytes - 1) := by
  rcases Nat.mod_two_eq_zero_or_one addr with even | odd
  · exact iff_of_true (moveDown_even code even) (.inl even)
  · rcases Nat.mod_two_eq_zero_or_one numBytes with evenLength | oddLength
    · obtain ⟨fewer, rfl⟩ : ∃ fewer, numBytes = fewer + 2 := ⟨numBytes - 2, by omega⟩
      have place : addr + (fewer + 2) - 3 = addr + fewer - 1 := by omega
      have last : addr + (fewer + 2) - 1 = addr + (fewer + 1) := by omega
      rw [moveDown_odd_even code odd evenLength, slice_last addr (fewer + 1), place, last]
      simp [odd, evenLength]
    · exact iff_of_true (moveDown_odd_odd code odd oddLength) (.inr (.inl oddLength))

end Mk2

/-! ## Agreement -/

/-- Either protocol returns a buffer that begins with the bytes of the range. -/
structure Agree {Ice Ice' : Type} (doJtagCommand : List UInt8 → Nat → Ice → Called Ice (List UInt8))
    (attempt : List UInt8 → Ice' → Attempt × Ice') (flash : Nat → UInt8) (first : Jtag1 Ice)
    (second : Jtag2 Ice') (addr : UInt64) (numBytes : UInt32) : Prop where
  mk1 : ∃ response, (first.jtagRead doJtagCommand addr numBytes).value = some (some response) ∧
    response.take numBytes.toNat = slice flash addr.toNat numBytes.toNat
  mk2 : ∃ response, (second.jtagRead attempt addr numBytes).value = some response ∧
    response.take numBytes.toNat = slice flash addr.toNat numBytes.toNat

section Mk1

variable {Ice : Type} {doJtagCommand : List UInt8 → Nat → Ice → Called Ice (List UInt8)}
  {program : Ice → Nat → UInt8} {addr : UInt64} {numBytes : UInt32}

theorem accepted_iff : Accepted addr numBytes ↔
    (addr.toNat % 2 + numBytes.toNat + 1) / 2 ≤ 256 ∨
      2 ^ 32 ≤ addr.toNat % 2 + numBytes.toNat + 1 := by
  have bound := numBytes.toNat_lt
  have parity := and_one_ne_zero_iff addr
  unfold Accepted
  rw [UInt32.le_iff_toNat_le]
  split
  next odd =>
    rw [UInt32.toNat_div, UInt32.toNat_add]
    change (numBytes.toNat + 2) % 2 ^ 32 / 2 ≤ 256 ↔ _
    have isOdd := parity.mp odd
    omega
  next even =>
    rw [UInt32.toNat_div, UInt32.toNat_add]
    change (numBytes.toNat + 1) % 2 ^ 32 / 2 ≤ 256 ↔ _
    have isEven : ¬ addr.toNat % 2 = 1 := fun odd => even (parity.mpr odd)
    omega

/-- A read of no locations is a read of 256, of which two bytes are taken. -/
theorem jtagRead_wrapped (presents : PresentsWords doJtagCommand program) (s : Jtag1 Ice)
    (some : numBytes ≠ 0) (isProgram : IsProgram addr)
    (wraps : 2 ^ 32 ≤ addr.toNat % 2 + numBytes.toNat + 1) {response : List UInt8}
    (returned : (s.jtagRead doJtagCommand addr numBytes).value = .some (.some response)) :
    response.length ≤ 2 := by
  have bound := isProgram.lt
  have limit := numBytes.toNat_lt
  have parity := and_one_ne_zero_iff addr
  have half : (addr / 2).toNat = addr.toNat / 2 := UInt64.toNat_div addr 2
  have none : (if addr &&& 1 ≠ 0 then (numBytes + 2) / 2 else (numBytes + 1) / 2) = 0 := by
    split
    next odd =>
      have isOdd := parity.mp odd
      rw [← UInt32.toNat_inj, UInt32.toNat_div, UInt32.toNat_add]
      change (numBytes.toNat + 2) % 2 ^ 32 / 2 = 0
      omega
    next even =>
      have isEven : ¬ addr.toNat % 2 = 1 := fun odd => even (parity.mpr odd)
      rw [← UInt32.toNat_inj, UInt32.toNat_div, UInt32.toNat_add]
      change (numBytes.toNat + 1) % 2 ^ 32 / 2 = 0
      omega
  have decoded := decodeAddress_encodeAddress (addr / 2)
  rw [half, Nat.mod_eq_of_lt (by omega)] at decoded
  obtain ⟨last, answered⟩ := presents s.ice s.programmingEnabled 255 ((addr / 2) >>> 16).toUInt8
    ((addr / 2) >>> 8).toUInt8 (addr / 2).toUInt8 2 (by rw [decoded]; change _ + 256 ≤ _; omega)
  obtain ⟨bytes, short, command⟩ : ∃ bytes : List UInt8, bytes.length ≤ 2 ∧
      (s.command doJtagCommand
        (Mk1.Memory.readCommand (progSpace s.programmingEnabled) 0 (addr / 2))
        ((0 : UInt32).toNat * 2 + 2)).value = .some bytes :=
    ⟨_, List.length_take_le 2 _, answered⟩
  rw [Jtag1.jtagRead, if_neg some, isProgram.memorySpace] at returned
  simp only [ne_eq, not_true_eq_false, if_false] at none returned
  rw [none, if_neg (by decide), Called.andThen_of_returned command] at returned
  split at returned
  next =>
    have unswapped : ∀ programmingEnabled : Bool, (if programmingEnabled then bytes
        else swapBytes ((0 : UInt32).toNat * 2) bytes) = bytes := by
      intro programmingEnabled
      cases programmingEnabled <;> simp [swapBytes]
    rw [unswapped] at returned
    rw [← Option.some.inj (Option.some.inj returned)]
    split
    · simp [Mk1.Memory.moveDown]
      omega
    · exact short
  next => cases returned

end Mk1

/-- For every flash, address and length, either protocol returns the bytes of
the range unless the address is odd and the length even. -/
theorem flash_reads_agree_iff {Ice Ice' : Type}
    (doJtagCommand : List UInt8 → Nat → Ice → Called Ice (List UInt8)) (program : Ice → Nat → UInt8)
    (attempt : List UInt8 → Ice' → Attempt × Ice') (flash : Nat → UInt8)
    (presents : PresentsWords doJtagCommand program) (returns : ReturnsBytes attempt flash)
    (first : Jtag1 Ice) (sameFlash : program first.ice = flash) (second : Jtag2 Ice')
    (off : second.programmingEnabled = false) (noWire : second.useDebugWire = false)
    (addr : UInt64) (isProgram : IsProgram addr) (numBytes : UInt32) (some : numBytes ≠ 0)
    (accepted : Accepted addr numBytes) :
    Agree doJtagCommand attempt flash first second addr numBytes ↔
      numBytes.toNat ≤ 512 ∧
        (addr.toNat % 2 = 0 ∨ numBytes.toNat % 2 = 1 ∨
          flash (addr.toNat + numBytes.toNat - 3) = flash (addr.toNat + numBytes.toNat - 1)) := by
  have positive : 0 < numBytes.toNat := toNat_pos some
  obtain ⟨code, returned⟩ := jtagRead_spm returns second off noWire some isProgram
  have taken := @moveDown_take_iff flash code addr.toNat _ positive
  by_cases short : numBytes.toNat ≤ 512
  · have length : (numBytes + 1).toNat = numBytes.toNat + 1 := by
      rw [UInt32.toNat_add]
      change (numBytes.toNat + 1) % 2 ^ 32 = _
      omega
    rw [length] at returned
    constructor
    · intro agree
      obtain ⟨response, value, bytes⟩ := agree.mk2
      rw [← Option.some.inj (returned.symm.trans value)] at bytes
      exact ⟨short, taken.mp bytes⟩
    · rintro ⟨-, condition⟩
      have locations : (addr.toNat % 2 + numBytes.toNat + 1) / 2 ≤ 256 := by
        rcases accepted_iff.mp accepted with fits | wraps <;> omega
      have read := jtagRead_program presents first some isProgram locations
      rw [sameFlash] at read
      exact ⟨read, _, returned, taken.mpr condition⟩
  · refine iff_of_false (fun agree => ?_) fun condition => short condition.1
    have wraps : 2 ^ 32 ≤ addr.toNat % 2 + numBytes.toNat + 1 := by
      rcases accepted_iff.mp accepted with fits | wraps
      · omega
      · exact wraps
    obtain ⟨response, value, bytes⟩ := agree.mk1
    have lengths := congrArg List.length bytes
    have most := jtagRead_wrapped presents first some isProgram wraps value
    simp only [List.length_take, slice_length] at lengths
    omega

/-- A mkII that has a flash, and answers every command as a read of it. -/
def flashIce (flash : Nat → UInt8) (command : List UInt8) (ice : Unit) : Attempt × Unit :=
  match command with
  | [_, _, n0, n1, n2, n3, a0, a1, a2, a3] =>
      (.response 0x82 (slice flash (b4ToU32 a0 a1 a2 a3).toNat (b4ToU32 n0 n1 n2 n3).toNat), ice)
  | _ => (.response rspFailed [], ice)

theorem flashIce_returns (flash : Nat → UInt8) : ReturnsBytes (flashIce flash) flash := by
  intro ice numBytes addr
  have bytes := b4ToU32_u32ToB4 numBytes
  have address := b4ToU32_u32ToB4 addr
  refine ⟨0x82, ?_, rfl⟩
  simp only [Access.readCommand, u32ToB4, List.cons_append, List.nil_append, flashIce]
  rw [bytes, address]

def numbered (address : Nat) : UInt8 := address.toUInt8

def mk1Session : Jtag1 WordIce := ⟨false, ⟨numbered, fun _ => 0, 0, 0⟩⟩

def mk2Session : Jtag2 Unit := Jtag2.start ⟨"atmega16", 128, 128, 4, 128⟩ false false ()

theorem flash_reads_agree_odd :
    Agree WordIce.execute (flashIce numbered) numbered mk1Session mk2Session 1 3 :=
  (flash_reads_agree_iff WordIce.execute WordIce.program (flashIce numbered) numbered
    WordIce.presents (flashIce_returns numbered) mk1Session rfl mk2Session rfl rfl 1
    ⟨by decide, by decide⟩ 3 (by decide) (by unfold Accepted; decide)).mpr (by decide)

/-- Of two bytes from an odd address on, the mkII returns the first one and the
one before it. -/
theorem flash_reads_differ :
    Accepted 1 2 ∧
      (mk1Session.jtagRead WordIce.execute 1 2).value = some (some [1, 2, 2, 3, 0, jtagROk]) ∧
      (mk2Session.jtagRead (flashIce numbered) 1 2).value = some [1, 0, 1] ∧
      ¬ Agree WordIce.execute (flashIce numbered) numbered mk1Session mk2Session 1 2 := by
  refine ⟨by unfold Accepted; decide, by decide, by decide, fun agree => ?_⟩
  obtain ⟨response, value, bytes⟩ := agree.mk2
  have read : (mk2Session.jtagRead (flashIce numbered) 1 2).value = some [1, 0, 1] := by decide
  rw [← Option.some.inj (read.symm.trans value)] at bytes
  exact absurd bytes (by decide)

end Avarice.FlashReads

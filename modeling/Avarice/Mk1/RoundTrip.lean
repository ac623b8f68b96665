import Mathlib.Data.UInt
import Avarice.Mk1.Memory
import Avarice.Library.PagedMemory
import Avarice.Utils

/-!
# Program memory behind a mkI

Bytes that are written to program memory are read again, from any part of it
and in either mode.
-/

namespace Avarice.Mk1.Memory

open Throwing PagedMemory

/-- The order of bytes in which the ICE has program memory in either mode. -/
def presented (programmingEnabled : Bool) (bytes : List UInt8) : List UInt8 :=
  if programmingEnabled then bytes else swapBytes bytes.length bytes

section Ice

variable {Ice : Type} (doJtagCommand : List UInt8 → Nat → Ice → Called Ice (List UInt8))
  (program : Ice → Nat → UInt8)

/-- The ICE answers a read of program memory by the locations it is asked for,
a byte and a status. -/
def PresentsWords : Prop :=
  ∀ (ice : Ice) (programmingEnabled : Bool) (count b0 b1 b2 : UInt8) (responseSize : Nat),
    (decodeAddress b0 b1 b2).toNat + (count.toNat + 1) ≤ 2 ^ 24 →
      ∃ last, (doJtagCommand
        ([0x52, progSpace programmingEnabled, count, b0, b1, b2] ++ jtagEom) responseSize ice).value =
          some ((presented programmingEnabled
            (slice (program ice) (2 * (decodeAddress b0 b1 b2).toNat) (2 * (count.toNat + 1))) ++
              [last, jtagROk]).take responseSize)

/-- The ICE stores a block of data in the locations that the command before it
has named, once it has answered both. -/
def StoresWords : Prop :=
  ∀ (ice : Ice) (programmingEnabled : Bool) (count b0 b1 b2 : UInt8) (bytes : List UInt8),
    let named := doJtagCommand
      ([0x57, progSpace programmingEnabled, count, b0, b1, b2] ++ jtagEom) 0 ice
    let stored := doJtagCommand (dataBlock bytes) 1 named.state
    (decodeAddress b0 b1 b2).toNat + (count.toNat + 1) ≤ 2 ^ 24 →
      bytes.length = 2 * (count.toNat + 1) → named.value ≠ none → stored.value ≠ none →
        program stored.state = overwrite (program ice) (2 * (decodeAddress b0 b1 b2).toNat)
          (presented programmingEnabled bytes)

end Ice

/-! ## Swapped bytes -/

@[simp]
theorem swapBytes_length (count : Nat) (bytes : List UInt8) :
    (swapBytes count bytes).length = bytes.length := by
  induction count, bytes using swapBytes.induct with
  | case1 count first second buffer inductionHypothesis => simp [swapBytes, inductionHypothesis]
  | case2 => simp [swapBytes]

@[simp]
theorem swapBytes_swapBytes (count : Nat) (bytes : List UInt8) :
    swapBytes count (swapBytes count bytes) = bytes := by
  induction count, bytes using swapBytes.induct with
  | case1 count first second buffer inductionHypothesis => simp [swapBytes, inductionHypothesis]
  | case2 => simp [swapBytes]

theorem swapBytes_append {count : Nat} {bytes : List UInt8} (rest : List UInt8)
    (length : bytes.length = count) :
    swapBytes count (bytes ++ rest) = swapBytes count bytes ++ rest := by
  induction count, bytes using swapBytes.induct with
  | case1 count first second buffer inductionHypothesis =>
      simp only [List.cons_append, swapBytes]
      rw [inductionHypothesis (by simpa using length)]
  | case2 count bytes other =>
      cases bytes with
      | nil => simp [swapBytes, ← length]
      | cons first tail =>
          cases tail with
          | nil => simp [swapBytes, ← length]
          | cons second buffer =>
              exact (other buffer.length first second buffer length.symm rfl).elim

@[simp]
theorem presented_length (programmingEnabled : Bool) (bytes : List UInt8) :
    (presented programmingEnabled bytes).length = bytes.length := by
  cases programmingEnabled <;> simp [presented]

@[simp]
theorem presented_presented (programmingEnabled : Bool) (bytes : List UInt8) :
    presented programmingEnabled (presented programmingEnabled bytes) = bytes := by
  cases programmingEnabled <;> simp [presented]

/-! ## Addresses -/

theorem toNat_decodeAddress (b0 b1 b2 : UInt8) :
    (decodeAddress b0 b1 b2).toNat = b0.toNat * 2 ^ 16 + b1.toNat * 2 ^ 8 + b2.toNat := by
  have high := b0.toNat_lt
  have middle := b1.toNat_lt
  have low := b2.toNat_lt
  have upper : 2 ^ 16 * b0.toNat + b1.toNat * 2 ^ 8 = 2 ^ 8 * (2 ^ 8 * b0.toNat + b1.toNat) := by
    omega
  simp only [decodeAddress, UInt32.toNat_or, UInt32.toNat_shiftLeft, UInt8.toNat_toUInt32,
    Nat.shiftLeft_eq]
  change (b0.toNat * 2 ^ 16 % 2 ^ 32 ||| b1.toNat * 2 ^ 8 % 2 ^ 32) ||| b2.toNat = _
  rw [Nat.mod_eq_of_lt (by omega), Nat.mod_eq_of_lt (by omega), Nat.mul_comm b0.toNat,
    ← Nat.two_pow_add_eq_or_of_lt (by omega : b1.toNat * 2 ^ 8 < 2 ^ 16), upper,
    ← Nat.two_pow_add_eq_or_of_lt low]

theorem decodeAddress_encodeAddress (x : UInt64) :
    (decodeAddress (x >>> 16).toUInt8 (x >>> 8).toUInt8 x.toUInt8).toNat = x.toNat % 2 ^ 24 := by
  simp only [toNat_decodeAddress, UInt64.toNat_toUInt8, UInt64.toNat_shiftRight,
    Nat.shiftRight_eq_div_pow]
  change x.toNat / 2 ^ 16 % 2 ^ 8 * 2 ^ 16 + x.toNat / 2 ^ 8 % 2 ^ 8 * 2 ^ 8 + x.toNat % 2 ^ 8 = _
  omega

/-- A byte address of program memory, as far as it has locations. -/
structure IsProgram (addr : UInt64) : Prop where
  small : addr.toNat < 2 ^ 25
  noData : addr &&& dataSpaceAddrOffset = 0

theorem IsProgram.memorySpace {addr : UInt64} (isProgram : IsProgram addr) :
    memorySpace addr = (0, addr) := by
  rw [Memory.memorySpace, splitAddress, if_neg (not_not.mpr isProgram.noData)]
  rfl

/-- The data spaces follow on the first 8 MiB of each 16 MiB. -/
theorem IsProgram.bit {addr : UInt64} (isProgram : IsProgram addr) :
    addr.toNat / 2 ^ 23 % 2 = 0 := by
  have noBit : addr.toNat &&& 2 ^ 23 = 0 := congrArg UInt64.toNat isProgram.noData
  have bit : (addr.toNat &&& 2 ^ 23).testBit 23 = false := by
    rw [noBit]
    rfl
  rw [Nat.testBit_and, Nat.testBit_two_pow_self, Bool.and_true,
    Nat.testBit_eq_decide_div_mod_eq] at bit
  have := of_decide_eq_false bit
  omega

theorem IsProgram.lt {addr : UInt64} (isProgram : IsProgram addr) :
    addr.toNat < 3 * 2 ^ 23 := by
  have bit := isProgram.bit
  have small := isProgram.small
  omega

theorem and_one_ne_zero_iff (addr : UInt64) : addr &&& 1 ≠ 0 ↔ addr.toNat % 2 = 1 := by
  rw [Ne, ← UInt64.toNat_inj, UInt64.toNat_and]
  change ¬ addr.toNat &&& 1 = 0 ↔ _
  rw [Nat.and_one_is_mod]
  omega

/-! ## Reading -/

section Reading

variable {Ice : Type} {doJtagCommand : List UInt8 → Nat → Ice → Called Ice (List UInt8)}
  {program : Ice → Nat → UInt8}

theorem toNat_numLocations {addr : UInt64} {numBytes : UInt32} (short : numBytes.toNat ≤ 512) :
    (if addr &&& 1 ≠ 0 then (numBytes + 2) / 2 else (numBytes + 1) / 2).toNat =
      (addr.toNat % 2 + numBytes.toNat + 1) / 2 := by
  split
  next odd =>
    rw [and_one_ne_zero_iff] at odd
    rw [UInt32.toNat_div, UInt32.toNat_add]
    change (numBytes.toNat + 2) % 2 ^ 32 / 2 = _
    omega
  next even =>
    rw [and_one_ne_zero_iff] at even
    rw [UInt32.toNat_div, UInt32.toNat_add]
    change (numBytes.toNat + 1) % 2 ^ 32 / 2 = _
    omega

theorem toNat_count {numLocations : UInt32} (some : 0 < numLocations.toNat)
    (fits : numLocations.toNat ≤ 256) :
    (numLocations - 1).toUInt8.toNat + 1 = numLocations.toNat := by
  have within : 1 ≤ numLocations := UInt32.le_iff_toNat_le.mpr some
  rw [UInt32.toNat_toUInt8, UInt32.toNat_sub_of_le _ _ within]
  change (numLocations.toNat - 1) % 2 ^ 8 + 1 = _
  omega

theorem readCommand_presents (presents : PresentsWords doJtagCommand program) (ice : Ice)
    (programmingEnabled : Bool) (numLocations : UInt32) (addr : UInt64)
    (some : 0 < numLocations.toNat) (fits : numLocations.toNat ≤ 256)
    (inside : addr.toNat + numLocations.toNat ≤ 2 ^ 24) :
    ∃ last, (doJtagCommand (readCommand (progSpace programmingEnabled) numLocations addr)
      (numLocations.toNat * 2 + 2) ice).value =
        .some (presented programmingEnabled
          (slice (program ice) (2 * addr.toNat) (2 * numLocations.toNat)) ++ [last, jtagROk]) := by
  have count := toNat_count some fits
  have decoded := decodeAddress_encodeAddress addr
  rw [Nat.mod_eq_of_lt (by omega)] at decoded
  obtain ⟨last, response⟩ := presents ice programmingEnabled (numLocations - 1).toUInt8
    (addr >>> 16).toUInt8 (addr >>> 8).toUInt8 addr.toUInt8 (numLocations.toNat * 2 + 2)
    (by rw [decoded, count]; exact inside)
  rw [decoded, count, List.take_of_length_le] at response
  · exact ⟨last, response⟩
  · simp [Nat.mul_comm]

theorem swapped_response (programmingEnabled : Bool) (bytes rest : List UInt8) :
    (if programmingEnabled then presented programmingEnabled bytes ++ rest
      else swapBytes bytes.length (presented programmingEnabled bytes ++ rest)) =
        bytes ++ rest := by
  cases programmingEnabled with
  | true => rfl
  | false =>
      have length : (presented false bytes).length = bytes.length := presented_length false bytes
      simp only [Bool.false_eq_true, if_false, swapBytes_append rest length]
      simp [presented]

theorem take_shifted {memory : Nat → UInt8} {addr : UInt64} {numBytes count : Nat}
    (rest : List UInt8) (within : addr.toNat % 2 + numBytes ≤ 2 * count) :
    (if ¬ addr &&& 1 = 0 then
        moveDown numBytes (slice memory (2 * (addr.toNat / 2)) (2 * count) ++ rest)
      else slice memory (2 * (addr.toNat / 2)) (2 * count) ++ rest).take numBytes =
      slice memory addr.toNat numBytes := by
  have length : (slice memory (2 * (addr.toNat / 2)) (2 * count)).length = 2 * count := slice_length
  split
  next odd =>
    have isOdd : addr.toNat % 2 = 1 := (and_one_ne_zero_iff addr).mp odd
    have next : 2 * (addr.toNat / 2) + 1 = addr.toNat := by omega
    rw [moveDown, List.take_append_of_le_length (by simp; omega), List.take_take, Nat.min_self,
      List.drop_append_of_le_length (by omega), slice_drop 1 (by omega), next,
      List.take_append_of_le_length (by simp; omega), slice_take numBytes (by omega)]
  next even =>
    have isEven : ¬ addr.toNat % 2 = 1 := fun odd => even ((and_one_ne_zero_iff addr).mpr odd)
    have same : 2 * (addr.toNat / 2) = addr.toNat := by omega
    rw [List.take_append_of_le_length (by omega), same, slice_take numBytes (by omega)]

theorem status_of_response (programmingEnabled : Bool) (bytes : List UInt8) (last : UInt8) :
    (presented programmingEnabled bytes ++ [last, jtagROk]).getD (bytes.length + 1) 0 =
      jtagROk := by
  simp [List.getD_eq_getElem?_getD]

theorem jtagRead_program (presents : PresentsWords doJtagCommand program) (s : Jtag1 Ice)
    {addr : UInt64} {numBytes : UInt32} (some : numBytes ≠ 0) (isProgram : IsProgram addr)
    (fits : (addr.toNat % 2 + numBytes.toNat + 1) / 2 ≤ 256) :
    ∃ response, (s.jtagRead doJtagCommand addr numBytes).value = .some (.some response) ∧
      response.take numBytes.toNat = slice (program s.ice) addr.toNat numBytes.toNat := by
  have positive : 0 < numBytes.toNat := toNat_pos some
  have bound := isProgram.lt
  have number := @toNat_numLocations addr numBytes (by omega)
  have half : (addr / 2).toNat = addr.toNat / 2 := UInt64.toNat_div addr 2
  rw [Jtag1.jtagRead, if_neg some, isProgram.memorySpace]
  simp only [ne_eq, not_true_eq_false, if_false] at number ⊢
  generalize (if ¬addr &&& 1 = 0 then (numBytes + 2) / 2 else (numBytes + 1) / 2) = locations
    at number ⊢
  obtain ⟨last, response⟩ := readCommand_presents presents s.ice s.programmingEnabled
    locations (addr / 2) (by omega) (by omega) (by omega)
  rw [half] at response
  have within : ¬ 256 < locations :=
    UInt32.not_lt.mpr (UInt32.le_iff_toNat_le.mpr (by omega : locations.toNat ≤ 256))
  have returned : (s.command doJtagCommand (readCommand (progSpace s.programmingEnabled) locations
      (addr / 2)) (locations.toNat * 2 + 2)).value = _ := response
  have length : (slice (program s.ice) (2 * (addr.toNat / 2)) (2 * locations.toNat)).length =
      locations.toNat * 2 := slice_length.trans (Nat.mul_comm 2 _)
  have status := status_of_response s.programmingEnabled
    (slice (program s.ice) (2 * (addr.toNat / 2)) (2 * locations.toNat)) last
  have swapped := swapped_response s.programmingEnabled
    (slice (program s.ice) (2 * (addr.toNat / 2)) (2 * locations.toNat)) [last, jtagROk]
  have shifted := @take_shifted (program s.ice) addr numBytes.toNat locations.toNat
    [last, jtagROk] (by omega)
  rw [length] at status swapped
  rw [if_neg within, Called.andThen_of_returned returned, if_pos status]
  refine ⟨_, rfl, ?_⟩
  rw [← swapped] at shifted
  exact shifted

end Reading

/-! ## Writing -/

section Writing

variable {Ice : Type} {doJtagCommand : List UInt8 → Nat → Ice → Called Ice (List UInt8)}
  {program : Ice → Nat → UInt8}

theorem take_swapped (programmingEnabled : Bool) {numBytes : Nat} {buffer : List UInt8}
    (enough : numBytes ≤ buffer.length) :
    (if programmingEnabled then buffer else swapBytes numBytes buffer).take numBytes =
      presented programmingEnabled (buffer.take numBytes) := by
  cases programmingEnabled with
  | true => rfl
  | false =>
      have length : (buffer.take numBytes).length = numBytes := List.length_take_of_le enough
      have swapped := swapBytes_append (buffer.drop numBytes) length
      rw [List.take_append_drop] at swapped
      simp only [Bool.false_eq_true, if_false, presented, length]
      rw [swapped, List.take_left' (by rw [swapBytes_length, length])]

theorem writeLocations_program (stores : StoresWords doJtagCommand program) (s : Jtag1 Ice)
    {addr : UInt64} {numLocations numBytes : UInt32} {buffer : List UInt8}
    (some : 0 < numLocations.toNat) (fits : numLocations.toNat ≤ 256)
    (inside : addr.toNat + numLocations.toNat ≤ 2 ^ 24)
    (length : (buffer.take numBytes.toNat).length = 2 * numLocations.toNat)
    (written : (s.writeLocations doJtagCommand (progSpace s.programmingEnabled) addr numLocations
      numBytes buffer).value = .some true) :
    program (s.writeLocations doJtagCommand (progSpace s.programmingEnabled) addr numLocations
        numBytes buffer).state.1.ice =
      overwrite (program s.ice) (2 * addr.toNat)
        (presented s.programmingEnabled (buffer.take numBytes.toNat)) := by
  have within : ¬ 256 < numLocations := UInt32.not_lt.mpr (UInt32.le_iff_toNat_le.mpr fits)
  have count := toNat_count some fits
  have decoded := decodeAddress_encodeAddress addr
  rw [Nat.mod_eq_of_lt (by omega)] at decoded
  have stored := stores s.ice s.programmingEnabled (numLocations - 1).toUInt8 (addr >>> 16).toUInt8
    (addr >>> 8).toUInt8 addr.toUInt8 (buffer.take numBytes.toNat)
  rw [decoded, count] at stored
  rw [Jtag1.writeLocations, if_neg within] at written ⊢
  cases named : (s.command doJtagCommand
      (writeCommand (progSpace s.programmingEnabled) numLocations addr) 0).value with
  | none =>
      rw [Called.andThen_of_threw named] at written
      cases written
  | some response =>
      rw [Called.andThen_of_returned named] at written ⊢
      refine stored inside length (fun threw => ?_) (fun threw => ?_)
      · exact Option.some_ne_none response (named.symm.trans threw)
      · exact Option.some_ne_none true
          (written.symm.trans (congrArg (Option.map fun _ => true) threw))

theorem jtagWrite_program (stores : StoresWords doJtagCommand program) (s : Jtag1 Ice)
    {addr : UInt64} {numBytes : UInt32} {buffer : List UInt8} (some : numBytes ≠ 0)
    (evenAddr : addr.toNat % 2 = 0) (evenLength : numBytes.toNat % 2 = 0)
    (short : numBytes.toNat ≤ 512) (isProgram : IsProgram addr)
    (enough : numBytes.toNat ≤ buffer.length)
    (written : (s.jtagWrite doJtagCommand addr numBytes buffer).value = .some true) :
    program (s.jtagWrite doJtagCommand addr numBytes buffer).state.1.ice =
      overwrite (program s.ice) addr.toNat (buffer.take numBytes.toNat) := by
  have positive : 0 < numBytes.toNat := toNat_pos some
  have bound := isProgram.lt
  have noOddAddr : ¬ addr &&& 1 ≠ 0 := fun odd => by
    rw [and_one_ne_zero_iff] at odd
    omega
  have noOddLength : ¬ numBytes &&& 1 ≠ 0 := fun odd => odd <| by
    rw [← UInt32.toNat_inj, UInt32.toNat_and]
    exact (Nat.and_one_is_mod _).trans evenLength
  have half : (addr / 2).toNat = addr.toNat / 2 := UInt64.toNat_div addr 2
  have halfLength : (numBytes / 2).toNat = numBytes.toNat / 2 := UInt32.toNat_div numBytes 2
  have swapped := take_swapped s.programmingEnabled enough
  have same : 2 * (addr.toNat / 2) = addr.toNat := by omega
  rw [Jtag1.jtagWrite, if_neg some, isProgram.memorySpace] at written ⊢
  simp only [ne_eq, not_true_eq_false, if_false, if_neg noOddAddr, if_neg noOddLength]
    at written ⊢
  rw [writeLocations_program stores s (by omega) (by omega) (by omega) _ written, swapped,
    presented_presented, half, same]
  rw [swapped, presented_length, List.length_take_of_le enough]
  omega

end Writing

/-! ## What has been written is read -/

/-- Every part of what a write was given can be read behind it, in whichever
mode, and all other bytes of program memory are as before. -/
structure ReadsBack {Ice : Type} (doJtagCommand : List UInt8 → Nat → Ice → Called Ice (List UInt8))
    (program : Ice → Nat → UInt8) (s : Jtag1 Ice) (addr : UInt64) (numBytes : UInt32)
    (buffer : List UInt8) : Prop where
  reads : ∀ (programmingEnabled : Bool) (a : UInt64) (k : UInt32), addr ≤ a →
    a.toNat + k.toNat ≤ addr.toNat + numBytes.toNat →
      ∃ response,
        (Jtag1.jtagRead doJtagCommand
          ⟨programmingEnabled, (s.jtagWrite doJtagCommand addr numBytes buffer).state.1.ice⟩
          a k).value = some (some response) ∧
        response.take k.toNat = (buffer.drop (a.toNat - addr.toNat)).take k.toNat
  others : ∀ byte, byte < addr.toNat ∨ addr.toNat + numBytes.toNat ≤ byte →
    program (s.jtagWrite doJtagCommand addr numBytes buffer).state.1.ice byte =
      program s.ice byte

theorem program_round_trip {Ice : Type}
    (doJtagCommand : List UInt8 → Nat → Ice → Called Ice (List UInt8)) (program : Ice → Nat → UInt8)
    (presents : PresentsWords doJtagCommand program) (stores : StoresWords doJtagCommand program)
    (s : Jtag1 Ice) (addr : UInt64) (numBytes : UInt32) (buffer : List UInt8)
    (evenAddr : addr.toNat % 2 = 0) (small : addr.toNat < 2 ^ 25)
    (evenLength : numBytes.toNat % 2 = 0) (least : 2 ≤ numBytes.toNat)
    (most : numBytes.toNat ≤ 512) (enough : numBytes.toNat ≤ buffer.length)
    (noData : ∀ byte : UInt64, addr ≤ byte → byte.toNat < addr.toNat + numBytes.toNat →
      byte &&& dataSpaceAddrOffset = 0)
    (written : (s.jtagWrite doJtagCommand addr numBytes buffer).value = some true) :
    ReadsBack doJtagCommand program s addr numBytes buffer := by
  have isProgram : IsProgram addr :=
    ⟨small, noData addr (UInt64.le_refl addr) (by omega)⟩
  have bound := isProgram.lt
  have some : numBytes ≠ 0 := fun none => by simp [none] at least
  have stored := jtagWrite_program stores s some evenAddr evenLength most isProgram enough written
  have length : (buffer.take numBytes.toNat).length = numBytes.toNat :=
    List.length_take_of_le enough
  constructor
  · intro programmingEnabled a k behind within
    rw [UInt64.le_iff_toNat_le] at behind
    by_cases nothing : k = 0
    · subst nothing
      exact ⟨[0], rfl, rfl⟩
    · have positive : 0 < k.toNat := toNat_pos nothing
      have part : IsProgram a :=
        ⟨by omega, noData a (UInt64.le_iff_toNat_le.mpr behind) (by omega)⟩
      obtain ⟨response, returned, bytes⟩ := jtagRead_program presents
        ⟨programmingEnabled, (s.jtagWrite doJtagCommand addr numBytes buffer).state.1.ice⟩
        nothing part (by omega)
      refine ⟨response, returned, bytes.trans ?_⟩
      rw [stored, slice_overwrite_within behind (by omega), List.drop_take, List.take_take,
        Nat.min_eq_left (by omega)]
  · intro byte outside
    rw [stored]
    rcases outside with before | behind
    · exact overwrite_of_lt before
    · exact overwrite_of_ge (by omega)

/-- An ICE with program memory and data memory, and the place that the next
block of data goes to. -/
structure WordIce where
  program : Nat → UInt8
  data : Nat → UInt8
  space : UInt8
  address : Nat

/-- Locations of program memory have two bytes, those of data memory one. -/
def WordIce.locations (ice : WordIce) (space : UInt8) (address count : Nat) : List UInt8 :=
  if space = addrProgSpaceProgEnabled ∨ space = addrProgSpaceProgDisabled then
    presented (space = addrProgSpaceProgEnabled) (slice ice.program (2 * address) (2 * count))
  else slice ice.data address count

def WordIce.store (ice : WordIce) (bytes : List UInt8) : WordIce :=
  if ice.space = addrProgSpaceProgEnabled ∨ ice.space = addrProgSpaceProgDisabled then
    { ice with
      program := overwrite ice.program (2 * ice.address)
        (presented (ice.space = addrProgSpaceProgEnabled) bytes) }
  else { ice with data := overwrite ice.data ice.address bytes }

def WordIce.execute (command : List UInt8) (responseSize : Nat) (ice : WordIce) :
    Called WordIce (List UInt8) :=
  match command with
  | 0x68 :: block => ⟨some [jtagROk], ice.store (block.take (block.length - 2))⟩
  | 0x52 :: space :: count :: b0 :: b1 :: b2 :: _ =>
      ⟨some ((ice.locations space (decodeAddress b0 b1 b2).toNat (count.toNat + 1) ++
        [0, jtagROk]).take responseSize), ice⟩
  | 0x57 :: space :: _ :: b0 :: b1 :: b2 :: _ =>
      ⟨some [], { ice with space, address := (decodeAddress b0 b1 b2).toNat }⟩
  | _ => ⟨none, ice⟩

theorem WordIce.presents : PresentsWords WordIce.execute WordIce.program := by
  intro ice programmingEnabled count b0 b1 b2 responseSize inside
  cases programmingEnabled <;> exact ⟨0, rfl⟩

theorem WordIce.stores : StoresWords WordIce.execute WordIce.program := by
  intro ice programmingEnabled count b0 b1 b2 bytes named stored inside length _ _
  have block : (bytes ++ jtagEom).take ((bytes ++ jtagEom).length - 2) = bytes := by simp
  cases programmingEnabled
  · change ((_ : WordIce).store
      ((bytes ++ jtagEom).take ((bytes ++ jtagEom).length - 2))).program = _
    rw [block]
    rfl
  · change ((_ : WordIce).store
      ((bytes ++ jtagEom).take ((bytes ++ jtagEom).length - 2))).program = _
    rw [block]
    rfl

def blank : Jtag1 WordIce := ⟨false, ⟨fun _ => 0xff, fun _ => 0, 0, 0⟩⟩

theorem program_round_trip_two :
    ReadsBack WordIce.execute WordIce.program blank 0x100 2 [1, 2] := by
  refine program_round_trip WordIce.execute WordIce.program WordIce.presents WordIce.stores blank
    0x100 2 [1, 2] (by decide) (by decide) (by decide) (by decide) (by decide) (by decide)
    (fun byte lower upper => ?_) (by decide)
  have bytes : byte.toNat = 0x100 ∨ byte.toNat = 0x101 := by
    have lower : 0x100 ≤ byte.toNat := UInt64.le_iff_toNat_le.mp lower
    have upper : byte.toNat < 0x102 := upper
    omega
  rcases bytes with first | second
  · rw [UInt64.toNat_inj.mp (first.trans rfl : byte.toNat = (0x100 : UInt64).toNat)]
    rfl
  · rw [UInt64.toNat_inj.mp (second.trans rfl : byte.toNat = (0x101 : UInt64).toNat)]
    rfl

/-- A write that goes past the last address below the data space stores its
bytes in program memory, but they are read from the data space. -/
theorem program_round_trip_data_space :
    (blank.jtagWrite WordIce.execute 0x7ffffe 4 [1, 2, 3, 4]).value = some true ∧
      (blank.jtagWrite WordIce.execute 0x7ffffe 4 [1, 2, 3, 4]).state.1.ice.program 0x800000 = 3 ∧
      ¬ ReadsBack WordIce.execute WordIce.program blank 0x7ffffe 4 [1, 2, 3, 4] := by
  refine ⟨by decide, by decide, fun readsBack => ?_⟩
  obtain ⟨response, returned, bytes⟩ := readsBack.reads false 0x800000 2 (by decide) (by decide)
  have data : (Jtag1.jtagRead WordIce.execute
      ⟨false, (blank.jtagWrite WordIce.execute 0x7ffffe 4 [1, 2, 3, 4]).state.1.ice⟩
      0x800000 2).value = some (some [0, 0, 0, jtagROk]) := by decide
  rw [← Option.some.inj (Option.some.inj (data.symm.trans returned))] at bytes
  exact absurd bytes (by decide)

end Avarice.Mk1.Memory

import Avarice.Gdb.Registers
import Avarice.Mk1.RoundTrip

/-!
# Registers behind a mkI

The program counter of `jtagrun.cc`, and what an ICE for data memory and the
program counter makes of the accesses to registers.
-/

namespace Avarice.Mk1.Memory

open Throwing PagedMemory
open Gdb.Registers (Jtag Contents Ideal)
open Gdb.ReplyBuffer (pcInvalid)

section Program

variable {Ice : Type} (doJtagCommand : List UInt8 → Nat → Ice → Called Ice (List UInt8))

/-- The number of the location that a response begins with is one too high, and
locations have two bytes. -/
def byteAddress (b0 b1 b2 : UInt8) : UInt64 := ((decodeAddress b0 b1 b2).toUInt64 - 1) * 2

def Jtag1.getProgramCounter (s : Jtag1 Ice) : Called (Jtag1 Ice) UInt64 :=
  (s.command doJtagCommand (0x32 :: jtagEom) 4).andThen fun response s =>
    ⟨some (if response.getD 3 0 ≠ jtagROk then pcInvalid.toUInt64
      else byteAddress (response.getD 0 0) (response.getD 1 0) (response.getD 2 0)), s⟩

def Jtag1.setProgramCounter (s : Jtag1 Ice) (pc : UInt64) : Called (Jtag1 Ice) Bool :=
  (s.command doJtagCommand (0x33 :: encodeAddress (pc / 2 + 1) ++ jtagEom) 1).andThen
    fun response s => ⟨some (response.getD 0 0 = jtagROk), s⟩

def jtag1 : Jtag (Jtag1 Ice) where
  jtagRead s addr numBytes := s.jtagRead doJtagCommand addr numBytes
  jtagWrite s addr buffer :=
    let call := s.jtagWrite doJtagCommand addr buffer.length.toUInt32 buffer
    ⟨call.value, call.state.1⟩
  getProgramCounter s := s.getProgramCounter doJtagCommand
  setProgramCounter s pc := s.setProgramCounter doJtagCommand pc

/-- The ICE answers a read of data memory by the bytes it is asked for, a byte
and a status, and stores what it has confirmed.  Its program counter is the
location that it has been given. -/
structure KeepsRegisters (data : Ice → Nat → UInt8) (counter : Ice → UInt8 × UInt8 × UInt8) :
    Prop where
  read : ∀ (ice : Ice) (count b0 b1 b2 : UInt8) (responseSize : Nat),
    let call := doJtagCommand ([0x52, addrDataSpace, count, b0, b1, b2] ++ jtagEom) responseSize ice
    (decodeAddress b0 b1 b2).toNat + (count.toNat + 1) ≤ 0x60 →
      (∃ last, call.value = some ((slice (data ice) (decodeAddress b0 b1 b2).toNat
        (count.toNat + 1) ++ [last, jtagROk]).take responseSize)) ∧
      data call.state = data ice ∧ counter call.state = counter ice
  write : ∀ (ice : Ice) (count b0 b1 b2 : UInt8) (bytes : List UInt8),
    let named := doJtagCommand ([0x57, addrDataSpace, count, b0, b1, b2] ++ jtagEom) 0 ice
    let stored := doJtagCommand (dataBlock bytes) 1 named.state
    (decodeAddress b0 b1 b2).toNat + (count.toNat + 1) ≤ 0x60 → bytes.length = count.toNat + 1 →
      named.value ≠ none → stored.value ≠ none →
        data stored.state = overwrite (data ice) (decodeAddress b0 b1 b2).toNat bytes ∧
          counter stored.state = counter ice
  getCounter : ∀ (ice : Ice),
    let call := doJtagCommand (0x32 :: jtagEom) 4 ice
    let (b0, b1, b2) := counter ice
    call.value = some [b0, b1, b2, jtagROk] ∧ data call.state = data ice ∧
      counter call.state = counter ice
  setCounter : ∀ (ice : Ice) (b0 b1 b2 : UInt8) (response : List UInt8),
    let call := doJtagCommand ([0x33, b0, b1, b2] ++ jtagEom) 1 ice
    call.value = some response → response.getD 0 0 = jtagROk →
      data call.state = data ice ∧ counter call.state = (b0, b1, b2)

end Program

section Addresses

theorem memorySpace_data {addr : UInt64} (small : addr.toNat < 0x10000) :
    memorySpace (addr + dataSpaceAddrOffset) = (addrDataSpace, addr) := by
  have split : splitAddress (dataSpaceAddrOffset + addr) = (dataSpaceAddrOffset, addr) :=
    splitAddress_add (by decide) (by decide) (and_addrSpaceMask (UInt64.lt_iff_toNat_lt.mpr small))
  rw [memorySpace, UInt64.add_comm, split]
  rfl

theorem byteAddress_valid (b0 b1 b2 : UInt8) : (byteAddress b0 b1 b2).toUInt32 ≠ pcInvalid := by
  intro invalid
  have odd := congrArg UInt32.toNat invalid
  rw [byteAddress, UInt64.toNat_toUInt32, UInt64.toNat_mul] at odd
  change (_ * 2 % 2 ^ 64) % 2 ^ 32 = 0xffffffff at odd
  omega

theorem byteAddress_encoded {pc : UInt64} (even : pc.toNat % 2 = 0) (small : pc.toNat < 2 ^ 24) :
    byteAddress ((pc / 2 + 1) >>> 16).toUInt8 ((pc / 2 + 1) >>> 8).toUInt8 (pc / 2 + 1).toUInt8 =
      pc := by
  have location : (pc / 2 + 1).toNat = pc.toNat / 2 + 1 := by
    rw [UInt64.toNat_add, UInt64.toNat_div]
    change (pc.toNat / 2 + 1) % 2 ^ 64 = _
    omega
  have decoded := decodeAddress_encodeAddress (pc / 2 + 1)
  rw [location, Nat.mod_eq_of_lt (by omega)] at decoded
  have same : (decodeAddress ((pc / 2 + 1) >>> 16).toUInt8 ((pc / 2 + 1) >>> 8).toUInt8
      (pc / 2 + 1).toUInt8).toUInt64 = pc / 2 + 1 := by
    rw [← UInt64.toNat_inj, UInt32.toNat_toUInt64, decoded, location]
  rw [byteAddress, same, UInt64.add_sub_cancel, ← UInt64.toNat_inj, UInt64.toNat_mul,
    UInt64.toNat_div]
  change pc.toNat / 2 * 2 % 2 ^ 64 = _
  omega

end Addresses

/-! ## The ICE as a target -/

section Target

variable {Ice : Type} {doJtagCommand : List UInt8 → Nat → Ice → Called Ice (List UInt8)}
  {data : Ice → Nat → UInt8} {counter : Ice → UInt8 × UInt8 × UInt8}

def reported (location : UInt8 × UInt8 × UInt8) : UInt32 :=
  (byteAddress location.1 location.2.1 location.2.2).toUInt32

variable (data counter) in
def contents (s : Jtag1 Ice) : Contents where
  data := data s.ice
  counter := reported (counter s.ice)

theorem contents_of_same {s : Jtag1 Ice} {memory : Nat → UInt8} {location : UInt8 × UInt8 × UInt8}
    (sameData : data s.ice = memory) (sameCounter : counter s.ice = location) :
    contents data counter s = ⟨memory, reported location⟩ := by
  rw [contents, sameData, sameCounter]

variable (keeps : KeepsRegisters doJtagCommand data counter)
include keeps

theorem jtagRead_data (s : Jtag1 Ice) {start : UInt64} {numBytes : UInt32} (some : numBytes ≠ 0)
    (within : start.toNat + numBytes.toNat ≤ 0x60) :
    (∃ rest, (s.jtagRead doJtagCommand (start + dataSpaceAddrOffset) numBytes).value =
        .some (.some (slice (data s.ice) start.toNat numBytes.toNat ++ rest))) ∧
      contents data counter
        (s.jtagRead doJtagCommand (start + dataSpaceAddrOffset) numBytes).state =
          contents data counter s := by
  have positive : 0 < numBytes.toNat := toNat_pos some
  have count := toNat_count positive (by omega)
  have decoded := decodeAddress_encodeAddress start
  rw [Nat.mod_eq_of_lt (by omega)] at decoded
  obtain ⟨⟨last, response⟩, sameData, sameCounter⟩ := keeps.read s.ice (numBytes - 1).toUInt8
    (start >>> 16).toUInt8 (start >>> 8).toUInt8 start.toUInt8 (numBytes.toNat + 2)
    (by rw [decoded, count]; exact within)
  rw [decoded, count, List.take_of_length_le (by simp)] at response
  have returned : (s.command doJtagCommand (readCommand addrDataSpace numBytes start)
    (numBytes.toNat + 2)).value = _ := response
  have notLong : ¬256 < numBytes :=
    UInt32.not_lt.mpr (UInt32.le_iff_toNat_le.mpr (by omega : numBytes.toNat ≤ 256))
  have status : (slice (data s.ice) start.toNat numBytes.toNat ++ [last, jtagROk]).getD
      (numBytes.toNat + 1) 0 = jtagROk := by
    simp [List.getD_eq_getElem?_getD]
  rw [Jtag1.jtagRead, if_neg some, memorySpace_data (by omega)]
  dsimp only
  rw [if_pos (by decide), if_neg notLong, Called.andThen_of_returned returned, if_pos status]
  exact ⟨⟨[last, jtagROk], rfl⟩, contents_of_same sameData sameCounter⟩

theorem writeLocations_data (s : Jtag1 Ice) {start : UInt64} {numBytes : UInt32}
    {buffer : List UInt8} (length : buffer.length = numBytes.toNat) (some : 0 < numBytes.toNat)
    (within : start.toNat + numBytes.toNat ≤ 0x60)
    (written : (s.writeLocations doJtagCommand addrDataSpace start numBytes numBytes
      buffer).value = .some true) :
    contents data counter
        (s.writeLocations doJtagCommand addrDataSpace start numBytes numBytes buffer).state.1 =
      (contents data counter s).store start.toNat buffer := by
  have count := toNat_count some (by omega)
  have decoded := decodeAddress_encodeAddress start
  rw [Nat.mod_eq_of_lt (by omega)] at decoded
  have stored := keeps.write s.ice (numBytes - 1).toUInt8 (start >>> 16).toUInt8
    (start >>> 8).toUInt8 start.toUInt8 buffer
  rw [decoded, count] at stored
  have notLong : ¬256 < numBytes :=
    UInt32.not_lt.mpr (UInt32.le_iff_toNat_le.mpr (by omega : numBytes.toNat ≤ 256))
  have whole : buffer.take numBytes.toNat = buffer := List.take_of_length_le (Nat.le_of_eq length)
  rw [Jtag1.writeLocations, if_neg notLong, whole] at written ⊢
  cases named : (s.command doJtagCommand (writeCommand addrDataSpace numBytes start) 0).value with
  | none =>
      rw [Called.andThen_of_threw named] at written
      cases written
  | some response =>
      rw [Called.andThen_of_returned named] at written ⊢
      obtain ⟨sameData, sameCounter⟩ := stored within length
        (fun threw => Option.some_ne_none response (named.symm.trans threw))
        (fun threw => Option.some_ne_none true
          (written.symm.trans (congrArg (Option.map fun _ => true) threw)))
      exact contents_of_same sameData sameCounter

theorem jtagWrite_data (s : Jtag1 Ice) {start : UInt64} {buffer : List UInt8}
    (some : buffer ≠ []) (within : start.toNat + buffer.length ≤ 0x60)
    (written : ((jtag1 doJtagCommand).jtagWrite s (start + dataSpaceAddrOffset) buffer).value =
      .some true) :
    contents data counter
        ((jtag1 doJtagCommand).jtagWrite s (start + dataSpaceAddrOffset) buffer).state =
      (contents data counter s).store start.toNat buffer := by
  have positive := List.length_pos_of_ne_nil some
  have length : buffer.length.toUInt32.toNat = buffer.length :=
    UInt32.toNat_ofNat_of_lt' (Nat.lt_of_le_of_lt (by omega : _ ≤ 0x60) (by decide))
  have notNone : buffer.length.toUInt32 ≠ 0 := fun none => by
    rw [none] at length
    exact Nat.ne_of_lt positive length
  have located : s.jtagWrite doJtagCommand (start + dataSpaceAddrOffset) buffer.length.toUInt32
      buffer = s.writeLocations doJtagCommand addrDataSpace start buffer.length.toUInt32
        buffer.length.toUInt32 buffer := by
    rw [Jtag1.jtagWrite, if_neg notNone, memorySpace_data (by omega)]
    rfl
  simp only [jtag1, located] at written ⊢
  exact writeLocations_data keeps s length.symm (by omega) (by omega) written

theorem getProgramCounter_counter (s : Jtag1 Ice) :
    (∃ pc, (s.getProgramCounter doJtagCommand).value = some pc ∧
        pc.toUInt32 = (contents data counter s).counter) ∧
      contents data counter (s.getProgramCounter doJtagCommand).state =
        contents data counter s := by
  obtain ⟨response, sameData, sameCounter⟩ := keeps.getCounter s.ice
  have returned : (s.command doJtagCommand (0x32 :: jtagEom) 4).value = _ := response
  rw [Jtag1.getProgramCounter, Called.andThen_of_returned returned]
  exact ⟨⟨_, rfl, rfl⟩, contents_of_same sameData sameCounter⟩

theorem setProgramCounter_counter (s : Jtag1 Ice) {pc : UInt64} (even : pc.toNat % 2 = 0)
    (small : pc.toNat < 2 ^ 24)
    (answered : (s.setProgramCounter doJtagCommand pc).value = some true) :
    contents data counter (s.setProgramCounter doJtagCommand pc).state =
      { contents data counter s with counter := pc.toUInt32 } := by
  have set := keeps.setCounter s.ice ((pc / 2 + 1) >>> 16).toUInt8 ((pc / 2 + 1) >>> 8).toUInt8
    (pc / 2 + 1).toUInt8
  rw [Jtag1.setProgramCounter] at answered ⊢
  cases returned : (s.command doJtagCommand
      (0x33 :: encodeAddress (pc / 2 + 1) ++ jtagEom) 1).value with
  | none =>
      rw [Called.andThen_of_threw returned] at answered
      cases answered
  | some response =>
      rw [Called.andThen_of_returned returned] at answered ⊢
      obtain ⟨sameData, given⟩ := set response returned
        (of_decide_eq_true (Option.some.inj answered))
      have number : reported (((pc / 2 + 1) >>> 16).toUInt8, ((pc / 2 + 1) >>> 8).toUInt8,
          (pc / 2 + 1).toUInt8) = pc.toUInt32 :=
        congrArg UInt64.toUInt32 (byteAddress_encoded even small)
      rw [← number]
      exact contents_of_same sameData given

theorem jtag1_ideal : Ideal (jtag1 doJtagCommand) (contents data counter) where
  read s _ _ some within := (jtagRead_data keeps s some within).1
  readState s _ _ some within := (jtagRead_data keeps s some within).2
  write s _ _ some within written := jtagWrite_data keeps s some within written
  getCounter s := (getProgramCounter_counter keeps s).1
  getState s := (getProgramCounter_counter keeps s).2
  setCounter s _ even small answered := setProgramCounter_counter keeps s even small answered
  valid _ := byteAddress_valid _ _ _

end Target

end Avarice.Mk1.Memory

import Avarice.Gdb.Registers
import Avarice.Mk2.SpaceDecoding

/-!
# Registers behind a mkII

The program counter of `jtag2run.cc`, and what an ICE for data memory and the
program counter makes of the accesses to registers.
-/

namespace Avarice.Mk2.Access

open Throwing PagedMemory Memory
open Gdb.Registers (Jtag Contents Ideal)
open Gdb.ReplyBuffer (pcInvalid)

abbrev cmndWritePc : UInt8 := 0x06
abbrev cmndReadPc : UInt8 := 0x07
abbrev rspMemory : UInt8 := 0x82
abbrev rspPc : UInt8 := 0x84

section Program

variable {Ice : Type} (attempt : List UInt8 → Ice → Attempt × Ice)

/-- Locations have two bytes. -/
def Jtag2.getProgramCounter (s : Jtag2 Ice) : Called (Jtag2 Ice) UInt64 :=
  let call := checkedCommand attempt [cmndReadPc] s.ice
  ⟨call.value.map fun response =>
      (b4ToU32 (response.getD 1 0) (response.getD 2 0) (response.getD 3 0)
        (response.getD 4 0)).toUInt64 * 2,
    { s with ice := call.state }⟩

def Jtag2.setProgramCounter (s : Jtag2 Ice) (pc : UInt64) : Called (Jtag2 Ice) Bool :=
  let call := checkedCommand attempt (cmndWritePc :: u32ToB4 (pc / 2).toUInt32) s.ice
  ⟨call.value.map fun _ => true, { s with ice := call.state }⟩

/-- The class `jtag2`, whose reads never yield `NULL`. -/
def jtag2 : Jtag (Jtag2 Ice) where
  jtagRead s addr numBytes :=
    let call := s.jtagRead attempt addr numBytes
    ⟨call.value.map some, call.state⟩
  jtagWrite s addr buffer :=
    let call := s.jtagWrite attempt addr buffer
    ⟨call.value.map fun _ => true, call.state⟩
  getProgramCounter s := s.getProgramCounter attempt
  setProgramCounter s pc := s.setProgramCounter attempt pc

/-- The ICE answers a read of data memory by the bytes it is asked for, and
stores what it accepts.  Its program counter is the location that it has been
given. -/
structure KeepsRegisters (data : Ice → Nat → UInt8) (counter : Ice → UInt32) : Prop where
  read : ∀ (ice : Ice) (numBytes addr : UInt32),
    let call := attempt (readCommand mtypeSram numBytes addr) ice
    addr.toNat + numBytes.toNat ≤ 0x60 →
      call.1 = .response rspMemory (slice (data ice) addr.toNat numBytes.toNat) ∧
        data call.2 = data ice ∧ counter call.2 = counter ice
  write : ∀ (ice : Ice) (addr : UInt32) (bytes : List UInt8),
    let call := attempt (writeCommand mtypeSram bytes.length.toUInt32 addr bytes) ice
    addr.toNat + bytes.length ≤ 0x60 →
      data call.2 = (if call.1.positive then overwrite (data ice) addr.toNat bytes
        else data ice) ∧
      counter call.2 = counter ice
  getCounter : ∀ ice,
    let call := attempt [cmndReadPc] ice
    call.1 = .response rspPc (u32ToB4 (counter ice)) ∧ data call.2 = data ice ∧
      counter call.2 = counter ice
  setCounter : ∀ (ice : Ice) (location : UInt32),
    let call := attempt (cmndWritePc :: u32ToB4 location) ice
    data call.2 = data ice ∧
      counter call.2 = if call.1.positive then location else counter ice

end Program

section Commands

variable {Ice : Type} {attempt : List UInt8 → Ice → Attempt × Ice} {command : List UInt8}
  {ice : Ice}

theorem checkedCommand_once {code : UInt8} {rest : List UInt8}
    (answered : (attempt command ice).1 = .response code rest)
    (positive : isPositive [code] = true) :
    checkedCommand attempt command ice = ⟨some (code :: rest), (attempt command ice).2⟩ := by
  have verdict : commandVerdict true (attempt command ice).1 =
      some (true, .response code rest) := by
    rw [answered]
    exact congrArg (fun sign => some (sign, _)) positive
  simp only [checkedCommand, doJtagCommand_eq]
  rw [Retry.retry_settled verdict]
  rfl

theorem positive_of_unsettled {answer : Attempt} (unsettled : commandVerdict true answer = none) :
    answer.positive = false := by
  cases answer with
  | response => cases unsettled
  | _ => rfl

theorem positive_of_verdict {answer : Attempt} {result : Bool × Attempt}
    (settled : commandVerdict true answer = some result) : result.1 = answer.positive := by
  cases answer with
  | response => exact congrArg Prod.fst (Option.some.inj settled).symm
  | _ => cases settled

theorem checkedCommand_last {Observed : Type} {observe : Ice → Observed}
    (kept : ∀ ice, (attempt command ice).1.positive = false →
      observe (attempt command ice).2 = observe ice)
    (some : (checkedCommand attempt command ice).value ≠ none) :
    ∃ last, observe last = observe ice ∧ (attempt command last).1.positive = true ∧
      (checkedCommand attempt command ice).state = (attempt command last).2 := by
  simp only [checkedCommand, doJtagCommand_eq] at some ⊢
  cases settled : (Retry.retry (attempt command) (commandVerdict true) maxJtagCommAttemps
      ice).result with
  | none => simp [settled] at some
  | some result =>
      obtain ⟨last, same, verdict, state⟩ :=
        Retry.retry_last (fun ice unsettled => kept ice (positive_of_unsettled unsettled)) settled
      have sign := positive_of_verdict verdict
      refine ⟨last, same, ?_, state⟩
      rw [← sign]
      by_contra negative
      simp [settled, negative] at some

end Commands

/-! ## The ICE as a target -/

section Target

variable {Ice : Type} {attempt : List UInt8 → Ice → Attempt × Ice} {data : Ice → Nat → UInt8}
  {counter : Ice → UInt32}

def reported (location : UInt32) : UInt32 := (location.toUInt64 * 2).toUInt32

variable (data counter) in
def contents (s : Jtag2 Ice) : Contents where
  data := data s.ice
  counter := reported (counter s.ice)

theorem contents_of_same {s : Jtag2 Ice} {memory : Nat → UInt8} {location : UInt32}
    (sameData : data s.ice = memory) (sameCounter : counter s.ice = location) :
    contents data counter s = ⟨memory, reported location⟩ := by
  rw [contents, sameData, sameCounter]

theorem reported_valid (location : UInt32) : reported location ≠ pcInvalid := by
  intro invalid
  have odd := congrArg UInt32.toNat invalid
  rw [reported, UInt64.toNat_toUInt32, UInt64.toNat_mul] at odd
  change (_ * 2 % 2 ^ 64) % 2 ^ 32 = 0xffffffff at odd
  omega

theorem reported_half {pc : UInt64} (even : pc.toNat % 2 = 0) :
    reported (pc / 2).toUInt32 = pc.toUInt32 := by
  rw [reported, ← UInt32.toNat_inj, UInt64.toNat_toUInt32, UInt64.toNat_mul,
    UInt32.toNat_toUInt64, UInt64.toNat_toUInt32, UInt64.toNat_div, UInt64.toNat_toUInt32]
  change (pc.toNat / 2 % 2 ^ 32 * 2 % 2 ^ 64) % 2 ^ 32 = _
  omega

theorem memorySpace_data (useDebugWire programmingEnabled : Bool) {addr : UInt64}
    (small : addr.toNat < 0x10000) :
    memorySpace useDebugWire programmingEnabled (addr + dataSpaceAddrOffset) =
      (mtypeSram, addr) := by
  rw [UInt64.add_comm]
  exact memorySpace_addrOffset .data (UInt64.lt_iff_toNat_lt.mpr small) _ _

variable (keeps : KeepsRegisters attempt data counter)
include keeps

theorem jtagRead_data (s : Jtag2 Ice) {start : UInt64} {numBytes : UInt32} (some : numBytes ≠ 0)
    (within : start.toNat + numBytes.toNat ≤ 0x60) :
    (∃ rest, (s.jtagRead attempt (start + dataSpaceAddrOffset) numBytes).value =
        .some (slice (data s.ice) start.toNat numBytes.toNat ++ rest)) ∧
      contents data counter (s.jtagRead attempt (start + dataSpaceAddrOffset) numBytes).state =
        contents data counter s := by
  have narrow : start.toUInt32.toNat = start.toNat :=
    Nat.mod_eq_of_lt (Nat.lt_of_le_of_lt (by omega : _ ≤ 0x60) (by decide))
  obtain ⟨answered, sameData, sameCounter⟩ := keeps.read s.ice numBytes start.toUInt32
    (by rwa [narrow])
  have unpaged : s.jtagRead attempt (start + dataSpaceAddrOffset) numBytes =
      s.readUnpaged attempt mtypeSram 0 start numBytes := by
    rw [Jtag2.jtagRead, if_neg some, memorySpace_data _ _ (by omega)]
    dsimp only
    rw [inProgmode_of_lt (by decide)]
    rfl
  rw [unpaged, Jtag2.readUnpaged, checkedCommand_once answered rfl, narrow]
  exact ⟨⟨_, rfl⟩, contents_of_same sameData sameCounter⟩

omit keeps in
theorem jtagWrite_command (s : Jtag2 Ice) {start : UInt64} {buffer : List UInt8}
    (some : buffer ≠ []) (small : start.toNat < 0x10000) :
    s.jtagWrite attempt (start + dataSpaceAddrOffset) buffer =
      let call := checkedCommand attempt
        (writeCommand mtypeSram buffer.length.toUInt32 start.toUInt32 buffer) s.ice
      ⟨call.value.map fun _ => (), { s with ice := call.state }⟩ := by
  have notEmpty : ¬buffer.length = 0 := fun empty => some (List.length_eq_zero_iff.mp empty)
  rw [Jtag2.jtagWrite, if_neg notEmpty, memorySpace_data _ _ small]
  dsimp only
  rw [if_neg fun start => absurd start.1 (by decide), Called.andThen_of_returned rfl,
    inProgmode_of_lt (by decide)]
  rfl

theorem jtagWrite_data (s : Jtag2 Ice) {start : UInt64} {buffer : List UInt8}
    (some : buffer ≠ []) (within : start.toNat + buffer.length ≤ 0x60)
    (written : (s.jtagWrite attempt (start + dataSpaceAddrOffset) buffer).value ≠ none) :
    contents data counter (s.jtagWrite attempt (start + dataSpaceAddrOffset) buffer).state =
      (contents data counter s).store start.toNat buffer := by
  have narrow : start.toUInt32.toNat = start.toNat :=
    Nat.mod_eq_of_lt (Nat.lt_of_le_of_lt (by omega : _ ≤ 0x60) (by decide))
  have write (ice : Ice) := keeps.write ice start.toUInt32 buffer (by rwa [narrow])
  rw [jtagWrite_command s some (by omega)] at written ⊢
  obtain ⟨last, same, accepted, state⟩ :=
    @checkedCommand_last _ attempt _ s.ice _ (fun ice => (data ice, counter ice))
      (fun ice refused => by
        obtain ⟨sameData, sameCounter⟩ := write ice
        rw [refused] at sameData
        exact Prod.ext sameData sameCounter)
      (fun threw => written (congrArg (Option.map fun _ => ()) threw))
  obtain ⟨sameData, sameCounter⟩ := Prod.mk.inj same
  obtain ⟨stored, kept⟩ := write last
  rw [accepted, if_pos rfl, narrow, sameData] at stored
  exact contents_of_same ((congrArg data state).trans stored)
    ((congrArg counter state).trans (kept.trans sameCounter))

theorem getProgramCounter_counter (s : Jtag2 Ice) :
    (∃ pc, (s.getProgramCounter attempt).value = some pc ∧
        pc.toUInt32 = (contents data counter s).counter) ∧
      contents data counter (s.getProgramCounter attempt).state = contents data counter s := by
  obtain ⟨answered, sameData, sameCounter⟩ := keeps.getCounter s.ice
  rw [Jtag2.getProgramCounter, checkedCommand_once answered rfl]
  refine ⟨⟨_, rfl, ?_⟩, contents_of_same sameData sameCounter⟩
  exact congrArg reported (b4ToU32_u32ToB4 (counter s.ice))

theorem setProgramCounter_counter (s : Jtag2 Ice) {pc : UInt64} (even : pc.toNat % 2 = 0)
    (answered : (s.setProgramCounter attempt pc).value = some true) :
    contents data counter (s.setProgramCounter attempt pc).state =
      { contents data counter s with counter := pc.toUInt32 } := by
  have set (ice : Ice) := keeps.setCounter ice (pc / 2).toUInt32
  obtain ⟨last, same, accepted, state⟩ :=
    @checkedCommand_last _ attempt _ s.ice _ (fun ice => (data ice, counter ice))
      (fun ice refused => by
        obtain ⟨sameData, sameCounter⟩ := set ice
        rw [refused] at sameCounter
        exact Prod.ext sameData sameCounter)
      (fun threw => by simp [Jtag2.setProgramCounter, threw] at answered)
  obtain ⟨sameData, _⟩ := Prod.mk.inj same
  obtain ⟨kept, stored⟩ := set last
  rw [accepted, if_pos rfl] at stored
  rw [← reported_half even]
  exact contents_of_same ((congrArg data state).trans (kept.trans sameData))
    ((congrArg counter state).trans stored)

theorem jtag2_ideal : Ideal (jtag2 attempt) (contents data counter) where
  read s _ _ some within := by
    obtain ⟨⟨rest, returned⟩, _⟩ := jtagRead_data keeps s some within
    exact ⟨rest, congrArg (Option.map Option.some) returned⟩
  readState s _ _ some within := (jtagRead_data keeps s some within).2
  write s _ _ some within written := jtagWrite_data keeps s some within fun threw => by
    simp [jtag2, threw] at written
  getCounter s := (getProgramCounter_counter keeps s).1
  getState s := (getProgramCounter_counter keeps s).2
  setCounter s _ even _ answered := setProgramCounter_counter keeps s even answered
  valid _ := reported_valid _

end Target

end Avarice.Mk2.Access

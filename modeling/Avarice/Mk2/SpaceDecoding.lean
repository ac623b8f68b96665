import Avarice.Mk2.Access

/-!
# Spaces that addresses are decoded to

An address is put together by adding an offset to the one of its space, and
taken apart by masking the bits that any space uses.
-/

namespace Avarice.Mk2.Access

open Retry Memory

inductive Space where
  | data | eeprom | fuse | lock | sig | breakpoint
  deriving DecidableEq, Repr

namespace Space

def addrOffset : Space → UInt64
  | data => dataSpaceAddrOffset
  | eeprom => eepromSpaceAddrOffset
  | fuse => fuseSpaceAddrOffset
  | lock => lockSpaceAddrOffset
  | sig => sigSpaceAddrOffset
  | breakpoint => breakpointSpaceAddrOffset

def memoryType (useDebugWire programmingEnabled : Bool) : Space → UInt8
  | data => mtypeSram
  | eeprom => if !useDebugWire && programmingEnabled then mtypeEepromPage else mtypeEeprom
  | fuse => mtypeFuseBits
  | lock => mtypeLockBits
  | sig => mtypeSignJtag
  | breakpoint => mtypeEvent

/-- The offsets that are added: of a byte, or of the word that a flash address
of the device is in. -/
def Adds (d : DeviceDef) (a : UInt64) : Space → Prop
  | breakpoint => ∃ x : UInt32, x.toNat < d.flashSize ∧ a = (x / 2).toUInt64
  | _ => a < 0x10000

end Space

/-- An ICE that keeps every command it gets, and answers as it likes. -/
def recording (answer : List (List UInt8) → Attempt) (command : List UInt8)
    (sent : List (List UInt8)) : Attempt × List (List UInt8) :=
  (answer (sent ++ [command]), sent ++ [command])

/-- `stopAt` writes the event memory, and nothing else. -/
def StopsAt (x : UInt32) : Prop :=
  ∀ (answer : List (List UInt8) → Attempt) (s : Jtag2 (List (List UInt8))), s.ice = [] →
    (s.stopAt (recording answer) x).state.ice ≠ [] ∧
      ∀ command ∈ (s.stopAt (recording answer) x).state.ice,
        command = writeCommand mtypeEvent 1 (x / 2) [1]

/-- `memorySpace` finds the space and the offset again. -/
structure Undone (space : Space) (a : UInt64) : Prop where
  decoded : ∀ useDebugWire programmingEnabled,
    memorySpace useDebugWire programmingEnabled (space.addrOffset + a) =
      (space.memoryType useDebugWire programmingEnabled, a)
  stops : space = .breakpoint → ∀ x : UInt32, a = (x / 2).toUInt64 → StopsAt x

theorem splitAddress_addrOffset (space : Space) {a : UInt64} (small : a < 0x10000) :
    splitAddress (space.addrOffset + a) = (space.addrOffset, a) :=
  splitAddress_add (by cases space <;> decide) (by cases space <;> decide)
    (and_addrSpaceMask small)

theorem memorySpace_addrOffset (space : Space) {a : UInt64} (small : a < 0x10000)
    (useDebugWire programmingEnabled : Bool) :
    memorySpace useDebugWire programmingEnabled (space.addrOffset + a) =
      (space.memoryType useDebugWire programmingEnabled, a) := by
  rw [memorySpace, splitAddress_addrOffset space small]
  cases space <;> rfl

theorem memorySpace_breakpoint_high {a : UInt64} (high : 0x10000 ≤ a) (bound : a < 0x20000) :
    memorySpace false false (Space.breakpoint.addrOffset + a) = (mtypeSpm, a - 0x10000) := by
  have moved : Space.breakpoint.addrOffset + a = 0x910000 + (a - 0x10000) := by
    simp only [Space.addrOffset]
    grind
  have small : a - 0x10000 < 0x10000 := by grind
  have split : splitAddress (0x910000 + (a - 0x10000)) = (0x910000, a - 0x10000) :=
    splitAddress_add (by decide) (by decide) (and_addrSpaceMask small)
  rw [memorySpace, moved, split]
  rfl

/-! ## Breakpoints in the event memory -/

theorem stopAt_addr (x : UInt32) :
    (breakpointSpaceAddrOffset.toUInt32 + x / 2).toUInt64 =
      Space.breakpoint.addrOffset + (x / 2).toUInt64 := by
  have bound := x.toNat_lt
  rw [← UInt64.toNat_inj]
  simp [Space.addrOffset, breakpointSpaceAddrOffset]
  omega

section Recorded

variable {answer : List (List UInt8) → Attempt}

theorem recording_iterate (command : List UInt8) (count : Nat) (sent : List (List UInt8)) :
    (fun sent => (recording answer command sent).2)^[count] sent =
      sent ++ List.replicate count command := by
  induction count generalizing sent with
  | zero => simp
  | succ count inductionHypothesis =>
      rw [Function.iterate_succ_apply, inductionHypothesis]
      simp [recording, List.replicate_succ]

theorem checkedCommand_recording (command : List UInt8) :
    ∃ count, 0 < count ∧
      (checkedCommand (recording answer) command []).state = List.replicate count command := by
  simp only [checkedCommand, doJtagCommand_eq]
  rw [retry_state, recording_iterate]
  exact ⟨_, retry_length_pos (Nat.succ_pos 9) [], rfl⟩

end Recorded

theorem jtagWrite_event {Ice : Type} (attempt : List UInt8 → Ice → Attempt × Ice) (s : Jtag2 Ice)
    {addr a : UInt64}
    (event : memorySpace s.useDebugWire s.programmingEnabled addr = (mtypeEvent, a))
    (byte : UInt8) :
    (s.jtagWrite attempt addr [byte]).state =
      { s with
        ice := (checkedCommand attempt (writeCommand mtypeEvent 1 a.toUInt32 [byte]) s.ice).state
      } := by
  simp only [Jtag2.jtagWrite, event]
  rfl

theorem stopsAt_of_event {x : UInt32}
    (event : ∀ useDebugWire programmingEnabled,
      memorySpace useDebugWire programmingEnabled
        (Space.breakpoint.addrOffset + (x / 2).toUInt64) = (mtypeEvent, (x / 2).toUInt64)) :
    StopsAt x := by
  intro answer s nothing
  have written := jtagWrite_event (recording answer) s (event _ _) 1
  rw [UInt32.toUInt32_toUInt64] at written
  obtain ⟨count, positive, sent⟩ :=
    @checkedCommand_recording answer (writeCommand mtypeEvent 1 (x / 2) [1])
  rw [Jtag2.stopAt, stopAt_addr, written, nothing]
  dsimp only
  rw [sent]
  refine ⟨?_, fun command membership => List.eq_of_mem_replicate membership⟩
  simpa using Nat.ne_of_gt positive

/-- On every device, an encoded address is decoded again unless it is one of
the event memory and does not fit in 16 bits. -/
theorem encoding_undone_iff (d : DeviceDef) (supported : d ∈ deviceDefinitions) (space : Space)
    (a : UInt64) (added : space.Adds d a) :
    Undone space a ↔ (space = .breakpoint → a < 0x10000) := by
  constructor
  · rintro undone rfl
    obtain ⟨x, inside, rfl⟩ := added
    have size := (deviceDefinitions_sizes d supported).2.2
    by_contra large
    have high : 0x10000 ≤ (x / 2).toUInt64 := UInt64.not_lt.mp large
    have bound : (x / 2).toUInt64 < 0x20000 := by
      rw [UInt64.lt_iff_toNat_lt]
      simp
      omega
    have elsewhere := memorySpace_breakpoint_high high bound
    rw [undone.decoded] at elsewhere
    have sameType : mtypeEvent = mtypeSpm := congrArg Prod.fst elsewhere
    exact absurd sameType (by decide)
  · intro condition
    have small : a < 0x10000 := by
      cases space with
      | breakpoint => exact condition rfl
      | _ => exact added
    refine ⟨memorySpace_addrOffset space small, ?_⟩
    rintro rfl x rfl
    exact stopsAt_of_event (memorySpace_addrOffset .breakpoint small)

abbrev atmega2560 : DeviceDef := ⟨"atmega2560", 256, 1024, 8, 512⟩

theorem encoding_undone_atmega2560 : Undone .breakpoint 0xffff :=
  (encoding_undone_iff atmega2560 (by decide) .breakpoint 0xffff
    ⟨0x1fffe, by decide, by decide⟩).mpr fun _ => by decide

/-- A breakpoint in the upper half of the flash is written to the flash. -/
theorem stopAt_overwrites_flash :
    Space.breakpoint.Adds atmega2560 0x10000 ∧
      ((Jtag2.start atmega2560 false false []).stopAt (recording fun _ => .response rspOk [])
        0x20000).state.ice = [writeCommand mtypeSpm 1 0 [1]] ∧
      ¬ Undone .breakpoint 0x10000 := by
  refine ⟨⟨0x20000, by decide, by decide⟩, by decide, fun undone => ?_⟩
  exact absurd (undone.decoded false false) (by decide)

end Avarice.Mk2.Access

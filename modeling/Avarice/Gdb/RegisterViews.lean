import Avarice.Mk1.Registers
import Avarice.Mk2.Registers

/-!
# Views of the registers of both protocols

Behind either protocol, a register shows what has been written to it, and the
packet `g` and the stop reply show the same.
-/

namespace Avarice.Gdb.Registers

open Throwing PagedMemory

/-- The views of the registers agree for both classes, with any ICE that keeps
its registers. -/
theorem registerViews_agree :
    (∀ (Ice : Type) (doJtagCommand : List UInt8 → Nat → Ice → Called Ice (List UInt8))
      (data : Ice → Nat → UInt8) (counter : Ice → UInt8 × UInt8 × UInt8),
      Mk1.Memory.KeepsRegisters doJtagCommand data counter →
        ∀ s : Mk1.Memory.Jtag1 Ice, ViewsAgree (Mk1.Memory.jtag1 doJtagCommand) s) ∧
    ∀ (Ice : Type) (attempt : List UInt8 → Ice → Mk2.Attempt × Ice)
      (data : Ice → Nat → UInt8) (counter : Ice → UInt32),
      Mk2.Access.KeepsRegisters attempt data counter →
        ∀ s : Mk2.Access.Jtag2 Ice, ViewsAgree (Mk2.Access.jtag2 attempt) s := by
  constructor
  · intro Ice doJtagCommand data counter keeps s
    exact (Mk1.Memory.jtag1_ideal keeps).viewsAgree s
  · intro Ice attempt data counter keeps s
    exact (Mk2.Access.jtag2_ideal keeps).viewsAgree s

/-! ## Constructed targets -/

section Mk1

open Mk1.Memory

/-- Data memory and a location, and the place that the next block goes to. -/
structure Mk1Ice where
  data : Nat → UInt8 := fun _ => 0
  location : UInt8 × UInt8 × UInt8 := (0, 0, 1)
  address : Nat := 0

def Mk1Ice.execute (command : List UInt8) (responseSize : Nat) (ice : Mk1Ice) :
    Called Mk1Ice (List UInt8) :=
  match command with
  | 0x68 :: block =>
      ⟨some [jtagROk],
        { ice with data := overwrite ice.data ice.address (block.take (block.length - 2)) }⟩
  | 0x52 :: _ :: count :: b0 :: b1 :: b2 :: _ =>
      ⟨some ((slice ice.data (decodeAddress b0 b1 b2).toNat (count.toNat + 1) ++
        [0, jtagROk]).take responseSize), ice⟩
  | 0x57 :: _ :: _ :: b0 :: b1 :: b2 :: _ =>
      ⟨some [], { ice with address := (decodeAddress b0 b1 b2).toNat }⟩
  | 0x32 :: _ => ⟨some [ice.location.1, ice.location.2.1, ice.location.2.2, jtagROk], ice⟩
  | 0x33 :: b0 :: b1 :: b2 :: _ => ⟨some [jtagROk], { ice with location := (b0, b1, b2) }⟩
  | _ => ⟨none, ice⟩

theorem Mk1Ice.keepsRegisters :
    KeepsRegisters Mk1Ice.execute Mk1Ice.data Mk1Ice.location where
  read _ _ _ _ _ _ _ := ⟨⟨0, rfl⟩, rfl, rfl⟩
  write ice count b0 b1 b2 bytes := by
    have block : (bytes ++ jtagEom).take ((bytes ++ jtagEom).length - 2) = bytes := by simp
    intro named stored _ _ _ _
    exact ⟨congrArg (overwrite ice.data _) block, rfl⟩
  getCounter _ := ⟨rfl, rfl, rfl⟩
  setCounter _ _ _ _ _ _ _ := ⟨rfl, rfl⟩

end Mk1

section Mk2

open Mk2 Mk2.Access

structure Mk2Ice where
  data : Nat → UInt8 := fun _ => 0
  location : UInt32 := 0

def Mk2Ice.attempt (command : List UInt8) (ice : Mk2Ice) :
    Mk2.Attempt × Mk2Ice :=
  match command with
  | 0x05 :: _ :: n0 :: n1 :: n2 :: n3 :: b0 :: b1 :: b2 :: b3 :: _ =>
      (.response rspMemory (slice ice.data (b4ToU32 b0 b1 b2 b3).toNat (b4ToU32 n0 n1 n2 n3).toNat),
        ice)
  | 0x04 :: _ :: _ :: _ :: _ :: _ :: b0 :: b1 :: b2 :: b3 :: bytes =>
      (.response rspOk [],
        { ice with data := overwrite ice.data (b4ToU32 b0 b1 b2 b3).toNat bytes })
  | [0x07] => (.response rspPc (u32ToB4 ice.location), ice)
  | [0x06, b0, b1, b2, b3] => (.response rspOk [], { ice with location := b4ToU32 b0 b1 b2 b3 })
  | _ => (.response rspFailed [], ice)

theorem Mk2Ice.attempt_read (ice : Mk2Ice) (numBytes addr : UInt32) :
    attempt (readCommand mtypeSram numBytes addr) ice =
      (.response rspMemory (slice ice.data addr.toNat numBytes.toNat), ice) := by
  show (Mk2.Attempt.response rspMemory
    (slice ice.data (b4ToU32 _ _ _ _).toNat (b4ToU32 _ _ _ _).toNat), ice) = _
  rw [b4ToU32_u32ToB4, b4ToU32_u32ToB4]

theorem Mk2Ice.attempt_write (ice : Mk2Ice) (addr : UInt32) (bytes : List UInt8) :
    attempt (writeCommand mtypeSram bytes.length.toUInt32 addr bytes) ice =
      (.response rspOk [], { ice with data := overwrite ice.data addr.toNat bytes }) := by
  show (Mk2.Attempt.response rspOk [],
    { ice with data := overwrite ice.data (b4ToU32 _ _ _ _).toNat bytes }) = _
  rw [b4ToU32_u32ToB4]

theorem Mk2Ice.attempt_setCounter (ice : Mk2Ice) (location : UInt32) :
    attempt (cmndWritePc :: u32ToB4 location) ice =
      (.response rspOk [], { ice with location }) := by
  show (Mk2.Attempt.response rspOk [], { ice with location := b4ToU32 _ _ _ _ }) = _
  rw [b4ToU32_u32ToB4]

theorem Mk2Ice.keepsRegisters :
    KeepsRegisters Mk2Ice.attempt Mk2Ice.data Mk2Ice.location := by
  have positive : (Mk2.Attempt.response rspOk []).positive = true := by decide
  constructor
  · intro ice numBytes addr
    simp [attempt_read]
  · intro ice addr bytes
    simp [attempt_write, positive]
  · exact fun ice => ⟨rfl, rfl, rfl⟩
  · intro ice location
    simp [attempt_setCounter, positive]

end Mk2

/-- The packets are for a general register, `SREG`, the stack pointer and the
program counter. -/
theorem registerViews_agree_constructed :
    let mk1 := Mk1.Memory.jtag1 Mk1Ice.execute
    let mk2 := Mk2.Access.jtag2 Mk2Ice.attempt
    let session := Mk2.Access.Jtag2.start ⟨"atmega16", 128, 128, 4, 128⟩ false false {}
    ViewsAgree mk1 ⟨false, {}⟩ ∧ ViewsAgree mk2 session ∧
      ∀ ptr ∈ ["5=07", "20=80", "21=5f04", "22=00010000"],
        (writeRegister mk1 ⟨false, {}⟩ ptr.toList).value = some ok ∧
          (writeRegister mk2 session ptr.toList).value = some ok :=
  ⟨registerViews_agree.1 _ _ _ _ Mk1Ice.keepsRegisters _,
    registerViews_agree.2 _ _ _ _ Mk2Ice.keepsRegisters _, by decide⟩

end Avarice.Gdb.Registers

import Avarice.Library.Transition
import Avarice.Mk2.Breakpoint.Operations

/-!
# Downloading breakpoints

`jtag2::updateBreakpoints`, over any ICE that executes the two breakpoint
commands, and an ICE that accepts every command.
-/

namespace Avarice.Mk2

open Scan

/-- What `CMND_SET_BREAK` says about a breakpoint besides its slot. -/
structure IceBreakpoint where
  type : UInt8
  address : UInt32
  mode : UInt8
  deriving DecidableEq

inductive BreakCommand where
  | clrBreak (bpnum : Nat) (address : UInt32)
  | setBreak (bpnum : Nat) (content : IceBreakpoint)

/-- The command that removes an entry.  Only software breakpoints need the
address. -/
def clearCommand (entry : Breakpoint2) : BreakCommand :=
  .clrBreak entry.bpnum (if entry.bpnum == 0x00 then entry.address / 2 else 0)

/-- The content of the command that adds an entry, if its type has one.  The
ICE sees program memory as 16-bit locations, so a code address is halved. -/
def setBreak (entry : Breakpoint2) : Option IceBreakpoint :=
  let address := if entry.type == .code then entry.address / 2 else entry.address
  if entry.type == .readData || entry.type == .readData ||| .hasMask then
    some ⟨0x02, address, 0x00⟩
  else if entry.type == .writeData || entry.type == .writeData ||| .hasMask then
    some ⟨0x02, address, 0x01⟩
  else if entry.type == .accessData || entry.type == .accessData ||| .hasMask then
    some ⟨0x02, address, 0x02⟩
  else if entry.type == .dataMask then some ⟨0x03, address, 0x00⟩
  else if entry.type == .code then some ⟨0x01, address, 0x03⟩
  else none

/-- The table, the ICE, and whether a check has thrown. -/
structure UpdateState (Ice : Type) where
  bp : BreakpointTable
  ice : Ice
  thrown : Bool

namespace Breakpoint2

@[simps]
def markRemoved (entry : Breakpoint2) : Breakpoint2 :=
  { entry with icestatus := false, toremove := false }

@[simps]
def markAdded (entry : Breakpoint2) : Breakpoint2 :=
  { entry with icestatus := true, toadd := false }

end Breakpoint2

variable {Ice : Type} (doJtagCommand : BreakCommand → Ice → Bool × Ice)

def removeEntry (i : Nat) (s : UpdateState Ice) : Turn (UpdateState Ice) :=
  let entry := s.bp.peek i
  if entry.toremove then
    match doJtagCommand (clearCommand entry) s.ice with
    | (false, ice) => .leave { s with ice, thrown := true }
    | (true, ice) =>
        .next { s with ice, bp := s.bp.modify i Breakpoint2.markRemoved }
  else .next s

def downloadEntry (i : Nat) (s : UpdateState Ice) : Turn (UpdateState Ice) :=
  let entry := s.bp.peek i
  if entry.toadd && entry.enabled then
    match setBreak entry with
    | none => .leave { s with thrown := true }
    | some content =>
        match doJtagCommand (.setBreak entry.bpnum content) s.ice with
        | (false, ice) => .leave { s with ice, thrown := true }
        | (true, ice) =>
            .next { s with ice, bp := s.bp.modify i Breakpoint2.markAdded }
  else .next s

def removeAll (s : UpdateState Ice) : UpdateState Ice :=
  (scan (fun i s => atLast i s.bp) (removeEntry doJtagCommand) maxTotalBreakpoints2 s).2

def downloadAll (s : UpdateState Ice) : UpdateState Ice :=
  (scan (fun i s => atLast i s.bp) (downloadEntry doJtagCommand) maxTotalBreakpoints2 s).2

def updateBreakpoints (target : Target) (bp : BreakpointTable) (ice : Ice) :
    UpdateState Ice :=
  let s := removeAll doJtagCommand
    { bp := (layoutBreakpoints target bp).2, ice, thrown := false }
  if s.thrown then s else downloadAll doJtagCommand s

section Turns

variable {doJtagCommand}

theorem removeEntry_keeps {property : BreakpointTable → Prop} {i : Nat} {s : UpdateState Ice}
    (holds : property s.bp) (marked : property (s.bp.modify i Breakpoint2.markRemoved)) :
    property (removeEntry doJtagCommand i s).state.bp := by
  unfold removeEntry
  dsimp only
  split
  · split
    · exact holds
    · exact marked
  · exact holds

theorem downloadEntry_keeps {property : BreakpointTable → Prop} {i : Nat} {s : UpdateState Ice}
    (holds : property s.bp) (marked : property (s.bp.modify i Breakpoint2.markAdded)) :
    property (downloadEntry doJtagCommand i s).state.bp := by
  unfold downloadEntry
  dsimp only
  split
  · split
    · exact holds
    · split
      · exact holds
      · exact marked
  · exact holds

end Turns

/-! ## The ICE -/

/-- Breakpoints in the ICE: what each hardware slot holds, and the flash
locations with a software breakpoint. -/
structure Mk2Ice where
  slot : Nat → Option IceBreakpoint
  soft : UInt32 → Bool

/-- An ICE that accepts every breakpoint command. -/
def Mk2Ice.execute : BreakCommand → Mk2Ice → Bool × Mk2Ice
  | .clrBreak bpnum address, ice =>
      (true,
        if bpnum = 0 then { ice with soft := fun word => word != address && ice.soft word }
        else { ice with slot := fun slot => if slot = bpnum then none else ice.slot slot })
  | .setBreak bpnum content, ice =>
      (true,
        if bpnum = 0 then
          { ice with soft := fun word => word == content.address || ice.soft word }
        else
          { ice with
            slot := fun slot => if slot = bpnum then some content else ice.slot slot })

section Execute

variable {entry : Breakpoint2}

theorem Mk2Ice.execute_clear_software (software : entry.bpnum = 0) (ice : Mk2Ice) :
    (execute (clearCommand entry) ice).2 =
      { ice with soft := fun word => word != entry.address / 2 && ice.soft word } := by
  simp [clearCommand, software, execute]

theorem Mk2Ice.execute_clear_hardware (hardware : entry.bpnum ≠ 0) (ice : Mk2Ice) :
    (execute (clearCommand entry) ice).2 =
      { ice with slot := fun slot => if slot = entry.bpnum then none else ice.slot slot } := by
  simp [clearCommand, hardware, execute]

theorem Mk2Ice.execute_set_software (software : entry.bpnum = 0) (content : IceBreakpoint)
    (ice : Mk2Ice) :
    (execute (.setBreak entry.bpnum content) ice).2 =
      { ice with soft := fun word => word == content.address || ice.soft word } := by
  simp [software, execute]

theorem Mk2Ice.execute_set_hardware (hardware : entry.bpnum ≠ 0) (content : IceBreakpoint)
    (ice : Mk2Ice) :
    (execute (.setBreak entry.bpnum content) ice).2 =
      { ice with
        slot := fun slot => if slot = entry.bpnum then some content else ice.slot slot } := by
  simp [hardware, execute]

end Execute

def Mk2Ice.empty : Mk2Ice where
  slot _ := none
  soft _ := false

/-- The type under which the host knows a breakpoint of the ICE. -/
def IceBreakpoint.hostType (content : IceBreakpoint) : BpType :=
  if content.type = 0x01 then .code
  else if content.type = 0x03 then .dataMask
  else if content.mode = 0x00 then .readData
  else if content.mode = 0x01 then .writeData
  else .accessData

/-- The address the host gives it: for code in bytes, not in locations. -/
def IceBreakpoint.hostAddress (content : IceBreakpoint) : UInt32 :=
  if content.type = 0x01 then 2 * content.address else content.address

def Mk2Ice.Holds (ice : Mk2Ice) (type : BpType) (address : UInt32) : Prop :=
  (∃ slot content, slot ≠ 0 ∧ ice.slot slot = some content ∧
    content.hostType = type ∧ content.hostAddress = address) ∨
  (type = .code ∧ ∃ word, ice.soft word = true ∧ 2 * word = address)

/-! ## Runs -/

/-- The calls GDB and the scripts make. -/
inductive BreakpointOp where
  | addBreakpoint (address : UInt32) (type : BpType) (length : UInt32)
  | deleteBreakpoint (address : UInt32) (type : BpType) (length : UInt32)
  | deleteAllBreakpoints
  | updateBreakpoints

structure Session where
  bp : BreakpointTable
  ice : Mk2Ice

def Session.start : Session where
  bp := constructedTable
  ice := .empty

def Session.apply (target : Target) (s : Session) : BreakpointOp → Session
  | .addBreakpoint address type length =>
      { s with bp := (addBreakpoint target s.bp address type length).2 }
  | .deleteBreakpoint address type length =>
      { s with bp := (deleteBreakpoint target s.bp address type length).2 }
  | .deleteAllBreakpoints => { s with bp := deleteAllBreakpoints s.bp }
  | .updateBreakpoints =>
      let after := updateBreakpoints Mk2Ice.execute target s.bp s.ice
      { bp := after.bp, ice := after.ice }

def Session.run (target : Target) (s : Session) (ops : List BreakpointOp) : Session :=
  Transition.run (Session.apply target) s ops

end Avarice.Mk2

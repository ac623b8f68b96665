import Avarice.Mk2.Breakpoint.Layout

/-!
# Adding and deleting breakpoints

`jtag2::addBreakpoint` and `jtag2::deleteBreakpoint`.  Both return what the
source returns to its caller and the table they leave.
-/

namespace Avarice.Mk2

namespace Breakpoint2

@[simps]
def enable (entry : Breakpoint2) : Breakpoint2 :=
  { entry with enabled := true }

@[simps]
def mark (entry : Breakpoint2) : Breakpoint2 :=
  { entry with last := true, enabled := false, address := 0, type := .none }

@[simps]
def occupy (address : UInt32) (type : BpType) (entry : Breakpoint2) : Breakpoint2 :=
  { entry with last := false, enabled := true, address, type }

@[simps]
def setType (type : BpType) (entry : Breakpoint2) : Breakpoint2 :=
  { entry with type }

@[simps]
def setMaskPointer (index : Nat) (entry : Breakpoint2) : Breakpoint2 :=
  { entry with maskPointer := index }

/-- What every failure of a range breakpoint does to its entry. -/
@[simps]
def reject (entry : Breakpoint2) : Breakpoint2 :=
  { entry with last := true, enabled := false }

def flagAdd (entry : Breakpoint2) : Breakpoint2 :=
  if !entry.icestatus then { entry with toadd := true, toremove := false }
  else { entry with toadd := false, toremove := false }

def flagDelete (entry : Breakpoint2) : Breakpoint2 :=
  if entry.icestatus then { entry with toadd := false, toremove := true }
  else { entry with toadd := false, toremove := false }

theorem flagAdd_eq (entry : Breakpoint2) :
    entry.flagAdd = { entry with toadd := !entry.icestatus, toremove := false } := by
  cases installed : entry.icestatus <;> simp [flagAdd, installed]

theorem flagDelete_eq (entry : Breakpoint2) :
    entry.flagDelete = { entry with toadd := false, toremove := entry.icestatus } := by
  cases installed : entry.icestatus <;> simp [flagDelete, installed]

end Breakpoint2

/-- Where the search for a breakpoint stops: at the entry with this address
and type, or at the end marker. -/
def searchEntry (bp : BreakpointTable) (address : UInt32) (type : BpType) : Nat :=
  bp.firstIndex fun entry => entry.last || (entry.address == address && entry.type == type)

def enableFound (bp : BreakpointTable) (i : Nat) : BreakpointTable :=
  if (bp.peek i).last then bp
  else bp.modify i Breakpoint2.enable

/-- The search for an entry to write over when the table is full.  Enabled
entries, and those that still have to be removed from the ICE, are kept. -/
def searchDisabled (bp : BreakpointTable) : Nat :=
  bp.firstIndex fun entry => !(entry.enabled || entry.toremove)

/-- The entry a new breakpoint is written to, from where the search stopped. -/
def chooseEntry (bp : BreakpointTable) (i : Nat) : Nat :=
  if i + 1 == maxTotalBreakpoints2 then searchDisabled bp else i

/-- Position of the least significant set bit, counted from one (`ffs`). -/
def ffs (value : UInt32) : Nat :=
  match (List.range 32).find? fun bit => value.toNat.testBit bit with
  | some bit => bit + 1
  | none => 0

/-- Write a new breakpoint into an entry, moving the end marker if the entry
was the marker. -/
def claimEntry (bp : BreakpointTable) (i : Nat) (address : UInt32) (type : BpType) :
    BreakpointTable :=
  let bp :=
    if (bp.peek i).last then
      bp.modify (i + 1) Breakpoint2.mark
    else bp
  bp.modify i (Breakpoint2.occupy address type)

/-- The mask that `ffs` finds in the length of a range. -/
def lowestBit (length : UInt32) : UInt32 :=
  1 <<< UInt32.ofNat (ffs length - 1)

/-- The search for the mask of the range breakpoint in entry `i`.  The address
compared is the one of that entry, not of the entry looked at. -/
def searchMask (bp : BreakpointTable) (i : Nat) (mask : UInt32) : Nat :=
  bp.firstIndex fun entry =>
    entry.last || (entry.type == .dataMask && (bp.peek i).address == mask)

def finishAdd (target : Target) (bp : BreakpointTable) (i : Nat) :
    Bool × BreakpointTable :=
  let bp := bp.modify i Breakpoint2.flagAdd
  match layoutBreakpoints target bp with
  | (true, bp) => (true, bp)
  | (false, bp) =>
      let bp := bp.modify i Breakpoint2.disable
      if BpType.masked (bp.peek i).type then
        (true, bp.modify (bp.peek i).maskPointer Breakpoint2.disable)
      else (true, bp)

/-- Entry `i` has been claimed for a range breakpoint.  It must be aligned, its
length must be representable as a mask, and the mask is added as a breakpoint
of its own. -/
def addRange (target : Target) (addMask : BreakpointTable → UInt32 → Bool × BreakpointTable)
    (bp : BreakpointTable) (i : Nat) (address : UInt32) (type : BpType) (length : UInt32) :
    Bool × BreakpointTable :=
  let mask := lowestBit length
  if mask != length then (false, bp.modify i Breakpoint2.reject)
  else
    let mask := mask - 1
    if address &&& mask != 0 then (false, bp.modify i Breakpoint2.reject)
    else
      let mask := ~~~mask
      let bp := bp.modify i (Breakpoint2.setType (type ||| .hasMask))
      match addMask bp mask with
      | (false, bp) => (false, bp.modify i Breakpoint2.reject)
      | (true, bp) =>
          let j := searchMask bp i mask
          finishAdd target (bp.modify i (Breakpoint2.setMaskPointer j)) i

/-- `addBreakpoint` with room for `depth` calls, itself included: a range
breakpoint adds its mask by a call of the same function. -/
def addBreakpointAt (target : Target) :
    (depth : Nat) → BreakpointTable → UInt32 → BpType → UInt32 → Bool × BreakpointTable
  | 0, bp, _, _, _ => (false, bp)
  | depth + 1, bp, address, type, length =>
      let i := searchEntry bp address type
      let bp := enableFound bp i
      let entry := bp.peek i
      if !entry.enabled || entry.address != address || entry.type == type then
        let i := chooseEntry bp i
        if i + 1 == maxTotalBreakpoints2 then (false, bp)
        else
          let bp := claimEntry bp i address type
          if length > 1 && type != .code then
            addRange target (fun bp mask => addBreakpointAt target depth bp mask .dataMask 1)
              bp i address type length
          else finishAdd target bp i
      else finishAdd target bp i

/-- `jtag2::addBreakpoint`: the call from outside and the one for a mask. -/
def addBreakpoint (target : Target) (bp : BreakpointTable)
    (address : UInt32) (type : BpType) (length : UInt32) : Bool × BreakpointTable :=
  addBreakpointAt target 2 bp address type length

/-- `jtag2::deleteBreakpoint`.  The length is not looked at. -/
def deleteBreakpoint (target : Target) (bp : BreakpointTable)
    (address : UInt32) (type : BpType) (_length : UInt32) : Bool × BreakpointTable :=
  let i := searchEntry bp address type
  let bp :=
    if (bp.peek i).last then bp
    else bp.modify i fun entry => { entry with enabled := false }
  let entry := bp.peek i
  if entry.enabled || entry.address != address || entry.type != type then (false, bp)
  else
    let bp := bp.modify i Breakpoint2.flagDelete
    (true, (layoutBreakpoints target bp).2)

end Avarice.Mk2

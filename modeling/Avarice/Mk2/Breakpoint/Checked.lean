import Avarice.Library.Checked
import Avarice.Mk2.Breakpoint.Update

/-!
# The breakpoint code with checked accesses

The operations on the table once more, where each access to `bp` and to
`remaining_bps` is checked, loops have no bound but the end of the array, and a
range breakpoint may only nest one call of `addBreakpoint`.
-/

namespace Avarice.Mk2.Checked

open Scan

def atLast (index : Nat) (bp : BreakpointTable) : Option Bool :=
  (bp.peek? index).map Breakpoint2.last

def codeBreakpointAt (bp : BreakpointTable) (address : UInt32) : Option Bool := do
  let i ← bp.firstIndex? fun entry =>
    entry.last || (entry.address == address && entry.type == .code && entry.enabled)
  return !(← bp.peek? i).last

def codeBreakpointBetween (bp : BreakpointTable) (start stop : UInt32) : Option Bool := do
  let i ← bp.firstIndex? fun entry =>
    entry.last || (entry.address ≥ start && entry.address < stop &&
      entry.type == .code && entry.enabled)
  return !(← bp.peek? i).last

def deleteAllBreakpoints (bp : BreakpointTable) : Option BreakpointTable := do
  let (_, bp) ← scan? atLast (fun i bp => do return .next (← bp.modify? i disableEntry))
    maxTotalBreakpoints2 bp
  return bp

/-! ## Layout -/

def availableSlots (useDebugWire : Bool) : Option (CArray Bool (maxBreakpoints2 + 2)) :=
  let remaining : CArray Bool (maxBreakpoints2 + 2) :=
    ⟨#[false, true, true, true, false, false], by decide⟩
  if useDebugWire then do
    let scanned ← scan? (fun k _ => some (maxBreakpoints2 ≤ k))
      (fun k remaining => do return .next (← CArray.poke? remaining (k + 1) false))
      (maxBreakpoints2 + 1) remaining
    return scanned.2
  else return remaining

def remainingSlots (target : Target) (bp : BreakpointTable) :
    Option (CArray Bool (maxBreakpoints2 + 2)) := do
  let (_, remaining) ← scan? (fun i _ => atLast i bp)
    (fun i remaining => do
      let entry ← bp.peek? i
      if entry.stable then return .next (← CArray.poke? remaining entry.bpnum false)
      else return .next remaining)
    maxTotalBreakpoints2 (← availableSlots target.useDebugWire)
  return remaining

/-- The slot is read before its number is compared with the last one. -/
def nextSlot (remaining : CArray Bool (maxBreakpoints2 + 2)) (bpnum : Nat) : Option Nat := do
  let (bpnum, _) ← scanFrom?
    (fun bpnum _ => do return (← remaining.peek? bpnum) || !(bpnum ≤ maxBreakpoints2))
    (fun _ nothing => some (.next nothing)) (maxBreakpoints2 + 2 - bpnum) bpnum ()
  return bpnum

def placeData (i : Nat) (s : LayoutState) : Option (Turn LayoutState) := do
  let entry ← s.bp.peek? i
  if entry.enabled && entry.toadd && BpType.watchesData entry.type then
    if BpType.masked entry.type &&
        (!(← s.remainingBps.peek? breakpoint2DataMask) ||
          !(← s.remainingBps.peek? breakpoint2FirstData)) then
      let bp ← s.bp.modify? entry.maskPointer Breakpoint2.disable
      return .next { s with bp := ← bp.modify? i Breakpoint2.disable, hadroom := false }
    else
      let s ←
        if BpType.masked entry.type then do
          let remainingBps ← s.remainingBps.poke? breakpoint2DataMask false
          let bp ← s.bp.modify? entry.maskPointer (Breakpoint2.setBpnum breakpoint2DataMask)
          pure { s with remainingBps, bp }
        else pure s
      let bpnum ← nextSlot s.remainingBps breakpoint2FirstData
      if bpnum > maxBreakpoints2 then return .leave { s with hadroom := false }
      else
        let bp ← s.bp.modify? i (Breakpoint2.setBpnum bpnum)
        let remainingBps ← s.remainingBps.poke? bpnum false
        return .next { s with bp, remainingBps }
  else return .next s

def placeCode (softwarebps : Bool) (i : Nat) (s : LayoutState) :
    Option (Turn LayoutState) := do
  let bpnum ← nextSlot s.remainingBps 0x00
  let bpnum :=
    if bpnum > maxBreakpoints2 then (if softwarebps then 0x00 else 0xFF) else bpnum
  let entry ← s.bp.peek? i
  if entry.enabled && entry.toadd && entry.type == .code then
    if bpnum == 0xFF then return .leave { s with hadroom := false }
    else
      let bp ← s.bp.modify? i (Breakpoint2.setBpnum bpnum)
      let remainingBps ← s.remainingBps.poke? bpnum false
      return .next { s with bp, remainingBps }
  else return .next s

def layoutBreakpoints (target : Target) (bp : BreakpointTable) :
    Option (Bool × BreakpointTable) := do
  let s : LayoutState :=
    { bp, remainingBps := ← remainingSlots target bp, hadroom := true }
  let (_, s) ← scan? (fun i s => atLast i s.bp) placeData maxTotalBreakpoints2 s
  let (_, s) ← scan? (fun i s => atLast i s.bp) (placeCode (softwarebps target))
    maxTotalBreakpoints2 s
  return (s.hadroom, s.bp)

/-! ## Adding and deleting -/

def searchEntry (bp : BreakpointTable) (address : UInt32) (type : BpType) : Option Nat :=
  bp.firstIndex? fun entry => entry.last || (entry.address == address && entry.type == type)

def enableFound (bp : BreakpointTable) (i : Nat) : Option BreakpointTable := do
  if (← bp.peek? i).last then return bp
  else bp.modify? i Breakpoint2.enable

def chooseEntry (bp : BreakpointTable) (i : Nat) : Option Nat :=
  if i + 1 == maxTotalBreakpoints2 then
    bp.firstIndex? fun entry => !(entry.enabled || entry.toremove)
  else some i

def claimEntry (bp : BreakpointTable) (i : Nat) (address : UInt32) (type : BpType) :
    Option BreakpointTable := do
  let bp ←
    if (← bp.peek? i).last then bp.modify? (i + 1) Breakpoint2.mark
    else pure bp
  bp.modify? i (Breakpoint2.occupy address type)

def searchMask (bp : BreakpointTable) (i : Nat) (mask : UInt32) : Option Nat := do
  let range ← bp.peek? i
  bp.firstIndex? fun entry =>
    entry.last || (entry.type == .dataMask && range.address == mask)

def finishAdd (target : Target) (bp : BreakpointTable) (i : Nat) :
    Option (Bool × BreakpointTable) := do
  let bp ← bp.modify? i Breakpoint2.flagAdd
  match ← layoutBreakpoints target bp with
  | (true, bp) => return (true, bp)
  | (false, bp) =>
      let bp ← bp.modify? i Breakpoint2.disable
      let entry ← bp.peek? i
      if BpType.masked entry.type then
        return (true, ← bp.modify? entry.maskPointer Breakpoint2.disable)
      else return (true, bp)

def addRange (target : Target)
    (addMask : BreakpointTable → UInt32 → Option (Bool × BreakpointTable))
    (bp : BreakpointTable) (i : Nat) (address : UInt32) (type : BpType) (length : UInt32) :
    Option (Bool × BreakpointTable) := do
  let mask := lowestBit length
  if mask != length then return (false, ← bp.modify? i Breakpoint2.reject)
  else
    let mask := mask - 1
    if address &&& mask != 0 then return (false, ← bp.modify? i Breakpoint2.reject)
    else
      let mask := ~~~mask
      let bp ← bp.modify? i (Breakpoint2.setType (type ||| .hasMask))
      match ← addMask bp mask with
      | (false, bp) => return (false, ← bp.modify? i Breakpoint2.reject)
      | (true, bp) =>
          let j ← searchMask bp i mask
          finishAdd target (← bp.modify? i (Breakpoint2.setMaskPointer j)) i

/-- A call nested deeper than there is room for yields nothing. -/
def addBreakpointAt (target : Target) :
    (depth : Nat) → BreakpointTable → UInt32 → BpType → UInt32 → Option (Bool × BreakpointTable)
  | 0, _, _, _, _ => none
  | depth + 1, bp, address, type, length => do
      let i ← searchEntry bp address type
      let bp ← enableFound bp i
      let entry ← bp.peek? i
      if !entry.enabled || entry.address != address || entry.type == type then
        let i ← chooseEntry bp i
        if i + 1 == maxTotalBreakpoints2 then return (false, bp)
        else
          let bp ← claimEntry bp i address type
          if length > 1 && type != .code then
            addRange target (fun bp mask => addBreakpointAt target depth bp mask .dataMask 1)
              bp i address type length
          else finishAdd target bp i
      else finishAdd target bp i

/-- The call from outside may nest one call. -/
def addBreakpoint (target : Target) (bp : BreakpointTable)
    (address : UInt32) (type : BpType) (length : UInt32) : Option (Bool × BreakpointTable) :=
  addBreakpointAt target 2 bp address type length

def deleteBreakpoint (target : Target) (bp : BreakpointTable)
    (address : UInt32) (type : BpType) (_length : UInt32) : Option (Bool × BreakpointTable) := do
  let i ← searchEntry bp address type
  let bp ←
    if (← bp.peek? i).last then pure bp
    else bp.modify? i fun entry => { entry with enabled := false }
  let entry ← bp.peek? i
  if entry.enabled || entry.address != address || entry.type != type then return (false, bp)
  else
    let bp ← bp.modify? i Breakpoint2.flagDelete
    return (true, (← layoutBreakpoints target bp).2)

/-! ## Downloading -/

section Update

variable {Ice : Type} (doJtagCommand : BreakCommand → Ice → Bool × Ice)

def removeEntry (i : Nat) (s : UpdateState Ice) : Option (Turn (UpdateState Ice)) := do
  let entry ← s.bp.peek? i
  if entry.toremove then
    match doJtagCommand (clearCommand entry) s.ice with
    | (false, ice) => return .leave { s with ice, thrown := true }
    | (true, ice) =>
        return .next { s with ice, bp := ← s.bp.modify? i Breakpoint2.markRemoved }
  else return .next s

def downloadEntry (i : Nat) (s : UpdateState Ice) : Option (Turn (UpdateState Ice)) := do
  let entry ← s.bp.peek? i
  if entry.toadd && entry.enabled then
    match setBreak entry with
    | none => return .leave { s with thrown := true }
    | some content =>
        match doJtagCommand (.setBreak entry.bpnum content) s.ice with
        | (false, ice) => return .leave { s with ice, thrown := true }
        | (true, ice) =>
            return .next { s with ice, bp := ← s.bp.modify? i Breakpoint2.markAdded }
  else return .next s

def updateBreakpoints (target : Target) (bp : BreakpointTable) (ice : Ice) :
    Option (UpdateState Ice) := do
  let (_, bp) ← layoutBreakpoints target bp
  let (_, s) ← scan? (fun i s => atLast i s.bp) (removeEntry doJtagCommand)
    maxTotalBreakpoints2 { bp, ice, thrown := false }
  if s.thrown then return s
  else
    let (_, s) ← scan? (fun i s => atLast i s.bp) (downloadEntry doJtagCommand)
      maxTotalBreakpoints2 s
    return s

end Update

end Avarice.Mk2.Checked

import Avarice.Mk2.Breakpoint.Table

/-!
# Slot layout

`jtag2::layoutBreakpoints`.  The breakpoints waiting to be added are given the
hardware slots that no stable breakpoint holds, data breakpoints first; code
breakpoints fall back to software breakpoints where the device allows them.
-/

namespace Avarice.Mk2

open Scan

/-- What the layout works on: the table, the slots still available, and
whether everything has found room so far. -/
structure LayoutState where
  bp : BreakpointTable
  remainingBps : CArray Bool (maxBreakpoints2 + 2)
  hadroom : Bool

def softwarebps (target : Target) : Bool :=
  !(target.deviceFlags == devflNoSoftbp)

/-- `remaining_bps` before any breakpoint is looked at. -/
def availableSlots (useDebugWire : Bool) : CArray Bool (maxBreakpoints2 + 2) :=
  let remaining := #v[false, true, true, true, false, false]
  if useDebugWire then
    (scan (fun k _ => maxBreakpoints2 ≤ k)
      (fun k remaining => .next (CArray.poke remaining (k + 1) false))
      maxBreakpoints2 remaining).2
  else remaining

/-- An enabled breakpoint that is in the ICE and not about to change. -/
def Breakpoint2.stable (entry : Breakpoint2) : Bool :=
  entry.enabled && !entry.toremove && entry.icestatus

def remainingSlots (target : Target) (bp : BreakpointTable) :
    CArray Bool (maxBreakpoints2 + 2) :=
  (scan (fun i _ => atLast i bp)
    (fun i remaining =>
      if (bp.peek i).stable then .next (CArray.poke remaining (bp.peek i).bpnum false)
      else .next remaining)
    maxTotalBreakpoints2 (availableSlots target.useDebugWire)).2

def BpType.masked (type : BpType) : Bool :=
  type &&& BpType.hasMask == BpType.hasMask

def BpType.watchesData (type : BpType) : Bool :=
  type == .readData || type == .readData ||| .hasMask ||
  type == .writeData || type == .writeData ||| .hasMask ||
  type == .accessData || type == .accessData ||| .hasMask

/-- First available slot from `bpnum` on, or one more than the last slot. -/
def nextSlot (remaining : CArray Bool (maxBreakpoints2 + 2)) (bpnum : Nat) : Nat :=
  (scanFrom (fun bpnum _ => remaining.peek bpnum || !(bpnum ≤ maxBreakpoints2))
    (fun _ nothing => .next nothing) (maxBreakpoints2 + 1 - bpnum) bpnum ()).1

def placeData (i : Nat) (s : LayoutState) : Turn LayoutState :=
  let entry := s.bp.peek i
  if entry.enabled && entry.toadd && BpType.watchesData entry.type then
    if BpType.masked entry.type &&
        (!s.remainingBps.peek breakpoint2DataMask ||
          !s.remainingBps.peek breakpoint2FirstData) then
      -- not enough room to store the range breakpoint: skip it
      let bp := s.bp.modify entry.maskPointer Breakpoint2.disable
      .next { s with bp := bp.modify i Breakpoint2.disable, hadroom := false }
    else
      let s :=
        if BpType.masked entry.type then
          { s with
            remainingBps := s.remainingBps.poke breakpoint2DataMask false
            bp := s.bp.modify entry.maskPointer
              (Breakpoint2.setBpnum breakpoint2DataMask) }
        else s
      let bpnum := nextSlot s.remainingBps breakpoint2FirstData
      if bpnum > maxBreakpoints2 then
        .leave { s with hadroom := false }
      else
        .next { s with
          bp := s.bp.modify i (Breakpoint2.setBpnum bpnum)
          remainingBps := s.remainingBps.poke bpnum false }
  else .next s

def placeCode (softwarebps : Bool) (i : Nat) (s : LayoutState) : Turn LayoutState :=
  let bpnum := nextSlot s.remainingBps 0x00
  let bpnum :=
    if bpnum > maxBreakpoints2 then (if softwarebps then 0x00 else 0xFF) else bpnum
  let entry := s.bp.peek i
  if entry.enabled && entry.toadd && entry.type == .code then
    if bpnum == 0xFF then .leave { s with hadroom := false }
    else
      .next { s with
        bp := s.bp.modify i (Breakpoint2.setBpnum bpnum)
        remainingBps := s.remainingBps.poke bpnum false }
  else .next s

def layoutData (s : LayoutState) : LayoutState :=
  (scan (fun i s => atLast i s.bp) placeData maxTotalBreakpoints2 s).2

def layoutCode (softwarebps : Bool) (s : LayoutState) : LayoutState :=
  (scan (fun i s => atLast i s.bp) (placeCode softwarebps) maxTotalBreakpoints2 s).2

/-- Whether there was room for everything, and the table with the slots. -/
def layoutBreakpoints (target : Target) (bp : BreakpointTable) :
    Bool × BreakpointTable :=
  let s : LayoutState :=
    { bp, remainingBps := remainingSlots target bp, hadroom := true }
  let s := layoutCode (softwarebps target) (layoutData s)
  (s.hadroom, s.bp)

end Avarice.Mk2

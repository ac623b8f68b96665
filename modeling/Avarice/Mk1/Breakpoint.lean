import Mathlib.Data.List.Basic
import Avarice.AddressSpace
import Avarice.Library.CArray
import Avarice.Library.Transition

/-!
# Breakpoints of the mkI

The two tables of `jtag1.h`, the operations of `jtagbp.cc`, and an ICE with
the four comparators they are downloaded to.  The registers of the comparators
keep their contents from one update to the next.
-/

namespace Avarice.Mk1

abbrev maxBreakpointsCode : Nat := 4
abbrev maxBreakpointsData : Nat := 2
abbrev maxBreakpoints : Nat := 4

structure Breakpoint where
  address : UInt32
  type : BpType
  deriving DecidableEq, Repr

instance : Inhabited Breakpoint := ⟨⟨0, .none⟩⟩

/-- The breakpoints that are set, of each kind separately. -/
structure BreakpointTable where
  bpCode : CArray Breakpoint maxBreakpointsCode
  bpData : CArray Breakpoint maxBreakpointsData
  numBreakpointsCode : Nat
  numBreakpointsData : Nat

def BreakpointTable.empty : BreakpointTable where
  bpCode := CArray.fill _ default
  bpData := CArray.fill _ default
  numBreakpointsCode := 0
  numBreakpointsData := 0

def codeBreakpointAt (t : BreakpointTable) (address : UInt32) : Bool :=
  (List.range t.numBreakpointsCode).any fun i => (t.bpCode.peek i).address == address / 2

def deleteAllBreakpoints (t : BreakpointTable) : BreakpointTable :=
  { t with numBreakpointsData := 0, numBreakpointsCode := 0 }

def addBreakpoint (t : BreakpointTable) (address : UInt32) (type : BpType)
    (_length : UInt32) : Bool × BreakpointTable :=
  if t.numBreakpointsCode + t.numBreakpointsData == maxBreakpoints then (false, t)
  else if type == .code then
    if t.numBreakpointsCode == maxBreakpointsCode then (false, t)
    else
      -- the JTAG box sees program memory as 16-bit wide locations
      (true, { t with
        bpCode := t.bpCode.poke t.numBreakpointsCode ⟨address / 2, type⟩
        numBreakpointsCode := t.numBreakpointsCode + 1 })
  else
    if t.numBreakpointsData == maxBreakpointsData then (false, t)
    else
      (true, { t with
        bpData := t.bpData.poke t.numBreakpointsData ⟨address, type⟩
        numBreakpointsData := t.numBreakpointsData + 1 })

/-- Find and squash the removed breakpoint: the new count and array. -/
def squash {n : Nat} (bp : CArray Breakpoint n) (numBp : Nat) (address : UInt32)
    (type : BpType) : Option (Nat × CArray Breakpoint n) :=
  match (List.range numBp).find? fun i => bp.peek i == ⟨address, type⟩ with
  | none => none
  | some i => some (numBp - 1, bp.moveDown i (numBp - 1 - i))

def deleteBreakpoint (t : BreakpointTable) (address : UInt32) (type : BpType)
    (_length : UInt32) : Bool × BreakpointTable :=
  if type == .code then
    match squash t.bpCode t.numBreakpointsCode (address / 2) type with
    | some (numBp, bp) => (true, { t with bpCode := bp, numBreakpointsCode := numBp })
    | none => (false, t)
  else
    match squash t.bpData t.numBreakpointsData address type with
    | some (numBp, bp) => (true, { t with bpData := bp, numBreakpointsData := numBp })
    | none => (false, t)

/-! ## Commands -/

abbrev addrBreakpointSpace : UInt8 := 0x60

/-- The code of the memory space an address is meant for, and the address in
it.  Program memory has the code zero. -/
def memorySpace (addr : UInt64) : UInt8 × UInt64 :=
  let (mask, addr) := splitAddress addr
  (if mask = eepromSpaceAddrOffset then 0xB1
    else if mask = fuseSpaceAddrOffset then 0xB2
    else if mask = lockSpaceAddrOffset then 0xB3
    else if mask = sigSpaceAddrOffset then 0xB4
    else if mask = breakpointSpaceAddrOffset then addrBreakpointSpace
    else if mask = dataSpaceAddrOffset then 0x20
    else 0,
    addr)

/-- Encode 3-byte big-endian address. -/
def encodeAddress (x : UInt64) : CArray UInt8 3 :=
  #v[(x >>> 16).toUInt8, (x >>> 8).toUInt8, x.toUInt8]

def decodeAddress (buf : CArray UInt8 3) : Nat :=
  (buf.peek 0).toNat * 0x10000 + (buf.peek 1).toNat * 0x100 + (buf.peek 2).toNat

inductive Command where
  | write (whichSpace : UInt8) (address : CArray UInt8 3) (value : UInt8)
  | setParameter (item value : UInt8)

/-- `jtagWrite` of one byte: the command it sends, if any. -/
def jtagWriteByte (programmingEnabled : Bool) (addr : UInt64) (value : UInt8) :
    Option Command :=
  let (whichSpace, addr) := memorySpace addr
  if whichSpace != 0 then some (.write whichSpace (encodeAddress addr) value)
  -- program memory is word addressed, and an odd length writes one more byte
  else if addr &&& 1 != 0 then none
  else some (.write (if programmingEnabled then 0xB0 else 0xA0) (encodeAddress (addr / 2)) value)

abbrev jtagPBpXHigh : UInt8 := 0xa2
abbrev jtagPBpXLow : UInt8 := 0xa3
abbrev jtagPBpYHigh : UInt8 := 0xa4
abbrev jtagPBpYLow : UInt8 := 0xa5
abbrev jtagPBpMode : UInt8 := 0xa6

/-! ## The ICE -/

/-- The places a breakpoint can be put in the ICE. -/
inductive Comparator where
  | z0 | z1 | x | y
  deriving DecidableEq, Repr

structure Ice where
  z0 : Option Nat
  z1 : Option Nat
  xHigh : UInt8
  xLow : UInt8
  yHigh : UInt8
  yLow : UInt8
  bpMode : UInt8

def Ice.initial : Ice where
  z0 := none
  z1 := none
  xHigh := 0
  xLow := 0
  yHigh := 0
  yLow := 0
  bpMode := 0

def Ice.execute (ice : Ice) : Command → Ice
  | .write whichSpace address value =>
      if whichSpace = addrBreakpointSpace then
        if value = 0 then { ice with z0 := some (decodeAddress address) }
        else if value = 1 then { ice with z1 := some (decodeAddress address) }
        else ice
      else ice
  | .setParameter item value =>
      if item = jtagPBpXHigh then { ice with xHigh := value }
      else if item = jtagPBpXLow then { ice with xLow := value }
      else if item = jtagPBpYHigh then { ice with yHigh := value }
      else if item = jtagPBpYLow then { ice with yLow := value }
      else if item = jtagPBpMode then { ice with bpMode := value }
      else ice

def Ice.address (ice : Ice) : Comparator → Option Nat
  | .z0 => ice.z0
  | .z1 => ice.z1
  | .x => some (ice.xHigh.toNat * 0x100 + ice.xLow.toNat)
  | .y => some (ice.yHigh.toNat * 0x100 + ice.yLow.toNat)

/-- The bits "BP Active" of the mode. -/
def active (bpMode : UInt8) : Nat := bpMode.toNat / 16 % 4

def Ice.xActive (ice : Ice) : Bool :=
  active ice.bpMode == 0b10 || active ice.bpMode == 0b11

def Ice.yActive (ice : Ice) : Bool :=
  active ice.bpMode == 0b11

def Ice.xMode (ice : Ice) : Nat := ice.bpMode.toNat / 4 % 4

def Ice.yMode (ice : Ice) : Nat := ice.bpMode.toNat % 4

/-! ## The update -/

/-- A breakpoint, by its place in the tables. -/
inductive Entry where
  | code (i : Nat)
  | data (i : Nat)
  deriving DecidableEq, Repr

def BreakpointTable.get (t : BreakpointTable) : Entry → Breakpoint
  | .code i => t.bpCode.peek i
  | .data i => t.bpData.peek i

/-- What an update works on: how many breakpoints of each kind it has passed,
the ICE, and where each breakpoint has gone. -/
structure UpdateState where
  bpC : Nat
  bpD : Nat
  ice : Ice
  assigned : List (Entry × Comparator)

def nextBreakpoint (t : BreakpointTable) (s : UpdateState) : Option Entry × UpdateState :=
  if s.bpC < t.numBreakpointsCode then (some (.code s.bpC), { s with bpC := s.bpC + 1 })
  else if s.bpD < t.numBreakpointsData then (some (.data s.bpD), { s with bpD := s.bpD + 1 })
  else (none, s)

/-- The first two breakpoints, which only support code space. -/
def writeBreakpoint (programmingEnabled : Bool) (t : BreakpointTable) (value : UInt8)
    (comparator : Comparator) (s : UpdateState) : UpdateState :=
  if s.bpC < t.numBreakpointsCode then
    let addr := breakpointSpaceAddrOffset + (t.bpCode.peek s.bpC).address.toUInt64
    { s with
      bpC := s.bpC + 1
      ice := ((jtagWriteByte programmingEnabled addr value).map s.ice.execute).getD s.ice
      assigned := s.assigned ++ [(.code s.bpC, comparator)] }
  else s

def modeBits (type : BpType) : UInt8 :=
  if type = .readData then 0b00
  else if type = .writeData then 0b01
  else if type = .accessData then 0b10
  else if type = .code then 0b11
  else 0b00

def updateBreakpoints (programmingEnabled : Bool) (t : BreakpointTable) (ice : Ice) :
    Ice × List (Entry × Comparator) :=
  let s : UpdateState := { bpC := 0, bpD := 0, ice, assigned := [] }
  let s := writeBreakpoint programmingEnabled t 0 .z0 s
  let s := writeBreakpoint programmingEnabled t 1 .z1 s
  match nextBreakpoint t s with
  | (none, s) => (s.ice, s.assigned)
  | (some x, s) =>
      let ice := s.ice.execute (.setParameter jtagPBpXHigh ((t.get x).address >>> 8).toUInt8)
      let ice := ice.execute (.setParameter jtagPBpXLow ((t.get x).address &&& 0xff).toUInt8)
      let bpMode := (0x20 : UInt8) ||| modeBits (t.get x).type <<< 2
      let s := { s with assigned := s.assigned ++ [(x, .x)] }
      match nextBreakpoint t s with
      | (none, s) => (ice.execute (.setParameter jtagPBpMode bpMode), s.assigned)
      | (some y, s) =>
          let ice := ice.execute (.setParameter jtagPBpYHigh ((t.get y).address >>> 8).toUInt8)
          let ice := ice.execute (.setParameter jtagPBpYLow ((t.get y).address &&& 0xff).toUInt8)
          let bpMode := bpMode ||| 0x10 ||| modeBits (t.get y).type
          (ice.execute (.setParameter jtagPBpMode bpMode), s.assigned ++ [(y, .y)])

/-! ## Runs -/

inductive BreakpointOp where
  | addBreakpoint (address : UInt32) (type : BpType) (length : UInt32)
  | deleteBreakpoint (address : UInt32) (type : BpType) (length : UInt32)
  | deleteAllBreakpoints
  | updateBreakpoints

/-- The tables, the ICE, and where the last update has put the breakpoints. -/
structure Session where
  table : BreakpointTable
  ice : Ice
  assigned : List (Entry × Comparator)

def Session.start : Session where
  table := .empty
  ice := .initial
  assigned := []

def Session.apply (programmingEnabled : Bool) (s : Session) : BreakpointOp → Session
  | .addBreakpoint address type length =>
      { s with table := (addBreakpoint s.table address type length).2 }
  | .deleteBreakpoint address type length =>
      { s with table := (deleteBreakpoint s.table address type length).2 }
  | .deleteAllBreakpoints => { s with table := deleteAllBreakpoints s.table }
  | .updateBreakpoints =>
      let (ice, assigned) := updateBreakpoints programmingEnabled s.table s.ice
      { s with ice, assigned }

end Avarice.Mk1

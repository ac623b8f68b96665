import Avarice.Devices
import Avarice.Utils
import Avarice.Library.Throwing
import Avarice.Mk2.Attempts
import Avarice.Mk2.Memory

/-!
# Memory commands of the mkII

`jtagRead` and `jtagWrite` of `jtag2rw.cc` in every mode, with the commands
they send to the ICE, the exceptions they leave by and the copies they make.
-/

namespace Avarice.Mk2.Access

open Throwing Memory

abbrev cmndWriteMemory : UInt8 := 0x04
abbrev cmndReadMemory : UInt8 := 0x05
abbrev cmndErasePageSpm : UInt8 := 0x0D
abbrev cmndChipErase : UInt8 := 0x13
abbrev cmndEnterProgmode : UInt8 := 0x14
abbrev cmndLeaveProgmode : UInt8 := 0x15

inductive Copy where
  /-- From the response of the ICE to the beginning of the cache. -/
  | load (size : Nat)
  /-- From the cache to what is returned. -/
  | take (offset size targetOffset : Nat)
  deriving DecidableEq, Repr

/-- The state of `jtag2` that memory accesses depend on, and a record of the
copies that have been made. -/
structure Jtag2 (Ice : Type) where
  useDebugWire : Bool
  device : DeviceDef
  programmingEnabled : Bool
  flashCache : PageCache maxFlashPageSize
  eepromCache : PageCache maxEepromPageSize
  ice : Ice
  copies : List Copy

def Jtag2.start {Ice : Type} (device : DeviceDef) (useDebugWire programmingEnabled : Bool)
    (ice : Ice) : Jtag2 Ice where
  useDebugWire := useDebugWire
  device := device
  programmingEnabled := programmingEnabled
  flashCache := ⟨CArray.fill maxFlashPageSize 0, 0xffffffff⟩
  eepromCache := ⟨CArray.fill maxEepromPageSize 0, 0xffff⟩
  ice := ice
  copies := []

def memorySpace (useDebugWire programmingEnabled : Bool) (addr : UInt64) : UInt8 × UInt64 :=
  let (mask, addr) := splitAddress addr
  (if mask = eepromSpaceAddrOffset then
      if !useDebugWire && programmingEnabled then mtypeEepromPage else mtypeEeprom
    else if mask = fuseSpaceAddrOffset then mtypeFuseBits
    else if mask = lockSpaceAddrOffset then mtypeLockBits
    else if mask = sigSpaceAddrOffset then mtypeSignJtag
    else if mask = breakpointSpaceAddrOffset then mtypeEvent
    else if mask = dataSpaceAddrOffset then mtypeSram
    else if useDebugWire || programmingEnabled then mtypeFlashPage
    else mtypeSpm,
    addr)

variable {Ice : Type} (attempt : List UInt8 → Ice → Attempt × Ice)

/-! ## Commands -/

/-- `check(doJtagCommand(...))`, with the response. -/
def checkedCommand (command : List UInt8) (ice : Ice) : Called Ice (List UInt8) :=
  let call := doJtagCommand attempt command true ice
  ⟨call.result.bind fun (positive, answer) => if positive then some answer.msg else none,
    call.state⟩

def Jtag2.simpleCommand (s : Jtag2 Ice) (command : UInt8) : Called (Jtag2 Ice) Unit :=
  let call := doSimpleJtagCommand attempt command s.ice
  ⟨if call.result = some true then some () else none, { s with ice := call.state }⟩

/-- The mode is noted before the ICE has confirmed it. -/
def Jtag2.enableProgramming (s : Jtag2 Ice) : Called (Jtag2 Ice) Unit :=
  if s.useDebugWire then ⟨some (), s⟩
  else { s with programmingEnabled := true }.simpleCommand attempt cmndEnterProgmode

def Jtag2.disableProgramming (s : Jtag2 Ice) : Called (Jtag2 Ice) Unit :=
  if s.useDebugWire then ⟨some (), s⟩
  else { s with programmingEnabled := false }.simpleCommand attempt cmndLeaveProgmode

def Jtag2.eraseProgramMemory (s : Jtag2 Ice) : Called (Jtag2 Ice) Unit :=
  s.simpleCommand attempt cmndChipErase

/-- The address is sent high byte first. -/
def erasePageCommand (address : UInt32) : List UInt8 :=
  cmndErasePageSpm :: (u32ToB4 address).reverse

def Jtag2.eraseProgramPage (s : Jtag2 Ice) (address : UInt32) : Called (Jtag2 Ice) Unit :=
  let call := checkedCommand attempt (erasePageCommand address) s.ice
  ⟨call.value.map fun _ => (), { s with ice := call.state }⟩

def readCommand (whichSpace : UInt8) (numBytes addr : UInt32) : List UInt8 :=
  [cmndReadMemory, whichSpace] ++ u32ToB4 numBytes ++ u32ToB4 addr

def writeCommand (whichSpace : UInt8) (numBytes addr : UInt32) (buffer : List UInt8) :
    List UInt8 :=
  [cmndWriteMemory, whichSpace] ++ u32ToB4 numBytes ++ u32ToB4 addr ++ buffer

/-- The size of the pages a space is read and written in, or 0. -/
def pageSizeOf (device : DeviceDef) (whichSpace : UInt8) : UInt32 :=
  if whichSpace = mtypeFlashPage then device.flashPageSize
  else if whichSpace = mtypeEepromPage then device.eepromPageSize.toUInt32
  else 0

/-- The address of the page, which has 32 bits. -/
def pageAddrOf (pageSize : UInt32) (addr : UInt64) : UInt32 :=
  let mask := pageSize - 1
  addr.toUInt32 &&& ~~~mask

/-! ## Reads through a cache -/

structure Paging (Ice : Type) (n : Nat) where
  cache : PageCache n
  ice : Ice
  copies : List Copy

def Paging.fetch {n : Nat} (p : Paging Ice n) (whichSpace : UInt8) (pageSize pageAddr : UInt32) :
    Called (Paging Ice n) Unit :=
  if pageAddr = p.cache.pageAddr then ⟨some (), p⟩
  else
    let call := checkedCommand attempt (readCommand whichSpace pageSize pageAddr) p.ice
    match call.value with
    | none => ⟨none, { p with ice := call.state }⟩
    | some resp =>
        let page := (resp.drop 1).take pageSize.toNat
        ⟨some (), { cache := p.cache.load pageAddr page, ice := call.state,
                    copies := p.copies ++ [.load pageSize.toNat] }⟩

def Paging.readPages {n : Nat} (whichSpace : UInt8) (pageSize offset : UInt32) :
    (rounds : Nat) → Paging Ice n → (numBytes chunksize targetOffset pageAddr : UInt32) →
      (response : List UInt8) → Called (Paging Ice n) (List UInt8)
  | 0, p, _, _, _, _, response => ⟨some response, p⟩
  | rounds + 1, p, numBytes, chunksize, targetOffset, pageAddr, response =>
      if numBytes = 0 then ⟨some response, p⟩
      else
        (p.fetch attempt whichSpace pageSize pageAddr).andThen fun _ p =>
          let bytes := p.cache.copy offset.toNat chunksize.toNat
          let copies := p.copies ++ [.take offset.toNat chunksize.toNat targetOffset.toNat]
          let numBytes := numBytes - chunksize
          readPages whichSpace pageSize offset rounds { p with copies } numBytes
            (if pageSize < numBytes then pageSize else numBytes) (targetOffset + chunksize)
            (pageAddr + pageSize) (response ++ bytes)

/-- The size of the first chunk, reduced where it would cross the end of the
page. -/
def firstChunk (pageSize pageAddr : UInt32) (addr : UInt64) (numBytes : UInt32) : UInt32 :=
  let pageEnd := (pageAddr + pageSize).toUInt64
  if pageEnd ≤ addr + numBytes.toUInt64 then
    numBytes - (addr + numBytes.toUInt64 - pageEnd).toUInt32
  else numBytes

def Paging.read {n : Nat} (p : Paging Ice n) (whichSpace : UInt8) (pageSize : UInt32)
    (addr : UInt64) (numBytes : UInt32) : Called (Paging Ice n) (List UInt8) :=
  let pageAddr := pageAddrOf pageSize addr
  let chunksize := firstChunk pageSize pageAddr addr numBytes
  let offset := (addr - pageAddr.toUInt64).toUInt32
  p.readPages attempt whichSpace pageSize offset (2 ^ 32) numBytes chunksize 0 pageAddr []

/-! ## Reads and writes -/

/-- The response is moved down over its code, and over the byte before an odd
address.  Bytes it leaves stay behind. -/
def moveDown (skip : Nat) (response : List UInt8) : List UInt8 :=
  response.drop skip ++ response.drop (response.length - skip)

def Jtag2.readUnpaged (s : Jtag2 Ice) (whichSpace : UInt8) (offset : Nat) (addr : UInt64)
    (numBytes : UInt32) : Called (Jtag2 Ice) (List UInt8) :=
  let call := checkedCommand attempt (readCommand whichSpace numBytes addr.toUInt32) s.ice
  ⟨call.value.map (moveDown (1 + offset)), { s with ice := call.state }⟩

/-- The part of `jtagRead` between the changes of mode. -/
def Jtag2.readSpace (s : Jtag2 Ice) (whichSpace : UInt8) (addr : UInt64) (numBytes : UInt32) :
    Called (Jtag2 Ice) (List UInt8) :=
  let pageSize := pageSizeOf s.device whichSpace
  if whichSpace = mtypeSpm then
    -- pad to an even byte count for flash memory
    s.readUnpaged attempt whichSpace (addr &&& 1).toNat (addr &&& ~~~1) ((numBytes + 1) &&& ~~~1)
  else if pageSize = 0 then s.readUnpaged attempt whichSpace 0 addr numBytes
  else if whichSpace = mtypeFlashPage then
    let read := Paging.read attempt ⟨s.flashCache, s.ice, s.copies⟩ whichSpace pageSize addr
      numBytes
    ⟨read.value, { s with flashCache := read.state.cache, ice := read.state.ice,
                          copies := read.state.copies }⟩
  else
    let read := Paging.read attempt ⟨s.eepromCache, s.ice, s.copies⟩ whichSpace pageSize addr
      numBytes
    ⟨read.value, { s with eepromCache := read.state.cache, ice := read.state.ice,
                          copies := read.state.copies }⟩

/-- Programming mode is entered before the part and left behind it, if the
space needs it and it is off. -/
def Jtag2.inProgmode {Value : Type} (s : Jtag2 Ice) (whichSpace : UInt8)
    (part : Jtag2 Ice → Called (Jtag2 Ice) Value) : Called (Jtag2 Ice) Value :=
  let needProgmode := mtypeFlashPage ≤ whichSpace
  if needProgmode ∧ s.programmingEnabled = false then
    (s.enableProgramming attempt).andThen fun _ s =>
      (part s).andThen fun value s =>
        (s.disableProgramming attempt).andThen fun _ s => ⟨some value, s⟩
  else part s

def Jtag2.jtagRead (s : Jtag2 Ice) (addr : UInt64) (numBytes : UInt32) :
    Called (Jtag2 Ice) (List UInt8) :=
  if numBytes = 0 then ⟨some [0], s⟩
  else
    let (whichSpace, addr) := memorySpace s.useDebugWire s.programmingEnabled addr
    s.inProgmode attempt whichSpace fun s => s.readSpace attempt whichSpace addr numBytes

def Jtag2.writeSpace (s : Jtag2 Ice) (whichSpace : UInt8) (addr : UInt64) (buffer : List UInt8) :
    Called (Jtag2 Ice) Unit :=
  let pageSize := pageSizeOf s.device whichSpace
  let numBytes := buffer.length.toUInt32
  if 0 < pageSize ∧ numBytes ≠ pageSize then ⟨none, s⟩
  else
    let command :=
      if 0 < pageSize then writeCommand whichSpace pageSize (pageAddrOf pageSize addr) buffer
      else writeCommand whichSpace numBytes addr.toUInt32 buffer
    let call := checkedCommand attempt command s.ice
    ⟨call.value.map fun _ => (), { s with ice := call.state }⟩

/-- The function returns true unless it throws. -/
def Jtag2.jtagWrite (s : Jtag2 Ice) (addr : UInt64) (buffer : List UInt8) :
    Called (Jtag2 Ice) Unit :=
  if buffer.length = 0 then ⟨some (), s⟩
  else
    let (whichSpace, addr) := memorySpace s.useDebugWire s.programmingEnabled addr
    -- detect the start of a GDB "load" command
    let erased :=
      if whichSpace = mtypeSpm ∧ addr = 0 ∧ 4 < buffer.length then s.eraseProgramMemory attempt
      else ⟨some (), s⟩
    erased.andThen fun _ s =>
      s.inProgmode attempt whichSpace fun s => s.writeSpace attempt whichSpace addr buffer

/-- A breakpoint in the event memory, which has an address for each word. -/
def Jtag2.stopAt (s : Jtag2 Ice) (address : UInt32) : Called (Jtag2 Ice) Unit :=
  s.jtagWrite attempt (breakpointSpaceAddrOffset.toUInt32 + address / 2).toUInt64 [1]

theorem checkedCommand_positive {attempt : List UInt8 → Ice → Attempt × Ice} {command : List UInt8}
    {ice : Ice} {answer : Attempt} (answered : (attempt command ice).1 = answer)
    (positive : answer.positive = true) :
    (checkedCommand attempt command ice).value = some answer.msg := by
  have verdict : commandVerdict true (attempt command ice).1 = some (true, answer) := by
    rw [answered, commandVerdict, Attempt.responded_of_positive positive, positive]
    rfl
  simp only [checkedCommand, doJtagCommand_eq]
  rw [Retry.retry_settled verdict]
  rfl

/-! ## Modes -/

section Modes

variable {attempt : List UInt8 → Ice → Attempt × Ice} {s : Jtag2 Ice}

theorem inProgmode_of_enabled {Value : Type} {part : Jtag2 Ice → Called (Jtag2 Ice) Value}
    (whichSpace : UInt8) (enabled : s.programmingEnabled = true) :
    s.inProgmode attempt whichSpace part = part s := by
  simp [Jtag2.inProgmode, enabled]

theorem inProgmode_of_lt {Value : Type} {part : Jtag2 Ice → Called (Jtag2 Ice) Value}
    {whichSpace : UInt8} (low : whichSpace < mtypeFlashPage) :
    s.inProgmode attempt whichSpace part = part s := by
  have needless : ¬ mtypeFlashPage ≤ whichSpace := UInt8.not_le.mpr low
  simp [Jtag2.inProgmode, needless]

theorem inProgmode_of_debugWire {Value : Type} {part : Jtag2 Ice → Called (Jtag2 Ice) Value}
    (whichSpace : UInt8) (debugWire : s.useDebugWire = true)
    (keeps : (part s).state.useDebugWire = s.useDebugWire) :
    s.inProgmode attempt whichSpace part = part s := by
  unfold Jtag2.inProgmode
  dsimp only
  split
  next =>
    have unchanged : s.enableProgramming attempt = ⟨some (), s⟩ := if_pos debugWire
    rw [unchanged, Called.andThen_of_returned rfl]
    cases outcome : (part s).value with
    | none =>
        rw [Called.andThen_of_threw outcome, ← outcome]
    | some value =>
        have still : (part s).state.disableProgramming attempt = ⟨some (), (part s).state⟩ :=
          if_pos (keeps.trans debugWire)
        rw [Called.andThen_of_returned outcome, still, Called.andThen_of_returned rfl, ← outcome]
  next => rfl

theorem readSpace_useDebugWire (whichSpace : UInt8) (addr : UInt64) (numBytes : UInt32) :
    (s.readSpace attempt whichSpace addr numBytes).state.useDebugWire = s.useDebugWire := by
  simp only [Jtag2.readSpace, Jtag2.readUnpaged]
  split_ifs <;> rfl

end Modes

end Avarice.Mk2.Access

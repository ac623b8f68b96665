import Avarice.AddressSpace
import Avarice.Library.CArray
import Avarice.Library.PagedMemory

/-!
# Memory access of the mkII

`jtagRead`, `jtagWrite` and the erase commands of `jtag2rw.cc` and
`jtag2prog.cc`, in programming mode and with debugWire, and a device that
executes the commands they send.  Reads of flash and EEPROM go through a cache
of one page each.
-/

namespace Avarice.Mk2.Memory

open PagedMemory

abbrev mtypeSram : UInt8 := 0x20
abbrev mtypeEeprom : UInt8 := 0x22
abbrev mtypeEvent : UInt8 := 0x60
abbrev mtypeSpm : UInt8 := 0xA0
abbrev mtypeFlashPage : UInt8 := 0xB0
abbrev mtypeEepromPage : UInt8 := 0xB1
abbrev mtypeFuseBits : UInt8 := 0xB2
abbrev mtypeLockBits : UInt8 := 0xB3
abbrev mtypeSignJtag : UInt8 := 0xB4

abbrev maxFlashPageSize : Nat := 256
abbrev maxEepromPageSize : Nat := 16

/-- A device whose page sizes are powers of two that fit the caches.  Its flash
ends below the data space, and EEPROM addresses have 16 bits, of which the last
one stands for no page. -/
structure Target where
  useDebugWire : Bool
  /-- The fuse that keeps the EEPROM in a chip erase. -/
  saveEeprom : Bool
  flashPageSize : Nat
  flashPageCount : Nat
  eepromPageSize : Nat
  eepromPageCount : Nat
  flashPages : ∃ k, flashPageSize = 2 ^ k
  eepromPages : ∃ k, eepromPageSize = 2 ^ k
  flashPageFits : flashPageSize ≤ maxFlashPageSize
  eepromPageFits : eepromPageSize ≤ maxEepromPageSize
  flashBelow : flashPageSize * flashPageCount ≤ 0x800000
  eepromBelow : eepromPageSize * eepromPageCount ≤ 0xffff

def Target.flashSize (t : Target) : Nat := t.flashPageSize * t.flashPageCount

def Target.eepromSize (t : Target) : Nat := t.eepromPageSize * t.eepromPageCount

/-- Programming mode is on throughout, except with debugWire, where
`enableProgramming` does nothing. -/
def Target.programmingEnabled (t : Target) : Bool := !t.useDebugWire

def memorySpace (t : Target) (addr : UInt32) : UInt8 × UInt32 :=
  let (mask, addr) := splitAddress addr.toUInt64
  (if mask = eepromSpaceAddrOffset then
      if !t.useDebugWire && t.programmingEnabled then mtypeEepromPage else mtypeEeprom
    else if mask = fuseSpaceAddrOffset then mtypeFuseBits
    else if mask = lockSpaceAddrOffset then mtypeLockBits
    else if mask = sigSpaceAddrOffset then mtypeSignJtag
    else if mask = breakpointSpaceAddrOffset then mtypeEvent
    else if mask = dataSpaceAddrOffset then mtypeSram
    else if t.useDebugWire || t.programmingEnabled then mtypeFlashPage
    else mtypeSpm,
    addr.toUInt32)

/-! ## The device -/

/-- The memories of the device; those without a page cache by their space. -/
structure Device where
  flash : Nat → UInt8
  eeprom : Nat → UInt8
  others : UInt8 → Nat → UInt8

def Device.memory (d : Device) (whichSpace : UInt8) : Nat → UInt8 :=
  if whichSpace = mtypeFlashPage then d.flash
  else if whichSpace = mtypeEepromPage ∨ whichSpace = mtypeEeprom then d.eeprom
  else d.others whichSpace

def Target.InRange (t : Target) (whichSpace : UInt8) (address count : Nat) : Prop :=
  if whichSpace = mtypeFlashPage then address + count ≤ t.flashSize
  else if whichSpace = mtypeEepromPage ∨ whichSpace = mtypeEeprom then
    address + count ≤ t.eepromSize
  else True

instance (t : Target) (whichSpace : UInt8) (address count : Nat) :
    Decidable (t.InRange whichSpace address count) := by
  unfold Target.InRange
  infer_instance

def Device.read (d : Device) (t : Target) (whichSpace : UInt8) (numBytes : Nat)
    (address : UInt32) : Option (List UInt8) :=
  if t.InRange whichSpace address.toNat numBytes then
    some (slice (d.memory whichSpace) address.toNat numBytes)
  else none

/-- CMND_WRITE_MEMORY. -/
def Device.write (d : Device) (t : Target) (whichSpace : UInt8) (address : UInt32)
    (bytes : List UInt8) : Option Device :=
  let memory := overwrite (d.memory whichSpace) address.toNat bytes
  if t.InRange whichSpace address.toNat bytes.length then
    some (if whichSpace = mtypeFlashPage then { d with flash := memory }
      else if whichSpace = mtypeEepromPage ∨ whichSpace = mtypeEeprom then
        { d with eeprom := memory }
      else { d with others := Function.update d.others whichSpace memory })
  else none

/-- CMND_CHIP_ERASE: flash, and EEPROM unless the fuse keeps it. -/
def Device.chipErase (d : Device) (t : Target) : Device :=
  { d with
    flash := overwrite d.flash 0 (List.replicate t.flashSize 0xff)
    eeprom := if t.saveEeprom then d.eeprom
      else overwrite d.eeprom 0 (List.replicate t.eepromSize 0xff) }

/-- CMND_ERASEPAGE_SPM: the flash page that an address is in. -/
def Device.erasePage (d : Device) (t : Target) (address : UInt32) : Option Device :=
  let base := address.toNat / t.flashPageSize * t.flashPageSize
  if base + t.flashPageSize ≤ t.flashSize then
    some { d with flash := overwrite d.flash base (List.replicate t.flashPageSize 0xff) }
  else none

/-! ## The caches -/

structure PageCache (n : Nat) where
  bytes : CArray UInt8 n
  pageAddr : UInt32

def PageCache.load {n : Nat} (cache : PageCache n) (pageAddr : UInt32) (page : List UInt8) :
    PageCache n where
  bytes := Vector.ofFn fun i => page.getD i (cache.bytes.get i)
  pageAddr := pageAddr

/-- Bytes from an offset on; behind the end of the cache they mean nothing. -/
def PageCache.copy {n : Nat} (cache : PageCache n) (offset count : Nat) : List UInt8 :=
  slice cache.bytes.peek offset count

structure Session where
  device : Device
  flashCache : PageCache maxFlashPageSize
  eepromCache : PageCache maxEepromPageSize

def Session.start (device : Device) (flashBytes : CArray UInt8 maxFlashPageSize)
    (eepromBytes : CArray UInt8 maxEepromPageSize) : Session where
  device := device
  flashCache := ⟨flashBytes, 0xffffffff⟩
  eepromCache := ⟨eepromBytes, 0xffff⟩

/-! ## Operations -/

def pageAddress (pageSize : Nat) (addr : UInt32) : UInt32 :=
  let mask : UInt32 := pageSize.toUInt32 - 1
  addr &&& ~~~mask

/-- The loop over the pages of a read, whose rounds are bounded by the number
of bytes.  It fails where the device does not answer. -/
def readPages {n : Nat} (read : UInt32 → Option (List UInt8)) (pageSize offset : Nat) :
    (rounds : Nat) → PageCache n → (numBytes chunksize : Nat) → (pageAddr : UInt32) →
      (response : List UInt8) → PageCache n × Option (List UInt8)
  | 0, cache, _, _, _, response => (cache, some response)
  | rounds + 1, cache, numBytes, chunksize, pageAddr, response =>
      if numBytes = 0 then (cache, some response)
      else
        let fetched :=
          if pageAddr = cache.pageAddr then some cache
          else (read pageAddr).map (cache.load pageAddr)
        match fetched with
        | none => (cache, none)
        | some cache =>
            let numBytes := numBytes - chunksize
            readPages read pageSize offset rounds cache numBytes (min numBytes pageSize)
              (pageAddr + pageSize.toUInt32) (response ++ cache.copy offset chunksize)

def readPaged {n : Nat} (read : UInt32 → Option (List UInt8)) (pageSize : Nat)
    (cache : PageCache n) (addr : UInt32) (numBytes : Nat) : PageCache n × Option (List UInt8) :=
  let pageAddr := pageAddress pageSize addr
  let pageEnd := pageAddr.toNat + pageSize
  let chunksize :=
    if pageEnd ≤ addr.toNat + numBytes then numBytes - (addr.toNat + numBytes - pageEnd)
    else numBytes
  let offset := addr.toNat - pageAddr.toNat
  readPages read pageSize offset numBytes cache numBytes chunksize pageAddr []

def Session.jtagRead (t : Target) (s : Session) (addr numBytes : UInt32) :
    Session × Option (List UInt8) :=
  if numBytes = 0 then (s, some [0])
  else
    let (whichSpace, addr) := memorySpace t addr
    if whichSpace = mtypeFlashPage then
      let (cache, response) := readPaged (s.device.read t whichSpace t.flashPageSize)
        t.flashPageSize s.flashCache addr numBytes.toNat
      ({ s with flashCache := cache }, response)
    else if whichSpace = mtypeEepromPage then
      let (cache, response) := readPaged (s.device.read t whichSpace t.eepromPageSize)
        t.eepromPageSize s.eepromCache addr numBytes.toNat
      ({ s with eepromCache := cache }, response)
    else (s, s.device.read t whichSpace numBytes.toNat addr)

def Session.eraseProgramMemory (t : Target) (s : Session) : Session :=
  { s with device := s.device.chipErase t }

def Session.eraseProgramPage (t : Target) (s : Session) (address : UInt32) : Option Session :=
  (s.device.erasePage t address).map fun device => { s with device }

def Target.pageSize (t : Target) (whichSpace : UInt8) : Option Nat :=
  if whichSpace = mtypeFlashPage then some t.flashPageSize
  else if whichSpace = mtypeEepromPage then some t.eepromPageSize
  else none

/-- The new state, unless the length is not that of a page or the ICE
refuses. -/
def Session.jtagWrite (t : Target) (s : Session) (addr : UInt32) (buffer : List UInt8) :
    Option Session :=
  if buffer.length = 0 then some s
  else
    let (whichSpace, addr) := memorySpace t addr
    let s :=
      if whichSpace = mtypeSpm ∧ addr = 0 ∧ 4 < buffer.length then s.eraseProgramMemory t else s
    match t.pageSize whichSpace with
    | none => (s.device.write t whichSpace addr buffer).map fun device => { s with device }
    | some pageSize =>
        if buffer.length = pageSize then
          (s.device.write t whichSpace (pageAddress pageSize addr) buffer).map fun device =>
            { s with device }
        else none

/-! ## Runs -/

inductive MemoryOp where
  | jtagRead (addr numBytes : UInt32)
  | jtagWrite (addr : UInt32) (buffer : List UInt8)
  | eraseProgramMemory
  | eraseProgramPage (address : UInt32)

def Session.apply (t : Target) (s : Session) : MemoryOp → Session
  | .jtagRead addr numBytes => (s.jtagRead t addr numBytes).1
  | .jtagWrite addr buffer => (s.jtagWrite t addr buffer).getD s
  | .eraseProgramMemory => s.eraseProgramMemory t
  | .eraseProgramPage address => (s.eraseProgramPage t address).getD s

end Avarice.Mk2.Memory

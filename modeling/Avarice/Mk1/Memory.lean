import Avarice.AddressSpace
import Avarice.Library.Throwing

/-!
# Memory access of the mkI

`jtagRead` and `jtagWrite` of `jtagrw.cc`, over what comes of the commands they
send.  The ICE has program memory in locations of 16 bits.
-/

namespace Avarice.Mk1.Memory

open Throwing

abbrev addrProgSpaceProgEnabled : UInt8 := 0xB0
abbrev addrProgSpaceProgDisabled : UInt8 := 0xA0
abbrev addrDataSpace : UInt8 := 0x20
abbrev addrEepromSpace : UInt8 := 0xB1
abbrev addrFuseSpace : UInt8 := 0xB2
abbrev addrLockSpace : UInt8 := 0xB3
abbrev addrSigSpace : UInt8 := 0xB4
abbrev addrBreakpointSpace : UInt8 := 0x60

/-- `'A'`. -/
abbrev jtagROk : UInt8 := 0x41

abbrev jtagEom : List UInt8 := [0x20, 0x20]

def memorySpace (addr : UInt64) : UInt8 × UInt64 :=
  let (mask, addr) := splitAddress addr
  (if mask = eepromSpaceAddrOffset then addrEepromSpace
    else if mask = fuseSpaceAddrOffset then addrFuseSpace
    else if mask = lockSpaceAddrOffset then addrLockSpace
    else if mask = sigSpaceAddrOffset then addrSigSpace
    else if mask = breakpointSpaceAddrOffset then addrBreakpointSpace
    else if mask = dataSpaceAddrOffset then addrDataSpace
    else 0,
    addr)

/-- The two bytes of each of the first locations change places. -/
def swapBytes : (count : Nat) → List UInt8 → List UInt8
  | count + 2, first :: second :: buffer => second :: first :: swapBytes count buffer
  | _, buffer => buffer

def decodeAddress (b0 b1 b2 : UInt8) : UInt32 :=
  b0.toUInt32 <<< 16 ||| b1.toUInt32 <<< 8 ||| b2.toUInt32

def encodeAddress (x : UInt64) : List UInt8 :=
  [(x >>> 16).toUInt8, (x >>> 8).toUInt8, x.toUInt8]

/-- The code of program memory in either mode. -/
def progSpace (programmingEnabled : Bool) : UInt8 :=
  if programmingEnabled then addrProgSpaceProgEnabled else addrProgSpaceProgDisabled

/-- The command `'R'`. -/
def readCommand (whichSpace : UInt8) (numLocations : UInt32) (addr : UInt64) : List UInt8 :=
  [0x52, whichSpace, (numLocations - 1).toUInt8] ++ encodeAddress addr ++ jtagEom

/-- The command `'W'`, which says where the next block of data goes. -/
def writeCommand (whichSpace : UInt8) (numLocations : UInt32) (addr : UInt64) : List UInt8 :=
  [0x57, whichSpace, (numLocations - 1).toUInt8] ++ encodeAddress addr ++ jtagEom

/-- The command `'h'`, with a block of data. -/
def dataBlock (bytes : List UInt8) : List UInt8 := 0x68 :: bytes ++ jtagEom

structure Jtag1 (Ice : Type) where
  programmingEnabled : Bool
  ice : Ice

variable {Ice : Type} (doJtagCommand : List UInt8 → Nat → Ice → Called Ice (List UInt8))

/-- A command and a response of so many bytes, unless the ICE gives none. -/
def Jtag1.command (s : Jtag1 Ice) (command : List UInt8) (responseSize : Nat) :
    Called (Jtag1 Ice) (List UInt8) :=
  let call := doJtagCommand command responseSize s.ice
  ⟨call.value, { s with ice := call.state }⟩

def moveDown (numBytes : Nat) (response : List UInt8) : List UInt8 :=
  (response.drop 1).take numBytes ++ response.drop numBytes

/-- The buffer, or nothing where the function returns `NULL`. -/
def Jtag1.jtagRead (s : Jtag1 Ice) (addr : UInt64) (numBytes : UInt32) :
    Called (Jtag1 Ice) (Option (List UInt8)) :=
  if numBytes = 0 then ⟨some (some [0]), s⟩
  else
    let (whichSpace, addr) := memorySpace addr
    if whichSpace ≠ 0 then
      if 256 < numBytes then ⟨some none, s⟩
      else
        (s.command doJtagCommand (readCommand whichSpace numBytes addr)
          (numBytes.toNat + 2)).andThen fun response s =>
            ⟨some (if response.getD (numBytes.toNat + 1) 0 = jtagROk then some response else none),
              s⟩
    else
      -- program space is 16 bits wide, with word reads
      let numLocations := if addr &&& 1 ≠ 0 then (numBytes + 2) / 2 else (numBytes + 1) / 2
      if 256 < numLocations then ⟨some none, s⟩
      else
        let count := numLocations.toNat * 2
        (s.command doJtagCommand
          (readCommand (progSpace s.programmingEnabled) numLocations (addr / 2))
          (count + 2)).andThen fun response s =>
            if response.getD (count + 1) 0 = jtagROk then
              -- programming mode and regular mode are byte-swapped
              let response := if s.programmingEnabled then response else swapBytes count response
              ⟨some (some (if addr &&& 1 ≠ 0 then moveDown numBytes.toNat response else response)),
                s⟩
            else ⟨some none, s⟩

/-- The two parts of a write: the address, and the data. -/
def Jtag1.writeLocations (s : Jtag1 Ice) (whichSpace : UInt8) (addr : UInt64)
    (numLocations numBytes : UInt32) (buffer : List UInt8) :
    Called (Jtag1 Ice × List UInt8) Bool :=
  if 256 < numLocations then ⟨some false, (s, buffer)⟩
  else
    let written :=
      (s.command doJtagCommand (writeCommand whichSpace numLocations addr) 0).andThen fun _ s =>
        s.command doJtagCommand (dataBlock (buffer.take numBytes.toNat)) 1
    ⟨written.value.map fun _ => true, (written.state, buffer)⟩

def Jtag1.jtagWrite (s : Jtag1 Ice) (addr : UInt64) (numBytes : UInt32) (buffer : List UInt8) :
    Called (Jtag1 Ice × List UInt8) Bool :=
  if numBytes = 0 then ⟨some true, (s, buffer)⟩
  else
    let (whichSpace, addr) := memorySpace addr
    if whichSpace ≠ 0 then s.writeLocations doJtagCommand whichSpace addr numBytes numBytes buffer
    else if addr &&& 1 ≠ 0 then ⟨some false, (s, buffer)⟩
    else
      -- odd length: write one more byte
      let numBytes := if numBytes &&& 1 ≠ 0 then numBytes + 1 else numBytes
      let buffer := if s.programmingEnabled then buffer else swapBytes numBytes.toNat buffer
      s.writeLocations doJtagCommand (progSpace s.programmingEnabled) (addr / 2) (numBytes / 2)
        numBytes buffer

end Avarice.Mk1.Memory

import Avarice.Mk1.LossyMemory
import Avarice.Programming.Chip

/-!
# Programming mode of the mkI

The programming mode of `jtagprog.cc` and the parameters of `jtagmisc.cc`, and what an ICE
is told by the commands for memories, fuses and lock bits.
-/

namespace Avarice.Mk1.Memory

open Throwing
open Programming (Cells Chip Programmer Request Space Within pages)

abbrev jtagPFlashPagesizeLow : UInt8 := 0x88
abbrev jtagPFlashPagesizeHigh : UInt8 := 0x89
abbrev jtagPEepromPagesize : UInt8 := 0x8a

def parameterCommand (item newValue : UInt8) : List UInt8 := [0x42, item, newValue] ++ jtagEom

section Program

variable {Ice : Type} (doJtagCommand : List UInt8 → Nat → Ice → Called Ice (List UInt8))

def Jtag1.doSimpleJtagCommand (s : Jtag1 Ice) (cmd : UInt8) (responseSize : Nat) :
    Called (Jtag1 Ice) Bool :=
  (s.command doJtagCommand (cmd :: jtagEom) responseSize).andThen fun response s =>
    ⟨some (responseSize = 0 || response.getD (responseSize - 1) 0 = jtagROk), s⟩

def Jtag1.checkedCommand (s : Jtag1 Ice) (cmd : UInt8) : Called (Jtag1 Ice) Unit :=
  (s.doSimpleJtagCommand doJtagCommand cmd 1).andThen fun success s =>
    ⟨if success then some () else none, s⟩

/-- The mode is noted before the ICE has confirmed it. -/
def Jtag1.enableProgramming (s : Jtag1 Ice) : Called (Jtag1 Ice) Unit :=
  Jtag1.checkedCommand doJtagCommand { s with programmingEnabled := true } 0xa3

def Jtag1.disableProgramming (s : Jtag1 Ice) : Called (Jtag1 Ice) Unit :=
  Jtag1.checkedCommand doJtagCommand { s with programmingEnabled := false } 0xa4

def Jtag1.eraseProgramMemory (s : Jtag1 Ice) : Called (Jtag1 Ice) Unit :=
  s.checkedCommand doJtagCommand 0xa5

def Jtag1.setJtagParameter (s : Jtag1 Ice) (item newValue : UInt8) : Called (Jtag1 Ice) Unit :=
  (s.command doJtagCommand (parameterCommand item newValue) 1).andThen fun response s =>
    ⟨if response.getD 0 0 = jtagROk then some () else none, s⟩

/-- The first commands of `downloadToTarget`. -/
def Jtag1.setPageSizes (device : Image.Device) (s : Jtag1 Ice) : Called (Jtag1 Ice) Unit :=
  let pageSize := device.getPageSize .flash
  (s.setJtagParameter doJtagCommand jtagPFlashPagesizeLow pageSize.toUInt8).andThen fun _ s =>
    (s.setJtagParameter doJtagCommand jtagPFlashPagesizeHigh (pageSize >>> 8).toUInt8).andThen
      fun _ s =>
        s.setJtagParameter doJtagCommand jtagPEepromPagesize (device.getPageSize .eeprom).toUInt8

def programmer1 : Programmer (Jtag1 Ice) where
  toJtag := jtag1 doJtagCommand
  enableProgramming s := s.enableProgramming doJtagCommand
  disableProgramming s := s.disableProgramming doJtagCommand
  eraseProgramMemory s := s.eraseProgramMemory doJtagCommand
  setPageSizes device s := Jtag1.setPageSizes doJtagCommand device s

end Program

/-! ## Commands -/

/-- Flash has locations of two bytes. -/
def locationSize : Space → Nat
  | .memory .flash => 2
  | _ => 1

def spaceCode : Space → UInt8
  | .memory .flash => addrProgSpaceProgEnabled
  | .memory .eeprom => addrEepromSpace
  | .memory .ram => addrDataSpace
  | .fuses => addrFuseSpace
  | .lockBits => addrLockSpace

def locations (space : Space) (count : Nat) : UInt32 := (count / locationSize space).toUInt32

def firstLocation (space : Space) (start : Nat) : UInt64 := (start / locationSize space).toUInt64

/-- The chip, the place that has been named for the next block, and the parameters. -/
structure Kit where
  chip : Chip
  named : Option (Space × Nat × Nat)
  parameters : UInt8 → UInt8

inductive Order where
  | mode (programming : Bool)
  | erase
  | reset
  | parameter (item newValue : UInt8)
  | read (space : Space) (start count : Nat)
  | name (space : Space) (start count : Nat)
  | block (bytes : List UInt8)

/-- The page sizes of the device have been set. -/
structure PagesGiven (device : Image.Device) (parameters : UInt8 → UInt8) : Prop where
  flashLow : parameters jtagPFlashPagesizeLow = (device.getPageSize .flash).toUInt8
  flashHigh : parameters jtagPFlashPagesizeHigh = (device.getPageSize .flash >>> 8).toUInt8
  eeprom : parameters jtagPEepromPagesize = (device.getPageSize .eeprom).toUInt8

namespace Order

def bytes : Order → List UInt8
  | mode programming => (if programming then 0xa3 else 0xa4) :: jtagEom
  | erase => 0xa5 :: jtagEom
  | reset => 0x78 :: jtagEom
  | parameter item newValue => parameterCommand item newValue
  | read space start count =>
      readCommand (spaceCode space) (locations space count) (firstLocation space start)
  | name space start count =>
      writeCommand (spaceCode space) (locations space count) (firstLocation space start)
  | block bytes => dataBlock bytes

/-- A block for which no place has been named is ignored; a name may be remembered
behind the block. -/
def effect (remembers : Bool) (cells : Cells) (kit : Kit) : Order → Kit
  | mode programming => { kit with chip := { kit.chip with programming } }
  | erase => { kit with chip := Request.erase.effect cells kit.chip }
  | reset => kit
  | parameter item newValue =>
      { kit with parameters := Function.update kit.parameters item newValue }
  | read _ _ _ => kit
  | name space start count => { kit with named := some (space, start, count) }
  | block bytes =>
      match kit.named with
      | none => kit
      | some (space, start, _) =>
          { kit with
            chip := (Request.write space start bytes).effect cells kit.chip
            named := if remembers then kit.named else none }

/-- The place for a block is as long as the block, and a page of the device where it is
in a memory. -/
def Fits (device : Image.Device) (kit : Kit) : Order → Prop
  | block bytes => ∀ space start count, kit.named = some (space, start, count) →
      count = bytes.length ∧ (∀ memtype, space = .memory memtype → PagesGiven device kit.parameters)
  | _ => True

/-- What can be said in one command. -/
def Sayable (device : Image.Device) : Order → Prop
  | read space start count => Within device space start count
  | name space start count => Within device space start count
  | _ => True

end Order

/-! ## Accesses in programming mode -/

structure FitsCommands (device : Image.Device) : Prop where
  even : 2 ∣ device.flashPageSize
  flash : device.flashPageSize ≤ 512
  eeprom : device.eepromPageSize ≤ 256

theorem fitsCommands_supported {d : DeviceDef} (supported : d ∈ deviceDefinitions) :
    FitsCommands (pages supported) where
  even := by
    have all : ∀ d ∈ deviceDefinitions, 2 ∣ d.flashPageSize.toNat := by decide
    exact all d supported
  flash := by
    have all : ∀ d ∈ deviceDefinitions, d.flashPageSize.toNat ≤ 512 := by decide
    exact all d supported
  eeprom := Nat.le_of_lt d.eepromPageSize.toNat_lt

section Accesses

variable {device : Image.Device} {space : Space} {start count : Nat}

theorem locationSize_pos (space : Space) : 0 < locationSize space := by
  cases space with
  | memory memtype => cases memtype <;> decide
  | fuses => decide
  | lockBits => decide

theorem locationSize_of_ne (other : space ≠ .memory .flash) : locationSize space = 1 := by
  cases space with
  | memory memtype =>
      cases memtype with
      | flash => exact absurd rfl other
      | eeprom => rfl
      | ram => rfl
  | fuses => rfl
  | lockBits => rfl

theorem spaceCode_ne_zero (space : Space) : spaceCode space ≠ 0 := by
  cases space with
  | memory memtype => cases memtype <;> decide
  | fuses => decide
  | lockBits => decide

theorem memorySpace_offset (within : Within device space start count) :
    memorySpace (space.offset + start.toUInt64) =
      (if space = .memory .flash then 0 else spaceCode space, start.toUInt64) := by
  rw [memorySpace, within.splitAddress_eq]
  cases space with
  | memory memtype =>
      cases memtype with
      | flash => rfl
      | eeprom => rfl
      | ram => exact absurd rfl within.1.isPaged
  | fuses => rfl
  | lockBits => rfl

theorem toNat_firstLocation (within : Within device space start count) :
    (firstLocation space start).toNat = start / locationSize space :=
  UInt64.toNat_ofNat_of_lt'
    (Nat.lt_of_le_of_lt (Nat.div_le_self _ _) (Nat.lt_trans within.start_lt (by decide)))

section Numbers

variable (fits : FitsCommands device) (within : Within device space start count)
include fits within

theorem locationSize_dvd : locationSize space ∣ start ∧ locationSize space ∣ count := by
  cases space with
  | memory memtype =>
      cases memtype with
      | flash =>
          obtain ⟨page, size, -⟩ := within
          refine ⟨Nat.dvd_trans fits.even (Nat.dvd_of_mod_eq_zero page.aligned), ?_⟩
          rw [size]
          exact fits.even
      | eeprom => exact ⟨Nat.one_dvd _, Nat.one_dvd _⟩
      | ram => exact ⟨Nat.one_dvd _, Nat.one_dvd _⟩
  | fuses => exact ⟨Nat.one_dvd _, Nat.one_dvd _⟩
  | lockBits => exact ⟨Nat.one_dvd _, Nat.one_dvd _⟩

theorem locations_le : count / locationSize space ≤ 256 := by
  cases space with
  | memory memtype =>
      have size := within.2.1
      cases memtype with
      | flash => exact Nat.div_le_of_le_mul (size ▸ fits.flash)
      | eeprom => exact (Nat.div_one count).symm ▸ size ▸ fits.eeprom
      | ram => exact absurd rfl within.1.isPaged
  | fuses => exact (Nat.div_one count).symm ▸ within.2.1
  | lockBits => exact (Nat.div_one count).symm ▸ within.2.1

theorem locations_pos : 0 < count / locationSize space :=
  Nat.div_pos (Nat.le_of_dvd within.positive (locationSize_dvd fits within).2)
    (locationSize_pos space)

theorem toNat_locations : (locations space count).toNat = count / locationSize space :=
  toUInt32_toNat (Nat.le_trans (locations_le fits within) (by decide))

theorem toNat_size : count.toUInt32.toNat = count := by
  refine toUInt32_toNat ?_
  have few := locations_le fits within
  have filled := Nat.div_mul_cancel (locationSize_dvd fits within).2
  have small : locationSize space ≤ 2 := by
    cases space with
    | memory memtype => cases memtype <;> decide
    | fuses => decide
    | lockBits => decide
  calc
    count = count / locationSize space * locationSize space := filled.symm
    _ ≤ 256 * 2 := Nat.mul_le_mul few small
    _ ≤ 0x10000 := by decide

theorem size_ne_zero : count.toUInt32 ≠ 0 := fun none => by
  have size := toNat_size fits within
  rw [none] at size
  exact Nat.ne_of_lt within.positive size

end Numbers

theorem flash_numbers (fits : FitsCommands device)
    (within : Within device (.memory .flash) start count) :
    start.toUInt64 &&& 1 = 0 ∧ start.toUInt64 / 2 = firstLocation (.memory .flash) start ∧
      count.toUInt32 &&& 1 = 0 ∧ (count.toUInt32 + 1) / 2 = locations (.memory .flash) count ∧
        count.toUInt32 / 2 = locations (.memory .flash) count ∧
          (locations (.memory .flash) count).toNat * 2 = count := by
  obtain ⟨⟨first, rfl⟩, half, rfl⟩ := locationSize_dvd fits within
  have place : (locationSize (.memory .flash) * first).toUInt64.toNat = 2 * first :=
    UInt64.toNat_ofNat_of_lt' (Nat.lt_trans within.start_lt (by decide))
  have size := toNat_size fits within
  have few : (locations (.memory .flash) (locationSize (.memory .flash) * half)).toNat = half := by
    rw [toNat_locations fits within]
    exact Nat.mul_div_cancel_left half (by decide)
  have bound : half ≤ 256 := by
    have few := locations_le fits within
    rwa [show locationSize (.memory .flash) = 2 from rfl, Nat.mul_div_cancel_left half (by decide)]
      at few
  have here : (firstLocation (.memory .flash) (locationSize (.memory .flash) * first)).toNat =
      first := by
    rw [toNat_firstLocation within]
    exact Nat.mul_div_cancel_left first (by decide)
  change (locationSize (.memory .flash) * half).toUInt32.toNat = 2 * half at size
  refine ⟨?_, ?_, ?_, ?_, ?_, ?_⟩
  · rw [← UInt64.toNat_inj, UInt64.toNat_and, place]
    show 2 * first &&& 1 = 0
    rw [Nat.and_one_is_mod]
    omega
  · rw [← UInt64.toNat_inj, UInt64.toNat_div, place, here]
    show 2 * first / 2 = first
    omega
  · rw [← UInt32.toNat_inj, UInt32.toNat_and, size]
    show 2 * half &&& 1 = 0
    rw [Nat.and_one_is_mod]
    omega
  · rw [← UInt32.toNat_inj, UInt32.toNat_div, UInt32.toNat_add, size, few]
    show (2 * half + 1) % 2 ^ 32 / 2 = half
    omega
  · rw [← UInt32.toNat_inj, UInt32.toNat_div, size, few]
    show 2 * half / 2 = half
    omega
  · rw [few]
    exact Nat.mul_comm half 2

theorem byte_numbers (fits : FitsCommands device)
    (within : Within device space start count) (bytes : locationSize space = 1) :
    firstLocation space start = start.toUInt64 ∧ locations space count = count.toUInt32 ∧
      ¬256 < count.toUInt32 := by
  have few := locations_le fits within
  rw [bytes, Nat.div_one] at few
  refine ⟨by rw [firstLocation, bytes, Nat.div_one], by rw [locations, bytes, Nat.div_one], ?_⟩
  exact UInt32.not_lt.mpr (UInt32.le_iff_toNat_le.mpr ((toNat_size fits within).symm ▸ few))

section Session

variable {Ice : Type} {doJtagCommand : List UInt8 → Nat → Ice → Called Ice (List UInt8)}
  {s : Jtag1 Ice} (fits : FitsCommands device) (enabled : s.programmingEnabled = true)
include fits enabled

theorem jtagRead_space (within : Within device space start count) :
    s.jtagRead doJtagCommand (space.offset + start.toUInt64) count.toUInt32 =
      (s.command doJtagCommand (Order.read space start count).bytes (count + 2)).andThen
        fun response s =>
          ⟨some (if response.getD (count + 1) 0 = jtagROk then some response else none), s⟩ := by
  rw [Jtag1.jtagRead, if_neg (size_ne_zero fits within), memorySpace_offset within, Order.bytes]
  dsimp only
  by_cases flash : space = .memory .flash
  · subst flash
    obtain ⟨even, first, -, number, -, size⟩ := flash_numbers fits within
    have notLong : ¬256 < locations (.memory .flash) count := by
      rw [UInt32.not_lt, UInt32.le_iff_toNat_le, toNat_locations fits within]
      exact locations_le fits within
    have notOdd : ¬start.toUInt64 &&& 1 ≠ 0 := not_not.mpr even
    simp only [if_true, ne_eq, not_true_eq_false, if_false, if_neg notOdd, number, if_neg notLong,
      size, first, enabled, progSpace]
    simp only [Jtag1.command, Called.andThen, spaceCode]
    cases (doJtagCommand _ _ s.ice).value with
    | none => rfl
    | some response =>
        dsimp only
        split
        · rw [Called.mk.injEq]
          exact ⟨congrArg (some ∘ some) (if_pos enabled), rfl⟩
        · rfl
  · obtain ⟨first, number, notLong⟩ := byte_numbers fits within (locationSize_of_ne flash)
    rw [if_neg flash, if_pos (spaceCode_ne_zero space), if_neg notLong, first, number,
      toNat_size fits within]

theorem jtagWrite_space {bytes : List UInt8} (within : Within device space start bytes.length) :
    (s.jtagWrite doJtagCommand (space.offset + start.toUInt64) bytes.length.toUInt32 bytes) =
      let written :=
        (s.command doJtagCommand (Order.name space start bytes.length).bytes 0).andThen fun _ s =>
          s.command doJtagCommand (Order.block bytes).bytes 1
      ⟨written.value.map fun _ => true, (written.state, bytes)⟩ := by
  rw [Jtag1.jtagWrite, if_neg (size_ne_zero fits within), memorySpace_offset within]
  dsimp only
  by_cases flash : space = .memory .flash
  · subst flash
    obtain ⟨even, first, evenSize, -, number, -⟩ := flash_numbers fits within
    have notLong : ¬256 < locations (.memory .flash) bytes.length := by
      rw [UInt32.not_lt, UInt32.le_iff_toNat_le, toNat_locations fits within]
      exact locations_le fits within
    have notOdd : ¬start.toUInt64 &&& 1 ≠ 0 := not_not.mpr even
    have notOddSize : ¬bytes.length.toUInt32 &&& 1 ≠ 0 := not_not.mpr evenSize
    simp only [if_true, ne_eq, not_true_eq_false, if_false, if_neg notOdd, if_neg notOddSize,
      enabled, number, first, Jtag1.writeLocations, if_neg notLong, toNat_size fits within,
      List.take_length]
    rfl
  · obtain ⟨first, number, notLong⟩ := byte_numbers fits within (locationSize_of_ne flash)
    rw [if_neg flash, if_pos (spaceCode_ne_zero space), Jtag1.writeLocations, if_neg notLong,
      toNat_size fits within, List.take_length, Order.bytes, first, number]
    rfl

end Session

end Accesses

end Avarice.Mk1.Memory

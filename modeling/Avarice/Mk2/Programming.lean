import Avarice.Mk2.CacheBounds
import Avarice.Mk2.LossyMemory
import Avarice.Programming.Chip

/-!
# Programming mode of the mkII

The commands by which memories, fuses and lock bits are written and read in programming
mode.  Pages are read through the caches.
-/

namespace Avarice.Mk2.Access

open Throwing Memory
open Programming (Request Within pages)

/-! ## Commands -/

def memoryType : Programming.Space → UInt8
  | .memory .flash => mtypeFlashPage
  | .memory .eeprom => mtypeEepromPage
  | .memory .ram => mtypeSram
  | .fuses => mtypeFuseBits
  | .lockBits => mtypeLockBits

def requestCommand : Request → List UInt8
  | .enter => [cmndEnterProgmode]
  | .leave => [cmndLeaveProgmode]
  | .erase => [cmndChipErase]
  | .read space start count => readCommand (memoryType space) count.toUInt32 start.toUInt32
  | .write space start bytes =>
      writeCommand (memoryType space) bytes.length.toUInt32 start.toUInt32 bytes

/-- Requests whose commands can be told apart. -/
def Named (device : Image.Device) : Request → Prop
  | .read space start count => Within device space start count
  | .write space start bytes => Within device space start bytes.length
  | _ => True

/-- A command for what is accessed in programming mode, or for the mode. -/
def RequestCommand (device : Image.Device) (command : List UInt8) : Prop :=
  ∃ request, Named device request ∧ command = requestCommand request

/-! ## Accesses in programming mode -/

structure FitsCaches (device : Image.Device) : Prop where
  flash : device.flashPageSize ≤ maxFlashPageSize
  eeprom : device.eepromPageSize ≤ maxEepromPageSize

section Accesses

variable {Ice : Type} {attempt : List UInt8 → Ice → Attempt × Ice} {d : DeviceDef}
  {supported : d ∈ deviceDefinitions}

theorem memorySpace_offset {device : Image.Device} {space : Programming.Space} {start count : Nat}
    (within : Within device space start count) :
    memorySpace false true (space.offset + start.toUInt64) =
      (memoryType space, start.toUInt64) := by
  rw [memorySpace, within.splitAddress_eq]
  cases space with
  | memory memtype => cases memtype <;> rfl
  | fuses => rfl
  | lockBits => rfl

theorem count_le {device : Image.Device} (fits : FitsCaches device) {space : Programming.Space}
    {start count : Nat} (within : Within device space start count) : count ≤ 256 := by
  cases space with
  | memory memtype =>
      have size := within.2.1
      cases memtype with
      | flash => exact size ▸ fits.flash
      | eeprom => exact size ▸ Nat.le_trans fits.eeprom (by decide)
      | ram => exact absurd rfl within.1.isPaged
  | fuses => exact within.2.1
  | lockBits => exact within.2.1

theorem toNat_size {count : Nat} (few : count ≤ 256) : count.toUInt32.toNat = count :=
  UInt32.toNat_ofNat_of_lt' (Nat.lt_of_le_of_lt few (by decide))

theorem size_ne_zero {count : Nat} (some : 0 < count) (few : count ≤ 256) :
    count.toUInt32 ≠ 0 := fun none => by
  have size := toNat_size few
  rw [none] at size
  exact Nat.ne_of_lt some size

theorem pageSizeOf_memory (supported : d ∈ deviceDefinitions) {memtype : Image.BFDmemoryType}
    (isPaged : memtype ≠ .ram) :
    pageSizeOf d (memoryType (.memory memtype)) =
      ((pages supported).getPageSize memtype).toUInt32 := by
  cases memtype with
  | flash => exact (UInt32.ofNat_toNat).symm
  | eeprom =>
      show d.eepromPageSize.toUInt32 = d.eepromPageSize.toNat.toUInt32
      rw [← UInt32.toNat_inj, UInt8.toNat_toUInt32]
      exact (UInt32.toNat_ofNat_of_lt' (Nat.lt_trans d.eepromPageSize.toNat_lt (by decide))).symm
  | ram => exact absurd rfl isPaged

theorem exists_pageSize (supported : d ∈ deviceDefinitions) {memtype : Image.BFDmemoryType}
    (isPaged : memtype ≠ .ram) :
    ∃ k ≤ 9, (pageSizeOf d (memoryType (.memory memtype))).toNat = 2 ^ k ∧
      (pages supported).getPageSize memtype = 2 ^ k := by
  have paged : memoryType (.memory memtype) = mtypeFlashPage ∨
      memoryType (.memory memtype) = mtypeEepromPage := by
    cases memtype with
    | flash => exact .inl rfl
    | eeprom => exact .inr rfl
    | ram => exact absurd rfl isPaged
  obtain ⟨k, small, power⟩ := pageSizeOf_supported supported paged
  refine ⟨k, small, power, ?_⟩
  rw [← power]
  cases memtype with
  | flash => rfl
  | eeprom => exact (UInt8.toNat_toUInt32 _).symm
  | ram => exact absurd rfl isPaged

theorem pageAddrOf_page {memtype : Image.BFDmemoryType} {start count : Nat}
    (within : Within (pages supported) (.memory memtype) start count) :
    pageAddrOf (pageSizeOf d (memoryType (.memory memtype))) start.toUInt64 = start.toUInt32 := by
  have small := within.start_lt
  obtain ⟨⟨isPaged, aligned, -⟩, -, -⟩ := within
  obtain ⟨k, bound, isSize, power⟩ := exists_pageSize supported isPaged
  have place : start.toUInt64.toNat = start :=
    UInt64.toNat_ofNat_of_lt' (Nat.lt_trans small (by decide))
  have place' : start.toUInt32.toNat = start :=
    UInt32.toNat_ofNat_of_lt' (Nat.lt_trans small (by decide))
  rw [power] at aligned
  rw [← UInt32.toNat_inj, toNat_pageAddrOf isSize bound, place, place',
    Nat.mod_eq_of_lt (Nat.lt_trans small (by decide)),
    Nat.div_mul_cancel (Nat.dvd_of_mod_eq_zero aligned)]

theorem readPages_last {n : Nat} (p : Paging Ice n) (whichSpace : UInt8)
    (pageSize offset targetOffset pageAddr : UInt32) (rounds : Nat) {numBytes : UInt32}
    (some : numBytes ≠ 0) (response : List UInt8) :
    p.readPages attempt whichSpace pageSize offset (rounds + 1) numBytes numBytes targetOffset
        pageAddr response =
      (p.fetch attempt whichSpace pageSize pageAddr).andThen fun _ p =>
        ⟨.some (response ++ p.cache.copy offset.toNat numBytes.toNat),
          { p with
            copies := p.copies ++ [.take offset.toNat numBytes.toNat targetOffset.toNat] }⟩ := by
  rw [Paging.readPages, if_neg some]
  congr 1
  funext _ p
  dsimp only
  rw [UInt32.sub_self, readPages_zero]

/-- A read of one page takes it from the cache, if necessary behind a command. -/
theorem read_page {n : Nat} (fits : FitsCaches (pages supported)) (p : Paging Ice n)
    {memtype : Image.BFDmemoryType} {start count : Nat}
    (within : Within (pages supported) (.memory memtype) start count) :
    p.read attempt (memoryType (.memory memtype)) count.toUInt32 start.toUInt64
        count.toUInt32 =
      (p.fetch attempt (memoryType (.memory memtype)) count.toUInt32 start.toUInt32).andThen
        fun _ p => ⟨some (p.cache.copy 0 count),
          { p with copies := p.copies ++ [.take 0 count 0] }⟩ := by
  have few := count_le fits within
  have size : pageSizeOf d (memoryType (.memory memtype)) = count.toUInt32 := by
    rw [pageSizeOf_memory supported within.1.isPaged, within.2.1]
  obtain ⟨k, bound, isSize, power⟩ := exists_pageSize supported within.1.isPaged
  have place : start.toUInt64.toNat = start :=
    UInt64.toNat_ofNat_of_lt' (Nat.lt_trans within.start_lt (by decide))
  have atPage := pageAddrOf_page within
  have offset := toNat_offset isSize bound start.toUInt64
  have chunk := toNat_firstChunk isSize bound start.toUInt64 count.toUInt32
  have aligned : start % 2 ^ k = 0 := power ▸ within.1.aligned
  have whole : 2 ^ k = count := power ▸ within.2.1.symm
  rw [atPage, place, aligned] at offset
  rw [atPage, place, aligned, toNat_size few, whole, Nat.sub_zero, ite_self, size] at chunk
  obtain ⟨rounds, enough⟩ : ∃ rounds, 2 ^ 32 = rounds + 1 := ⟨2 ^ 32 - 1, rfl⟩
  rw [Paging.read, ← size, atPage, size, UInt32.toNat_inj.mp (chunk.trans (toNat_size few).symm), enough,
    readPages_last _ _ _ _ _ _ _ (size_ne_zero within.positive few), offset, toNat_size few]
  rfl

structure Jtag2.InMode (s : Jtag2 Ice) (d : DeviceDef) : Prop where
  jtag : s.useDebugWire = false
  device : s.device = d
  enabled : s.programmingEnabled = true

variable {s : Jtag2 Ice} (inMode : s.InMode d) (fits : FitsCaches (pages supported))
  {space : Programming.Space} {start : Nat}
include inMode fits

theorem jtagRead_space {count : Nat} (within : Within (pages supported) space start count) :
    s.jtagRead attempt (space.offset + start.toUInt64) count.toUInt32 =
      s.readSpace attempt (memoryType space) start.toUInt64 count.toUInt32 := by
  have decoded : memorySpace s.useDebugWire s.programmingEnabled
      (space.offset + start.toUInt64) = (memoryType space, start.toUInt64) := by
    rw [inMode.jtag, inMode.enabled]
    exact memorySpace_offset within
  rw [Jtag2.jtagRead, if_neg (size_ne_zero within.positive (count_le fits within)), decoded]
  exact inProgmode_of_enabled _ inMode.enabled

theorem jtagRead_unpaged {count : Nat} (within : Within (pages supported) space start count)
    (unpaged : space.Unpaged) :
    s.jtagRead attempt (space.offset + start.toUInt64) count.toUInt32 =
      let call := checkedCommand attempt (requestCommand (.read space start count)) s.ice
      ⟨call.value.map (moveDown 1), { s with ice := call.state }⟩ := by
  rw [jtagRead_space inMode fits within, requestCommand, ← toUInt32_toUInt64 start]
  cases space with
  | memory memtype => exact absurd rfl (unpaged memtype)
  | fuses => rfl
  | lockBits => rfl

theorem jtagWrite_whole {bytes : List UInt8}
    (within : Within (pages supported) space start bytes.length) :
    s.jtagWrite attempt (space.offset + start.toUInt64) bytes =
      let call := checkedCommand attempt (requestCommand (.write space start bytes)) s.ice
      ⟨call.value.map fun _ => (), { s with ice := call.state }⟩ := by
  have decoded : memorySpace s.useDebugWire s.programmingEnabled
      (space.offset + start.toUInt64) = (memoryType space, start.toUInt64) := by
    rw [inMode.jtag, inMode.enabled]
    exact memorySpace_offset within
  have notSpm : ¬(memoryType space = mtypeSpm ∧ start.toUInt64 = 0 ∧ 4 < bytes.length) := by
    rintro ⟨spm, -⟩
    cases space with
    | memory memtype => cases memtype <;> cases spm
    | fuses => cases spm
    | lockBits => cases spm
  rw [Jtag2.jtagWrite, if_neg (Nat.ne_of_gt within.positive), decoded]
  dsimp only
  rw [if_neg notSpm, Called.andThen_of_returned rfl, inProgmode_of_enabled _ inMode.enabled,
    Jtag2.writeSpace, inMode.device, requestCommand]
  cases space with
  | memory memtype =>
      have size : pageSizeOf d (memoryType (.memory memtype)) = bytes.length.toUInt32 := by
        rw [pageSizeOf_memory supported within.1.isPaged, within.2.1]
      have positive : 0 < pageSizeOf d (memoryType (.memory memtype)) := by
        rw [size, UInt32.lt_iff_toNat_lt, toNat_size (count_le fits within)]
        exact within.positive
      have right : ¬(0 < pageSizeOf d (memoryType (.memory memtype)) ∧
          bytes.length.toUInt32 ≠ pageSizeOf d (memoryType (.memory memtype))) :=
        fun both => both.2 size.symm
      dsimp only
      rw [if_neg right, if_pos positive, pageAddrOf_page within, size]
  | fuses => rw [← toUInt32_toUInt64 start]; rfl
  | lockBits => rw [← toUInt32_toUInt64 start]; rfl

end Accesses

end Avarice.Mk2.Access

import Mathlib.Data.Nat.Bitwise
import Avarice.Devices
import Avarice.Gdb.Registers
import Avarice.Image.Programming

/-!
# Chips

What an ICE does with the memories, the fuses and the lock bits of a chip in
programming mode, and what is used of the classes for the two protocols for that.
-/

namespace Avarice.Programming

open Throwing PagedMemory
open Gdb.Registers (Jtag)
open Image (BFDmemoryType bfdMemorySpaceOffset maxImageSize)

inductive Space where
  | memory (memtype : BFDmemoryType)
  | fuses
  | lockBits
  deriving DecidableEq

/-- The fuses or the lock bits, which are not accessed in pages. -/
def Space.Unpaged (space : Space) : Prop := ∀ memtype, space ≠ .memory memtype

def Space.offset : Space → UInt64
  | memory memtype => (bfdMemorySpaceOffset memtype).toUInt64
  | fuses => fuseSpaceAddrOffset
  | lockBits => lockSpaceAddrOffset

structure Programmer (State : Type) extends Jtag State where
  enableProgramming : State → Called State Unit
  disableProgramming : State → Called State Unit
  eraseProgramMemory : State → Called State Unit
  /-- What `downloadToTarget` tells the ICE of the pages. -/
  setPageSizes : Image.Device → State → Called State Unit

def pages {d : DeviceDef} (supported : d ∈ deviceDefinitions) : Image.Device where
  flashPageSize := d.flashPageSize.toNat
  eepromPageSize := d.eepromPageSize.toNat
  flashPages :=
    let ⟨k, small, power⟩ := (deviceDefinitions_sizes d supported).1
    ⟨k, Nat.lt_of_le_of_lt small (by decide), power⟩
  eepromPages :=
    let ⟨k, small, power⟩ := (deviceDefinitions_sizes d supported).2.1
    ⟨k, Nat.lt_of_le_of_lt small (by decide), power⟩

/-! ## What a chip does -/

abbrev Contents := Space → Nat → UInt8

/-- What becomes of a byte that is stored depends on the one before, as bits may be
changed one way only.  Neither storing a byte once more changes anything nor a second
erase. -/
structure Cells where
  merge : Space → UInt8 → UInt8 → UInt8
  erased : Contents → Contents
  merge_merge : ∀ space old new, merge space (merge space old new) new = merge space old new
  erased_erased : ∀ contents, erased (erased contents) = erased contents

structure Chip where
  programming : Bool
  contents : Contents

/-- Bytes are stored where others have been. -/
def merged (merge : UInt8 → UInt8 → UInt8) (memory : Nat → UInt8) (start : Nat)
    (bytes : List UInt8) : Nat → UInt8 :=
  fun address =>
    if start ≤ address then
      (bytes[address - start]?).elim (memory address) (merge (memory address))
    else memory address

def Cells.stored (cells : Cells) (contents : Contents) (space : Space) (start : Nat)
    (bytes : List UInt8) : Contents :=
  Function.update contents space (merged (cells.merge space) (contents space) start bytes)

theorem Cells.stored_other (cells : Cells) (contents : Contents) {space other : Space}
    (different : other ≠ space) (start : Nat) (bytes : List UInt8) :
    cells.stored contents space start bytes other = contents other :=
  Function.update_of_ne different _ _

inductive Request where
  | enter
  | leave
  | erase
  | read (space : Space) (start count : Nat)
  | write (space : Space) (start : Nat) (bytes : List UInt8)

def Request.effect (cells : Cells) (chip : Chip) : Request → Chip
  | enter => { chip with programming := true }
  | leave => { chip with programming := false }
  | erase => { chip with contents := cells.erased chip.contents }
  | read _ _ _ => chip
  | write space start bytes =>
      if chip.programming then { chip with contents := cells.stored chip.contents space start bytes }
      else chip

theorem merged_apply (merge : UInt8 → UInt8 → UInt8) (memory : Nat → UInt8) (i : Nat)
    (byte : UInt8) (address : Nat) :
    merged merge memory i [byte] address =
      if address = i then merge (memory i) byte else memory address := by
  by_cases same : address = i
  · simp [merged, same]
  · rw [if_neg same, merged]
    split
    · rw [List.getElem?_eq_none (by simp; omega)]
      rfl
    · rfl

theorem Cells.merged_merged (cells : Cells) (space : Space) (memory : Nat → UInt8) (start : Nat)
    (bytes : List UInt8) :
    merged (cells.merge space) (merged (cells.merge space) memory start bytes) start bytes =
      merged (cells.merge space) memory start bytes := by
  funext address
  by_cases behind : start ≤ address
  · simp only [merged, if_pos behind]
    cases bytes[address - start]? with
    | none => rfl
    | some byte => exact cells.merge_merge space _ _
  · simp only [merged, if_neg behind]

theorem Request.effect_effect (cells : Cells) (request : Request) (chip : Chip) :
    request.effect cells (request.effect cells chip) = request.effect cells chip := by
  cases request with
  | erase => simp [Request.effect, cells.erased_erased]
  | write space start bytes =>
      cases programming : chip.programming with
      | false => simp [Request.effect, programming]
      | true => simp [Request.effect, programming, Cells.stored, cells.merged_merged]
  | _ => rfl

/-! ## What a class for a protocol does -/

/-- What is accessed at once: a page, or some bytes of the fuses or lock bits. -/
def Within (device : Image.Device) (space : Space) (start count : Nat) : Prop :=
  match space with
  | .memory memtype =>
      device.IsPage memtype start ∧ count = device.getPageSize memtype ∧
        (memtype = .eeprom → start + count ≤ 0x10000)
  | _ => 0 < count ∧ count ≤ 256 ∧ start < 0x10000

theorem within_of_unpaged {device : Image.Device} {space : Space} (unpaged : space.Unpaged)
    {start count : Nat} (some : 0 < count) (few : count ≤ 256) (low : start < 0x10000) :
    Within device space start count := by
  cases space with
  | memory memtype => exact absurd rfl (unpaged memtype)
  | fuses => exact ⟨some, few, low⟩
  | lockBits => exact ⟨some, few, low⟩

section Within

variable {device : Image.Device} {space : Space} {start count : Nat}
  (within : Within device space start count)
include within

theorem Within.positive : 0 < count := by
  cases space with
  | memory memtype => exact within.2.1 ▸ Image.getPageSize_pos device memtype
  | fuses => exact within.1
  | lockBits => exact within.1

theorem Within.start_lt : start < 2 ^ 23 := by
  cases space with
  | memory memtype =>
      have inside := within.1.inside
      have small : maxImageSize < 2 ^ 23 := by decide
      omega
  | fuses => exact Nat.lt_trans within.2.2 (by decide)
  | lockBits => exact Nat.lt_trans within.2.2 (by decide)

theorem Within.splitAddress_eq :
    splitAddress (space.offset + start.toUInt64) = (space.offset, start.toUInt64) := by
  have place : start.toUInt64.toNat = start :=
    UInt64.toNat_ofNat_of_lt' (Nat.lt_trans within.start_lt (by decide))
  have free (low : start < 0x10000) : start.toUInt64 &&& addrSpaceMask = 0 :=
    and_addrSpaceMask (UInt64.lt_iff_toNat_lt.mpr (place.symm ▸ low))
  cases space with
  | memory memtype =>
      cases memtype with
      | flash =>
          have noData : ¬start.toUInt64 &&& dataSpaceAddrOffset ≠ 0 := by
            rw [not_not, ← UInt64.toNat_inj, UInt64.toNat_and, place]
            show start &&& 2 ^ 23 = 0
            rw [Nat.and_two_pow, Nat.testBit_lt_two_pow within.start_lt]
            rfl
          have zero : (Space.memory .flash).offset + start.toUInt64 = start.toUInt64 :=
            UInt64.zero_add _
          rw [zero, splitAddress, if_neg noData]
          rfl
      | eeprom =>
          have inSpace := within.2.2 rfl
          have positive := within.positive
          exact splitAddress_add (by decide) (by decide) (free (by omega))
      | ram => exact absurd rfl within.1.isPaged
  | fuses => exact splitAddress_add (by decide) (by decide) (free within.2.2)
  | lockBits => exact splitAddress_add (by decide) (by decide) (free within.2.2)

end Within

theorem unpaged_fuses : Space.fuses.Unpaged := nofun

theorem unpaged_lockBits : Space.lockBits.Unpaged := nofun

/-- How the state of a class is seen. -/
structure View (State : Type) where
  chip : State → Chip
  /-- The page of a space that is kept after it has been read. -/
  cached : State → Space → Option Nat
  /-- The ICE is ready for requests. -/
  Ready : State → Prop
  /-- The page sizes have been set. -/
  Paged : State → Prop

section View

variable {State : Type} (view : View State)

/-- What is left alone by other calls than reads. -/
structure View.Kept (s after : State) : Prop where
  ready : view.Ready after
  paged : view.Paged s → view.Paged after
  cached : view.cached after = view.cached s

/-- What is left alone by reads of a space. -/
structure View.KeptBut (space : Space) (s after : State) : Prop where
  ready : view.Ready after
  paged : view.Paged s → view.Paged after
  cached : ∀ other, other ≠ space → view.cached after other = view.cached s other

variable {view}

theorem View.Kept.refl {s : State} (ready : view.Ready s) : view.Kept s s := ⟨ready, id, rfl⟩

theorem View.Kept.trans {s middle after : State} (first : view.Kept s middle)
    (second : view.Kept middle after) : view.Kept s after :=
  ⟨second.ready, second.paged ∘ first.paged, second.cached.trans first.cached⟩

theorem View.Kept.but {s after : State} (kept : view.Kept s after) (space : Space) :
    view.KeptBut space s after :=
  ⟨kept.ready, kept.paged, fun other _ => congrFun kept.cached other⟩

theorem View.KeptBut.trans {space : Space} {s middle after : State}
    (first : view.KeptBut space s middle) (second : view.KeptBut space middle after) :
    view.KeptBut space s after :=
  ⟨second.ready, second.paged ∘ first.paged,
    fun other different => (second.cached other different).trans (first.cached other different)⟩

end View

/-- Where an ICE is ready for it, a programmer does what a chip is asked for.  A page
that has been kept may be another one by now. -/
structure Drives {State : Type} (programmer : Programmer State) (device : Image.Device)
    (cells : Cells) (view : View State) : Prop where
  uncached : ∀ s space, space.Unpaged → view.cached s space = none
  enable : ∀ s, view.Ready s →
    Called.Ends
      (fun _ after => view.Kept s after ∧ view.chip after = Request.enter.effect cells (view.chip s))
      (fun after => (view.chip after).contents = (view.chip s).contents)
      (programmer.enableProgramming s)
  disable : ∀ s, view.Ready s →
    Called.Ends
      (fun _ after => view.Kept s after ∧ view.chip after = Request.leave.effect cells (view.chip s))
      (fun after => (view.chip after).contents = (view.chip s).contents)
      (programmer.disableProgramming s)
  erase : ∀ s, view.Ready s →
    Called.Ends
      (fun _ after => view.Kept s after ∧ view.chip after = Request.erase.effect cells (view.chip s))
      (fun after => (view.chip after).contents = (view.chip s).contents ∨
        (view.chip after).contents = cells.erased (view.chip s).contents)
      (programmer.eraseProgramMemory s)
  setPageSizes : ∀ s, view.Ready s →
    Called.Ends (fun _ after => view.Kept s after ∧ view.Paged after ∧ view.chip after = view.chip s)
      (fun after => (view.chip after).contents = (view.chip s).contents)
      (programmer.setPageSizes device s)
  read : ∀ s space start count, view.Ready s → (view.chip s).programming = true →
    Within device space start count →
      Called.Ends
        (fun bytes after => view.KeptBut space s after ∧ view.chip after = view.chip s ∧
          (view.cached after space = view.cached s space ∨
            view.cached after space = some start) ∧
            (view.cached s space ≠ some start → ∀ buffer, bytes = some buffer →
              buffer.take count = slice ((view.chip s).contents space) start count))
        (fun after => (view.chip after).contents = (view.chip s).contents)
        (programmer.jtagRead s (space.offset + start.toUInt64) count.toUInt32)
  write : ∀ s space start bytes, view.Ready s → (view.chip s).programming = true →
    Within device space start bytes.length → (∀ memtype, space = .memory memtype → view.Paged s) →
      Called.Ends
        (fun written after => written = true ∧ view.Kept s after ∧
          view.chip after = (Request.write space start bytes).effect cells (view.chip s))
        (fun after => (view.chip after).contents = (view.chip s).contents ∨
          (view.chip after).contents = cells.stored (view.chip s).contents space start bytes)
        (programmer.jtagWrite s (space.offset + start.toUInt64) bytes)

namespace Drives

variable {State : Type} {programmer : Programmer State} {device : Image.Device} {cells : Cells}
  {view : View State} (drives : Drives programmer device cells view)
include drives

theorem read_unpaged {s : State} (ready : view.Ready s)
    (programming : (view.chip s).programming = true) {space : Space}
    (unpaged : space.Unpaged) {start count : Nat}
    (within : Within device space start count) :
    Called.Ends
      (fun bytes after => view.Kept s after ∧ view.chip after = view.chip s ∧
        ∀ buffer, bytes = some buffer →
          buffer.take count = slice ((view.chip s).contents space) start count)
      (fun after => (view.chip after).contents = (view.chip s).contents)
      (programmer.jtagRead s (space.offset + start.toUInt64) count.toUInt32) := by
  refine (drives.read s space start count ready programming within).imp ?_ fun _ same => same
  rintro bytes after ⟨kept, same, -, presented⟩
  have none : view.cached s space ≠ some start := by
    rw [drives.uncached s space unpaged]
    exact nofun
  refine ⟨⟨kept.ready, kept.paged, ?_⟩, same, presented none⟩
  funext other
  by_cases here : other = space
  · rw [here, drives.uncached after space unpaged, drives.uncached s space unpaged]
  · exact kept.cached other here

end Drives

end Avarice.Programming

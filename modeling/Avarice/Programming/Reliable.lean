import Avarice.Programming.Download

/-!
# Downloads that are not disturbed

Where no call throws, a download is that of a target that keeps what it is given.
-/

namespace Avarice.Programming

open Throwing PagedMemory
open Image (BFDimage BFDmemoryType Device Section Target bfdMemorySpaceOffset createImage
  getPageSize_pos getPageSize_power maxImageSize)

/-- The class for a target. -/
def ofTarget (t : Target) : Programmer t.State where
  jtagRead s addr numBytes := ⟨some (some (t.jtagRead s addr.toNat numBytes.toNat)), s⟩
  jtagWrite s addr buffer :=
    match t.jtagWrite s addr.toNat buffer with
    | some after => ⟨some true, after⟩
    | none => ⟨some false, s⟩
  getProgramCounter s := ⟨some 0, s⟩
  setProgramCounter s _ := ⟨some true, s⟩
  enableProgramming s := ⟨some (), s⟩
  disableProgramming s := ⟨some (), s⟩
  eraseProgramMemory s := ⟨some (), s⟩
  setPageSizes _ s := ⟨some (), s⟩

def Agrees {State : Type} (call : Called State Unit) : Except String State → Prop
  | .ok after => call = ⟨some (), after⟩
  | .error _ => call.value = none

theorem agrees_andThen {State : Type} {call : Called State Unit} {result : Except String State}
    {rest : Unit → State → Called State Unit} {next : State → Except String State}
    (first : Agrees call result) (second : ∀ s, Agrees (rest () s) (next s)) :
    Agrees (call.andThen rest) (result.bind next) := by
  cases result with
  | error message =>
      have threw : call.value = none := first
      rw [Called.andThen_of_threw threw]
      rfl
  | ok after =>
      have returned : call = ⟨some (), after⟩ := first
      rw [returned]
      exact second after

theorem Agrees.andThen_return {State : Type} {call : Called State Unit}
    {result : Except String State} (agrees : Agrees call result) :
    Agrees (call.andThen fun _ s => ⟨some (), s⟩) result := by
  cases result with
  | error message =>
      have threw : call.value = none := agrees
      rw [Called.andThen_of_threw threw]
      rfl
  | ok after =>
      have returned : call = ⟨some (), after⟩ := agrees
      rw [returned]
      rfl

/-- A call returns a value and changes nothing. -/
def Shows {State : Type} (s : State) (call : Called State Bool) (verified : Bool) : Prop :=
  call = ⟨some verified, s⟩

theorem offset_toNat (memtype : BFDmemoryType) {addr : Nat} (inside : addr < maxImageSize) :
    ((Space.memory memtype).offset + addr.toUInt64).toNat = bfdMemorySpaceOffset memtype + addr := by
  have small : bfdMemorySpaceOffset memtype < 2 ^ 24 := by cases memtype <;> decide
  have last : maxImageSize < 2 ^ 24 := by decide
  have first : (bfdMemorySpaceOffset memtype).toUInt64.toNat = bfdMemorySpaceOffset memtype :=
    UInt64.toNat_ofNat_of_lt' (Nat.lt_trans small (by decide))
  have place : addr.toUInt64.toNat = addr :=
    UInt64.toNat_ofNat_of_lt' (Nat.lt_trans (Nat.lt_trans inside last) (by decide))
  rw [Space.offset, UInt64.toNat_add, first, place, Nat.mod_eq_of_lt]
  omega

theorem pageSize_toNat (device : Device) (memtype : BFDmemoryType) :
    (device.getPageSize memtype).toUInt32.toNat = device.getPageSize memtype := by
  obtain ⟨k, bound, power⟩ := getPageSize_power device memtype
  rw [power]
  exact UInt32.toNat_ofNat_of_lt' (Nat.pow_lt_pow_right (by decide) bound)

section Flash

variable {t : Target} {device : Device} {image : BFDimage} {memtype : BFDmemoryType}

theorem lastAddress_le (wellFormed : image.WellFormed device memtype) :
    image.lastAddress ≤ maxImageSize := by
  have positive := getPageSize_pos device memtype
  rcases Nat.eq_zero_or_pos image.lastAddress with none | some
  · rw [none]
    exact Nat.zero_le _
  · have page := wellFormed.pages
      ((image.lastAddress - 1) / device.getPageSize memtype * device.getPageSize memtype)
      (Nat.mul_mod_left _ _)
      (Nat.lt_of_le_of_lt (Nat.div_mul_le_self _ _) (Nat.sub_lt some Nat.one_pos))
    have inside := Nat.lt_div_mul_add positive (a := image.lastAddress - 1)
    omega

theorem writePage_agrees {addr : Nat} (inside : addr < maxImageSize) (s : t.State) :
    Agrees (writePage (ofTarget t) device image memtype addr s)
      (Image.writePage device t image memtype addr s) := by
  rw [writePage, Image.writePage]
  split
  · rfl
  · simp only [ofTarget, offset_toNat memtype inside]
    cases t.jtagWrite s _ _ with
    | none => rfl
    | some after => rfl

theorem verifyPage_shows {addr : Nat} (inside : addr < maxImageSize) (isVerified : Bool)
    (s : t.State) :
    Shows s (verifyPage (ofTarget t) device image memtype addr isVerified s)
      (Image.verifyPage device t image memtype s addr isVerified) := by
  simp only [Shows, verifyPage, Image.verifyPage, ofTarget, offset_toNat memtype inside,
    pageSize_toNat]
  rfl

variable (wellFormed : image.WellFormed device memtype)
include wellFormed

theorem programImage_agrees (s : t.State) :
    Agrees (programImage (ofTarget t) device image memtype s)
      (Image.programImage device t image memtype s) := by
  refine walk_related _ ?_ _ rfl
  intro address below call result agrees
  exact agrees_andThen agrees
    (writePage_agrees (Nat.lt_of_lt_of_le below (lastAddress_le wellFormed)))

theorem verifyImage_shows (s : t.State) :
    Shows s (verifyImage (ofTarget t) device image memtype s)
      (Image.verifyImage device t image memtype s) := by
  refine walk_related _ ?_ _ rfl
  rintro address below _ verified rfl
  exact verifyPage_shows (Nat.lt_of_lt_of_le below (lastAddress_le wellFormed)) verified s

theorem jtagFlashImage_agrees (program verify : Bool) (s : t.State) :
    Agrees (jtagFlashImage (ofTarget t) device image memtype program verify s)
      (Image.jtagFlashImage device t image memtype program verify s) := by
  rw [jtagFlashImage, Image.jtagFlashImage]
  split
  · rfl
  · refine agrees_andThen ?_ ?_
    · cases program with
      | false => rfl
      | true => exact programImage_agrees wellFormed s
    · intro s
      cases verify with
      | false => rfl
      | true =>
          have shown : verifyImage (ofTarget t) device image memtype s =
              ⟨some (Image.verifyImage device t image memtype s), s⟩ :=
            verifyImage_shows wellFormed s
          simp only [if_true, shown, Bool.true_and]
          cases Image.verifyImage device t image memtype s with
          | false => rfl
          | true => rfl

theorem flashIfData_agrees (program verify : Bool) (s : t.State) :
    Agrees (flashIfData (ofTarget t) device image memtype program verify s)
      (Image.flashIfData device t image memtype program verify s) := by
  rw [flashIfData, Image.flashIfData]
  split
  · exact jtagFlashImage_agrees wellFormed program verify s
  · rfl

end Flash

/-- Where no call throws, the download of a file that fits the pages is that to the
target. -/
theorem downloadToTarget_agrees {t : Target} {device : Device} {sections : List Section}
    (fits : FitsPages device sections) (program verify : Bool) (s : t.State) :
    Agrees (downloadToTarget (ofTarget t) device sections program verify s)
      (Image.downloadToTarget device t sections program verify s) := by
  have wellFormed (memtype : BFDmemoryType) (isPaged : memtype ≠ .ram) :
      (createImage memtype sections).WellFormed device memtype :=
    Image.wellFormed_createImage (fits.pages memtype isPaged)
  have flash := flashIfData_agrees (t := t) (wellFormed .flash (by decide)) program verify
  have eeprom := flashIfData_agrees (t := t) (wellFormed .eeprom (by decide)) program verify
  show Agrees ((flashIfData (ofTarget t) device (createImage .flash sections) .flash program
    verify s).andThen fun _ s => (flashIfData (ofTarget t) device (createImage .eeprom sections)
      .eeprom program verify s).andThen fun _ s => ⟨some (), s⟩) _
  exact agrees_andThen (flash s) fun s => (eeprom s).andThen_return

end Avarice.Programming

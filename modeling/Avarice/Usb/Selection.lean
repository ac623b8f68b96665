import Avarice.Library.CString

/-!
# Selecting a USB device

`opendev` of `jtag2usb.cc`: the serial number in the name of the device is
compared, from the right, with those of the devices that are attached.
-/

namespace Avarice.Usb

open CString

abbrev colon : UInt8 := 0x3a

inductive Emulator where
  | jtagice | dragon
  deriving DecidableEq, Repr

abbrev vendorAtmel : UInt16 := 1003

def Emulator.pid : Emulator → UInt16
  | .jtagice => 0x2103
  | .dragon => 0x2107

/-- A configuration, and whether it can be set and its interface be claimed. -/
structure Config where
  bConfigurationValue : UInt8
  bInterfaceNumber : UInt8
  sets : Bool
  claims : Bool
  deriving DecidableEq, Repr

/-- An attached device.  Its serial number is read into the array `string`,
and `beneath` is what lies in front of that array then. -/
structure Device where
  opens : Bool := true
  idVendor : UInt16
  idProduct : UInt16
  string : List UInt8
  config : Option Config
  beneath : Nat → UInt8 := fun _ => 0

def Device.serial (dev : Device) : List UInt8 := content dev.string

/-- `unixCheck(status, …)` throws if the status is negative. -/
def unixCheck (status : Int) : Bool := decide (0 ≤ status)

def serialNumber (jtagDeviceName : List UInt8) : Option (List UInt8) :=
  match jtagDeviceName.idxOf? colon with
  | none => none
  | some index => some (deleteAll colon (jtagDeviceName.drop (index + 1)) 0)

/-- The string at `string + x`, where `x` is the difference of two lengths: it
begins in front of the array if the first one is less. -/
def Device.from (dev : Device) (length : Nat) : List UInt8 :=
  if length ≤ dev.serial.length then dev.serial.drop (dev.serial.length - length)
  else content ((List.range (length - dev.serial.length)).reverse.map dev.beneath ++ dev.serial)

/-- The device that was found, and whether a comparison began outside. -/
structure Search where
  found : Option Device := none
  outside : Bool := false

def Search.visit (serno : Option (List UInt8)) (pid : UInt16) (search : Search)
    (dev : Device) : Search :=
  if dev.opens ∧ dev.idVendor = vendorAtmel ∧ dev.idProduct = pid then
    match serno with
    | none => { search with found := some dev }
    | some serno =>
        { found := if sameIgnoringCase (dev.from serno.length) serno then some dev else none
          outside := search.outside || decide (dev.serial.length < serno.length) }
  else search

def Search.visitBus (serno : Option (List UInt8)) (pid : UInt16) (search : Search) :
    List Device → Search
  | [] => search
  | dev :: later =>
      if search.found.isSome then search
      else visitBus serno pid (search.visit serno pid dev) later

def Search.visitBuses (serno : Option (List UInt8)) (pid : UInt16) (search : Search) :
    List (List Device) → Search
  | [] => search
  | bus :: later =>
      if search.found.isSome then search
      else visitBuses serno pid (search.visitBus serno pid bus) later

structure Opened where
  search : Search
  interface : Option UInt8

def Device.interface (dev : Device) : Option UInt8 :=
  match dev.config with
  | none => none
  | some config => if config.sets ∧ config.claims then some config.bInterfaceNumber else none

/-- The result, unless the check of the name throws. -/
def opendev (jtagDeviceName : List UInt8) (emuType : Emulator) (buses : List (List Device)) :
    Option Opened :=
  let serno := serialNumber jtagDeviceName
  let checked := match serno with
    | none => true
    | some serno => unixCheck (if serno.length ≤ 12 then 1 else 0)
  if checked then
    let search := Search.visitBuses serno emuType.pid {} buses
    some { search, interface := search.found.bind Device.interface }
  else none

/-! ## Selection -/

def candidates (emuType : Emulator) (buses : List (List Device)) : List Device :=
  buses.flatten.filter fun dev =>
    dev.opens ∧ dev.idVendor = vendorAtmel ∧ dev.idProduct = emuType.pid

def nameWith (s : List UInt8) : List UInt8 := [0x75, 0x73, 0x62, 0x3a] ++ s

def digits (s : List UInt8) : List UInt8 := s.filter (· ≠ colon)

/-- A name with too many digits is rejected; otherwise the first device whose
serial number ends with the digits is selected, and no comparison is outside. -/
def Selects (s : List UInt8) (emuType : Emulator) (buses : List (List Device)) : Prop :=
  if 12 < (digits s).length then opendev (nameWith s) emuType buses = none
  else ∃ opened, opendev (nameWith s) emuType buses = some opened ∧
    opened.search.found =
      (candidates emuType buses).find? (fun dev => EndsWith dev.serial (digits s)) ∧
    opened.search.outside = false

/-- There are at most 12 digits, and no device up to the first one whose serial
number ends with them has a shorter serial number. -/
def Comparable (s : List UInt8) (emuType : Emulator) (buses : List (List Device)) : Prop :=
  (digits s).length ≤ 12 ∧
    ∀ dev ∈ (candidates emuType buses).takeWhile
        (fun dev => ¬EndsWith dev.serial (digits s)),
      (digits s).length ≤ dev.serial.length

/-! ## The name -/

theorem serialNumber_nameWith (s : List UInt8) :
    serialNumber (nameWith s) = some (digits s) := by
  have index : (nameWith s).idxOf? colon = some 3 := rfl
  have behind : (nameWith s).drop 4 = s := rfl
  simp [serialNumber, index, behind, deleteAll_eq, digits]

theorem unixCheck_truth (condition : Prop) [Decidable condition] :
    unixCheck (if condition then 1 else 0) = true := by
  split <;> rfl

/-! ## The search -/

section Searching

variable {serno : Option (List UInt8)} {pid : UInt16} {search : Search}

theorem visitBus_of_found (found : search.found.isSome) (bus : List Device) :
    search.visitBus serno pid bus = search := by
  cases bus <;> simp [Search.visitBus, found]

theorem visitBus_append (search : Search) (bus later : List Device) :
    search.visitBus serno pid (bus ++ later) =
      (search.visitBus serno pid bus).visitBus serno pid later := by
  induction bus generalizing search with
  | nil => rfl
  | cons dev rest inductionHypothesis =>
      by_cases found : search.found.isSome
      · simp only [visitBus_of_found found]
      · simp only [List.cons_append, Search.visitBus, found, if_false, Bool.false_eq_true]
        exact inductionHypothesis _

theorem visitBuses_eq (search : Search) (buses : List (List Device)) :
    search.visitBuses serno pid buses = search.visitBus serno pid buses.flatten := by
  induction buses generalizing search with
  | nil => rfl
  | cons bus later inductionHypothesis =>
      rw [List.flatten_cons, visitBus_append, ← inductionHypothesis]
      by_cases found : search.found.isSome
      · rw [visitBus_of_found found]
        cases later <;> simp [Search.visitBuses, found]
      · simp [Search.visitBuses, found]

theorem visitBus_filter (search : Search) (bus : List Device) :
    search.visitBus serno pid bus =
      search.visitBus serno pid (bus.filter fun dev =>
        dev.opens ∧ dev.idVendor = vendorAtmel ∧ dev.idProduct = pid) := by
  induction bus generalizing search with
  | nil => rfl
  | cons dev later inductionHypothesis =>
      by_cases found : search.found.isSome
      · simp only [visitBus_of_found found]
      · by_cases candidate : dev.opens ∧ dev.idVendor = vendorAtmel ∧ dev.idProduct = pid
        · rw [List.filter_cons_of_pos (by simpa using candidate)]
          simp only [Search.visitBus, found, if_false, Bool.false_eq_true]
          exact inductionHypothesis _
        · rw [List.filter_cons_of_neg (by simpa using candidate), ← inductionHypothesis]
          simp [Search.visitBus, found, Search.visit, candidate]

variable {serial : List UInt8}

theorem from_iff {dev : Device} (inside : serial.length ≤ dev.serial.length) :
    sameIgnoringCase (dev.from serial.length) serial = true ↔ EndsWith dev.serial serial := by
  rw [Device.from, if_pos inside, sameIgnoringCase_drop_iff]

theorem outside_kept (outside : search.outside = true) (bus : List Device) :
    (search.visitBus (some serial) pid bus).outside = true := by
  induction bus generalizing search with
  | nil => exact outside
  | cons dev later inductionHypothesis =>
      simp only [Search.visitBus]
      split
      · exact outside
      · apply inductionHypothesis
        simp only [Search.visit]
        split
        · simp [outside]
        · exact outside

theorem visitBus_iff {bus : List Device}
    (all : ∀ dev ∈ bus, dev.opens ∧ dev.idVendor = vendorAtmel ∧ dev.idProduct = pid)
    (inside : search.outside = false) (searching : search.found = none) :
    (search.visitBus (some serial) pid bus).found =
          bus.find? (fun dev => EndsWith dev.serial serial) ∧
        (search.visitBus (some serial) pid bus).outside = false ↔
      ∀ dev ∈ bus.takeWhile (fun dev => ¬EndsWith dev.serial serial),
        serial.length ≤ dev.serial.length := by
  induction bus generalizing search with
  | nil => simp [Search.visitBus, inside, searching]
  | cons dev later inductionHypothesis =>
      obtain ⟨here, rest⟩ := List.forall_mem_cons.mp all
      simp only [Search.visitBus, searching, Option.isSome_none, Bool.false_eq_true, if_false]
      have visited : search.visit (some serial) pid dev =
          { found := if sameIgnoringCase (dev.from serial.length) serial then some dev else none
            outside := decide (dev.serial.length < serial.length) } := by
        simp [Search.visit, here, inside]
      by_cases ends : EndsWith dev.serial serial
      · have long := ends.length_le
        have same := (from_iff long).mpr ends
        have selected : search.visit (some serial) pid dev = { found := some dev } := by
          simp [visited, same, long]
        rw [selected, visitBus_of_found rfl]
        simp [ends]
      · have passed : (dev :: later).takeWhile (fun dev => ¬EndsWith dev.serial serial) =
            dev :: later.takeWhile (fun dev => ¬EndsWith dev.serial serial) := by
          simp [ends]
        rw [passed, List.forall_mem_cons]
        rcases Nat.lt_or_ge dev.serial.length serial.length with short | long
        · have outside : (search.visit (some serial) pid dev).outside = true := by
            simp [visited, short]
          simp [outside_kept outside, Nat.not_le.mpr short]
        · have differs : sameIgnoringCase (dev.from serial.length) serial = false := by
            rw [← Bool.not_eq_true, from_iff long]
            exact ends
          have goesOn : search.visit (some serial) pid dev = {} := by
            simp [visited, differs, long]
          rw [goesOn, List.find?_cons_of_neg (by simpa using ends),
            inductionHypothesis rest rfl rfl]
          simp [long]

end Searching

/-- The device is selected by its serial number if and only if no serial number
that is compared is too short, and the name need not be rejected. -/
theorem selects_iff (s : List UInt8) (emuType : Emulator) (buses : List (List Device)) :
    Selects s emuType buses ↔ Comparable s emuType buses := by
  have all : ∀ dev ∈ candidates emuType buses,
      dev.opens ∧ dev.idVendor = vendorAtmel ∧ dev.idProduct = emuType.pid := by
    intro dev membership
    exact of_decide_eq_true (List.mem_filter.mp membership).2
  have searched := @visitBus_iff emuType.pid {} (digits s) _ all rfl rfl
  rw [candidates, ← visitBus_filter, ← visitBuses_eq] at searched
  have opened : opendev (nameWith s) emuType buses =
      some
        { search := Search.visitBuses (some (digits s)) emuType.pid {} buses
          interface := (Search.visitBuses (some (digits s)) emuType.pid {} buses).found.bind
            Device.interface } := by
    simp only [opendev, serialNumber_nameWith, unixCheck_truth, if_true]
  unfold Selects Comparable
  rw [opened]
  rcases Nat.lt_or_ge 12 (digits s).length with long | short
  · simp [long, Nat.not_le.mpr long]
  · simp only [Nat.not_lt.mpr short, if_false, short, true_and, Option.some.injEq,
      exists_eq_left']
    exact searched

/-- A name with 13 digits is not rejected. -/
theorem selects_fails :
    ¬∀ (s : List UInt8) (emuType : Emulator) (buses : List (List Device)),
      Selects s emuType buses := by
  intro selects
  have rejected := selects (List.replicate 13 0x30) .jtagice []
  rw [Selects, if_pos (by decide), opendev, serialNumber_nameWith] at rejected
  exact Option.some_ne_none _ rejected

end Avarice.Usb

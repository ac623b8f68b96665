import Avarice.Image.Create
import Avarice.Library.PagedMemory
import Avarice.Library.Scan

/-!
# Programming

`jtag_flash_image` writes the pages of an image that need it to a target and
compares the target with the image.  `downloadToTarget` does so for the flash
and for the EEPROM image of a file.
-/

namespace Avarice.Image

open PagedMemory

variable (device : Device)

def Device.pageAddr (addr : Nat) (memtype : BFDmemoryType) : Nat :=
  (addr.toUInt32 &&& ~~~((device.getPageSize memtype).toUInt32 - 1)).toNat

/-- The byte need not be programmed: it is not used, or as it is after an erase. -/
def BFDimage.IsBlank (image : BFDimage) (memtype : BFDmemoryType) (idx : Nat) : Prop :=
  (image.image.peek idx).used = true → memtype = .flash ∧ (image.image.peek idx).val = 0xff

instance (image : BFDimage) (memtype : BFDmemoryType) (idx : Nat) :
    Decidable (image.IsBlank memtype idx) :=
  inferInstanceAs (Decidable (_ → _ ∧ _))

def pageIsEmpty (image : BFDimage) (addr size : Nat) (memtype : BFDmemoryType) : Bool :=
  (Scan.scanFrom
    (fun idx _ => decide (addr + size ≤ idx) || decide (image.lastAddress ≤ idx))
    (fun idx emptyPage =>
      if image.IsBlank memtype idx then .next emptyPage else .leave false)
    size addr true).2

/-! ## The target -/

/-- A target as the program sees it, with the contents behind its addresses. -/
structure Target where
  State : Type
  contents : State → Nat → UInt8
  jtagWrite : State → (addr : Nat) → (buffer : List UInt8) → Option State
  jtagRead : State → (addr numBytes : Nat) → List UInt8

/-- A page of a memory that lies in an image. -/
structure Device.IsPage (memtype : BFDmemoryType) (addr : Nat) : Prop where
  isPaged : memtype ≠ .ram
  aligned : addr % device.getPageSize memtype = 0
  inside : addr + device.getPageSize memtype ≤ maxImageSize

def Target.StoresPages (t : Target) (merge : UInt8 → UInt8 → UInt8) : Prop :=
  ∀ s memtype addr buffer, device.IsPage memtype addr →
    buffer.length = device.getPageSize memtype →
    ∃ after, t.jtagWrite s (bfdMemorySpaceOffset memtype + addr) buffer = some after ∧
      t.contents after =
        overwrite (t.contents s) (bfdMemorySpaceOffset memtype + addr)
          (List.zipWith merge
            (slice (t.contents s) (bfdMemorySpaceOffset memtype + addr)
              (device.getPageSize memtype))
            buffer)

def Target.ReturnsPages (t : Target) : Prop :=
  ∀ s memtype addr, device.IsPage memtype addr →
    t.jtagRead s (bfdMemorySpaceOffset memtype + addr) (device.getPageSize memtype) =
      slice (t.contents s) (bfdMemorySpaceOffset memtype + addr) (device.getPageSize memtype)

/-! ## Programming and verifying -/

section Flash

variable (t : Target) (image : BFDimage) (memtype : BFDmemoryType)

def writePage (addr : Nat) (s : t.State) : Except String t.State :=
  if pageIsEmpty image addr (device.getPageSize memtype) memtype then .ok s
  else
    let buf := (List.range (device.getPageSize memtype)).map fun i =>
      (image.image.peek (i + addr)).val
    match t.jtagWrite s (bfdMemorySpaceOffset memtype + addr) buf with
    | some after => .ok after
    | none => .error "Error writing to target"

/-- The comparison of a page, for the bytes in use. -/
def verifyPage (s : t.State) (addr : Nat) (isVerified : Bool) : Bool :=
  let response :=
    t.jtagRead s (bfdMemorySpaceOffset memtype + addr) (device.getPageSize memtype)
  isVerified && (List.range (device.getPageSize memtype)).all fun i =>
    !(image.image.peek (i + addr)).used || (image.image.peek (i + addr)).val == response.getD i 0

def programImage (s : t.State) : Except String t.State :=
  walk (getPageSize_pos device memtype) image.lastAddress
    (fun addr programmed => programmed.bind (writePage device t image memtype addr))
    (device.pageAddr image.firstAddress memtype) (.ok s)

def verifyImage (s : t.State) : Bool :=
  walk (getPageSize_pos device memtype) image.lastAddress
    (verifyPage device t image memtype s) (device.pageAddr image.firstAddress memtype) true

def jtagFlashImage (program verify : Bool) (s : t.State) : Except String t.State :=
  if image.hasData = false then .error "File contains no data.\n"
  else
    let programmed := if program then programImage device t image memtype s else .ok s
    programmed.bind fun s =>
      if verify && !verifyImage device t image memtype s then .error "\nVerification failed!"
      else .ok s

def flashIfData (program verify : Bool) (s : t.State) : Except String t.State :=
  if image.hasData then jtagFlashImage device t image memtype program verify s else .ok s

end Flash

def downloadToTarget (t : Target) (sections : List Section) (program verify : Bool)
    (s : t.State) : Except String t.State :=
  (flashIfData device t (createImage .flash sections) .flash program verify s).bind
    (flashIfData device t (createImage .eeprom sections) .eeprom program verify)

/-! ## What programming is for -/

def BFDimage.HeldBy (image : BFDimage) (memtype : BFDmemoryType) (contents : Nat → UInt8) :
    Prop :=
  ∀ c, (image.image.peek c).used = true →
    contents (bfdMemorySpaceOffset memtype + c) = (image.image.peek c).val

def BFDimage.InWrittenPage (image : BFDimage) (memtype : BFDmemoryType) (c : Nat) : Prop :=
  ∃ d, d / device.getPageSize memtype = c / device.getPageSize memtype ∧
    ¬ image.IsBlank memtype d

/-! ## Pages -/

section Pages

variable {device} {t : Target} {image : BFDimage} {memtype : BFDmemoryType}

theorem pageAddr_eq {addr : Nat} (small : addr < 2 ^ 32) :
    device.pageAddr addr memtype =
      addr / device.getPageSize memtype * device.getPageSize memtype := by
  obtain ⟨k, bound, power⟩ := getPageSize_power device memtype
  rw [Device.pageAddr, power, toNat_and_not_mask bound, UInt32.toNat_ofNat_of_lt' small]

theorem pageIsEmpty_iff (addr size : Nat) :
    pageIsEmpty image addr size memtype = true ↔
      ∀ idx, addr ≤ idx → idx < addr + size → idx < image.lastAddress →
        image.IsBlank memtype idx := by
  refine Scan.scanFrom_rule
    (fun idx emptyPage => addr ≤ idx ∧ idx ≤ addr + size ∧ emptyPage = true ∧
      ∀ other, addr ≤ other → other < idx → image.IsBlank memtype other)
    (fun _ emptyPage => emptyPage = true ↔
      ∀ idx, addr ≤ idx → idx < addr + size → idx < image.lastAddress →
        image.IsBlank memtype idx)
    ?_ ?_ ?_ size addr true rfl
    ⟨Nat.le_refl _, Nat.le_add_right _ _, rfl, fun other reached before => by omega⟩
  · rintro idx emptyPage ⟨_, _, rfl, blank⟩ stops
    simp only [Bool.or_eq_true, decide_eq_true_eq] at stops
    refine ⟨fun _ other reached inside below => blank other reached ?_, fun _ => rfl⟩
    omega
  · rintro emptyPage _
    simp
  · rintro idx emptyPage inside ⟨reached, _, rfl, blank⟩ goesOn
    simp only [Bool.or_eq_false_iff, decide_eq_false_iff_not, Nat.not_le] at goesOn
    by_cases here : image.IsBlank memtype idx
    · rw [if_pos here, Scan.Turn.meets_next]
      refine ⟨by omega, by omega, rfl, ?_⟩
      intro other above before
      rcases Nat.lt_succ_iff_lt_or_eq.mp before with earlier | rfl
      · exact blank other above earlier
      · exact here
    · rw [if_neg here, Scan.Turn.meets_leave]
      constructor
      · intro impossible
        cases impossible
      · intro all
        exact absurd (all idx reached goesOn.1 goesOn.2) here

theorem mem_page_iff {page c : Nat} (aligned : page % device.getPageSize memtype = 0) :
    c / device.getPageSize memtype = page / device.getPageSize memtype ↔
      page ≤ c ∧ c < page + device.getPageSize memtype := by
  have positive := getPageSize_pos device memtype
  obtain ⟨k, rfl⟩ := Nat.dvd_of_mod_eq_zero aligned
  rw [Nat.mul_div_cancel_left _ positive, Nat.div_eq_iff positive, Nat.mul_comm]
  omega

theorem used_lt_lastAddress (wellFormed : image.WellFormed device memtype) {c : Nat}
    (needed : ¬ image.IsBlank memtype c) :
    image.firstAddress ≤ c ∧ c < image.lastAddress := by
  have used : (image.image.peek c).used = true := by
    by_contra unused
    exact needed fun used => absurd used unused
  exact (wellFormed.used c used).2

theorem pageIsEmpty_eq_false_iff (wellFormed : image.WellFormed device memtype) {page c : Nat}
    (aligned : page % device.getPageSize memtype = 0) (reached : page ≤ c)
    (inside : c < page + device.getPageSize memtype) :
    pageIsEmpty image page (device.getPageSize memtype) memtype = false ↔
      image.InWrittenPage device memtype c := by
  have samePage := (mem_page_iff aligned).mpr ⟨reached, inside⟩
  rw [← Bool.not_eq_true, pageIsEmpty_iff, BFDimage.InWrittenPage, samePage]
  constructor
  · intro notAll
    by_contra none
    apply notAll
    intro idx above below _
    by_contra needed
    exact none ⟨idx, (mem_page_iff aligned).mpr ⟨above, below⟩, needed⟩
  · rintro ⟨idx, same, needed⟩ all
    obtain ⟨above, below⟩ := (mem_page_iff aligned).mp same
    exact needed (all idx above below (used_lt_lastAddress wellFormed needed).2)

theorem inWrittenPage_lt (wellFormed : image.WellFormed device memtype) {c : Nat}
    (needed : image.InWrittenPage device memtype c) : c < maxImageSize := by
  obtain ⟨d, samePage, notBlank⟩ := needed
  have lastByte := (used_lt_lastAddress wellFormed notBlank).2
  have page := wellFormed.pages (d / device.getPageSize memtype * device.getPageSize memtype)
    (Nat.mul_mod_left _ _) (Nat.lt_of_le_of_lt (Nat.div_mul_le_self _ _) lastByte)
  have inside := Nat.lt_div_mul_add (getPageSize_pos device memtype) (a := c)
  rw [samePage] at page
  exact Nat.lt_of_lt_of_le inside page

theorem isPage_of_lt (wellFormed : image.WellFormed device memtype) (isPaged : memtype ≠ .ram)
    {page : Nat} (aligned : page % device.getPageSize memtype = 0)
    (below : page < image.lastAddress) : device.IsPage memtype page :=
  ⟨isPaged, aligned, wellFormed.pages page aligned below⟩

theorem start_of_wellFormed (wellFormed : image.WellFormed device memtype) :
    device.pageAddr image.firstAddress memtype % device.getPageSize memtype = 0 ∧
      ∀ c, image.firstAddress / device.getPageSize memtype ≤ c / device.getPageSize memtype →
        device.pageAddr image.firstAddress memtype ≤ c := by
  have small : image.firstAddress < 2 ^ 32 := Nat.lt_trans wellFormed.first (by decide)
  rw [pageAddr_eq small]
  refine ⟨Nat.mul_mod_left _ _, ?_⟩
  intro c later
  exact Nat.le_trans (Nat.mul_le_mul_right _ later) (Nat.div_mul_le_self _ _)

/-- The effect of programming on the pages below an address: where they are
written, the bytes are merged, and nothing else changes. -/
structure BFDimage.ProgrammedBelow (image : BFDimage) (device : Device) (memtype : BFDmemoryType)
    (merge : UInt8 → UInt8 → UInt8) (before after : Nat → UInt8) (page : Nat) : Prop where
  written : ∀ c < page, image.InWrittenPage device memtype c →
    after (bfdMemorySpaceOffset memtype + c) =
      merge (before (bfdMemorySpaceOffset memtype + c)) (image.image.peek c).val
  unchanged : ∀ x, (∀ c < page, x = bfdMemorySpaceOffset memtype + c →
    ¬ image.InWrittenPage device memtype c) → after x = before x

variable {merge : UInt8 → UInt8 → UInt8}

theorem writePage_programmed (wellFormed : image.WellFormed device memtype)
    (isPaged : memtype ≠ .ram) (stores : t.StoresPages device merge) {page : Nat}
    (aligned : page % device.getPageSize memtype = 0) (below : page < image.lastAddress)
    {before : Nat → UInt8} {s : t.State}
    (programmed : image.ProgrammedBelow device memtype merge before (t.contents s) page) :
    ∃ after, writePage device t image memtype page s = .ok after ∧
      image.ProgrammedBelow device memtype merge before (t.contents after)
        (page + device.getPageSize memtype) := by
  have inPage {c : Nat} := pageIsEmpty_eq_false_iff (c := c) wellFormed aligned
  rw [writePage]
  by_cases empty : pageIsEmpty image page (device.getPageSize memtype) memtype = true
  · refine ⟨s, if_pos empty, ?_⟩
    have notWritten : ∀ c, page ≤ c → c < page + device.getPageSize memtype →
        ¬ image.InWrittenPage device memtype c := by
      intro c reached inside needed
      rw [(inPage reached inside).mpr needed] at empty
      cases empty
    constructor
    · intro c inside needed
      rcases Nat.lt_or_ge c page with earlier | here
      · exact programmed.written c earlier needed
      · exact absurd needed (notWritten c here inside)
    · intro x outside
      exact programmed.unchanged x fun c earlier => outside c (by omega)
  · rw [if_neg empty]
    simp only []
    obtain ⟨after, stored, contents⟩ := stores s memtype page
      ((List.range (device.getPageSize memtype)).map fun i => (image.image.peek (i + page)).val)
      (isPage_of_lt wellFormed isPaged aligned below) (by simp)
    refine ⟨after, by rw [stored], ?_⟩
    constructor
    · intro c inside needed
      rw [contents]
      rcases Nat.lt_or_ge c page with earlier | here
      · rw [overwrite_of_lt (by omega)]
        exact programmed.written c earlier needed
      · obtain ⟨i, rfl⟩ := Nat.exists_eq_add_of_le here
        have same := programmed.unchanged (bfdMemorySpaceOffset memtype + (page + i))
          fun other earlier equal => by omega
        have within : i < device.getPageSize memtype := by omega
        rw [← Nat.add_assoc, overwrite_add (by simpa using within), Nat.add_assoc]
        simp [slice, Nat.add_assoc, same, Nat.add_comm i page]
    · intro x outside
      rw [contents]
      have earlier := programmed.unchanged x fun c earlier => outside c (by omega)
      rcases Nat.lt_or_ge x (bfdMemorySpaceOffset memtype + page) with before | reached
      · rw [overwrite_of_lt before, earlier]
      · rw [overwrite_of_ge, earlier]
        by_contra inside
        simp only [List.length_zipWith, slice_length, List.length_map, List.length_range,
          Nat.min_self, Nat.not_le] at inside
        refine outside (x - bfdMemorySpaceOffset memtype) (by omega) (by omega) ?_
        rw [← inPage (by omega) (by omega)]
        exact Bool.not_eq_true _ ▸ empty

theorem programImage_programmed (wellFormed : image.WellFormed device memtype)
    (isPaged : memtype ≠ .ram) (stores : t.StoresPages device merge) (s : t.State) :
    ∃ after, programImage device t image memtype s = .ok after ∧
      (∀ c, image.InWrittenPage device memtype c →
        t.contents after (bfdMemorySpaceOffset memtype + c) =
          merge (t.contents s (bfdMemorySpaceOffset memtype + c)) (image.image.peek c).val) ∧
      ∀ x, (∀ c, x = bfdMemorySpaceOffset memtype + c →
        ¬ image.InWrittenPage device memtype c) → t.contents after x = t.contents s x := by
  obtain ⟨aligned, lowest⟩ := start_of_wellFormed wellFormed
  have started : ∀ c, image.InWrittenPage device memtype c →
      device.pageAddr image.firstAddress memtype ≤ c := by
    rintro c ⟨d, samePage, needed⟩
    apply lowest
    rw [← samePage]
    exact Nat.div_le_div_right (used_lt_lastAddress wellFormed needed).1
  have round : ∀ page (programmed : Except String t.State), page < image.lastAddress →
      (page % device.getPageSize memtype = 0 ∧ ∃ after, programmed = .ok after ∧
        image.ProgrammedBelow device memtype merge (t.contents s) (t.contents after) page) →
      (page + device.getPageSize memtype) % device.getPageSize memtype = 0 ∧
        ∃ after, programmed.bind (writePage device t image memtype page) = .ok after ∧
          image.ProgrammedBelow device memtype merge (t.contents s) (t.contents after)
            (page + device.getPageSize memtype) := by
    rintro page _ below ⟨aligned, after, rfl, programmed⟩
    obtain ⟨next, written, later⟩ :=
      writePage_programmed wellFormed isPaged stores aligned below programmed
    exact ⟨by rw [Nat.add_mod_right, aligned], next, written, later⟩
  obtain ⟨stop, reached, aligned, after, finished, programmed⟩ :=
    walk_invariant (getPageSize_pos device memtype) round ⟨aligned, s, rfl,
      ⟨fun c early needed => absurd (started c needed) (Nat.not_le.mpr early), fun _ _ => rfl⟩⟩
  have allBelow : ∀ c, image.InWrittenPage device memtype c → c < stop := by
    rintro c ⟨d, samePage, needed⟩
    have positive := getPageSize_pos device memtype
    have before : d < stop := Nat.lt_of_lt_of_le (used_lt_lastAddress wellFormed needed).2 reached
    obtain ⟨k, rfl⟩ := Nat.dvd_of_mod_eq_zero aligned
    rw [Nat.mul_comm, ← Nat.div_lt_iff_lt_mul positive] at before ⊢
    rwa [← samePage]
  refine ⟨after, finished, fun c needed => programmed.written c (allBelow c needed) needed, ?_⟩
  intro x outside
  exact programmed.unchanged x fun c _ => outside c

theorem verifyPage_iff (returns : t.ReturnsPages device) {page : Nat}
    (isPage : device.IsPage memtype page) (s : t.State) (isVerified : Bool) :
    verifyPage device t image memtype s page isVerified = true ↔
      isVerified = true ∧ ∀ c, page ≤ c → c < page + device.getPageSize memtype →
        (image.image.peek c).used = true →
          t.contents s (bfdMemorySpaceOffset memtype + c) = (image.image.peek c).val := by
  rw [verifyPage, returns s memtype page isPage]
  simp only [Bool.and_eq_true, List.all_eq_true, List.mem_range, Bool.or_eq_true,
    Bool.not_eq_true', beq_iff_eq]
  have response : ∀ i < device.getPageSize memtype,
      (slice (t.contents s) (bfdMemorySpaceOffset memtype + page)
        (device.getPageSize memtype)).getD i 0 =
        t.contents s (bfdMemorySpaceOffset memtype + (page + i)) := by
    intro i within
    simp [slice, within, Nat.add_assoc]
  constructor
  · rintro ⟨verified, all⟩
    refine ⟨verified, ?_⟩
    intro c reached inside used
    obtain ⟨i, rfl⟩ := Nat.exists_eq_add_of_le reached
    have within : i < device.getPageSize memtype := by omega
    rcases all i within with unused | equal
    · rw [Nat.add_comm i page, used] at unused
      cases unused
    · rw [response i within, Nat.add_comm i page] at equal
      exact equal.symm
  · rintro ⟨verified, all⟩
    refine ⟨verified, ?_⟩
    intro i within
    rw [response i within, Nat.add_comm i page]
    cases used : (image.image.peek (page + i)).used with
    | false => exact Or.inl rfl
    | true => exact Or.inr (all (page + i) (by omega) (by omega) used).symm

theorem verifyImage_iff (wellFormed : image.WellFormed device memtype)
    (isPaged : memtype ≠ .ram) (returns : t.ReturnsPages device) (s : t.State) :
    verifyImage device t image memtype s = true ↔ image.HeldBy memtype (t.contents s) := by
  obtain ⟨aligned, lowest⟩ := start_of_wellFormed wellFormed
  have round : ∀ page (isVerified : Bool), page < image.lastAddress →
      (page % device.getPageSize memtype = 0 ∧ (isVerified = true ↔
        ∀ c < page, (image.image.peek c).used = true →
          t.contents s (bfdMemorySpaceOffset memtype + c) = (image.image.peek c).val)) →
      ((page + device.getPageSize memtype) % device.getPageSize memtype = 0 ∧
        (verifyPage device t image memtype s page isVerified = true ↔
          ∀ c < page + device.getPageSize memtype, (image.image.peek c).used = true →
            t.contents s (bfdMemorySpaceOffset memtype + c) = (image.image.peek c).val)) := by
    rintro page isVerified below ⟨aligned, earlier⟩
    refine ⟨by rw [Nat.add_mod_right, aligned], ?_⟩
    rw [verifyPage_iff returns (isPage_of_lt wellFormed isPaged aligned below), earlier]
    constructor
    · rintro ⟨before, here⟩ c inside
      rcases Nat.lt_or_ge c page with less | reached
      · exact before c less
      · exact here c reached inside
    · intro all
      exact ⟨fun c less => all c (by omega), fun c _ inside => all c inside⟩
  have started : true = true ↔ ∀ c < device.pageAddr image.firstAddress memtype,
      (image.image.peek c).used = true →
        t.contents s (bfdMemorySpaceOffset memtype + c) = (image.image.peek c).val := by
    refine ⟨fun _ c early used => ?_, fun _ => rfl⟩
    have reached := lowest c (Nat.div_le_div_right (wellFormed.used c used).2.1)
    exact absurd reached (Nat.not_le.mpr early)
  obtain ⟨stop, reached, _, all⟩ :=
    walk_invariant (getPageSize_pos device memtype) round ⟨aligned, started⟩
  rw [verifyImage, all]
  constructor
  · intro below c used
    exact below c (Nat.lt_of_lt_of_le (wellFormed.used c used).2.2 reached) used
  · intro held c _ used
    exact held c used

theorem heldBy_of_no_data (wellFormed : image.WellFormed device memtype)
    (noData : image.hasData = false) (contents : Nat → UInt8) :
    image.HeldBy memtype contents := by
  intro c used
  rw [wellFormed.hasData, (wellFormed.used c used).1] at noData
  cases noData

theorem flashIfData_verify (wellFormed : image.WellFormed device memtype)
    (isPaged : memtype ≠ .ram) (returns : t.ReturnsPages device) (s after : t.State) :
    flashIfData device t image memtype false true s = .ok after ↔
      after = s ∧ image.HeldBy memtype (t.contents s) := by
  have verified := verifyImage_iff wellFormed isPaged returns s
  rw [flashIfData]
  cases data : image.hasData with
  | false =>
      have held := heldBy_of_no_data wellFormed data (t.contents s)
      simp only [held, and_true, Bool.false_eq_true, if_false, Except.ok.injEq]
      exact eq_comm
  | true =>
      simp only [if_true, jtagFlashImage, data, Bool.true_eq_false, if_false, Except.bind,
        Bool.true_and]
      cases outcome : verifyImage device t image memtype s with
      | false =>
          have notHeld : ¬ image.HeldBy memtype (t.contents s) := by
            rw [← verified, outcome]
            decide
          simp [outcome, notHeld]
      | true =>
          have held := verified.mp outcome
          simp only [outcome, held, Bool.not_true, Bool.false_eq_true, if_false, and_true,
            Except.ok.injEq]
          exact eq_comm

theorem flashIfData_program (wellFormed : image.WellFormed device memtype)
    (isPaged : memtype ≠ .ram) (stores : t.StoresPages device fun _ new => new)
    (returns : t.ReturnsPages device) (s : t.State)
    (erased : memtype = .flash →
      ∀ c < maxImageSize, t.contents s (bfdMemorySpaceOffset memtype + c) = 0xff)
    (verify : Bool) :
    ∃ after, flashIfData device t image memtype true verify s = .ok after ∧
      image.HeldBy memtype (t.contents after) ∧
      ∀ x, (∀ c < maxImageSize, x ≠ bfdMemorySpaceOffset memtype + c) →
        t.contents after x = t.contents s x := by
  rw [flashIfData]
  cases data : image.hasData with
  | false =>
      exact ⟨s, rfl, heldBy_of_no_data wellFormed data _, fun _ _ => rfl⟩
  | true =>
      obtain ⟨after, programmed, written, unchanged⟩ :=
        programImage_programmed wellFormed isPaged stores s
      have small : ∀ c, (image.image.peek c).used = true → c < maxImageSize := by
        intro c used
        by_contra outside
        rw [CArray.peek_of_le (Nat.not_lt.mp outside)] at used
        cases used
      have held : image.HeldBy memtype (t.contents after) := by
        intro c used
        by_cases needed : image.InWrittenPage device memtype c
        · exact written c needed
        · have blank : image.IsBlank memtype c := by
            by_contra notBlank
            exact needed ⟨c, rfl, notBlank⟩
          obtain ⟨isFlash, value⟩ := blank used
          rw [unchanged _ fun other same => by
            rwa [Nat.add_left_cancel same] at needed, erased isFlash c (small c used), value]
      have verified := (verifyImage_iff wellFormed isPaged returns after).mpr held
      refine ⟨after, ?_, held, ?_⟩
      · simp [jtagFlashImage, data, programmed, verified, Except.bind]
      · intro x outside
        apply unchanged
        rintro c rfl needed
        exact outside c (inWrittenPage_lt wellFormed needed) rfl

end Pages

/-! ## A whole download -/

/-- A download gives a target with erased flash the bytes of all sections, the
last one's where several have an address; the verification passes, and it
passes only on a target that has every byte in use. -/
theorem download_holds (t : Target) (stores : t.StoresPages device fun _ new => new)
    (returns : t.ReturnsPages device) (sections : List Section)
    (fit : ∀ memtype, memtype ≠ .ram → ∀ s ∈ sections, s.PagesFit device memtype)
    (s : t.State) (erased : ∀ c < maxImageSize, t.contents s c = 0xff) :
    (∀ memtype, memtype ≠ .ram → ∀ c, (createImage memtype sections).image.peek c =
      ((byteAt memtype c sections).map (⟨·, true⟩)).getD ⟨0x00, false⟩) ∧
    (∀ verify, ∃ after, downloadToTarget device t sections true verify s = .ok after ∧
      ∀ memtype, memtype ≠ .ram →
        (createImage memtype sections).HeldBy memtype (t.contents after)) ∧
    ∀ other, (∃ after, downloadToTarget device t sections false true other = .ok after) ↔
      ∀ memtype, memtype ≠ .ram →
        (createImage memtype sections).HeldBy memtype (t.contents other) := by
  have wellFormed : ∀ memtype, memtype ≠ .ram →
      (createImage memtype sections).WellFormed device memtype :=
    fun memtype isPaged => wellFormed_createImage (fit memtype isPaged)
  have flash := wellFormed .flash (by decide)
  have eeprom := wellFormed .eeprom (by decide)
  refine ⟨fun memtype isPaged => createImage_peek (fit memtype isPaged), ?_, ?_⟩
  · intro verify
    have erasedFlash : ∀ c < maxImageSize,
        t.contents s (bfdMemorySpaceOffset .flash + c) = 0xff := by
      intro c inside
      rw [flash_offset_add]
      exact erased c inside
    obtain ⟨middle, first, flashHeld, _⟩ := flashIfData_program flash (by decide) stores returns s
      (fun _ => erasedFlash) verify
    obtain ⟨after, second, eepromHeld, kept⟩ := flashIfData_program eeprom (by decide) stores
      returns middle (fun isFlash => by cases isFlash) verify
    refine ⟨after, by rw [downloadToTarget, first]; exact second, ?_⟩
    intro memtype isPaged
    cases memtype with
    | flash =>
        intro c used
        rw [kept, flashHeld c used]
        intro other _ same
        have inside : c < maxImageSize := by
          by_contra outside
          rw [CArray.peek_of_le (Nat.not_lt.mp outside)] at used
          cases used
        have small : c < 1000000 := inside
        have apart : 0 + c = 0x810000 + other := same
        omega
    | eeprom => exact eepromHeld
    | ram => exact absurd rfl isPaged
  · intro other
    constructor
    · rintro ⟨after, done⟩ memtype isPaged
      rw [downloadToTarget] at done
      cases first : flashIfData device t (createImage .flash sections) .flash false true other with
      | error message =>
          rw [first] at done
          cases done
      | ok middle =>
          obtain ⟨rfl, flashHeld⟩ := (flashIfData_verify flash (by decide) returns _ _).mp first
          rw [first] at done
          obtain ⟨_, eepromHeld⟩ := (flashIfData_verify eeprom (by decide) returns _ _).mp done
          cases memtype with
          | flash => exact flashHeld
          | eeprom => exact eepromHeld
          | ram => exact absurd rfl isPaged
    · intro held
      have first := (flashIfData_verify flash (by decide) returns other other).mpr
        ⟨rfl, held .flash (by decide)⟩
      have second := (flashIfData_verify eeprom (by decide) returns other other).mpr
        ⟨rfl, held .eeprom (by decide)⟩
      exact ⟨other, by rw [downloadToTarget, first]; exact second⟩

/-- A memory that merges what is written into what it has. -/
def Target.merging (merge : UInt8 → UInt8 → UInt8) : Target where
  State := Nat → UInt8
  contents s := s
  jtagWrite s addr buffer :=
    some (overwrite s addr (List.zipWith merge (slice s addr buffer.length) buffer))
  jtagRead s addr numBytes := slice s addr numBytes

theorem merging_storesPages (merge : UInt8 → UInt8 → UInt8) :
    (Target.merging merge).StoresPages device merge := by
  intro s memtype addr buffer _ length
  refine ⟨_, rfl, ?_⟩
  rw [length]
  rfl

theorem merging_returnsPages (merge : UInt8 → UInt8 → UInt8) :
    (Target.merging merge).ReturnsPages device :=
  fun _ _ _ _ => rfl

def smallPages : Device where
  flashPageSize := 4
  eepromPageSize := 2
  flashPages := ⟨2, by decide, rfl⟩
  eepromPages := ⟨1, by decide, rfl⟩

def overlapping : List Section :=
  [⟨2, true, true, true, [1, 2, 3], by decide⟩, ⟨4, true, true, true, [0xff, 9], by decide⟩,
    ⟨0x810001, true, true, false, [7], by decide⟩]

theorem overlapping_fit (memtype : BFDmemoryType) (isPaged : memtype ≠ .ram) :
    ∀ s ∈ overlapping, s.PagesFit smallPages memtype := by
  have ends : ∀ s ∈ overlapping, getSectionAddr s memtype ≠ noSectionAddr →
      getSectionAddr s memtype + s.contents.length ≤ 6 := by
    cases memtype <;> decide
  have sizes : smallPages.getPageSize memtype ≤ 4 := by
    cases memtype <;> decide
  intro s listed found page _ before
  have bound := ends s listed found
  show page + smallPages.getPageSize memtype ≤ 1000000
  omega

theorem download_holds_overlapping :
    ∃ after : Nat → UInt8,
      downloadToTarget smallPages (.merging fun _ new => new) overlapping true true
        (fun _ => (0xff : UInt8)) = .ok after ∧
      after 2 = 1 ∧ after 3 = 2 ∧ after 4 = 0xff ∧ after 5 = 9 ∧ after 0x810001 = 7 := by
  obtain ⟨bytes, programmed, _⟩ := download_holds smallPages (.merging fun _ new => new)
    (merging_storesPages smallPages _) (merging_returnsPages smallPages _) overlapping
    overlapping_fit (fun _ => (0xff : UInt8)) fun _ _ => rfl
  obtain ⟨after, done, held⟩ := programmed true
  have flash := held .flash (by decide)
  have eeprom := held .eeprom (by decide)
  have flashBytes := bytes .flash (by decide)
  have eepromBytes := bytes .eeprom (by decide)
  simp only [BFDimage.HeldBy, flashBytes, eepromBytes] at flash eeprom
  exact ⟨after, done, flash 2 rfl, flash 3 rfl, flash 4 rfl, flash 5 rfl, eeprom 1 rfl⟩

end Avarice.Image

import Avarice.AddressSpace
import Avarice.Library.CArray

/-!
# Images

The images that `jtag_create_image` builds from the sections of a file, in the
same way for both protocols.  An image has a byte for each address of a memory
and remembers which ones come from a section.
-/

namespace Avarice.Image

/-- Target memory types. -/
inductive BFDmemoryType where
  | flash
  | eeprom
  | ram
  deriving DecidableEq

def bfdMemorySpaceOffset : BFDmemoryType → Nat
  | .flash => flashSpaceAddrOffset.toNat
  | .eeprom => eepromSpaceAddrOffset.toNat
  | .ram => dataSpaceAddrOffset.toNat

theorem flash_offset_add (c : Nat) : bfdMemorySpaceOffset .flash + c = c := Nat.zero_add c

abbrev maxImageSize : Nat := 1000000

structure Device where
  flashPageSize : Nat
  eepromPageSize : Nat
  flashPages : ∃ k < 32, flashPageSize = 2 ^ k
  eepromPages : ∃ k < 32, eepromPageSize = 2 ^ k

def Device.getPageSize (device : Device) : BFDmemoryType → Nat
  | .flash => device.flashPageSize
  | .eeprom => device.eepromPageSize
  | .ram => 1

/-- A section of a file.  Above the EEPROM addresses its memory type would be a
variable that has not been set. -/
structure Section where
  lma : UInt64
  hasContents : Bool
  alloc : Bool
  load : Bool
  contents : List UInt8
  below : lma < fuseSpaceAddrOffset

def Section.sectmemtype (s : Section) : BFDmemoryType :=
  if s.lma < dataSpaceAddrOffset then .flash
  else if s.lma < eepromSpaceAddrOffset then .ram
  else .eeprom

abbrev noSectionAddr : Nat := 0xffffff

def getSectionAddr (s : Section) (memtype : BFDmemoryType) : Nat :=
  if s.hasContents && (s.alloc || s.load) then
    if memtype = s.sectmemtype then
      if s.sectmemtype = .flash then s.lma.toNat else (s.lma &&& ~~~addrSpaceMask).toNat
    else noSectionAddr
  else noSectionAddr

structure AVRMemoryByte where
  val : UInt8
  used : Bool
  deriving DecidableEq

instance : Inhabited AVRMemoryByte := ⟨⟨0x00, false⟩⟩

structure BFDimage where
  image : CArray AVRMemoryByte maxImageSize
  lastAddress : Nat
  firstAddress : Nat
  firstAddressOk : Bool
  hasData : Bool

def initImage : BFDimage where
  image := CArray.fill _ ⟨0x00, false⟩
  lastAddress := 0
  firstAddress := 0
  firstAddressOk := false
  hasData := false

/-- The loop that copies a section and marks its bytes as used. -/
def copySection (image : CArray AVRMemoryByte maxImageSize) (addr : Nat) (buf : List UInt8) :
    CArray AVRMemoryByte maxImageSize :=
  image.pokeAll addr (buf.map (⟨·, true⟩))

def jtagCreateImage (memtype : BFDmemoryType) (image : BFDimage) (s : Section) : BFDimage :=
  let addr := getSectionAddr s memtype
  let size := s.contents.length
  if addr ≠ noSectionAddr then
    { image := copySection image.image addr s.contents
      lastAddress := if image.lastAddress < addr + size then addr + size else image.lastAddress
      firstAddress :=
        if image.firstAddressOk = false ∨ addr < image.firstAddress then addr
        else image.firstAddress
      firstAddressOk := true
      hasData := true }
  else image

def createImage (memtype : BFDmemoryType) (sections : List Section) : BFDimage :=
  sections.foldl (jtagCreateImage memtype) initImage

/-! ## What an image is to hold -/

def Section.byteAt (s : Section) (memtype : BFDmemoryType) (c : Nat) : Option UInt8 :=
  let addr := getSectionAddr s memtype
  if addr ≠ noSectionAddr ∧ addr ≤ c then s.contents[c - addr]? else none

/-- The byte for an address of a memory, from the last section that has one. -/
def byteAt (memtype : BFDmemoryType) (c : Nat) : List Section → Option UInt8
  | [] => none
  | s :: rest => (byteAt memtype c rest).or (s.byteAt memtype c)

def Section.PagesFit (device : Device) (memtype : BFDmemoryType) (s : Section) : Prop :=
  getSectionAddr s memtype ≠ noSectionAddr →
    ∀ page, page % device.getPageSize memtype = 0 →
      page < getSectionAddr s memtype + s.contents.length →
      page + device.getPageSize memtype ≤ maxImageSize

/-- The bytes in use lie between the addresses that the image remembers, and
the pages below the last one lie in the image. -/
structure BFDimage.WellFormed (device : Device) (memtype : BFDmemoryType) (image : BFDimage) :
    Prop where
  used : ∀ c, (image.image.peek c).used = true →
    image.firstAddressOk = true ∧ image.firstAddress ≤ c ∧ c < image.lastAddress
  hasData : image.hasData = image.firstAddressOk
  pages : ∀ page, page % device.getPageSize memtype = 0 → page < image.lastAddress →
    page + device.getPageSize memtype ≤ maxImageSize
  first : image.firstAddress < 2 ^ 24

/-! ## Page sizes -/

section Sizes

variable (device : Device) (memtype : BFDmemoryType)

theorem getPageSize_power : ∃ k < 32, device.getPageSize memtype = 2 ^ k := by
  cases memtype with
  | flash => exact device.flashPages
  | eeprom => exact device.eepromPages
  | ram => exact ⟨0, by decide, rfl⟩

theorem getPageSize_pos : 0 < device.getPageSize memtype := by
  obtain ⟨k, _, power⟩ := getPageSize_power device memtype
  rw [power]
  exact Nat.two_pow_pos k

end Sizes

/-! ## Copying a section -/

section Create

variable {device : Device} {memtype : BFDmemoryType}

theorem getSectionAddr_lt (s : Section) (memtype : BFDmemoryType) :
    getSectionAddr s memtype < 2 ^ 24 := by
  have below : s.lma.toNat < 0x820000 := s.below
  have masked : (s.lma &&& ~~~addrSpaceMask).toNat ≤ s.lma.toNat := by
    rw [UInt64.toNat_and]
    exact Nat.and_le_left
  rw [getSectionAddr]
  split
  · split
    · split <;> omega
    · decide
  · decide

theorem copySection_peek (image : CArray AVRMemoryByte maxImageSize) (addr : Nat)
    (bytes : List UInt8) (inside : bytes ≠ [] → addr + bytes.length ≤ maxImageSize) (c : Nat) :
    (copySection image addr bytes).peek c =
      ((if addr ≤ c then bytes[c - addr]? else none).map (⟨·, true⟩)).getD (image.peek c) := by
  have within : ∀ i < (bytes.map (AVRMemoryByte.mk · true)).length, addr + i < maxImageSize := by
    intro i small
    rw [List.length_map] at small
    have bound := inside (List.ne_nil_of_length_pos (Nat.zero_lt_of_lt small))
    omega
  rw [copySection, CArray.peek_pokeAll _ _ within, List.getElem?_map]
  split <;> rfl

theorem jtagCreateImage_peek (image : BFDimage) (s : Section)
    (inside : getSectionAddr s memtype ≠ noSectionAddr → s.contents ≠ [] →
      getSectionAddr s memtype + s.contents.length ≤ maxImageSize) (c : Nat) :
    (jtagCreateImage memtype image s).image.peek c =
      ((s.byteAt memtype c).map (⟨·, true⟩)).getD (image.image.peek c) := by
  rw [jtagCreateImage, Section.byteAt]
  by_cases found : getSectionAddr s memtype ≠ noSectionAddr
  · rw [if_pos found]
    show (copySection image.image _ s.contents).peek c = _
    rw [copySection_peek _ _ _ (inside found)]
    by_cases reached : getSectionAddr s memtype ≤ c
    · rw [if_pos reached, if_pos ⟨found, reached⟩]
    · rw [if_neg reached, if_neg fun both => reached both.2]
  · rw [if_neg found, if_neg fun both => found both.1]
    rfl

theorem end_of_pagesFit {s : Section} (fits : s.PagesFit device memtype)
    (found : getSectionAddr s memtype ≠ noSectionAddr) (some : s.contents ≠ []) :
    getSectionAddr s memtype + s.contents.length ≤ maxImageSize := by
  have positive := getPageSize_pos device memtype
  have length : 0 < s.contents.length := List.length_pos_iff.mpr some
  have lastByte := Nat.div_add_mod (getSectionAddr s memtype + s.contents.length - 1)
    (device.getPageSize memtype)
  have offset := Nat.mod_lt (getSectionAddr s memtype + s.contents.length - 1) positive
  have bound := fits found _ (Nat.mul_mod_right _ _) (by omega :
    device.getPageSize memtype * ((getSectionAddr s memtype + s.contents.length - 1) /
      device.getPageSize memtype) < _)
  omega

theorem wellFormed_initImage : initImage.WellFormed device memtype where
  used c used := by
    rw [initImage, CArray.peek_fill] at used
    split at used <;> cases used
  hasData := rfl
  pages page _ before := absurd before (Nat.not_lt_zero page)
  first := by decide

theorem byteAt_lt {s : Section} {c : Nat} {byte : UInt8} (has : s.byteAt memtype c = some byte) :
    getSectionAddr s memtype ≠ noSectionAddr ∧ getSectionAddr s memtype ≤ c ∧
      c < getSectionAddr s memtype + s.contents.length := by
  rw [Section.byteAt] at has
  split at has
  next both =>
      obtain ⟨inside, _⟩ := List.getElem?_eq_some_iff.mp has
      have reached := both.2
      exact ⟨both.1, reached, by omega⟩
  next => cases has

theorem wellFormed_jtagCreateImage {image : BFDimage} {s : Section}
    (wellFormed : image.WellFormed device memtype) (fits : s.PagesFit device memtype) :
    (jtagCreateImage memtype image s).WellFormed device memtype := by
  by_cases found : getSectionAddr s memtype ≠ noSectionAddr
  · have created := jtagCreateImage_peek image s fun _ => end_of_pagesFit fits found
    constructor
    · intro c used
      rw [created c] at used
      rw [jtagCreateImage, if_pos found]
      refine ⟨rfl, ?_⟩
      show (if image.firstAddressOk = false ∨ getSectionAddr s memtype < image.firstAddress
          then getSectionAddr s memtype else image.firstAddress) ≤ c ∧
        c < (if image.lastAddress < getSectionAddr s memtype + s.contents.length
          then getSectionAddr s memtype + s.contents.length else image.lastAddress)
      cases has : s.byteAt memtype c with
      | some byte =>
          obtain ⟨_, reached, inside⟩ := byteAt_lt has
          constructor <;> split <;> omega
      | none =>
          rw [has] at used
          obtain ⟨first, reached, inside⟩ := wellFormed.used c used
          constructor
          · split
            next lower =>
                rcases lower with unset | lower
                · rw [first] at unset
                  cases unset
                · omega
            next => exact reached
          · split <;> omega
    · rw [jtagCreateImage, if_pos found]
    · intro page aligned before
      rw [jtagCreateImage, if_pos found] at before
      change page < (if _ then _ else _) at before
      split at before
      · exact fits found page aligned before
      · exact wellFormed.pages page aligned before
    · rw [jtagCreateImage, if_pos found]
      show (if _ then _ else _) < 2 ^ 24
      split
      · exact getSectionAddr_lt s memtype
      · exact wellFormed.first
  · rw [jtagCreateImage, if_neg found]
    exact wellFormed

theorem foldl_jtagCreateImage {sections : List Section}
    (fit : ∀ s ∈ sections, s.PagesFit device memtype) {image : BFDimage}
    (wellFormed : image.WellFormed device memtype) :
    (sections.foldl (jtagCreateImage memtype) image).WellFormed device memtype ∧
      ∀ c, (sections.foldl (jtagCreateImage memtype) image).image.peek c =
        ((byteAt memtype c sections).map (⟨·, true⟩)).getD (image.image.peek c) := by
  induction sections generalizing image with
  | nil => exact ⟨wellFormed, fun _ => rfl⟩
  | cons s rest inductionHypothesis =>
      obtain ⟨here, later⟩ := List.forall_mem_cons.mp fit
      obtain ⟨after, bytes⟩ := inductionHypothesis later
        (wellFormed_jtagCreateImage wellFormed here)
      refine ⟨after, ?_⟩
      intro c
      rw [List.foldl_cons, bytes c, jtagCreateImage_peek image s
        fun found => end_of_pagesFit here found, byteAt]
      cases byteAt memtype c rest <;> rfl

theorem wellFormed_createImage {sections : List Section}
    (fit : ∀ s ∈ sections, s.PagesFit device memtype) :
    (createImage memtype sections).WellFormed device memtype :=
  (foldl_jtagCreateImage fit wellFormed_initImage).1

theorem createImage_peek {sections : List Section}
    (fit : ∀ s ∈ sections, s.PagesFit device memtype) (c : Nat) :
    (createImage memtype sections).image.peek c =
      ((byteAt memtype c sections).map (⟨·, true⟩)).getD ⟨0x00, false⟩ := by
  rw [createImage, (foldl_jtagCreateImage fit wellFormed_initImage).2 c, initImage,
    CArray.peek_fill]
  split <;> rfl

end Create

end Avarice.Image

import Avarice.Image.Create

/-!
# Bounds of the images

The images made from any sections at all.  A section may lie at any address and
have any size, and above the EEPROM addresses its memory type is a variable that
has not been set.
-/

namespace Avarice.Image

/-- A section of a file, of which nothing is promised. -/
structure FileSection where
  lma : UInt64
  hasContents : Bool
  alloc : Bool
  load : Bool
  contents : List UInt8

/-- What one call of `jtag_create_image` copies to the buffer, and from there to
the image. -/
structure Copied where
  s : FileSection
  memtype : BFDmemoryType
  addr : UInt32

/-- An image that is being made, with the buffer and the copies so far. -/
structure Build where
  image : BFDimage
  buf : CArray UInt8 maxImageSize
  copied : List Copied

namespace FileSection

def loadable (s : FileSection) : Bool :=
  s.hasContents && (s.alloc || s.load)

def size (s : FileSection) : UInt32 :=
  UInt32.ofNat s.contents.length

/-- The memory type of a section, which is what the variable held before where
no branch sets it. -/
def sectmemtype (s : FileSection) (unset : Option BFDmemoryType) : Option BFDmemoryType :=
  if s.lma < dataSpaceAddrOffset then some .flash
  else if s.lma < eepromSpaceAddrOffset then some .ram
  else if s.lma < fuseSpaceAddrOffset then some .eeprom
  else unset

def getSectionAddr (s : FileSection) (memtype : BFDmemoryType) (unset : Option BFDmemoryType) :
    UInt32 :=
  if s.loadable then
    if some memtype = s.sectmemtype unset then
      if s.sectmemtype unset = some .flash then s.lma.toUInt32
      else (s.lma &&& ~~~addrSpaceMask).toUInt32
    else 0xffffff
  else 0xffffff

/-- The loop that copies the buffer to the image.  The index of a byte is a sum
of 32 bits. -/
def copyBuffer (size addr : UInt32) (buf : CArray UInt8 maxImageSize)
    (image : CArray AVRMemoryByte maxImageSize) : CArray AVRMemoryByte maxImageSize :=
  (List.range size.toNat).foldl
    (fun image i => image.poke (UInt32.ofNat i + addr).toNat ⟨buf.peek i, true⟩) image

def jtagCreateImage (s : FileSection) (memtype : BFDmemoryType) (unset : Option BFDmemoryType)
    (b : Build) : Build :=
  let addr := s.getSectionAddr memtype unset
  let size := s.size
  if addr ≠ 0xffffff then
    let buf := b.buf.pokeAll 0 (s.contents.take size.toNat)
    { image :=
        { image := copyBuffer size addr buf b.image.image
          lastAddress :=
            if b.image.lastAddress < (addr + size).toNat then (addr + size).toNat
            else b.image.lastAddress
          firstAddress :=
            if b.image.firstAddressOk = false ∨ addr.toNat < b.image.firstAddress then addr.toNat
            else b.image.firstAddress
          firstAddressOk := true
          hasData := true }
      buf := buf
      copied := b.copied ++ [⟨s, memtype, addr⟩] }
  else b

end FileSection

/-- A section on its way into the images, with what the variable for its memory
type holds in the two calls. -/
structure Loading where
  s : FileSection
  flashUnset : Option BFDmemoryType
  eepromUnset : Option BFDmemoryType

/-- The two images of a download, which share the buffer. -/
structure Images where
  flashimg : BFDimage
  eepromimg : BFDimage
  buf : CArray UInt8 maxImageSize
  copied : List Copied

def initImages : Images where
  flashimg := initImage
  eepromimg := initImage
  buf := CArray.fill _ 0
  copied := []

def Images.add (images : Images) (loading : Loading) : Images :=
  let flash := loading.s.jtagCreateImage .flash loading.flashUnset
    ⟨images.flashimg, images.buf, images.copied⟩
  let eeprom := loading.s.jtagCreateImage .eeprom loading.eepromUnset
    ⟨images.eepromimg, flash.buf, flash.copied⟩
  ⟨flash.image, eeprom.image, eeprom.buf, eeprom.copied⟩

/-- The loop of `downloadToTarget` over the sections of a file. -/
def createImages (loadings : List Loading) : Images :=
  loadings.foldl Images.add initImages

/-! ## Where the bytes may go -/

structure Copied.Proper (copied : Copied) : Prop where
  inBounds : ∀ i < copied.s.size,
    i.toNat < maxImageSize ∧ (i + copied.addr).toNat < maxImageSize
  fits : ∀ i < copied.s.contents.length, i + copied.addr.toNat < maxImageSize
  flash : copied.memtype = .flash → copied.s.lma < dataSpaceAddrOffset
  eeprom : copied.memtype = .eeprom →
    eepromSpaceAddrOffset ≤ copied.s.lma ∧ copied.s.lma < fuseSpaceAddrOffset

/-- Whatever the variable for the memory type holds, only what belongs to a
memory and fits is copied. -/
def Confined (sections : List FileSection) : Prop :=
  ∀ loadings : List Loading, loadings.map Loading.s = sections →
    ∀ copied ∈ (createImages loadings).copied, copied.Proper

/-- The section lies in one of the memories, and its bytes in the image if it has
an image. -/
structure FileSection.Placed (s : FileSection) : Prop where
  below : s.lma < fuseSpaceAddrOffset
  flash : s.lma < dataSpaceAddrOffset → s.contents ≠ [] →
    s.lma.toNat + s.contents.length ≤ maxImageSize
  eeprom : eepromSpaceAddrOffset ≤ s.lma → s.contents ≠ [] →
    s.lma.toNat - eepromSpaceAddrOffset.toNat + s.contents.length ≤ maxImageSize

/-! ## What is copied -/

namespace FileSection

variable {s : FileSection} {memtype : BFDmemoryType} {unset : Option BFDmemoryType}

def copies (s : FileSection) (memtype : BFDmemoryType) (unset : Option BFDmemoryType) :
    List Copied :=
  if s.getSectionAddr memtype unset ≠ 0xffffff then
    [⟨s, memtype, s.getSectionAddr memtype unset⟩]
  else []

theorem jtagCreateImage_copied (b : Build) :
    (s.jtagCreateImage memtype unset b).copied = b.copied ++ s.copies memtype unset := by
  by_cases found : s.getSectionAddr memtype unset ≠ 0xffffff
  · simp [jtagCreateImage, copies, found]
  · simp [jtagCreateImage, copies, found]

theorem mem_copies {copied : Copied} (membership : copied ∈ s.copies memtype unset) :
    s.loadable = true ∧ s.sectmemtype unset = some memtype ∧
      copied = ⟨s, memtype, s.getSectionAddr memtype unset⟩ := by
  by_cases found : s.getSectionAddr memtype unset ≠ 0xffffff
  · have same : copied = ⟨s, memtype, s.getSectionAddr memtype unset⟩ := by
      simpa [copies, found] using membership
    by_cases loadable : s.loadable = true
    · by_cases type : some memtype = s.sectmemtype unset
      · exact ⟨loadable, type.symm, same⟩
      · simp [getSectionAddr, loadable, type] at found
    · simp [getSectionAddr, loadable] at found
  · simp [copies, found] at membership

theorem mem_copies_of_ne (found : s.getSectionAddr memtype unset ≠ 0xffffff) :
    ⟨s, memtype, s.getSectionAddr memtype unset⟩ ∈ s.copies memtype unset := by
  simp [copies, found]

/-! ## Addresses in the image -/

theorem getSectionAddr_flash (loadable : s.loadable = true)
    (below : s.lma < dataSpaceAddrOffset) :
    s.getSectionAddr .flash unset = s.lma.toUInt32 := by
  simp [getSectionAddr, loadable, sectmemtype, below]

theorem getSectionAddr_eeprom (loadable : s.loadable = true)
    (type : s.sectmemtype unset = some .eeprom) :
    s.getSectionAddr .eeprom unset = (s.lma &&& ~~~addrSpaceMask).toUInt32 := by
  simp [getSectionAddr, loadable, type]

theorem sectmemtype_flash_iff (below : s.lma < fuseSpaceAddrOffset) :
    s.sectmemtype unset = some .flash ↔ s.lma < dataSpaceAddrOffset := by
  unfold sectmemtype
  split
  next flash => simp [flash]
  next notFlash =>
    split
    · simp [notFlash]
    · simp [notFlash]

theorem sectmemtype_eeprom_iff (below : s.lma < fuseSpaceAddrOffset) :
    s.sectmemtype unset = some .eeprom ↔ eepromSpaceAddrOffset ≤ s.lma := by
  unfold sectmemtype
  split
  next flash =>
    have notEeprom : ¬ eepromSpaceAddrOffset ≤ s.lma := by grind
    simp [notEeprom]
  next notFlash =>
    split
    next ram => simp [ram]
    next notRam => simp [UInt64.not_lt.mp notRam]

theorem sectmemtype_fuse (fuse : ¬ s.lma < fuseSpaceAddrOffset) : s.sectmemtype unset = unset := by
  have notFlash : ¬ s.lma < dataSpaceAddrOffset := by grind
  have notRam : ¬ s.lma < eepromSpaceAddrOffset := by grind
  simp [sectmemtype, notFlash, notRam, fuse]

theorem toNat_flashAddr (below : s.lma < dataSpaceAddrOffset) :
    s.lma.toUInt32.toNat = s.lma.toNat := by
  have small : s.lma.toNat < 0x800000 := below
  rw [UInt64.toNat_toUInt32]
  exact Nat.mod_eq_of_lt (by omega)

theorem masked_eeprom (eeprom : eepromSpaceAddrOffset ≤ s.lma)
    (below : s.lma < fuseSpaceAddrOffset) :
    s.lma &&& ~~~addrSpaceMask = s.lma - eepromSpaceAddrOffset := by
  have small : s.lma - eepromSpaceAddrOffset < 0x10000 := by grind
  have sum : eepromSpaceAddrOffset + (s.lma - eepromSpaceAddrOffset) = s.lma := by grind
  have separated : splitAddress (eepromSpaceAddrOffset + (s.lma - eepromSpaceAddrOffset)) =
      (eepromSpaceAddrOffset, s.lma - eepromSpaceAddrOffset) :=
    splitAddress_add (by decide) (by decide) (and_addrSpaceMask small)
  rw [sum, splitAddress] at separated
  split at separated
  · exact (Prod.mk.inj separated).2
  · exact absurd (Prod.mk.inj separated).1 (by decide)

theorem toNat_masked (eeprom : eepromSpaceAddrOffset ≤ s.lma)
    (below : s.lma < fuseSpaceAddrOffset) :
    (s.lma &&& ~~~addrSpaceMask).toUInt32.toNat = (s.lma &&& ~~~addrSpaceMask).toNat := by
  have small : s.lma - eepromSpaceAddrOffset < 0x10000 := by grind
  have bound : (s.lma - eepromSpaceAddrOffset).toNat < 0x10000 := small
  rw [masked_eeprom eeprom below, UInt64.toNat_toUInt32]
  exact Nat.mod_eq_of_lt (by omega)

theorem toNat_eepromAddr (eeprom : eepromSpaceAddrOffset ≤ s.lma)
    (below : s.lma < fuseSpaceAddrOffset) :
    (s.lma &&& ~~~addrSpaceMask).toUInt32.toNat = s.lma.toNat - eepromSpaceAddrOffset.toNat := by
  rw [toNat_masked eeprom below, masked_eeprom eeprom below, UInt64.toNat_sub_of_le _ _ eeprom]

/-- The bits that are masked include one of the address that stands for no
section. -/
theorem masked_ne (lma : UInt64) : (lma &&& ~~~addrSpaceMask).toUInt32 ≠ 0xffffff := by
  intro same
  have bit : (lma &&& ~~~addrSpaceMask).toUInt32 &&& 0x10000 = 0 := by
    rw [UInt64.toUInt32_and, UInt32.and_assoc]
    exact UInt32.and_zero
  rw [same] at bit
  exact absurd bit (by decide)

theorem bytes_below_iff {contents : List UInt8} {addr : Nat} :
    (∀ i < contents.length, i + addr < maxImageSize) ↔
      (contents ≠ [] → addr + contents.length ≤ maxImageSize) := by
  constructor
  · intro inside some
    have length : 0 < contents.length := List.length_pos_iff.mpr some
    have last := inside (contents.length - 1) (Nat.sub_lt length Nat.one_pos)
    omega
  · intro ends i small
    have bound := ends (List.ne_nil_of_length_pos (Nat.zero_lt_of_lt small))
    omega

theorem inBounds_of_fits {addr : UInt32}
    (fits : ∀ i < s.contents.length, i + addr.toNat < maxImageSize) {i : UInt32}
    (small : i < s.size) : i.toNat < maxImageSize ∧ (i + addr).toNat < maxImageSize := by
  have size : s.size.toNat ≤ s.contents.length := by
    rw [FileSection.size, UInt32.toNat_ofNat']
    exact Nat.mod_le _ _
  have bound := fits i.toNat (Nat.lt_of_lt_of_le (UInt32.lt_iff_toNat_lt.mp small) size)
  constructor
  · exact Nat.lt_of_le_of_lt (Nat.le_add_right _ _) bound
  · rw [UInt32.toNat_add]
    exact Nat.lt_of_le_of_lt (Nat.mod_le _ _) bound

theorem Placed.fits (placed : s.Placed) (loadable : s.loadable = true) (image : memtype ≠ .ram)
    (type : s.sectmemtype unset = some memtype) :
    ∀ i < s.contents.length, i + (s.getSectionAddr memtype unset).toNat < maxImageSize := by
  cases memtype with
  | flash =>
      have flash := (sectmemtype_flash_iff placed.below).mp type
      rw [getSectionAddr_flash loadable flash, toNat_flashAddr flash]
      exact bytes_below_iff.mpr (placed.flash flash)
  | eeprom =>
      have eeprom := (sectmemtype_eeprom_iff placed.below).mp type
      rw [getSectionAddr_eeprom loadable type, toNat_eepromAddr eeprom placed.below]
      exact bytes_below_iff.mpr (placed.eeprom eeprom)
  | ram => exact absurd rfl image

theorem proper_of_placed (placed : s.loadable = true → s.Placed) (image : memtype ≠ .ram)
    {copied : Copied} (membership : copied ∈ s.copies memtype unset) : copied.Proper := by
  obtain ⟨loadable, type, rfl⟩ := mem_copies membership
  have fits := (placed loadable).fits loadable image type
  constructor
  · exact fun _ small => inBounds_of_fits fits small
  · exact fits
  · intro flash
    have same : memtype = .flash := flash
    subst same
    exact (sectmemtype_flash_iff (placed loadable).below).mp type
  · intro eeprom
    have same : memtype = .eeprom := eeprom
    subst same
    exact ⟨(sectmemtype_eeprom_iff (placed loadable).below).mp type, (placed loadable).below⟩

theorem placed_of_proper (loadable : s.loadable = true)
    (flash : ∀ copied ∈ s.copies .flash none, copied.Proper)
    (eeprom : ∀ copied ∈ s.copies .eeprom (some .eeprom), copied.Proper) : s.Placed := by
  have copiedEeprom : s.sectmemtype (some .eeprom) = some .eeprom →
      Copied.Proper ⟨s, .eeprom, (s.lma &&& ~~~addrSpaceMask).toUInt32⟩ := by
    intro type
    have address := getSectionAddr_eeprom loadable type
    have found : s.getSectionAddr .eeprom (some .eeprom) ≠ 0xffffff := by
      rw [address]
      exact masked_ne _
    have proper := eeprom _ (mem_copies_of_ne found)
    rwa [address] at proper
  have below : s.lma < fuseSpaceAddrOffset := by
    by_contra fuse
    exact fuse ((copiedEeprom (sectmemtype_fuse fuse)).eeprom rfl).2
  constructor
  · exact below
  · intro inFlash
    have address : s.getSectionAddr .flash none = s.lma.toUInt32 :=
      getSectionAddr_flash loadable inFlash
    have found : s.getSectionAddr .flash none ≠ 0xffffff := by
      intro same
      have value := congrArg UInt32.toNat (address.symm.trans same)
      rw [toNat_flashAddr inFlash] at value
      have small : s.lma.toNat < 0x800000 := inFlash
      change s.lma.toNat = 0xffffff at value
      omega
    have fits := (flash _ (mem_copies_of_ne found)).fits
    rw [address, toNat_flashAddr inFlash] at fits
    exact bytes_below_iff.mp fits
  · intro inEeprom
    have fits := (copiedEeprom ((sectmemtype_eeprom_iff below).mpr inEeprom)).fits
    rw [toNat_eepromAddr inEeprom below] at fits
    exact bytes_below_iff.mp fits

end FileSection

/-! ## Runs over the sections -/

def Loading.copies (loading : Loading) : List Copied :=
  loading.s.copies .flash loading.flashUnset ++ loading.s.copies .eeprom loading.eepromUnset

theorem add_copied (images : Images) (loading : Loading) :
    (images.add loading).copied = images.copied ++ loading.copies := by
  simp [Images.add, FileSection.jtagCreateImage_copied, Loading.copies]

theorem foldl_add_copied (loadings : List Loading) (images : Images) :
    (loadings.foldl Images.add images).copied =
      images.copied ++ loadings.flatMap Loading.copies := by
  induction loadings generalizing images with
  | nil => simp
  | cons loading rest inductionHypothesis =>
      simp [inductionHypothesis, add_copied]

theorem mem_createImages_copied {loadings : List Loading} {copied : Copied} :
    copied ∈ (createImages loadings).copied ↔ ∃ loading ∈ loadings, copied ∈ loading.copies := by
  rw [createImages, foldl_add_copied]
  simp [initImages]

theorem placed_of_confined {sections : List FileSection} (confined : Confined sections)
    {s : FileSection} (membership : s ∈ sections) (loadable : s.loadable = true) : s.Placed := by
  have proper := confined (sections.map (⟨·, none, some .eeprom⟩)) (by simp [Function.comp_def])
  simp only [mem_createImages_copied] at proper
  have here : ∀ copied ∈ Loading.copies ⟨s, none, some .eeprom⟩, copied.Proper :=
    fun copied copies => proper copied ⟨_, List.mem_map_of_mem membership, copies⟩
  apply FileSection.placed_of_proper loadable
  · exact fun copied copies => here copied (List.mem_append_left _ copies)
  · exact fun copied copies => here copied (List.mem_append_right _ copies)

/-- The images stay in bounds and apart exactly for sections that each lie in one
of the memories and, for flash and EEPROM, in the image. -/
theorem confined_iff (sections : List FileSection) :
    Confined sections ↔ ∀ s ∈ sections, s.loadable = true → s.Placed := by
  constructor
  · exact fun confined s => placed_of_confined confined
  · intro placed loadings same copied membership
    obtain ⟨loading, member, copies⟩ := mem_createImages_copied.mp membership
    have inFile : loading.s ∈ sections := same ▸ List.mem_map_of_mem member
    rcases List.mem_append.mp copies with flash | eeprom
    · exact FileSection.proper_of_placed (placed _ inFile) (by decide) flash
    · exact FileSection.proper_of_placed (placed _ inFile) (by decide) eeprom

theorem not_confined_of_large {contents : List UInt8} (large : maxImageSize < contents.length) :
    ¬ Confined [⟨0x0, true, true, true, contents⟩] := by
  intro confined
  have placed := placed_of_confined confined List.mem_cons_self rfl
  have first : (0x0 : UInt64) < dataSpaceAddrOffset := by decide
  have bound : (0x0 : UInt64).toNat + contents.length ≤ maxImageSize :=
    placed.flash first (List.ne_nil_of_length_pos (Nat.zero_lt_of_lt large))
  exact absurd (Nat.le_trans (Nat.le_add_left _ _) bound) (Nat.not_le.mpr large)

/-- The fuse bits of a file can get into the EEPROM image, and a section that is
larger than the image is copied. -/
theorem confined_fails :
    ¬ Confined [⟨0x820000, true, true, true, [0xe1, 0x99, 0xff]⟩] ∧
      ¬ Confined [⟨0x0, true, true, true, List.replicate 1000001 0x00⟩] := by
  constructor
  · intro confined
    have placed := placed_of_confined confined List.mem_cons_self rfl
    exact absurd placed.below (by decide)
  · apply not_confined_of_large
    rw [List.length_replicate]
    exact Nat.lt_succ_self _

/-! ## Sections in their places -/

namespace FileSection

def toSection (s : FileSection) (below : s.lma < fuseSpaceAddrOffset) : Section :=
  ⟨s.lma, s.hasContents, s.alloc, s.load, s.contents, below⟩

def inMemory (s : FileSection) : Option Section :=
  if below : s.lma < fuseSpaceAddrOffset then some (s.toSection below) else none

variable {s : FileSection} {memtype : BFDmemoryType} {unset : Option BFDmemoryType}

theorem copyBuffer_eq {size addr : UInt32} {contents : List UInt8}
    (whole : size.toNat = contents.length)
    (fits : ∀ i < contents.length, i + addr.toNat < maxImageSize)
    (buf : CArray UInt8 maxImageSize) (image : CArray AVRMemoryByte maxImageSize) :
    copyBuffer size addr (buf.pokeAll 0 contents) image =
      copySection image addr.toNat contents := by
  have limit : maxImageSize < 2 ^ 32 := by decide
  have index : ∀ i < contents.length, (UInt32.ofNat i + addr).toNat = i + addr.toNat := by
    intro i small
    have bound := fits i small
    rw [UInt32.toNat_add, UInt32.toNat_ofNat', Nat.mod_eq_of_lt (by omega : i < 2 ^ 32),
      Nat.mod_eq_of_lt (by omega)]
  have within : ∀ i < contents.length, 0 + i < maxImageSize := by
    intro i small
    have bound := fits i small
    omega
  have bytes : (List.range contents.length).map
      (fun i => AVRMemoryByte.mk ((buf.pokeAll 0 contents).peek i) true) =
        contents.map (⟨·, true⟩) := by
    apply List.ext_getElem (by simp)
    intro i small _
    have inside : i < contents.length := by simpa using small
    simp [CArray.peek_pokeAll _ _ within, inside]
  rw [copyBuffer, whole, copySection, ← bytes, ← CArray.foldl_poke]
  apply List.foldl_ext
  intro image i member
  rw [index i (List.mem_range.mp member)]

theorem sectmemtype_toSection (below : s.lma < fuseSpaceAddrOffset) :
    s.sectmemtype unset = some (s.toSection below).sectmemtype := by
  by_cases flash : s.lma < dataSpaceAddrOffset
  · simp [sectmemtype, Section.sectmemtype, toSection, flash]
  · by_cases ram : s.lma < eepromSpaceAddrOffset
    · simp [sectmemtype, Section.sectmemtype, toSection, flash, ram]
    · simp [sectmemtype, Section.sectmemtype, toSection, flash, ram, below]

theorem getSectionAddr_toSection (below : s.lma < fuseSpaceAddrOffset) (image : memtype ≠ .ram) :
    (s.getSectionAddr memtype unset).toNat = Image.getSectionAddr (s.toSection below) memtype := by
  have same : s.sectmemtype unset = some (s.toSection below).sectmemtype :=
    sectmemtype_toSection below
  have flags : ((s.toSection below).hasContents &&
      ((s.toSection below).alloc || (s.toSection below).load)) = s.loadable := rfl
  rw [Image.getSectionAddr, flags]
  by_cases loadable : s.loadable = true
  · by_cases type : memtype = (s.toSection below).sectmemtype
    · rw [← type] at same
      rw [if_pos loadable, if_pos type, ← type]
      cases memtype with
      | flash =>
          have flash := (sectmemtype_flash_iff below).mp same
          rw [getSectionAddr_flash loadable flash, toNat_flashAddr flash]
          rfl
      | eeprom =>
          have eeprom := (sectmemtype_eeprom_iff below).mp same
          rw [getSectionAddr_eeprom loadable same, toNat_masked eeprom below]
          rfl
      | ram => exact absurd rfl image
    · have other : some memtype ≠ s.sectmemtype unset := by simpa [same] using type
      rw [getSectionAddr, if_pos loadable, if_pos loadable, if_neg other, if_neg type]
      rfl
  · rw [getSectionAddr, if_neg loadable, if_neg loadable]
    rfl

theorem toNat_size {addr : UInt32}
    (fits : ∀ i < s.contents.length, i + addr.toNat < maxImageSize) :
    s.size.toNat = s.contents.length := by
  have limit : maxImageSize < 2 ^ 32 := by decide
  have bound : s.contents.length ≤ maxImageSize := by
    by_contra large
    exact absurd (fits maxImageSize (Nat.lt_of_not_le large)) (by omega)
  exact UInt32.toNat_ofNat_of_lt' (Nat.lt_of_le_of_lt bound limit)

theorem toNat_end {addr : UInt32}
    (fits : ∀ i < s.contents.length, i + addr.toNat < maxImageSize) :
    (addr + s.size).toNat = addr.toNat + s.contents.length := by
  have limit : maxImageSize < 2 ^ 32 := by decide
  have small := addr.toNat_lt
  rw [UInt32.toNat_add, toNat_size fits]
  apply Nat.mod_eq_of_lt
  rcases Nat.eq_zero_or_pos s.contents.length with empty | some
  · omega
  · have last := fits (s.contents.length - 1) (Nat.sub_lt some Nat.one_pos)
    omega

theorem jtagCreateImage_toSection (placed : s.loadable = true → s.Placed)
    (below : s.lma < fuseSpaceAddrOffset) (image : memtype ≠ .ram) (b : Build) :
    (s.jtagCreateImage memtype unset b).image =
      Image.jtagCreateImage memtype b.image (s.toSection below) := by
  have address : (s.getSectionAddr memtype unset).toNat =
      Image.getSectionAddr (s.toSection below) memtype := getSectionAddr_toSection below image
  by_cases found : s.getSectionAddr memtype unset ≠ 0xffffff
  · obtain ⟨loadable, type, _⟩ := mem_copies (mem_copies_of_ne found)
    have fits := (placed loadable).fits loadable image type
    have found' : Image.getSectionAddr (s.toSection below) memtype ≠ noSectionAddr := by
      rw [← address]
      exact fun same => found (UInt32.toNat_inj.mp same)
    have whole : s.contents.take s.size.toNat = s.contents := by
      rw [toNat_size fits, List.take_length]
    rw [jtagCreateImage, if_pos found, Image.jtagCreateImage, if_pos found']
    simp only [whole, copyBuffer_eq (toNat_size fits) fits, toNat_end fits, address]
    rfl
  · have notFound : ¬ Image.getSectionAddr (s.toSection below) memtype ≠ noSectionAddr := by
      rw [← address, not_not.mp found]
      exact fun different => different rfl
    rw [jtagCreateImage, if_neg found, Image.jtagCreateImage, if_neg notFound]

theorem jtagCreateImage_inMemory (placed : s.loadable = true → s.Placed)
    (image : memtype ≠ .ram) (b : Build) :
    (s.jtagCreateImage memtype unset b).image =
      s.inMemory.elim b.image (Image.jtagCreateImage memtype b.image) := by
  by_cases below : s.lma < fuseSpaceAddrOffset
  · simp [inMemory, below, jtagCreateImage_toSection placed below image]
  · have notLoadable : s.loadable = false := by
      rw [Bool.eq_false_iff]
      exact fun loadable => below (placed loadable).below
    simp [jtagCreateImage, getSectionAddr, notLoadable, inMemory, below]

end FileSection

theorem foldl_add_inMemory {loadings : List Loading}
    (placed : ∀ loading ∈ loadings, loading.s.loadable = true → loading.s.Placed)
    (images : Images) :
    (loadings.foldl Images.add images).flashimg =
        ((loadings.filterMap (·.s.inMemory)).foldl (jtagCreateImage .flash) images.flashimg) ∧
      (loadings.foldl Images.add images).eepromimg =
        ((loadings.filterMap (·.s.inMemory)).foldl (jtagCreateImage .eeprom) images.eepromimg) := by
  induction loadings generalizing images with
  | nil => exact ⟨rfl, rfl⟩
  | cons loading rest inductionHypothesis =>
      obtain ⟨here, later⟩ := List.forall_mem_cons.mp placed
      have flash : (images.add loading).flashimg =
          loading.s.inMemory.elim images.flashimg (jtagCreateImage .flash images.flashimg) :=
        FileSection.jtagCreateImage_inMemory here (by decide) _
      have eeprom : (images.add loading).eepromimg =
          loading.s.inMemory.elim images.eepromimg (jtagCreateImage .eeprom images.eepromimg) :=
        FileSection.jtagCreateImage_inMemory here (by decide) _
      rw [List.foldl_cons, (inductionHypothesis later _).1, (inductionHypothesis later _).2,
        flash, eeprom, List.filterMap_cons]
      cases loading.s.inMemory <;> exact ⟨rfl, rfl⟩

theorem createImages_eq {loadings : List Loading}
    (placed : ∀ loading ∈ loadings, loading.s.loadable = true → loading.s.Placed) :
    (createImages loadings).flashimg = createImage .flash (loadings.filterMap (·.s.inMemory)) ∧
      (createImages loadings).eepromimg =
        createImage .eeprom (loadings.filterMap (·.s.inMemory)) :=
  foldl_add_inMemory placed initImages

end Avarice.Image

import Avarice.Library.Transition
import Avarice.Mk2.Memory

/-!
# Coherence of the page caches

A read fills the caches with what the device holds, but nothing is done about
them when the device changes.  So they stay coherent exactly as long as no
write and no erase changes a page that is cached.
-/

namespace Avarice.Mk2.Memory

open PagedMemory

def PageCache.page {n : Nat} (cache : PageCache n) (pageSize : Nat) : List UInt8 :=
  slice cache.bytes.peek 0 pageSize

/-- A cache holds what the memory does, if it holds a page of the device. -/
def PageCache.Coherent {n : Nat} (cache : PageCache n) (pageSize size : Nat)
    (memory : Nat → UInt8) : Prop :=
  PagedMemory.Coherent (IsPage pageSize size) (fun base => slice memory base pageSize)
    cache.pageAddr.toNat (cache.page pageSize)

structure Session.Coherent (t : Target) (s : Session) : Prop where
  flash : s.flashCache.Coherent t.flashPageSize t.flashSize s.device.flash
  eeprom : s.eepromCache.Coherent t.eepromPageSize t.eepromSize s.device.eeprom

def Erased {n : Nat} (cache : PageCache n) (pageSize size : Nat) (memory : Nat → UInt8) : Prop :=
  IsPage pageSize size cache.pageAddr.toNat →
    slice memory cache.pageAddr.toNat pageSize = List.replicate pageSize 0xff

/-- A page that is written is not the one in a cache, or nothing changes. -/
def WritesElsewhere {n : Nat} (cache : PageCache n) (pageSize size : Nat)
    (memory : Nat → UInt8) (addr : UInt32) (buffer : List UInt8) : Prop :=
  buffer.length = pageSize → IsPage pageSize size cache.pageAddr.toNat →
    pageAddress pageSize addr = cache.pageAddr →
      buffer = slice memory cache.pageAddr.toNat pageSize

def KeepsCachedPages (t : Target) (s : Session) : MemoryOp → Prop
  | .jtagRead _ _ => True
  | .jtagWrite addr buffer =>
      let (whichSpace, addr) := memorySpace t addr
      (whichSpace = mtypeFlashPage →
        WritesElsewhere s.flashCache t.flashPageSize t.flashSize s.device.flash addr buffer) ∧
      (whichSpace = mtypeEepromPage →
        WritesElsewhere s.eepromCache t.eepromPageSize t.eepromSize s.device.eeprom addr buffer)
  | .eraseProgramMemory =>
      Erased s.flashCache t.flashPageSize t.flashSize s.device.flash ∧
        (t.saveEeprom = false →
          Erased s.eepromCache t.eepromPageSize t.eepromSize s.device.eeprom)
  | .eraseProgramPage address =>
      address.toNat / t.flashPageSize * t.flashPageSize = s.flashCache.pageAddr.toNat →
        Erased s.flashCache t.flashPageSize t.flashSize s.device.flash

/-- A read stays in one page or starts with one. -/
def ReadsWholePages (t : Target) : MemoryOp → Prop
  | .jtagRead addr numBytes =>
      let (whichSpace, addr) := memorySpace t addr
      ∀ pageSize, t.pageSize whichSpace = some pageSize →
        addr.toNat % pageSize = 0 ∨ addr.toNat % pageSize + numBytes.toNat ≤ pageSize
  | _ => True

/-- A read of what the device has returns it. -/
def ReadsContents (t : Target) (s : Session) : MemoryOp → Prop
  | .jtagRead addr numBytes =>
      let (whichSpace, offset) := memorySpace t addr
      t.InRange whichSpace offset.toNat numBytes.toNat →
        ∃ response, (s.jtagRead t addr numBytes).2 = some response ∧
          response.take numBytes.toNat =
            slice (s.device.memory whichSpace) offset.toNat numBytes.toNat
  | _ => True

/-! ## Page addresses -/

theorem pageAddress_mod {pageSize : Nat} (power : ∃ k, pageSize = 2 ^ k)
    (small : pageSize ≤ maxFlashPageSize) (addr : UInt32) :
    (pageAddress pageSize addr).toNat = addr.toNat / pageSize * pageSize := by
  obtain ⟨k, rfl⟩ := power
  apply toNat_and_not_mask
  have bound : 2 ^ k < 2 ^ 32 := Nat.lt_of_le_of_lt small (by decide)
  exact (Nat.pow_lt_pow_iff_right (by decide)).mp bound

/-! ## Memory spaces -/

section Spaces

variable (t : Target) (addr : UInt32)

theorem memorySpace_fst_cases :
    (memorySpace t addr).1 = mtypeFlashPage ∨
      ((memorySpace t addr).1 = mtypeEepromPage ∧ t.useDebugWire = false) ∨
        ((memorySpace t addr).1 = mtypeEeprom ∧ t.useDebugWire = true) ∨
          (memorySpace t addr).1 ∈
            [mtypeFuseBits, mtypeLockBits, mtypeSignJtag, mtypeEvent, mtypeSram] := by
  unfold memorySpace Target.programmingEnabled
  generalize splitAddress addr.toUInt64 = decoded
  obtain ⟨mask, offset⟩ := decoded
  cases t.useDebugWire <;> dsimp only <;> split_ifs <;> simp at *

theorem memorySpace_cases :
    (∃ a, memorySpace t addr = (mtypeFlashPage, a)) ∨
      (t.useDebugWire = false ∧ ∃ a, memorySpace t addr = (mtypeEepromPage, a)) ∨
        ∃ whichSpace a, memorySpace t addr = (whichSpace, a) ∧ t.pageSize whichSpace = none ∧
          whichSpace ≠ mtypeSpm ∧ (whichSpace = mtypeEeprom → t.useDebugWire = true) := by
  obtain flash | ⟨paged, noDebugWire⟩ | ⟨eeprom, debugWire⟩ | other :=
    memorySpace_fst_cases t addr
  · exact .inl ⟨_, Prod.ext flash rfl⟩
  · exact .inr (.inl ⟨noDebugWire, _, Prod.ext paged rfl⟩)
  · exact .inr (.inr ⟨_, _, Prod.ext eeprom rfl, rfl, by decide, fun _ => debugWire⟩)
  · have listed : ∀ whichSpace ∈ [mtypeFuseBits, mtypeLockBits, mtypeSignJtag, mtypeEvent,
        mtypeSram], whichSpace ≠ mtypeFlashPage ∧ whichSpace ≠ mtypeEepromPage ∧
          whichSpace ≠ mtypeSpm ∧ whichSpace ≠ mtypeEeprom := by
      decide +kernel
    obtain ⟨notFlash, notPaged, notSpm, notEeprom⟩ := listed _ other
    have unpaged : t.pageSize (memorySpace t addr).1 = none := by
      rw [Target.pageSize, if_neg notFlash, if_neg notPaged]
    exact .inr (.inr ⟨(memorySpace t addr).1, (memorySpace t addr).2, Prod.ext rfl rfl, unpaged,
      notSpm, fun eeprom => absurd eeprom notEeprom⟩)

variable {t} in
theorem not_paged {whichSpace : UInt8} (unpaged : t.pageSize whichSpace = none) :
    whichSpace ≠ mtypeFlashPage ∧ whichSpace ≠ mtypeEepromPage := by
  constructor
  · rintro rfl
    cases unpaged
  · rintro rfl
    cases unpaged

end Spaces

theorem Target.flashPageSize_pos (t : Target) : 0 < t.flashPageSize := by
  obtain ⟨k, power⟩ := t.flashPages
  rw [power]
  exact Nat.two_pow_pos k

theorem Target.eepromPageSize_pos (t : Target) : 0 < t.eepromPageSize := by
  obtain ⟨k, power⟩ := t.eepromPages
  rw [power]
  exact Nat.two_pow_pos k

/-! ## What the operations change -/

section Operations

variable (t : Target) (s : Session) {addr a : UInt32} (buffer : List UInt8)

theorem apply_write_flash (space : memorySpace t addr = (mtypeFlashPage, a)) :
    s.apply t (.jtagWrite addr buffer) =
      if buffer.length = t.flashPageSize ∧
          (pageAddress t.flashPageSize a).toNat + t.flashPageSize ≤ t.flashSize then
        { s with
          device := { s.device with
            flash :=
              overwrite s.device.flash (pageAddress t.flashPageSize a).toNat buffer } }
      else s := by
  have positive := t.flashPageSize_pos
  have notSpm : mtypeFlashPage ≠ mtypeSpm := by decide
  rw [Session.apply, Session.jtagWrite, space]
  by_cases length : buffer.length = t.flashPageSize
  · by_cases inside : (pageAddress t.flashPageSize a).toNat + t.flashPageSize ≤ t.flashSize
    · simp [length, Target.pageSize, Device.write, Target.InRange, Device.memory, inside,
        positive.ne', notSpm]
    · simp [length, Target.pageSize, Device.write, Target.InRange, inside, positive.ne', notSpm]
  · by_cases empty : buffer.length = 0
    · simp [empty, positive.ne]
    · simp [length, Target.pageSize, empty]

theorem apply_write_eeprom (space : memorySpace t addr = (mtypeEepromPage, a)) :
    s.apply t (.jtagWrite addr buffer) =
      if buffer.length = t.eepromPageSize ∧
          (pageAddress t.eepromPageSize a).toNat + t.eepromPageSize ≤ t.eepromSize then
        { s with
          device := { s.device with
            eeprom :=
              overwrite s.device.eeprom (pageAddress t.eepromPageSize a).toNat buffer } }
      else s := by
  have positive := t.eepromPageSize_pos
  have notSpm : mtypeEepromPage ≠ mtypeSpm := by decide
  have notFlash : mtypeEepromPage ≠ mtypeFlashPage := by decide
  rw [Session.apply, Session.jtagWrite, space]
  by_cases length : buffer.length = t.eepromPageSize
  · by_cases inside : (pageAddress t.eepromPageSize a).toNat + t.eepromPageSize ≤ t.eepromSize
    · simp [length, Target.pageSize, Device.write, Target.InRange, Device.memory, inside,
        positive.ne', notSpm, notFlash]
    · simp [length, Target.pageSize, Device.write, Target.InRange, inside, positive.ne', notSpm,
        notFlash]
  · by_cases empty : buffer.length = 0
    · simp [empty, positive.ne]
    · simp [length, Target.pageSize, empty, notFlash]

theorem apply_write_other {whichSpace : UInt8} (space : memorySpace t addr = (whichSpace, a))
    (unpaged : t.pageSize whichSpace = none) (notSpm : whichSpace ≠ mtypeSpm)
    (eeprom : whichSpace = mtypeEeprom → t.useDebugWire = true) :
    ∃ device, s.apply t (.jtagWrite addr buffer) = { s with device } ∧
      device.flash = s.device.flash ∧
        (t.useDebugWire = false → device.eeprom = s.device.eeprom) := by
  have same : s.device.flash = s.device.flash ∧
      (t.useDebugWire = false → s.device.eeprom = s.device.eeprom) := ⟨rfl, fun _ => rfl⟩
  rw [Session.apply, Session.jtagWrite, space]
  by_cases empty : buffer.length = 0
  · exact ⟨s.device, by simp [empty], same⟩
  simp only [if_neg empty, notSpm, false_and, if_false, unpaged]
  cases written : s.device.write t whichSpace a buffer with
  | none => exact ⟨s.device, rfl, same⟩
  | some device =>
      refine ⟨device, rfl, ?_⟩
      obtain ⟨notFlash, notPaged⟩ := not_paged unpaged
      simp only [Device.write, if_neg notFlash, notPaged, false_or] at written
      split at written
      swap
      · cases written
      rw [Option.some_inj] at written
      by_cases isEeprom : whichSpace = mtypeEeprom
      · rw [if_pos isEeprom] at written
        subst written
        refine ⟨rfl, fun noDebugWire => ?_⟩
        rw [eeprom isEeprom] at noDebugWire
        cases noDebugWire
      · rw [if_neg isEeprom] at written
        subst written
        exact ⟨rfl, fun _ => rfl⟩

end Operations

/-! ## Coherence of one cache -/

section Cache

variable {n pageSize size : Nat} {cache : PageCache n} {memory : Nat → UInt8}

theorem PageCache.load_page (cache : PageCache n) (pageAddr : UInt32) (fits : pageSize ≤ n)
    (start : Nat) :
    (cache.load pageAddr (slice memory start pageSize)).page pageSize =
      slice memory start pageSize := by
  apply List.ext_getElem (by simp [PageCache.page])
  intro i inside _
  have small : i < pageSize := by simpa [PageCache.page] using inside
  have bound : i < n := Nat.lt_of_lt_of_le small fits
  simp [PageCache.page, slice, PageCache.load, CArray.peek, bound, small]

theorem PageCache.coherent_load (cache : PageCache n) {pageAddr : UInt32} (fits : pageSize ≤ n) :
    (cache.load pageAddr (slice memory pageAddr.toNat pageSize)).Coherent pageSize size memory :=
  fun _ => cache.load_page pageAddr fits pageAddr.toNat

theorem PageCache.Coherent.overwrite_iff (coherent : cache.Coherent pageSize size memory)
    (power : ∃ k, pageSize = 2 ^ k) (small : pageSize ≤ maxFlashPageSize) {addr : UInt32}
    {buffer : List UInt8} (length : buffer.length = pageSize) :
    cache.Coherent pageSize size (overwrite memory (pageAddress pageSize addr).toNat buffer) ↔
      WritesElsewhere cache pageSize size memory addr buffer := by
  have start : (pageAddress pageSize addr).toNat % pageSize = 0 := by
    rw [pageAddress_mod power small]
    exact Nat.mul_mod_left _ _
  refine coherent.change_iff.trans ⟨fun kept _ isPage here => ?_, fun kept isPage => ?_⟩
  · exact (slice_overwrite_page_iff start isPage.1 length).mp (kept isPage)
      (congrArg UInt32.toNat here)
  · exact (slice_overwrite_page_iff start isPage.1 length).mpr fun here =>
      kept length isPage (UInt32.toNat_inj.mp here)

theorem PageCache.Coherent.erase_iff (coherent : cache.Coherent pageSize size memory) :
    cache.Coherent pageSize size (overwrite memory 0 (List.replicate size 0xff)) ↔
      Erased cache pageSize size memory := by
  refine coherent.change_iff.trans ⟨fun kept isPage => ?_, fun erased isPage => ?_⟩
  · exact (kept isPage).symm.trans (slice_overwrite_replicate 0xff isPage.2)
  · exact (slice_overwrite_replicate 0xff isPage.2).trans (erased isPage).symm

theorem PageCache.Coherent.erasePage_iff (coherent : cache.Coherent pageSize size memory)
    {base : Nat} (start : base % pageSize = 0) :
    cache.Coherent pageSize size (overwrite memory base (List.replicate pageSize 0xff)) ↔
      (base = cache.pageAddr.toNat → Erased cache pageSize size memory) := by
  have length : (List.replicate pageSize (0xff : UInt8)).length = pageSize :=
    List.length_replicate
  refine coherent.change_iff.trans ⟨fun kept here isPage => ?_, fun erased isPage => ?_⟩
  · exact ((slice_overwrite_page_iff start isPage.1 length).mp (kept isPage) here).symm
  · exact (slice_overwrite_page_iff start isPage.1 length).mpr fun here =>
      (erased here isPage).symm

theorem readPages_cache (property : PageCache n → Prop) {read : UInt32 → Option (List UInt8)}
    (loaded : ∀ (cache : PageCache n) pageAddr page, read pageAddr = some page →
      property (cache.load pageAddr page))
    (offset rounds numBytes chunksize : Nat) (pageAddr : UInt32) (response : List UInt8)
    (holds : property cache) :
    property
      (readPages read pageSize offset rounds cache numBytes chunksize pageAddr response).1 := by
  induction rounds generalizing cache numBytes chunksize pageAddr response with
  | zero => exact holds
  | succ rounds inductionHypothesis =>
      rw [readPages]
      split
      · exact holds
      · by_cases hit : pageAddr = cache.pageAddr
        · simp only [if_pos hit]
          exact inductionHypothesis _ _ _ _ holds
        · simp only [if_neg hit]
          cases answered : read pageAddr with
          | none => exact holds
          | some page => exact inductionHypothesis _ _ _ _ (loaded cache pageAddr page answered)

/-! ## What a read returns -/

theorem PageCache.copy_eq {base offset count : Nat}
    (page : cache.page pageSize = slice memory base pageSize)
    (within : offset + count ≤ pageSize) :
    cache.copy offset count = slice memory (base + offset) count := by
  apply List.map_congr_left
  intro i membership
  have small : offset + i < pageSize := by
    have bound := List.mem_range.mp membership
    omega
  have byte := List.map_inj_left.mp page (offset + i) (List.mem_range.mpr small)
  rw [Nat.zero_add] at byte
  rw [byte, Nat.add_assoc]

variable {read : UInt32 → Option (List UInt8)}

theorem fetched_page (fits : pageSize ≤ n) (coherent : cache.Coherent pageSize size memory)
    {pageAddr : UInt32} (isPage : IsPage pageSize size pageAddr.toNat)
    (answer : read pageAddr = some (slice memory pageAddr.toNat pageSize)) :
    ∃ fetched, (if pageAddr = cache.pageAddr then some cache
        else (read pageAddr).map (cache.load pageAddr)) = some fetched ∧
      fetched.page pageSize = slice memory pageAddr.toNat pageSize ∧
        fetched.Coherent pageSize size memory := by
  by_cases hit : pageAddr = cache.pageAddr
  · refine ⟨cache, if_pos hit, ?_, coherent⟩
    rw [hit] at isPage ⊢
    exact coherent isPage
  · refine ⟨cache.load pageAddr (slice memory pageAddr.toNat pageSize), ?_,
      cache.load_page pageAddr fits _, cache.coherent_load fits⟩
    rw [if_neg hit, answer]
    rfl

theorem readPages_zero (offset rounds chunksize : Nat) (pageAddr : UInt32)
    (response : List UInt8) :
    (readPages read pageSize offset rounds cache 0 chunksize pageAddr response).2 =
      some response := by
  cases rounds <;> rfl

section Device

variable (fits : pageSize ≤ n) (small : size < 2 ^ 32)
  (answers : ∀ pageAddr : UInt32, IsPage pageSize size pageAddr.toNat →
    read pageAddr = some (slice memory pageAddr.toNat pageSize))
include fits small answers

omit small in
theorem readPages_within (coherent : cache.Coherent pageSize size memory)
    {offset numBytes : Nat} {pageAddr : UInt32} (some : 0 < numBytes)
    (isPage : IsPage pageSize size pageAddr.toNat) (within : offset + numBytes ≤ pageSize) :
    (readPages read pageSize offset numBytes cache numBytes numBytes pageAddr []).2 =
      .some (slice memory (pageAddr.toNat + offset) numBytes) := by
  obtain ⟨rounds, rfl⟩ := Nat.exists_eq_succ_of_ne_zero some.ne'
  obtain ⟨fetched, found, page, _⟩ := fetched_page fits coherent isPage (answers pageAddr isPage)
  simp only [readPages, if_neg some.ne', found, Nat.sub_self]
  rw [readPages_zero, fetched.copy_eq page within, List.nil_append]

theorem readPages_aligned (positive : 0 < pageSize) (whole : size % pageSize = 0)
    (rounds : Nat) (coherent : cache.Coherent pageSize size memory) {numBytes : Nat}
    {pageAddr : UInt32} (bounded : numBytes ≤ rounds)
    (start : pageAddr.toNat % pageSize = 0) (inside : pageAddr.toNat + numBytes ≤ size)
    (response : List UInt8) :
    (readPages read pageSize 0 rounds cache numBytes (min numBytes pageSize) pageAddr
        response).2 =
      some (response ++ slice memory pageAddr.toNat numBytes) := by
  induction rounds generalizing cache numBytes pageAddr response with
  | zero =>
      obtain rfl := Nat.le_zero.mp bounded
      rw [readPages_zero, slice_zero, List.append_nil]
  | succ rounds inductionHypothesis =>
      rcases Nat.eq_zero_or_pos numBytes with rfl | some
      · rw [readPages_zero, slice_zero, List.append_nil]
      have isPage : IsPage pageSize size pageAddr.toNat := by
        refine ⟨start, ?_⟩
        rcases pages_apart start whole (show pageAddr.toNat ≠ size by omega) with before | behind
        · exact before
        · omega
      obtain ⟨fetched, found, page, kept⟩ :=
        fetched_page fits coherent isPage (answers pageAddr isPage)
      have copied := fetched.copy_eq page
        (show 0 + min numBytes pageSize ≤ pageSize by omega)
      rw [Nat.add_zero] at copied
      simp only [readPages, if_neg (Nat.ne_of_gt some), found, copied]
      rcases Nat.lt_or_ge pageSize numBytes with more | last
      swap
      · rw [Nat.min_eq_left last, Nat.sub_self, readPages_zero]
      · have next : (pageAddr + pageSize.toUInt32).toNat = pageAddr.toNat + pageSize := by
          have size : pageSize.toUInt32.toNat = pageSize :=
            UInt32.toNat_ofNat_of_lt' (show pageSize < 2 ^ 32 by omega)
          rw [UInt32.toNat_add, size, Nat.mod_eq_of_lt (by omega)]
        rw [Nat.min_eq_right (Nat.le_of_lt more),
          inductionHypothesis kept (by omega) (by rw [next, Nat.add_mod_right, start])
            (by rw [next]; omega),
          next, List.append_assoc, ← slice_add, Nat.add_sub_cancel' (Nat.le_of_lt more)]

theorem readPaged_response (power : ∃ k, pageSize = 2 ^ k) (bound : pageSize ≤ maxFlashPageSize)
    (whole : size % pageSize = 0) (coherent : cache.Coherent pageSize size memory)
    {addr : UInt32} {numBytes : Nat} (some : 0 < numBytes) (inside : addr.toNat + numBytes ≤ size)
    (aligned : addr.toNat % pageSize = 0 ∨ addr.toNat % pageSize + numBytes ≤ pageSize) :
    (readPaged read pageSize cache addr numBytes).2 =
      .some (slice memory addr.toNat numBytes) := by
  have positive : 0 < pageSize := by
    obtain ⟨k, rfl⟩ := power
    exact Nat.two_pow_pos k
  have base := pageAddress_mod power bound addr
  have split := Nat.div_add_mod' addr.toNat pageSize
  have start : (pageAddress pageSize addr).toNat % pageSize = 0 := by
    rw [base]
    exact Nat.mul_mod_left _ _
  have page : (pageAddress pageSize addr).toNat + addr.toNat % pageSize = addr.toNat := by
    rw [base]
    exact split
  unfold readPaged
  simp only []
  rcases aligned with first | within
  · have atStart : addr.toNat = (pageAddress pageSize addr).toNat := by omega
    have chunk : (if (pageAddress pageSize addr).toNat + pageSize ≤ addr.toNat + numBytes then
        numBytes - (addr.toNat + numBytes - ((pageAddress pageSize addr).toNat + pageSize))
        else numBytes) = min numBytes pageSize := by
      split <;> omega
    rw [chunk, ← atStart, Nat.sub_self, readPages_aligned fits small answers positive whole
      numBytes coherent (Nat.le_refl _) start (atStart ▸ inside), List.nil_append, ← atStart]
  · have chunk : (if (pageAddress pageSize addr).toNat + pageSize ≤ addr.toNat + numBytes then
        numBytes - (addr.toNat + numBytes - ((pageAddress pageSize addr).toNat + pageSize))
        else numBytes) = numBytes := by
      split <;> omega
    have offset : addr.toNat - (pageAddress pageSize addr).toNat = addr.toNat % pageSize := by
      omega
    have isPage : IsPage pageSize size (pageAddress pageSize addr).toNat := by
      refine ⟨start, ?_⟩
      rcases pages_apart start whole (by omega) with before | behind
      · exact before
      · omega
    rw [chunk, offset, readPages_within fits answers coherent some isPage within, page]

end Device

end Cache

/-! ## Coherence of both caches -/

/-- With debugWire the EEPROM is not read in pages. -/
def EepromCacheUnused (t : Target) (s : Session) : Prop :=
  t.useDebugWire = true → s.eepromCache.pageAddr = 0xffff

section Run

variable (t : Target) {s : Session}

theorem flash_small : t.flashSize < 2 ^ 32 :=
  Nat.lt_of_le_of_lt t.flashBelow (by decide)

theorem eeprom_small : t.eepromSize < 2 ^ 32 :=
  Nat.lt_of_le_of_lt t.eepromBelow (by decide)

theorem eepromPage_bound : t.eepromPageSize ≤ maxFlashPageSize :=
  Nat.le_trans t.eepromPageFits (by decide)

theorem not_isPage_eeprom : ¬ IsPage t.eepromPageSize t.eepromSize (0xffff : UInt32).toNat := by
  intro isPage
  have inside : 0xffff + t.eepromPageSize ≤ t.eepromSize := isPage.2
  have bound : t.eepromSize ≤ 0xffff := t.eepromBelow
  have positive := t.eepromPageSize_pos
  omega

theorem not_isPage_flash : ¬ IsPage t.flashPageSize t.flashSize (0xffffffff : UInt32).toNat := by
  intro isPage
  have inside : 0xffffffff + t.flashPageSize ≤ t.flashSize := isPage.2
  have bound : t.flashSize ≤ 0x800000 := t.flashBelow
  omega

theorem read_flash (d : Device) {pageAddr : UInt32}
    (isPage : IsPage t.flashPageSize t.flashSize pageAddr.toNat) :
    d.read t mtypeFlashPage t.flashPageSize pageAddr =
      some (slice d.flash pageAddr.toNat t.flashPageSize) :=
  if_pos isPage.2

theorem read_eeprom (d : Device) {pageAddr : UInt32}
    (isPage : IsPage t.eepromPageSize t.eepromSize pageAddr.toNat) :
    d.read t mtypeEepromPage t.eepromPageSize pageAddr =
      some (slice d.eeprom pageAddr.toNat t.eepromPageSize) :=
  if_pos isPage.2

theorem read_eq_slice {d : Device} {whichSpace : UInt8} {count : Nat} {address : UInt32}
    {bytes : List UInt8} (answered : d.read t whichSpace count address = some bytes) :
    bytes = slice (d.memory whichSpace) address.toNat count := by
  unfold Device.read at answered
  split at answered
  · exact (Option.some.inj answered).symm
  · cases answered

theorem coherent_jtagRead (coherent : s.Coherent t) (addr numBytes : UInt32) :
    (s.jtagRead t addr numBytes).1.Coherent t := by
  unfold Session.jtagRead
  by_cases empty : numBytes = 0
  · rw [if_pos empty]
    exact coherent
  rw [if_neg empty]
  obtain ⟨whichSpace, a⟩ := memorySpace t addr
  by_cases flash : whichSpace = mtypeFlashPage
  · subst flash
    refine ⟨?_, coherent.eeprom⟩
    apply readPages_cache fun cache =>
      cache.Coherent t.flashPageSize t.flashSize s.device.flash
    · intro cache pageAddr page answered
      rw [read_eq_slice t answered]
      exact cache.coherent_load t.flashPageFits
    · exact coherent.flash
  · simp only [if_neg flash]
    by_cases eeprom : whichSpace = mtypeEepromPage
    · subst eeprom
      refine ⟨coherent.flash, ?_⟩
      apply readPages_cache fun cache =>
        cache.Coherent t.eepromPageSize t.eepromSize s.device.eeprom
      · intro cache pageAddr page answered
        rw [read_eq_slice t answered]
        exact cache.coherent_load t.eepromPageFits
      · exact coherent.eeprom
    · simp only [if_neg eeprom]
      exact coherent

theorem writesElsewhere_of_refused {n pageSize size : Nat} {cache : PageCache n}
    {memory : Nat → UInt8} {addr : UInt32} {buffer : List UInt8}
    (refused : ¬ (buffer.length = pageSize ∧
      (pageAddress pageSize addr).toNat + pageSize ≤ size)) :
    WritesElsewhere cache pageSize size memory addr buffer := by
  intro length isPage here
  rw [here] at refused
  exact absurd ⟨length, isPage.2⟩ refused

theorem keeps_jtagWrite_iff {addr a : UInt32} {whichSpace : UInt8} (buffer : List UInt8)
    (space : memorySpace t addr = (whichSpace, a)) :
    KeepsCachedPages t s (.jtagWrite addr buffer) ↔
      (whichSpace = mtypeFlashPage →
        WritesElsewhere s.flashCache t.flashPageSize t.flashSize s.device.flash a buffer) ∧
      (whichSpace = mtypeEepromPage →
        WritesElsewhere s.eepromCache t.eepromPageSize t.eepromSize s.device.eeprom a buffer) := by
  simp only [KeepsCachedPages, space]

theorem coherent_jtagWrite_iff (coherent : s.Coherent t) (unused : EepromCacheUnused t s)
    (addr : UInt32) (buffer : List UInt8) :
    (s.apply t (.jtagWrite addr buffer)).Coherent t ↔
      KeepsCachedPages t s (.jtagWrite addr buffer) := by
  have eepromNotFlash : mtypeEepromPage ≠ mtypeFlashPage := by decide
  obtain ⟨a, space⟩ | ⟨_, a, space⟩ | ⟨whichSpace, a, space, unpaged, notSpm, eeprom⟩ :=
    memorySpace_cases t addr
  · rw [apply_write_flash t s buffer space, keeps_jtagWrite_iff t buffer space]
    by_cases accepted : buffer.length = t.flashPageSize ∧
        (pageAddress t.flashPageSize a).toNat + t.flashPageSize ≤ t.flashSize
    · rw [if_pos accepted]
      have decides := @PageCache.Coherent.overwrite_iff _ _ _ _ _ coherent.flash t.flashPages
        t.flashPageFits a buffer accepted.1
      constructor
      · exact fun after =>
          ⟨fun _ => decides.mp after.flash, fun other => absurd other.symm eepromNotFlash⟩
      · exact fun keeps => ⟨decides.mpr (keeps.1 rfl), coherent.eeprom⟩
    · rw [if_neg accepted]
      constructor
      · exact fun _ => ⟨fun _ => writesElsewhere_of_refused accepted,
          fun other => absurd other.symm eepromNotFlash⟩
      · exact fun _ => coherent
  · rw [apply_write_eeprom t s buffer space, keeps_jtagWrite_iff t buffer space]
    by_cases accepted : buffer.length = t.eepromPageSize ∧
        (pageAddress t.eepromPageSize a).toNat + t.eepromPageSize ≤ t.eepromSize
    · rw [if_pos accepted]
      have decides := @PageCache.Coherent.overwrite_iff _ _ _ _ _ coherent.eeprom t.eepromPages
        (eepromPage_bound t) a buffer accepted.1
      constructor
      · exact fun after =>
          ⟨fun other => absurd other eepromNotFlash, fun _ => decides.mp after.eeprom⟩
      · exact fun keeps => ⟨coherent.flash, decides.mpr (keeps.2 rfl)⟩
    · rw [if_neg accepted]
      constructor
      · exact fun _ => ⟨fun other => absurd other eepromNotFlash,
          fun _ => writesElsewhere_of_refused accepted⟩
      · exact fun _ => coherent
  · obtain ⟨device, after, sameFlash, sameEeprom⟩ :=
      apply_write_other t s buffer space unpaged notSpm eeprom
    obtain ⟨notFlash, notPaged⟩ := not_paged unpaged
    rw [after, keeps_jtagWrite_iff t buffer space]
    constructor
    · exact fun _ => ⟨fun flash => absurd flash notFlash, fun paged => absurd paged notPaged⟩
    · intro _
      constructor
      · show s.flashCache.Coherent t.flashPageSize t.flashSize device.flash
        rw [sameFlash]
        exact coherent.flash
      · show s.eepromCache.Coherent t.eepromPageSize t.eepromSize device.eeprom
        cases debugWire : t.useDebugWire with
        | false =>
            rw [sameEeprom debugWire]
            exact coherent.eeprom
        | true =>
            intro isPage
            rw [unused debugWire] at isPage
            exact absurd isPage (not_isPage_eeprom t)

theorem coherent_eraseProgramMemory_iff (coherent : s.Coherent t) :
    (s.eraseProgramMemory t).Coherent t ↔ KeepsCachedPages t s .eraseProgramMemory := by
  have flash := coherent.flash.erase_iff
  have eeprom := coherent.eeprom.erase_iff
  cases save : t.saveEeprom with
  | true =>
      have kept : (s.device.chipErase t).eeprom = s.device.eeprom := by
        simp [Device.chipErase, save]
      constructor
      · exact fun after =>
          ⟨flash.mp after.flash, fun erased => absurd (save.symm.trans erased) nofun⟩
      · intro keeps
        refine ⟨flash.mpr keeps.1, ?_⟩
        show s.eepromCache.Coherent _ _ (s.device.chipErase t).eeprom
        rw [kept]
        exact coherent.eeprom
  | false =>
      have erased : (s.device.chipErase t).eeprom =
          overwrite s.device.eeprom 0 (List.replicate t.eepromSize 0xff) := by
        simp [Device.chipErase, save]
      constructor
      · intro after
        have afterEeprom : s.eepromCache.Coherent _ _ (s.device.chipErase t).eeprom := after.eeprom
        rw [erased] at afterEeprom
        exact ⟨flash.mp after.flash, fun _ => eeprom.mp afterEeprom⟩
      · intro keeps
        refine ⟨flash.mpr keeps.1, ?_⟩
        show s.eepromCache.Coherent _ _ (s.device.chipErase t).eeprom
        rw [erased]
        exact eeprom.mpr (keeps.2 save)

theorem coherent_eraseProgramPage_iff (coherent : s.Coherent t) (address : UInt32) :
    (s.apply t (.eraseProgramPage address)).Coherent t ↔
      KeepsCachedPages t s (.eraseProgramPage address) := by
  have start : address.toNat / t.flashPageSize * t.flashPageSize % t.flashPageSize = 0 :=
    Nat.mul_mod_left _ _
  have decides := coherent.flash.erasePage_iff start
  unfold Session.apply Session.eraseProgramPage Device.erasePage
  by_cases inside :
      address.toNat / t.flashPageSize * t.flashPageSize + t.flashPageSize ≤ t.flashSize
  · simp only [if_pos inside, Option.map_some, Option.getD_some]
    constructor
    · exact fun after => decides.mp after.flash
    · exact fun keeps => ⟨decides.mpr keeps, coherent.eeprom⟩
  · simp only [if_neg inside, Option.map_none, Option.getD_none]
    constructor
    · intro _ here isPage
      rw [here] at inside
      exact absurd isPage.2 inside
    · exact fun _ => coherent

theorem coherent_apply_iff (s : Session) (op : MemoryOp) (unused : EepromCacheUnused t s)
    (coherent : s.Coherent t) :
    (s.apply t op).Coherent t ↔ KeepsCachedPages t s op := by
  cases op with
  | jtagRead addr numBytes =>
      exact ⟨fun _ => trivial, fun _ => coherent_jtagRead t coherent addr numBytes⟩
  | jtagWrite addr buffer => exact coherent_jtagWrite_iff t coherent unused addr buffer
  | eraseProgramMemory => exact coherent_eraseProgramMemory_iff t coherent
  | eraseProgramPage address => exact coherent_eraseProgramPage_iff t coherent address

theorem unused_apply (s : Session) (op : MemoryOp) (unused : EepromCacheUnused t s) :
    EepromCacheUnused t (s.apply t op) := by
  intro debugWire
  have before := unused debugWire
  cases op with
  | jtagRead addr numBytes =>
      rw [Session.apply, Session.jtagRead]
      by_cases empty : numBytes = 0
      · rw [if_pos empty]
        exact before
      rw [if_neg empty]
      obtain ⟨a, space⟩ | ⟨noDebugWire, _⟩ | ⟨whichSpace, a, space, unpaged, _, _⟩ :=
        memorySpace_cases t addr
      · rw [space]
        exact before
      · rw [debugWire] at noDebugWire
        cases noDebugWire
      · obtain ⟨notFlash, notPaged⟩ := not_paged unpaged
        simp only [space, if_neg notFlash, if_neg notPaged]
        exact before
  | jtagWrite addr buffer =>
      obtain ⟨a, space⟩ | ⟨noDebugWire, _⟩ | ⟨whichSpace, a, space, unpaged, notSpm, eeprom⟩ :=
        memorySpace_cases t addr
      · rw [apply_write_flash t s buffer space]
        split <;> exact before
      · rw [debugWire] at noDebugWire
        cases noDebugWire
      · obtain ⟨device, after, _⟩ := apply_write_other t s buffer space unpaged notSpm eeprom
        rw [after]
        exact before
  | eraseProgramMemory => exact before
  | eraseProgramPage address =>
      rw [Session.apply, Session.eraseProgramPage]
      cases s.device.erasePage t address <;> exact before

theorem coherent_start (device : Device) (flashBytes : CArray UInt8 maxFlashPageSize)
    (eepromBytes : CArray UInt8 maxEepromPageSize) :
    (Session.start device flashBytes eepromBytes).Coherent t where
  flash isPage := absurd isPage (not_isPage_flash t)
  eeprom isPage := absurd isPage (not_isPage_eeprom t)

theorem reads_contents (coherent : s.Coherent t) (op : MemoryOp) (whole : ReadsWholePages t op) :
    ReadsContents t s op := by
  cases op with
  | jtagRead addr numBytes =>
      rw [ReadsContents]
      rw [ReadsWholePages] at whole
      by_cases empty : numBytes = 0
      · subst empty
        intro _
        exact ⟨[0], by simp [Session.jtagRead], rfl⟩
      have some : 0 < numBytes.toNat :=
        Nat.pos_of_ne_zero fun zero => empty (UInt32.toNat_inj.mp zero)
      have all (bytes : List UInt8) (length : bytes.length = numBytes.toNat) :
          bytes.take numBytes.toNat = bytes :=
        List.take_of_length_le (Nat.le_of_eq length)
      rw [Session.jtagRead, if_neg empty]
      obtain ⟨a, space⟩ | ⟨_, a, space⟩ | ⟨whichSpace, a, space, unpaged, _, _⟩ :=
        memorySpace_cases t addr
      · rw [space] at whole ⊢
        intro inside
        have read := readPaged_response t.flashPageFits (flash_small t)
          (fun _ => read_flash t s.device) t.flashPages t.flashPageFits (Nat.mul_mod_right _ _)
          coherent.flash some inside (whole t.flashPageSize rfl)
        exact ⟨_, read, all _ slice_length⟩
      · rw [space] at whole ⊢
        intro inside
        have read := readPaged_response t.eepromPageFits (eeprom_small t)
          (fun _ => read_eeprom t s.device) t.eepromPages (eepromPage_bound t)
          (Nat.mul_mod_right _ _) coherent.eeprom some inside (whole t.eepromPageSize rfl)
        exact ⟨_, read, all _ slice_length⟩
      · obtain ⟨notFlash, notPaged⟩ := not_paged unpaged
        rw [space]
        intro inside
        refine ⟨_, ?_, all _ slice_length⟩
        simp only [if_neg notFlash, if_neg notPaged]
        exact if_pos inside
  | jtagWrite _ _ | eraseProgramMemory | eraseProgramPage _ => trivial

end Run

/-- The caches are coherent throughout a run exactly when no write and no erase
changes a cached page; and if its reads are also of whole pages or within one,
they all return the contents. -/
theorem caches_coherent_iff (t : Target) (device : Device)
    (flashBytes : CArray UInt8 maxFlashPageSize) (eepromBytes : CArray UInt8 maxEepromPageSize)
    (ops : List MemoryOp) :
    let start := Session.start device flashBytes eepromBytes
    (Transition.Always (Session.apply t) (Session.Coherent t) start ops ↔
      Transition.Along (Session.apply t) (KeepsCachedPages t) start ops) ∧
    (Transition.Along (Session.apply t) (fun s op => KeepsCachedPages t s op ∧ ReadsWholePages t op)
        start ops →
      Transition.Along (Session.apply t) (ReadsContents t) start ops) := by
  intro start
  have unused : EepromCacheUnused t start := fun _ => rfl
  have coherent : start.Coherent t := coherent_start t device flashBytes eepromBytes
  constructor
  · exact Transition.always_iff_along (unused_apply t) (coherent_apply_iff t) ops unused coherent
  · clear_value start
    induction ops generalizing start with
    | nil => exact id
    | cons op rest inductionHypothesis =>
        intro along
        obtain ⟨⟨keeps, whole⟩, later⟩ := along
        exact ⟨reads_contents t coherent op whole,
          inductionHypothesis _ (unused_apply t start op unused)
            ((coherent_apply_iff t start op unused coherent).mpr keeps) later⟩

def twoPages : Target where
  useDebugWire := false
  saveEeprom := false
  flashPageSize := 2
  flashPageCount := 2
  eepromPageSize := 1
  eepromPageCount := 1
  flashPages := ⟨1, rfl⟩
  eepromPages := ⟨0, rfl⟩
  flashPageFits := by decide
  eepromPageFits := by decide
  flashBelow := by decide
  eepromBelow := by decide

def blank : Session :=
  .start ⟨fun _ => 0xff, fun _ => 0xff, fun _ _ => 0xff⟩ (CArray.fill _ 0) (CArray.fill _ 0)

/-- A page that is written after it has been read is read as it was before. -/
theorem stale_page :
    ¬ Transition.Always (Session.apply twoPages) (Session.Coherent twoPages) blank
        [.jtagRead 0 2, .jtagWrite 0 [1, 2], .jtagRead 0 2] ∧
      ¬ Transition.Along (Session.apply twoPages) (ReadsContents twoPages) blank
        [.jtagRead 0 2, .jtagWrite 0 [1, 2], .jtagRead 0 2] := by
  constructor
  · rintro ⟨_, _, written, _⟩
    have page := written.flash (by decide +kernel)
    revert page
    decide +kernel
  · rintro ⟨_, _, again, _⟩
    obtain ⟨response, read, contents⟩ := again (by decide +kernel)
    have stale : ((Transition.run (Session.apply twoPages) blank
        [.jtagRead 0 2, .jtagWrite 0 [1, 2]]).jtagRead twoPages 0 2).2 = some [0xff, 0xff] := by
      decide +kernel
    cases stale.symm.trans read
    revert contents
    decide +kernel

end Avarice.Mk2.Memory

import Avarice.Mk2.SpaceDecoding

/-!
# Bounds of the page caches

The copies that a read through a cache makes, against the size of the cache and
of what is returned.
-/

namespace Avarice.Mk2.Access

open Throwing Memory

def cacheSize (whichSpace : UInt8) : Nat :=
  if whichSpace = mtypeFlashPage then maxFlashPageSize else maxEepromPageSize

namespace Copy

/-- The copy uses only indices of the cache. -/
def Fits (size : Nat) : Copy → Prop
  | load count => count ≤ size
  | take offset count _ => offset + count ≤ size

/-- The copy writes to this index of what is returned. -/
def Fills (index : Nat) : Copy → Prop
  | load _ => False
  | take _ count targetOffset => targetOffset ≤ index ∧ index < targetOffset + count

end Copy

/-- The copies of a read of so many bytes, of which the first ones have been
filled. -/
structure InBounds (size numBytes filled : Nat) (copies : List Copy) : Prop where
  fits : ∀ copy ∈ copies, copy.Fits size
  within : ∀ copy ∈ copies, ∀ index, copy.Fills index → index < numBytes
  fills : ∀ index < filled, ∃ copy ∈ copies, copy.Fills index

section Copies

variable {size numBytes filled : Nat} {copies : List Copy}

theorem inBounds_nil : InBounds size numBytes 0 [] where
  fits _ membership := absurd membership List.not_mem_nil
  within _ membership := absurd membership List.not_mem_nil
  fills _ impossible := absurd impossible (Nat.not_lt_zero _)

theorem InBounds.weaken (bounds : InBounds size numBytes filled copies) :
    InBounds size numBytes 0 copies :=
  { bounds with fills := fun _ impossible => absurd impossible (Nat.not_lt_zero _) }

theorem InBounds.append (bounds : InBounds size numBytes filled copies) {copy : Copy} {more : Nat}
    (fits : copy.Fits size) (within : ∀ index, copy.Fills index → index < numBytes)
    (fills : ∀ index < more, index < filled ∨ copy.Fills index) :
    InBounds size numBytes more (copies ++ [copy]) where
  fits other membership := by
    rcases List.mem_append.mp membership with before | new
    · exact bounds.fits other before
    · rw [List.mem_singleton.mp new]
      exact fits
  within other membership := by
    rcases List.mem_append.mp membership with before | new
    · exact bounds.within other before
    · rw [List.mem_singleton.mp new]
      exact within
  fills index inside := by
    rcases fills index inside with before | here
    · obtain ⟨other, membership, fills⟩ := bounds.fills index before
      exact ⟨other, List.mem_append_left _ membership, fills⟩
    · exact ⟨copy, List.mem_append_right _ (List.mem_singleton_self copy), here⟩

theorem InBounds.load (bounds : InBounds size numBytes filled copies) {count : Nat}
    (fits : count ≤ size) : InBounds size numBytes filled (copies ++ [.load count]) :=
  bounds.append fits (fun _ => False.elim) fun _ => .inl

theorem InBounds.take (bounds : InBounds size numBytes filled copies) {offset count : Nat}
    (fits : offset + count ≤ size) (within : filled + count ≤ numBytes) :
    InBounds size numBytes (filled + count) (copies ++ [.take offset count filled]) := by
  refine bounds.append fits (fun _ fills => Nat.lt_of_lt_of_le fills.2 within) ?_
  intro index inside
  exact (Nat.lt_or_ge index filled).imp_right fun here => ⟨here, inside⟩

end Copies

/-! ## The loop over the pages -/

section Loop

variable {Ice : Type} {attempt : List UInt8 → Ice → Attempt × Ice} {n : Nat}
  {whichSpace : UInt8} {pageSize offset : UInt32}

theorem readPages_zero (rounds : Nat) (p : Paging Ice n)
    (chunksize targetOffset pageAddr : UInt32) (response : List UInt8) :
    p.readPages attempt whichSpace pageSize offset rounds 0 chunksize targetOffset pageAddr
      response = ⟨some response, p⟩ := by
  cases rounds with
  | zero => rfl
  | succ rounds => rw [Paging.readPages, if_pos rfl]

theorem toNat_nextChunk (pageSize : UInt32) {numBytes chunksize : UInt32}
    (within : chunksize ≤ numBytes) :
    (if pageSize < numBytes - chunksize then pageSize else numBytes - chunksize).toNat =
      min pageSize.toNat (numBytes.toNat - chunksize.toNat) := by
  have rest := UInt32.toNat_sub_of_le _ _ within
  split
  next larger =>
    rw [UInt32.lt_iff_toNat_lt, rest] at larger
    exact (Nat.min_eq_left (Nat.le_of_lt larger)).symm
  next small =>
    rw [UInt32.not_lt, UInt32.le_iff_toNat_le, rest] at small
    rw [rest, Nat.min_eq_right small]

variable {size total : Nat} (fits : pageSize.toNat ≤ size)
include fits

theorem fetch_inBounds {filled : Nat} {p : Paging Ice n} (pageAddr : UInt32)
    (before : InBounds size total filled p.copies) :
    (p.fetch attempt whichSpace pageSize pageAddr).Ends
      (fun _ p => InBounds size total filled p.copies)
      (fun p => InBounds size total 0 p.copies) := by
  unfold Paging.fetch
  split
  · exact Called.ends_return before
  · cases outcome :
        (checkedCommand attempt (readCommand whichSpace pageSize pageAddr) p.ice).value with
    | none =>
        simp only [outcome]
        exact ⟨fun _ impossible => absurd impossible.symm (Option.some_ne_none _),
          fun _ => before.weaken⟩
    | some resp =>
        simp only [outcome]
        exact Called.ends_return (before.load fits)

variable (positive : 0 < pageSize.toNat)
include positive

theorem readPages_inBounds {rounds : Nat} {p : Paging Ice n}
    {numBytes chunksize targetOffset : UInt32} (pageAddr : UInt32) (response : List UInt8)
    (enough : numBytes.toNat ≤ rounds)
    (proper : 0 < numBytes.toNat → 0 < chunksize.toNat ∧ chunksize.toNat ≤ numBytes.toNat ∧
      offset.toNat + chunksize.toNat ≤ size)
    (later : chunksize.toNat < numBytes.toNat →
      offset.toNat + min pageSize.toNat (numBytes.toNat - chunksize.toNat) ≤ size)
    (whole : targetOffset.toNat + numBytes.toNat = total) (small : total < 2 ^ 32)
    (before : InBounds size total targetOffset.toNat p.copies) :
    (p.readPages attempt whichSpace pageSize offset rounds numBytes chunksize targetOffset
      pageAddr response).Ends
        (fun _ p => InBounds size total total p.copies)
        (fun p => InBounds size total 0 p.copies) := by
  induction rounds generalizing p numBytes chunksize targetOffset pageAddr response with
  | zero =>
      have nothing : targetOffset.toNat = total := by omega
      exact Called.ends_return (nothing ▸ before)
  | succ rounds inductionHypothesis =>
      by_cases done : numBytes = 0
      · subst done
        rw [readPages_zero]
        exact Called.ends_return ((whole : _ = total) ▸ before)
      · have some : 0 < numBytes.toNat := toNat_pos done
        obtain ⟨progress, within, here⟩ := proper some
        have rest := UInt32.toNat_sub_of_le numBytes chunksize (UInt32.le_iff_toNat_le.mpr within)
        have next := toNat_nextChunk pageSize (UInt32.le_iff_toNat_le.mpr within)
        have target : (targetOffset + chunksize).toNat = targetOffset.toNat + chunksize.toNat := by
          rw [UInt32.toNat_add, Nat.mod_eq_of_lt (by omega)]
        rw [Paging.readPages, if_neg done]
        refine (fetch_inBounds fits pageAddr before).andThen fun _ p fetched => ?_
        apply inductionHypothesis
        · omega
        · intro more
          rw [next, rest]
          rw [rest] at more
          exact ⟨by omega, by omega, later (by omega)⟩
        · intro more
          rw [next, rest] at more ⊢
          have := later (by omega)
          omega
        · rw [rest, target]
          omega
        · rw [target]
          exact fetched.take here (by omega)

end Loop

/-! ## The first page -/

section FirstPage

variable {pageSize : UInt32} {k : Nat} (isSize : pageSize.toNat = 2 ^ k) (small : k ≤ 9)
include isSize small

theorem toNat_pageAddrOf (addr : UInt64) :
    (pageAddrOf pageSize addr).toNat = addr.toNat % 2 ^ 32 / 2 ^ k * 2 ^ k := by
  have same : pageSize = Nat.toUInt32 (2 ^ k) := by
    rw [← isSize, Nat.toUInt32_eq, UInt32.ofNat_toNat]
  have masked := toNat_and_not_mask (Nat.lt_of_le_of_lt small (by decide)) addr.toUInt32
  rw [UInt64.toNat_toUInt32] at masked
  rw [pageAddrOf, same]
  exact masked

/-- The parts of an address: above 32 bits, of the page, and in the page. -/
theorem exists_firstPage (addr : UInt64) :
    ∃ high, addr.toNat = high * 2 ^ 32 + (pageAddrOf pageSize addr).toNat + addr.toNat % 2 ^ k ∧
      addr.toNat / 2 ^ k * 2 ^ k = high * 2 ^ 32 + (pageAddrOf pageSize addr).toNat ∧
      (pageAddrOf pageSize addr).toNat + 2 ^ k ≤ 2 ^ 32 := by
  have pages : 2 ^ k * 2 ^ (32 - k) = 2 ^ 32 := by
    rw [← Nat.pow_add, Nat.add_sub_cancel' (by omega)]
  have inLow := Nat.div_add_mod (addr.toNat % 2 ^ 32) (2 ^ k)
  have inWhole := Nat.div_add_mod addr.toNat (2 ^ k)
  have parts := Nat.div_add_mod addr.toNat (2 ^ 32)
  have sameOffset : addr.toNat % 2 ^ 32 % 2 ^ k = addr.toNat % 2 ^ k :=
    Nat.mod_mod_of_dvd _ ⟨_, pages.symm⟩
  have number : addr.toNat % 2 ^ 32 / 2 ^ k < 2 ^ (32 - k) := by
    rw [Nat.div_lt_iff_lt_mul (Nat.two_pow_pos k), Nat.mul_comm, pages]
    exact Nat.mod_lt _ (by decide)
  rw [toNat_pageAddrOf isSize small]
  refine ⟨addr.toNat / 2 ^ 32, by lia, by lia, ?_⟩
  calc addr.toNat % 2 ^ 32 / 2 ^ k * 2 ^ k + 2 ^ k
      = (addr.toNat % 2 ^ 32 / 2 ^ k + 1) * 2 ^ k := by rw [Nat.add_mul, Nat.one_mul]
    _ ≤ 2 ^ (32 - k) * 2 ^ k := Nat.mul_le_mul_right _ number
    _ = 2 ^ 32 := by rw [Nat.mul_comm, pages]

theorem toNat_offset (addr : UInt64) :
    (addr - (pageAddrOf pageSize addr).toUInt64).toUInt32.toNat = addr.toNat % 2 ^ k := by
  obtain ⟨high, whole, -, fits⟩ := exists_firstPage isSize small addr
  have inPage := Nat.mod_lt addr.toNat (Nat.two_pow_pos k)
  have below : (pageAddrOf pageSize addr).toUInt64 ≤ addr := by
    rw [UInt64.le_iff_toNat_le, UInt32.toNat_toUInt64]
    omega
  rw [UInt64.toNat_toUInt32, UInt64.toNat_sub_of_le _ _ below, UInt32.toNat_toUInt64]
  omega

theorem toNat_firstChunk (addr : UInt64) (numBytes : UInt32) :
    (firstChunk pageSize (pageAddrOf pageSize addr) addr numBytes).toNat =
      if ((pageAddrOf pageSize addr).toNat + 2 ^ k) % 2 ^ 32 ≤
          (addr.toNat + numBytes.toNat) % 2 ^ 64 then 2 ^ k - addr.toNat % 2 ^ k
      else numBytes.toNat := by
  obtain ⟨high, whole, -, fits⟩ := exists_firstPage isSize small addr
  have bound := addr.toNat_lt
  have bound' := numBytes.toNat_lt
  have inPage := Nat.mod_lt addr.toNat (Nat.two_pow_pos k)
  have sizeSmall : 2 ^ k ≤ 2 ^ 9 := Nat.pow_le_pow_right (by decide) small
  have stop : (pageAddrOf pageSize addr + pageSize).toUInt64.toNat =
      ((pageAddrOf pageSize addr).toNat + 2 ^ k) % 2 ^ 32 := by
    rw [UInt32.toNat_toUInt64, UInt32.toNat_add, isSize]
  have sum : (addr + numBytes.toUInt64).toNat = (addr.toNat + numBytes.toNat) % 2 ^ 64 := by
    rw [UInt64.toNat_add, UInt32.toNat_toUInt64]
  simp only [firstChunk, UInt64.le_iff_toNat_le, stop, sum]
  split
  next crosses =>
    have beyond : (pageAddrOf pageSize addr + pageSize).toUInt64 ≤ addr + numBytes.toUInt64 := by
      rw [UInt64.le_iff_toNat_le, stop, sum]
      exact crosses
    rw [UInt32.toNat_sub, UInt64.toNat_toUInt32, UInt64.toNat_sub_of_le _ _ beyond, stop, sum]
    omega
  next => rfl

end FirstPage

/-! ## Reads that stay in bounds -/

def pageEnd (pageSize addr : Nat) : Nat := addr / pageSize * pageSize + pageSize

/-- A page fits the cache.  A read that ends inside its first page is at
addresses of 32 bits.  For a longer one the next chunk fits the cache behind the
offset of the first byte, and if it wraps around behind its first page, all of
it does. -/
structure StaysInBounds (size pageSize addr numBytes : Nat) : Prop where
  pageFits : pageSize ≤ size
  short : addr + numBytes < pageEnd pageSize addr → pageEnd pageSize addr < 2 ^ 32
  long : pageEnd pageSize addr < addr + numBytes →
    addr % pageSize + min pageSize (addr + numBytes - pageEnd pageSize addr) ≤ size
  wrapped : pageEnd pageSize addr < 2 ^ 64 → 2 ^ 64 ≤ addr + numBytes →
    addr % pageSize + numBytes ≤ size

section Reads

variable {Ice : Type} {attempt : List UInt8 → Ice → Attempt × Ice} {n : Nat}
  {whichSpace : UInt8} {pageSize : UInt32} {k size : Nat} (isSize : pageSize.toNat = 2 ^ k)
  (small : k ≤ 9) {addr : UInt64} {numBytes : UInt32} (some : numBytes ≠ 0)
include isSize small some

theorem read_inBounds {p : Paging Ice n} (fresh : p.copies = [])
    (stays : StaysInBounds size pageSize.toNat addr.toNat numBytes.toNat) :
    (p.read attempt whichSpace pageSize addr numBytes).Ends
      (fun _ p => InBounds size numBytes.toNat numBytes.toNat p.copies)
      (fun p => InBounds size numBytes.toNat 0 p.copies) := by
  obtain ⟨high, whole, start, fits⟩ := exists_firstPage isSize small addr
  have offset := toNat_offset isSize small addr
  have chunk := toNat_firstChunk isSize small addr numBytes
  have inPage := Nat.mod_lt addr.toNat (Nat.two_pow_pos k)
  have bound := addr.toNat_lt
  have bound' := numBytes.toNat_lt
  have positive : 0 < numBytes.toNat := toNat_pos some
  obtain ⟨pageFits, short, long, wrapped⟩ := stays
  simp only [pageEnd, isSize, start] at short long wrapped
  apply readPages_inBounds (pageFits) (isSize ▸ Nat.two_pow_pos k)
  · exact Nat.le_of_lt bound'
  · intro _
    rw [offset, chunk]
    split <;> omega
  · rw [offset, chunk, isSize]
    split <;> omega
  · exact Nat.zero_add _
  · exact bound'
  · rw [fresh]
    exact inBounds_nil

end Reads

/-! ## An ICE that answers -/

/-- Every command is answered, by the code of success and nothing else. -/
def answering (_ : List UInt8) (_ : Unit) : Attempt × Unit := (.response rspOk [], ())

section Answered

variable {n : Nat} {whichSpace : UInt8} {pageSize offset : UInt32}

theorem fetch_answering (p : Paging Unit n) (pageAddr : UInt32) :
    ∃ fetched, p.fetch answering whichSpace pageSize pageAddr = ⟨some (), fetched⟩ ∧
      p.copies ⊆ fetched.copies ∧
      (pageAddr ≠ p.cache.pageAddr → .load pageSize.toNat ∈ fetched.copies) := by
  unfold Paging.fetch
  split
  next cached => exact ⟨p, rfl, List.Subset.refl _, fun other => absurd cached other⟩
  next =>
    exact ⟨_, rfl, List.subset_append_left _ _, fun _ =>
      List.mem_append_right _ (List.mem_singleton_self _)⟩

theorem readPages_answering {rounds : Nat} (p : Paging Unit n) {numBytes : UInt32}
    (some : numBytes ≠ 0) (chunksize targetOffset pageAddr : UInt32) (response : List UInt8) :
    ∃ (later : Paging Unit n) (response' : List UInt8),
      p.readPages answering whichSpace pageSize offset (rounds + 1) numBytes chunksize targetOffset
          pageAddr response =
        later.readPages answering whichSpace pageSize offset rounds (numBytes - chunksize)
          (if pageSize < numBytes - chunksize then pageSize else numBytes - chunksize)
          (targetOffset + chunksize) (pageAddr + pageSize) response' ∧
      p.copies ⊆ later.copies ∧
      (pageAddr ≠ p.cache.pageAddr → .load pageSize.toNat ∈ later.copies) ∧
      .take offset.toNat chunksize.toNat targetOffset.toNat ∈ later.copies := by
  obtain ⟨fetched, fetches, kept, loads⟩ :=
    @fetch_answering n whichSpace pageSize p pageAddr
  rw [Paging.readPages, if_neg some, fetches, Called.andThen_of_returned rfl]
  refine ⟨_, _, rfl, ?_, ?_, ?_⟩
  · exact List.subset_append_of_subset_left _ kept
  · exact fun other => List.mem_append_left _ (loads other)
  · exact List.mem_append_right _ (List.mem_singleton_self _)

theorem readPages_answering_subset {rounds : Nat} (p : Paging Unit n)
    (numBytes chunksize targetOffset pageAddr : UInt32) (response : List UInt8) :
    p.copies ⊆ (p.readPages answering whichSpace pageSize offset rounds numBytes chunksize
      targetOffset pageAddr response).state.copies := by
  induction rounds generalizing p numBytes chunksize targetOffset pageAddr response with
  | zero => exact List.Subset.refl _
  | succ rounds inductionHypothesis =>
      by_cases done : numBytes = 0
      · rw [done, readPages_zero]
        exact List.Subset.refl _
      · obtain ⟨later, response', round, kept, -⟩ :=
          @readPages_answering n whichSpace pageSize offset rounds p _ done chunksize targetOffset
            pageAddr response
        rw [round]
        exact List.Subset.trans kept (inductionHypothesis _ _ _ _ _ _)

theorem load_of_readPages {rounds : Nat} {p : Paging Unit n} {numBytes pageAddr : UInt32}
    (some : numBytes ≠ 0) (missing : pageAddr ≠ p.cache.pageAddr)
    (chunksize targetOffset : UInt32) (response : List UInt8) :
    .load pageSize.toNat ∈ (p.readPages answering whichSpace pageSize offset (rounds + 1) numBytes
      chunksize targetOffset pageAddr response).state.copies := by
  obtain ⟨later, response', round, -, loads, -⟩ :=
    readPages_answering p some chunksize targetOffset pageAddr response
  rw [round]
  exact readPages_answering_subset later _ _ _ _ _ (loads missing)

theorem take_of_readPages {rounds : Nat} (p : Paging Unit n) {numBytes : UInt32}
    (some : numBytes ≠ 0) (chunksize targetOffset pageAddr : UInt32) (response : List UInt8) :
    .take offset.toNat chunksize.toNat targetOffset.toNat ∈
      (p.readPages answering whichSpace pageSize offset (rounds + 1) numBytes
        chunksize targetOffset pageAddr response).state.copies := by
  obtain ⟨later, response', round, -, -, taken⟩ :=
    readPages_answering p some chunksize targetOffset pageAddr response
  rw [round]
  exact readPages_answering_subset later _ _ _ _ _ taken

theorem next_of_readPages {rounds : Nat} (p : Paging Unit n) {numBytes chunksize : UInt32}
    (more : chunksize < numBytes) (targetOffset pageAddr : UInt32) (response : List UInt8) :
    .take offset.toNat (min pageSize.toNat (numBytes.toNat - chunksize.toNat))
        (targetOffset + chunksize).toNat ∈
      (p.readPages answering whichSpace pageSize offset (rounds + 2) numBytes
        chunksize targetOffset pageAddr response).state.copies := by
  have within := UInt32.le_of_lt more
  have some : numBytes ≠ 0 := fun none => UInt32.not_lt_zero (none ▸ more)
  have rest : numBytes - chunksize ≠ 0 := by
    rw [Ne, ← UInt32.toNat_inj, UInt32.toNat_sub_of_le _ _ within]
    exact Nat.sub_ne_zero_of_lt (UInt32.lt_iff_toNat_lt.mp more)
  obtain ⟨later, response', round, -⟩ :=
    readPages_answering p some chunksize targetOffset pageAddr response
  rw [round, ← toNat_nextChunk pageSize within]
  exact take_of_readPages later rest _ _ _ _

theorem chunks_of_inBounds {size rounds : Nat} {p : Paging Unit n}
    {numBytes chunksize pageAddr : UInt32} (some : numBytes ≠ 0)
    (missing : pageAddr ≠ p.cache.pageAddr)
    (bounds : InBounds size numBytes.toNat 0
      (p.readPages answering whichSpace pageSize offset (rounds + 2) numBytes chunksize 0 pageAddr
        []).state.copies) :
    pageSize.toNat ≤ size ∧ offset.toNat + chunksize.toNat ≤ size ∧
      chunksize.toNat ≤ numBytes.toNat ∧
      (chunksize.toNat < numBytes.toNat →
        offset.toNat + min pageSize.toNat (numBytes.toNat - chunksize.toNat) ≤ size) := by
  have taken := @take_of_readPages n whichSpace pageSize offset (rounds + 1) p _ some chunksize 0
    pageAddr []
  refine ⟨bounds.fits _ (load_of_readPages some missing chunksize 0 []), bounds.fits _ taken,
    ?_, fun more => ?_⟩
  · by_contra longer
    have inside := bounds.within _ taken numBytes.toNat ⟨Nat.zero_le _, by simpa using longer⟩
    exact Nat.lt_irrefl _ inside
  · exact bounds.fits _
      (next_of_readPages p (UInt32.lt_iff_toNat_lt.mpr more) 0 pageAddr [])

variable {k size : Nat} (isSize : pageSize.toNat = 2 ^ k) (small : k ≤ 9) {addr : UInt64}
  {numBytes : UInt32} (some : numBytes ≠ 0)
include isSize small some

theorem staysInBounds_of_read {cache : PageCache n}
    (missing : pageAddrOf pageSize addr ≠ cache.pageAddr)
    (bounds : InBounds size numBytes.toNat 0
      (Paging.read answering ⟨cache, (), []⟩ whichSpace pageSize addr numBytes).state.copies) :
    StaysInBounds size pageSize.toNat addr.toNat numBytes.toNat := by
  obtain ⟨high, whole, start, fits⟩ := exists_firstPage isSize small addr
  have offset := toNat_offset isSize small addr
  have chunk := toNat_firstChunk isSize small addr numBytes
  have inPage := Nat.mod_lt addr.toNat (Nat.two_pow_pos k)
  have bound := addr.toNat_lt
  have bound' := numBytes.toNat_lt
  obtain ⟨pageFits, first, within, second⟩ := chunks_of_inBounds some missing bounds
  rw [offset] at first second
  simp only [isSize] at second
  refine ⟨pageFits, ?_, ?_, ?_⟩ <;> simp only [pageEnd, isSize, start]
  · split at chunk <;> omega
  · split at chunk <;> omega
  · split at chunk <;> omega

end Answered

/-! ## Reads of the devices -/

/-- Whatever the caches hold and the ICE answers, a read copies to the indices
of what is returned, all of them unless it throws, and from and to indices of
the cache. -/
def CopiesInBounds (d : DeviceDef) (useDebugWire programmingEnabled : Bool) (addr : UInt64)
    (numBytes : UInt32) : Prop :=
  let size := cacheSize (memorySpace useDebugWire programmingEnabled addr).1
  ∀ (Ice : Type) (attempt : List UInt8 → Ice → Attempt × Ice) (s : Jtag2 Ice),
    s.device = d → s.useDebugWire = useDebugWire → s.programmingEnabled = programmingEnabled →
      s.copies = [] →
        (s.jtagRead attempt addr numBytes).Ends
          (fun _ s => InBounds size numBytes.toNat numBytes.toNat s.copies)
          (fun s => InBounds size numBytes.toNat 0 s.copies)

theorem pageSizeOf_supported {d : DeviceDef} (supported : d ∈ deviceDefinitions) {space : UInt8}
    (paged : space = mtypeFlashPage ∨ space = mtypeEepromPage) :
    ∃ k ≤ 9, (pageSizeOf d space).toNat = 2 ^ k := by
  obtain ⟨flash, ⟨k, small, eeprom⟩, -⟩ := deviceDefinitions_sizes d supported
  rcases paged with rfl | rfl
  · exact flash
  · exact ⟨k, Nat.le_trans small (by decide), (UInt8.toNat_toUInt32 _).trans eeprom⟩

theorem enabled_of_paged {useDebugWire programmingEnabled : Bool} {addr : UInt64}
    (paged : (memorySpace useDebugWire programmingEnabled addr).1 = mtypeFlashPage ∨
      (memorySpace useDebugWire programmingEnabled addr).1 = mtypeEepromPage) :
    programmingEnabled = true ∨ useDebugWire = true := by
  by_contra neither
  obtain ⟨disabled, noWire⟩ := not_or.mp neither
  revert paged
  simp only [memorySpace, Bool.eq_false_iff.mpr disabled, Bool.eq_false_iff.mpr noWire,
    Bool.and_false, Bool.or_false, Bool.false_eq_true, if_false]
  split_ifs <;> decide

section Paged

variable {Ice : Type} {attempt : List UInt8 → Ice → Attempt × Ice} {s : Jtag2 Ice} {addr a : UInt64}
  {numBytes : UInt32} {space : UInt8}

theorem jtagRead_paged (some : numBytes ≠ 0)
    (decoded : memorySpace s.useDebugWire s.programmingEnabled addr = (space, a))
    (paged : space = mtypeFlashPage ∨ space = mtypeEepromPage) :
    s.jtagRead attempt addr numBytes = s.readSpace attempt space a numBytes := by
  rw [Jtag2.jtagRead, if_neg some, decoded]
  dsimp only
  have found : (memorySpace s.useDebugWire s.programmingEnabled addr).1 = space :=
    congrArg Prod.fst decoded
  rcases enabled_of_paged (found ▸ paged) with enabled | debugWire
  · exact inProgmode_of_enabled space enabled
  · exact inProgmode_of_debugWire space debugWire (readSpace_useDebugWire space a numBytes)

theorem readSpace_flash {page : UInt32} (isPage : pageSizeOf s.device mtypeFlashPage = page)
    (some : page ≠ 0) :
    s.readSpace attempt mtypeFlashPage a numBytes =
      let read := Paging.read attempt ⟨s.flashCache, s.ice, s.copies⟩ mtypeFlashPage page a numBytes
      ⟨read.value, { s with flashCache := read.state.cache, ice := read.state.ice,
                            copies := read.state.copies }⟩ := by
  rw [Jtag2.readSpace, if_neg (by decide), isPage, if_neg some, if_pos rfl]

theorem readSpace_eeprom {page : UInt32} (isPage : pageSizeOf s.device mtypeEepromPage = page)
    (some : page ≠ 0) :
    s.readSpace attempt mtypeEepromPage a numBytes =
      let read := Paging.read attempt ⟨s.eepromCache, s.ice, s.copies⟩ mtypeEepromPage page a
        numBytes
      ⟨read.value, { s with eepromCache := read.state.cache, ice := read.state.ice,
                            copies := read.state.copies }⟩ := by
  rw [Jtag2.readSpace, if_neg (by decide), isPage, if_neg some, if_neg (by decide)]

end Paged

def missing (d : DeviceDef) (useDebugWire programmingEnabled : Bool) (pageAddr : UInt32) :
    Jtag2 Unit :=
  { Jtag2.start d useDebugWire programmingEnabled () with
    flashCache := ⟨CArray.fill maxFlashPageSize 0, pageAddr + 1⟩
    eepromCache := ⟨CArray.fill maxEepromPageSize 0, pageAddr + 1⟩ }

theorem InBounds.of_ends {State : Type} {size numBytes : Nat} {copies : State → List Copy}
    {call : Called State (List UInt8)}
    (ends : call.Ends (fun _ s => InBounds size numBytes numBytes (copies s))
      (fun s => InBounds size numBytes 0 (copies s))) :
    InBounds size numBytes 0 (copies call.state) := by
  cases outcome : call.value with
  | none => exact ends.threw outcome
  | some value => exact (ends.returned value outcome).weaken

/-- Reads through the caches of the devices stay in bounds under this condition
on the page size, the address and the length, and under no other. -/
theorem copies_inBounds_iff (d : DeviceDef) (supported : d ∈ deviceDefinitions)
    (useDebugWire programmingEnabled : Bool) (addr : UInt64) (numBytes : UInt32)
    (some : numBytes ≠ 0)
    (paged : (memorySpace useDebugWire programmingEnabled addr).1 = mtypeFlashPage ∨
      (memorySpace useDebugWire programmingEnabled addr).1 = mtypeEepromPage) :
    CopiesInBounds d useDebugWire programmingEnabled addr numBytes ↔
      StaysInBounds (cacheSize (memorySpace useDebugWire programmingEnabled addr).1)
        (pageSizeOf d (memorySpace useDebugWire programmingEnabled addr).1).toNat
        (memorySpace useDebugWire programmingEnabled addr).2.toNat numBytes.toNat := by
  obtain ⟨k, small, isSize⟩ := pageSizeOf_supported supported paged
  cases decoded : memorySpace useDebugWire programmingEnabled addr with
  | mk space a =>
  rw [decoded] at paged isSize
  have isPage : pageSizeOf d space ≠ 0 := by
    intro none
    rw [none] at isSize
    exact Nat.ne_of_lt (Nat.two_pow_pos k) isSize
  rw [CopiesInBounds, decoded]
  dsimp only at paged ⊢
  constructor
  · intro every
    have notThere : pageAddrOf (pageSizeOf d space) a ≠ pageAddrOf (pageSizeOf d space) a + 1 := by
      simp
    let s := missing d useDebugWire programmingEnabled (pageAddrOf (pageSizeOf d space) a)
    have bounds := InBounds.of_ends (every Unit answering s rfl rfl rfl rfl)
    have whole : s.jtagRead answering addr numBytes = s.readSpace answering space a numBytes :=
      jtagRead_paged some decoded paged
    rw [whole] at bounds
    rcases paged with rfl | rfl
    · rw [readSpace_flash rfl isPage] at bounds
      exact staysInBounds_of_read isSize small some notThere bounds
    · rw [readSpace_eeprom rfl isPage] at bounds
      exact staysInBounds_of_read isSize small some notThere bounds
  · rintro stays Ice attempt s rfl rfl rfl fresh
    rw [jtagRead_paged some decoded paged]
    rcases paged with rfl | rfl
    · rw [readSpace_flash rfl isPage]
      have ends := @read_inBounds _ attempt _ mtypeFlashPage _ _ _ isSize small _ _ some
        ⟨s.flashCache, s.ice, s.copies⟩ fresh stays
      exact ⟨ends.returned, ends.threw⟩
    · rw [readSpace_eeprom rfl isPage]
      have ends := @read_inBounds _ attempt _ mtypeEepromPage _ _ _ isSize small _ _ some
        ⟨s.eepromCache, s.ice, s.copies⟩ fresh stays
      exact ⟨ends.returned, ends.threw⟩

abbrev atmega16 : DeviceDef := ⟨"atmega16", 128, 128, 4, 128⟩
abbrev atmega128 : DeviceDef := ⟨"atmega128", 256, 512, 8, 512⟩
abbrev atxmega128a1 : DeviceDef := ⟨"atxmega128a1", 512, 272, 32, 64⟩

theorem copies_inBounds_atmega16 : CopiesInBounds atmega16 false true 1 300 :=
  (copies_inBounds_iff atmega16 (by decide) false true 1 300 (by decide) (.inl rfl)).mpr
    ⟨by decide, by decide, by decide, by decide⟩

/-- Pages of 512 bytes do not fit the cache, and behind an odd address whole
pages of 256 bytes do not. -/
theorem copies_out_of_bounds :
    atxmega128a1 ∈ deviceDefinitions ∧ atmega128 ∈ deviceDefinitions ∧
      memorySpace false true 0 = (mtypeFlashPage, 0) ∧
      memorySpace false true 1 = (mtypeFlashPage, 1) ∧
      ((missing atxmega128a1 false true 0).jtagRead answering 0 1).state.copies =
        [.load 512, .take 0 1 0] ∧
      ((missing atmega128 false true 0).jtagRead answering 1 511).state.copies =
        [.load 256, .take 1 255 0, .load 256, .take 1 256 255] ∧
      ¬ CopiesInBounds atxmega128a1 false true 0 1 ∧
      ¬ CopiesInBounds atmega128 false true 1 511 := by
  refine ⟨by decide, by decide, rfl, rfl, rfl, rfl, fun every => ?_, fun every => ?_⟩
  · have bounds := InBounds.of_ends (every Unit answering (missing atxmega128a1 false true 0)
      rfl rfl rfl rfl)
    exact absurd (bounds.fits (.load 512) (by decide)) (by decide : ¬ 512 ≤ maxFlashPageSize)
  · have bounds := InBounds.of_ends (every Unit answering (missing atmega128 false true 0)
      rfl rfl rfl rfl)
    exact absurd (bounds.fits (.take 1 256 255) (by decide))
      (by decide : ¬ 1 + 256 ≤ maxFlashPageSize)

end Avarice.Mk2.Access

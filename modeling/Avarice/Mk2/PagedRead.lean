import Avarice.Mk2.PageCache

/-!
# Reads that cross pages

The loop of `jtagRead` copies its first chunk from the offset of the address in
its page, and every later chunk from the same offset, although the later pages
are wanted from their beginning.
-/

namespace Avarice.Mk2.Memory

open PagedMemory

def copies (pageSize offset : Nat) : (rounds numBytes chunksize : Nat) → List (Nat × Nat)
  | 0, _, _ => []
  | rounds + 1, numBytes, chunksize =>
      if numBytes = 0 then []
      else
        let numBytes := numBytes - chunksize
        (offset, chunksize) :: copies pageSize offset rounds numBytes (min numBytes pageSize)

def copiesPaged (pageSize : Nat) (addr : UInt32) (numBytes : Nat) : List (Nat × Nat) :=
  let pageAddr := pageAddress pageSize addr
  let pageEnd := pageAddr.toNat + pageSize
  let chunksize :=
    if pageEnd ≤ addr.toNat + numBytes then numBytes - (addr.toNat + numBytes - pageEnd)
    else numBytes
  copies pageSize (addr.toNat - pageAddr.toNat) numBytes numBytes chunksize

def CopiesInside (pageSize : Nat) (taken : List (Nat × Nat)) : Prop :=
  ∀ copy ∈ taken, copy.1 + copy.2 ≤ pageSize

instance (pageSize : Nat) (taken : List (Nat × Nat)) : Decidable (CopiesInside pageSize taken) :=
  inferInstanceAs (Decidable (∀ copy ∈ taken, _))

/-- What a read returns is what its copies have taken from the pages the rounds
have had in the cache. -/
theorem readPages_copies {n pageSize offset : Nat} {read : UInt32 → Option (List UInt8)}
    (rounds : Nat) (cache : PageCache n) (numBytes chunksize : Nat) (pageAddr : UInt32)
    (response all : List UInt8)
    (answered : (readPages read pageSize offset rounds cache numBytes chunksize pageAddr
      response).2 = some all) :
    ∃ caches : List (PageCache n),
      caches.length = (copies pageSize offset rounds numBytes chunksize).length ∧
        all = response ++ (caches.zip (copies pageSize offset rounds numBytes chunksize)).flatMap
          fun round => round.1.copy round.2.1 round.2.2 := by
  induction rounds generalizing cache numBytes chunksize pageAddr response with
  | zero =>
      obtain rfl := Option.some.inj answered
      exact ⟨[], rfl, (List.append_nil _).symm⟩
  | succ rounds inductionHypothesis =>
      rw [readPages] at answered
      rw [copies]
      split at answered
      next done =>
        obtain rfl := Option.some.inj answered
        rw [if_pos done]
        exact ⟨[], rfl, (List.append_nil _).symm⟩
      next more =>
        rw [if_neg more]
        simp only at answered
        split at answered
        next => cases answered
        next fetched _ =>
          obtain ⟨caches, length, rfl⟩ := inductionHypothesis _ _ _ _ _ answered
          refine ⟨fetched :: caches, congrArg Nat.succ length, ?_⟩
          rw [List.zip_cons_cons, List.flatMap_cons, List.append_assoc]

section Copies

variable {pageSize : Nat}

theorem pageSize_pos (power : ∃ k, pageSize = 2 ^ k) : 0 < pageSize := by
  obtain ⟨k, rfl⟩ := power
  exact Nat.two_pow_pos k

theorem pageAddress_add (power : ∃ k, pageSize = 2 ^ k) (bound : pageSize ≤ maxFlashPageSize)
    (addr : UInt32) :
    (pageAddress pageSize addr).toNat + addr.toNat % pageSize = addr.toNat := by
  rw [pageAddress_mod power bound]
  exact Nat.div_add_mod' _ _

theorem chunksize_eq (power : ∃ k, pageSize = 2 ^ k) (bound : pageSize ≤ maxFlashPageSize)
    (addr : UInt32) (numBytes : Nat) :
    (if (pageAddress pageSize addr).toNat + pageSize ≤ addr.toNat + numBytes then
      numBytes - (addr.toNat + numBytes - ((pageAddress pageSize addr).toNat + pageSize))
      else numBytes) = min numBytes (pageSize - addr.toNat % pageSize) := by
  have page := pageAddress_add power bound addr
  have below := Nat.mod_lt addr.toNat (pageSize_pos power)
  split <;> omega

theorem copiesPaged_eq (power : ∃ k, pageSize = 2 ^ k) (bound : pageSize ≤ maxFlashPageSize)
    (addr : UInt32) (numBytes : Nat) :
    copiesPaged pageSize addr numBytes =
      copies pageSize (addr.toNat % pageSize) numBytes numBytes
        (min numBytes (pageSize - addr.toNat % pageSize)) := by
  have page := pageAddress_add power bound addr
  have offset : addr.toNat - (pageAddress pageSize addr).toNat = addr.toNat % pageSize := by omega
  unfold copiesPaged
  simp only [chunksize_eq power bound, offset]

theorem readPaged_eq {n : Nat} (read : UInt32 → Option (List UInt8)) (cache : PageCache n)
    (power : ∃ k, pageSize = 2 ^ k) (bound : pageSize ≤ maxFlashPageSize)
    (addr : UInt32) (numBytes : Nat) :
    readPaged read pageSize cache addr numBytes =
      readPages read pageSize (addr.toNat % pageSize) numBytes cache numBytes
        (min numBytes (pageSize - addr.toNat % pageSize)) (pageAddress pageSize addr) [] := by
  have page := pageAddress_add power bound addr
  have offset : addr.toNat - (pageAddress pageSize addr).toNat = addr.toNat % pageSize := by omega
  unfold readPaged
  simp only [chunksize_eq power bound, offset]

theorem copies_zero (offset rounds chunksize : Nat) :
    copies pageSize offset rounds 0 chunksize = [] := by
  cases rounds <;> rfl

theorem copies_aligned (rounds numBytes : Nat) :
    CopiesInside pageSize (copies pageSize 0 rounds numBytes (min numBytes pageSize)) := by
  induction rounds generalizing numBytes with
  | zero => exact fun _ none => absurd none List.not_mem_nil
  | succ rounds inductionHypothesis =>
      rw [copies]
      split
      · exact fun _ none => absurd none List.not_mem_nil
      · refine List.forall_mem_cons.mpr ⟨?_, inductionHypothesis _⟩
        rw [Nat.zero_add]
        exact Nat.min_le_right _ _

theorem copies_whole {offset numBytes : Nat} (some : 0 < numBytes)
    (whole : offset = 0 ∨ offset + numBytes ≤ pageSize) :
    CopiesInside pageSize
      (copies pageSize offset numBytes numBytes (min numBytes (pageSize - offset))) := by
  rcases whole with rfl | within
  · exact copies_aligned _ _
  · obtain ⟨rounds, rfl⟩ := Nat.exists_eq_succ_of_ne_zero some.ne'
    have chunk : min rounds.succ (pageSize - offset) = rounds.succ := Nat.min_eq_left (by omega)
    rw [chunk, copies, if_neg some.ne']
    simp only [Nat.sub_self, copies_zero]
    exact List.forall_mem_singleton.mpr within

/-- What is left of a read behind its first page can only be inside the next
one, if every copy is. -/
theorem copies_crossing_iff {offset rest : Nat} (rounds : Nat) (unaligned : 0 < offset)
    (more : 0 < rest) :
    CopiesInside pageSize (copies pageSize offset (rounds + 1) rest (min rest pageSize)) ↔
      offset + rest ≤ pageSize := by
  rw [copies, if_neg more.ne']
  constructor
  · intro inside
    have first := inside _ List.mem_cons_self
    simp only at first
    omega
  · intro fits
    have whole : min rest pageSize = rest := Nat.min_eq_left (by omega)
    simp only [whole, Nat.sub_self, copies_zero]
    exact List.forall_mem_singleton.mpr fits

end Copies

/-! ## What a read returns -/

/-- A read runs past its first page by luck: what is left of it fits into the
next page behind the offset, and the bytes there are those it asks for. -/
def LuckyCrossing (pageSize : Nat) (memory : Nat → UInt8) (start numBytes : Nat) : Prop :=
  let offset := start % pageSize
  let next := start - offset + pageSize
  let rest := offset + numBytes - pageSize
  offset + rest ≤ pageSize ∧ slice memory (next + offset) rest = slice memory next rest

/-- A read starts at a page, does not run past its first page, or runs past it
by luck. -/
def ReadsRight (pageSize : Nat) (memory : Nat → UInt8) (start numBytes : Nat) : Prop :=
  start % pageSize = 0 ∨ start % pageSize + numBytes ≤ pageSize ∨
    LuckyCrossing pageSize memory start numBytes

instance (pageSize : Nat) (memory : Nat → UInt8) (start numBytes : Nat) :
    Decidable (ReadsRight pageSize memory start numBytes) :=
  inferInstanceAs (Decidable (_ ∨ _ ∨ (_ ∧ _)))

section Cache

variable {n pageSize size : Nat} {cache : PageCache n} {memory : Nat → UInt8}
  {read : UInt32 → Option (List UInt8)} (fits : pageSize ≤ n)
  (answers : ∀ pageAddr : UInt32, IsPage pageSize size pageAddr.toNat →
    read pageAddr = some (slice memory pageAddr.toNat pageSize))
include fits answers

theorem readPages_round (coherent : cache.Coherent pageSize size memory)
    {offset numBytes chunksize : Nat} {pageAddr : UInt32} (more : numBytes ≠ 0)
    (isPage : IsPage pageSize size pageAddr.toNat) (within : offset + chunksize ≤ pageSize)
    (rounds : Nat) (response : List UInt8) :
    ∃ fetched : PageCache n, fetched.Coherent pageSize size memory ∧
      (readPages read pageSize offset (rounds + 1) cache numBytes chunksize pageAddr response).2 =
        (readPages read pageSize offset rounds fetched (numBytes - chunksize)
          (min (numBytes - chunksize) pageSize) (pageAddr + pageSize.toUInt32)
          (response ++ slice memory (pageAddr.toNat + offset) chunksize)).2 := by
  obtain ⟨fetched, found, page, kept⟩ :=
    fetched_page fits coherent isPage (answers pageAddr isPage)
  refine ⟨fetched, kept, ?_⟩
  simp only [readPages, if_neg more, found, fetched.copy_eq page within]

/-- The bytes of a read that ends in its second page, when the loop stays inside
the pages: from the second page, those behind the offset. -/
theorem readPages_crossing (coherent : cache.Coherent pageSize size memory)
    {offset rest : Nat} {pageAddr nextAddr : UInt32} (more : 0 < rest)
    (within : offset ≤ pageSize)
    (inside : offset + rest ≤ pageSize) (isPage : IsPage pageSize size pageAddr.toNat)
    (next : pageAddr + pageSize.toUInt32 = nextAddr)
    (nextPage : IsPage pageSize size nextAddr.toNat)
    (rounds : Nat) :
    (readPages read pageSize offset (rounds + 2) cache (pageSize - offset + rest)
        (pageSize - offset) pageAddr []).2 =
      some (slice memory (pageAddr.toNat + offset) (pageSize - offset) ++
        slice memory (nextAddr.toNat + offset) rest) := by
  obtain ⟨fetched, kept, first⟩ := readPages_round fits answers coherent
    (show pageSize - offset + rest ≠ 0 by omega) isPage
    (show offset + (pageSize - offset) ≤ pageSize by omega) (rounds + 1) []
  have left : pageSize - offset + rest - (pageSize - offset) = rest := Nat.add_sub_cancel_left _ _
  have whole : min rest pageSize = rest := Nat.min_eq_left (by omega)
  rw [left, whole, next] at first
  obtain ⟨_, _, second⟩ := readPages_round fits answers kept more.ne' nextPage inside rounds
    ([] ++ slice memory (pageAddr.toNat + offset) (pageSize - offset))
  rw [first, second, Nat.sub_self, readPages_zero, List.nil_append]

theorem readPaged_rest (small : size < 2 ^ 32) (power : ∃ k, pageSize = 2 ^ k)
    (bound : pageSize ≤ maxFlashPageSize) (whole : size % pageSize = 0)
    (coherent : cache.Coherent pageSize size memory) {addr : UInt32} {rest : Nat}
    (unaligned : 0 < addr.toNat % pageSize) (more : 0 < rest)
    (within : addr.toNat % pageSize + rest ≤ pageSize)
    (inside : addr.toNat + (pageSize - addr.toNat % pageSize + rest) ≤ size) :
    (readPaged read pageSize cache addr (pageSize - addr.toNat % pageSize + rest)).2 =
      some (slice memory addr.toNat (pageSize - addr.toNat % pageSize) ++
        slice memory (addr.toNat - addr.toNat % pageSize + pageSize + addr.toNat % pageSize)
          rest) := by
  have below := Nat.mod_lt addr.toNat (pageSize_pos power)
  have base := pageAddress_mod power bound addr
  have page := pageAddress_add power bound addr
  have start : (pageAddress pageSize addr).toNat % pageSize = 0 := by
    rw [base]
    exact Nat.mul_mod_left _ _
  have next : (pageAddress pageSize addr + pageSize.toUInt32).toNat =
      (pageAddress pageSize addr).toNat + pageSize := by
    have size : pageSize.toUInt32.toNat = pageSize :=
      UInt32.toNat_ofNat_of_lt' (show pageSize < 2 ^ 32 by omega)
    rw [UInt32.toNat_add, size, Nat.mod_eq_of_lt (by omega)]
  have nextPage : IsPage pageSize size (pageAddress pageSize addr + pageSize.toUInt32).toNat := by
    rw [next]
    refine ⟨by rw [Nat.add_mod_right, start], ?_⟩
    have apart : (pageAddress pageSize addr).toNat + pageSize + pageSize ≤ size ∨
        size + pageSize ≤ (pageAddress pageSize addr).toNat + pageSize :=
      pages_apart (by rw [Nat.add_mod_right, start]) whole (by omega)
    rcases apart with before | behind
    · exact before
    · omega
  have isPage : IsPage pageSize size (pageAddress pageSize addr).toNat := by
    refine ⟨start, ?_⟩
    have bound := nextPage.2
    omega
  obtain ⟨rounds, bounded⟩ : ∃ rounds, pageSize - addr.toNat % pageSize + rest = rounds + 2 :=
    ⟨pageSize - addr.toNat % pageSize + rest - 2, by omega⟩
  have chunk : min (pageSize - addr.toNat % pageSize + rest) (pageSize - addr.toNat % pageSize) =
      pageSize - addr.toNat % pageSize := Nat.min_eq_right (by omega)
  have crossed := readPages_crossing fits answers coherent more below.le within isPage rfl nextPage
    rounds
  rw [readPaged_eq _ _ power bound, chunk]
  nth_rewrite 1 [bounded]
  rw [crossed, page, next]
  congr 3
  omega

/-- A read through a coherent cache returns the memory, with copies from inside
the pages only, exactly where it reads right. -/
theorem readPaged_exact_iff (small : size < 2 ^ 32) (power : ∃ k, pageSize = 2 ^ k)
    (bound : pageSize ≤ maxFlashPageSize) (whole : size % pageSize = 0)
    (coherent : cache.Coherent pageSize size memory) {addr : UInt32} {numBytes : Nat}
    (some : 0 < numBytes) (inside : addr.toNat + numBytes ≤ size) :
    ((readPaged read pageSize cache addr numBytes).2 = .some (slice memory addr.toNat numBytes) ∧
      CopiesInside pageSize (copiesPaged pageSize addr numBytes)) ↔
      ReadsRight pageSize memory addr.toNat numBytes := by
  by_cases aligned : addr.toNat % pageSize = 0 ∨ addr.toNat % pageSize + numBytes ≤ pageSize
  · have read := readPaged_response fits small answers power bound whole coherent some inside
      aligned
    have right : ReadsRight pageSize memory addr.toNat numBytes := by
      rcases aligned with first | within
      · exact .inl first
      · exact .inr (.inl within)
    refine ⟨fun _ => right, fun _ => ⟨read, ?_⟩⟩
    rw [copiesPaged_eq power bound]
    exact copies_whole some aligned
  have below := Nat.mod_lt addr.toNat (pageSize_pos power)
  obtain ⟨rest, total⟩ : ∃ rest, numBytes = pageSize - addr.toNat % pageSize + rest :=
    ⟨numBytes - (pageSize - addr.toNat % pageSize), by omega⟩
  have unaligned : 0 < addr.toNat % pageSize := by omega
  have more : 0 < rest := by omega
  have right : ReadsRight pageSize memory addr.toNat numBytes ↔
      LuckyCrossing pageSize memory addr.toNat numBytes := by
    rw [ReadsRight, ← or_assoc, or_iff_right aligned]
  have remaining : addr.toNat % pageSize + numBytes - pageSize = rest := by omega
  have chunk : min numBytes (pageSize - addr.toNat % pageSize) =
      pageSize - addr.toNat % pageSize := Nat.min_eq_right (by omega)
  obtain ⟨rounds, bounded⟩ : ∃ rounds, numBytes = rounds + 2 := ⟨numBytes - 2, by omega⟩
  have copied : CopiesInside pageSize (copiesPaged pageSize addr numBytes) ↔
      addr.toNat % pageSize + rest ≤ pageSize := by
    have left : rounds + 2 - (pageSize - addr.toNat % pageSize) = rest := by omega
    rw [copiesPaged_eq power bound, chunk, bounded, copies, if_neg (Nat.succ_ne_zero _)]
    simp only [left]
    refine List.forall_mem_cons.trans
      ((and_iff_right ?_).trans (copies_crossing_iff rounds unaligned more))
    show addr.toNat % pageSize + (pageSize - addr.toNat % pageSize) ≤ pageSize
    omega
  have returned (within : addr.toNat % pageSize + rest ≤ pageSize) :=
    readPaged_rest fits answers small power bound whole coherent unaligned more within
      (total ▸ inside)
  have wanted : slice memory addr.toNat (pageSize - addr.toNat % pageSize + rest) = _ :=
    slice_add (pageSize - addr.toNat % pageSize) rest
  have next : addr.toNat + (pageSize - addr.toNat % pageSize) =
      addr.toNat - addr.toNat % pageSize + pageSize := by
    have above := Nat.mod_le addr.toNat pageSize
    omega
  rw [right, LuckyCrossing, copied]
  simp only [remaining]
  rw [total, wanted, next]
  constructor
  · rintro ⟨read, within⟩
    rw [returned within] at read
    exact ⟨within, List.append_cancel_left (Option.some.inj read)⟩
  · rintro ⟨within, same⟩
    rw [returned within, same]
    exact ⟨rfl, within⟩

end Cache

/-- With coherent caches, a read from a paged space returns the bytes asked for,
each from inside its page, exactly where it starts at a page, does not run past
its first page, or runs past it by luck. -/
theorem jtagRead_exact_iff (t : Target) {s : Session} (coherent : s.Coherent t)
    {addr numBytes a : UInt32} {whichSpace : UInt8} {pageSize : Nat} (nonempty : numBytes ≠ 0)
    (space : memorySpace t addr = (whichSpace, a)) (paged : t.pageSize whichSpace = some pageSize)
    (inside : t.InRange whichSpace a.toNat numBytes.toNat) :
    ((s.jtagRead t addr numBytes).2 =
        some (slice (s.device.memory whichSpace) a.toNat numBytes.toNat) ∧
      CopiesInside pageSize (copiesPaged pageSize a numBytes.toNat)) ↔
      ReadsRight pageSize (s.device.memory whichSpace) a.toNat numBytes.toNat := by
  have some : 0 < numBytes.toNat :=
    Nat.pos_of_ne_zero fun zero => nonempty (UInt32.toNat_inj.mp zero)
  rw [Session.jtagRead, if_neg nonempty, space]
  unfold Target.pageSize at paged
  split at paged
  next flash =>
    subst flash
    cases paged
    exact readPaged_exact_iff t.flashPageFits (fun _ => read_flash t s.device) (flash_small t)
      t.flashPages t.flashPageFits (Nat.mul_mod_right _ _) coherent.flash some inside
  next notFlash =>
    split at paged
    next eeprom =>
      subst eeprom
      cases paged
      exact readPaged_exact_iff t.eepromPageFits (fun _ => read_eeprom t s.device)
        (eeprom_small t) t.eepromPages (eepromPage_bound t) (Nat.mul_mod_right _ _)
        coherent.eeprom some inside
    next => cases paged

def counted : Session :=
  .start ⟨fun address => UInt8.ofNat address, fun _ => 0xff, fun _ _ => 0xff⟩ (CArray.fill _ 0)
    (CArray.fill _ 0)

theorem jtagRead_exact_pages :
    (counted.jtagRead twoPages 0 4).2 = some (slice (counted.device.memory mtypeFlashPage) 0 4) ∧
      CopiesInside 2 (copiesPaged 2 0 4) :=
  (jtagRead_exact_iff twoPages (coherent_start twoPages _ _ _) (by decide)
    (show memorySpace twoPages 0 = (mtypeFlashPage, 0) by decide +kernel)
    (show twoPages.pageSize mtypeFlashPage = some 2 by decide) (by decide +kernel)).mpr
    (.inl rfl)

/-- The last byte of a page and the next page are read as that byte, the last
byte of the next page, and a byte behind it. -/
theorem jtagRead_misplaced :
    counted.Coherent twoPages ∧ memorySpace twoPages 1 = (mtypeFlashPage, 1) ∧
      twoPages.InRange mtypeFlashPage 1 3 ∧
      (counted.jtagRead twoPages 1 3).2 = some [1, 3, 0] ∧
      (counted.jtagRead twoPages 1 3).2 ≠
        some (slice (counted.device.memory mtypeFlashPage) 1 3) ∧
      ¬ CopiesInside 2 (copiesPaged 2 1 3) := by
  refine ⟨coherent_start twoPages _ _ _, ?_⟩
  decide +kernel

end Avarice.Mk2.Memory

import Avarice.Image.Programming

/-!
# Programming in several passes

Two images with no address in common are programmed into erased flash, one
after the other.  The pages that are written for one image have a byte at every
address, also at those that only the other image uses.
-/

namespace Avarice.Image

open PagedMemory

/-- A page write replaces the page, or can only clear bits. -/
def ReplacesOrClears (merge : UInt8 → UInt8 → UInt8) : Prop :=
  ∀ old new, merge old new = new ∨ merge old new = old &&& new

/-- A target whose flash is as it is after an erase. -/
def Target.Erased (t : Target) (s : t.State) : Prop :=
  ∀ c < dataSpaceAddrOffset.toNat, t.contents s c = 0xff

def DisjointUse (first second : BFDimage) : Prop :=
  ∀ c, (first.image.peek c).used = true → (second.image.peek c).used = false

variable (device : Device) (t : Target)

def twoPasses (first second : BFDimage) (s : t.State) : Except String t.State :=
  (flashIfData device t first .flash true false s).bind
    (flashIfData device t second .flash true false)

/-- The flash has both images, and is erased where neither has a byte. -/
structure HoldsBoth (first second : BFDimage) (contents : Nat → UInt8) : Prop where
  firstHeld : first.HeldBy .flash contents
  secondHeld : second.HeldBy .flash contents
  neither : ∀ c < dataSpaceAddrOffset.toNat, (first.image.peek c).used = false →
    (second.image.peek c).used = false → contents c = 0xff

/-- Either order of the passes leaves the same contents, with both images. -/
def PassesAgree (first second : BFDimage) (s : t.State) : Prop :=
  ∃ after other, twoPasses device t first second s = .ok after ∧
    twoPasses device t second first s = .ok other ∧
    t.contents after = t.contents other ∧ HoldsBoth first second (t.contents after)

/-- What is written for the one image and not used by it is a zero byte of the
other one. -/
def SparesOther (first second : BFDimage) : Prop :=
  ∀ c, first.InWrittenPage device .flash c → (first.image.peek c).used = false →
    (second.image.peek c).used = true ∧ (second.image.peek c).val = 0x00

section Merge

variable {merge : UInt8 → UInt8 → UInt8} (kind : ReplacesOrClears merge)
include kind

theorem merge_erased (new : UInt8) : merge 0xff new = new := by
  rcases kind 0xff new with replaced | cleared
  · exact replaced
  · rw [cleared]
    exact UInt8.neg_one_and

theorem merge_zero (old : UInt8) : merge old 0x00 = 0x00 := by
  rcases kind old 0x00 with replaced | cleared
  · exact replaced
  · rw [cleared]
    exact UInt8.and_zero

end Merge

/-! ## One pass -/

section Pass

variable {device} {t} {sections : List Section} {merge : UInt8 → UInt8 → UInt8}

/-- A pass merges the image into the pages that need it, if there are any. -/
theorem flashIfData_pass {image : BFDimage} (wellFormed : image.WellFormed device .flash)
    (stores : t.StoresPages device merge) (s : t.State) :
    ∃ after, flashIfData device t image .flash true false s = .ok after ∧
      (∀ c, image.InWrittenPage device .flash c →
        t.contents after c = merge (t.contents s c) (image.image.peek c).val) ∧
      ∀ c, ¬ image.InWrittenPage device .flash c → t.contents after c = t.contents s c := by
  rw [flashIfData]
  cases data : image.hasData with
  | false =>
      refine ⟨s, rfl, ?_, fun _ _ => rfl⟩
      rintro c ⟨d, _, notBlank⟩
      refine absurd ?_ notBlank
      intro used
      rw [wellFormed.hasData, (wellFormed.used d used).1] at data
      cases data
  | true =>
      obtain ⟨after, programmed, written, unchanged⟩ :=
        programImage_programmed wellFormed (by decide) stores s
      refine ⟨after, by simp [jtagFlashImage, data, programmed, Except.bind], ?_, ?_⟩
      · intro c needed
        have here := written c needed
        rwa [flash_offset_add] at here
      · intro c notNeeded
        apply unchanged
        intro other same
        rw [flash_offset_add] at same
        rwa [← same]

theorem unused_val (fit : ∀ s ∈ sections, s.PagesFit device .flash) {c : Nat}
    (unused : ((createImage .flash sections).image.peek c).used = false) :
    ((createImage .flash sections).image.peek c).val = 0x00 := by
  rw [createImage_peek fit] at unused ⊢
  cases has : byteAt .flash c sections with
  | none => rfl
  | some byte =>
      rw [has] at unused
      cases unused

/-- What a pass does to erased bytes: a used byte is there, and a byte that is
not used has become zero exactly where it is in a written page. -/
theorem pass_erased (kind : ReplacesOrClears merge) {image : BFDimage} {before after : Nat → UInt8}
    (written : ∀ c, image.InWrittenPage device .flash c →
      after c = merge (before c) (image.image.peek c).val)
    (unchanged : ∀ c, ¬ image.InWrittenPage device .flash c → after c = before c)
    {c : Nat} (erased : before c = 0xff) (used : (image.image.peek c).used = true) :
    after c = (image.image.peek c).val := by
  by_cases needed : image.InWrittenPage device .flash c
  · rw [written c needed, erased, merge_erased kind]
  · have blank : image.IsBlank .flash c := by
      by_contra notBlank
      exact needed ⟨c, rfl, notBlank⟩
    rw [unchanged c needed, erased, (blank used).2]

end Pass

/-! ## Both passes -/

section Both

variable {device} {t} {merge : UInt8 → UInt8 → UInt8} {first second : List Section}

theorem used_lt {image : BFDimage} {c : Nat} (used : (image.image.peek c).used = true) :
    c < maxImageSize := by
  by_contra outside
  rw [CArray.peek_of_le (Nat.not_lt.mp outside)] at used
  cases used

theorem blank_of_not_written {image : BFDimage} {c : Nat}
    (notNeeded : ¬ image.InWrittenPage device .flash c)
    (used : (image.image.peek c).used = true) : (image.image.peek c).val = 0xff := by
  have blank : image.IsBlank .flash c := by
    by_contra notBlank
    exact notNeeded ⟨c, rfl, notBlank⟩
  exact (blank used).2

theorem twoPasses_contents (kind : ReplacesOrClears merge) (stores : t.StoresPages device merge)
    (fit : ∀ s ∈ first, s.PagesFit device .flash) (fit' : ∀ s ∈ second, s.PagesFit device .flash)
    (disjoint : DisjointUse (createImage .flash first) (createImage .flash second))
    (spares : SparesOther device (createImage .flash first) (createImage .flash second))
    (spares' : SparesOther device (createImage .flash second) (createImage .flash first))
    {s : t.State} (erased : t.Erased s) :
    ∃ after,
      twoPasses device t (createImage .flash first) (createImage .flash second) s = .ok after ∧
      ∀ c, t.contents after c =
        if ((createImage .flash first).image.peek c).used
        then ((createImage .flash first).image.peek c).val
        else if ((createImage .flash second).image.peek c).used
        then ((createImage .flash second).image.peek c).val
        else t.contents s c := by
  obtain ⟨middle, passed, written, unchanged⟩ :=
    flashIfData_pass (wellFormed_createImage fit) stores s
  obtain ⟨after, passed', written', unchanged'⟩ :=
    flashIfData_pass (wellFormed_createImage fit') stores middle
  refine ⟨after, by rw [twoPasses, passed]; exact passed', ?_⟩
  intro c
  have erasedAt : ∀ {image : BFDimage}, (image.image.peek c).used = true →
      t.contents s c = 0xff := by
    intro image used
    exact erased c (Nat.lt_trans (used_lt used) (by decide))
  cases used : ((createImage .flash first).image.peek c).used with
  | true =>
      rw [if_pos rfl]
      have stored := pass_erased kind written unchanged (erasedAt used) used
      by_cases needed : (createImage .flash second).InWrittenPage device .flash c
      · -- the second pass writes zero, which the byte is
        have unused := disjoint c used
        rw [written' c needed, unused_val fit' unused, merge_zero kind,
          (spares' c needed unused).2]
      · rw [unchanged' c needed, stored]
  | false =>
      rw [if_neg Bool.false_ne_true]
      cases used' : ((createImage .flash second).image.peek c).used with
      | true =>
          rw [if_pos rfl]
          by_cases needed : (createImage .flash first).InWrittenPage device .flash c
          · -- the first pass has left zero, which the byte is
            have zero := (spares c needed used).2
            have cleared : t.contents middle c = 0x00 := by
              rw [written c needed, unused_val fit used, merge_zero kind]
            by_cases needed' : (createImage .flash second).InWrittenPage device .flash c
            · rw [written' c needed', zero, merge_zero kind]
            · have blank := blank_of_not_written needed' used'
              rw [zero] at blank
              cases blank
          · have still : t.contents middle c = 0xff := by
              rw [unchanged c needed, erasedAt used']
            exact pass_erased kind written' unchanged' still used'
      | false =>
          rw [if_neg Bool.false_ne_true, unchanged' c, unchanged c]
          · intro needed
            rw [(spares c needed used).1] at used'
            cases used'
          · intro needed
            rw [(spares' c needed used').1] at used
            cases used

theorem sparesOther_of_holdsBoth (kind : ReplacesOrClears merge)
    (stores : t.StoresPages device merge) (fit : ∀ s ∈ first, s.PagesFit device .flash)
    {other : BFDimage} (wellFormed : other.WellFormed device .flash) {s after : t.State}
    (passed : twoPasses device t other (createImage .flash first) s = .ok after)
    (held : other.HeldBy .flash (t.contents after))
    (neither : ∀ c < dataSpaceAddrOffset.toNat,
      ((createImage .flash first).image.peek c).used = false →
      (other.image.peek c).used = false → t.contents after c = 0xff) :
    SparesOther device (createImage .flash first) other := by
  obtain ⟨middle, passed', _⟩ := flashIfData_pass wellFormed stores s
  obtain ⟨last, passed'', written, _⟩ := flashIfData_pass (wellFormed_createImage fit) stores middle
  rw [twoPasses, passed'] at passed
  cases passed''.symm.trans passed
  intro c needed unused
  have zero : t.contents after c = 0x00 := by
    rw [written c needed, unused_val fit unused, merge_zero kind]
  cases used : (other.image.peek c).used with
  | true =>
      have here : t.contents after (0 + c) = (other.image.peek c).val := held c used
      rw [Nat.zero_add, zero] at here
      exact ⟨rfl, here.symm⟩
  | false =>
      have inside : c < dataSpaceAddrOffset.toNat :=
        Nat.lt_trans (inWrittenPage_lt (wellFormed_createImage fit) needed) (by decide)
      rw [neither c inside unused used] at zero
      cases zero

/-- Passes over disjoint images leave both, in either order, exactly when each
address that is written for one image and not used by it is a zero byte of the
other one. -/
theorem passesAgree_iff (kind : ReplacesOrClears merge) (stores : t.StoresPages device merge)
    (fit : ∀ s ∈ first, s.PagesFit device .flash) (fit' : ∀ s ∈ second, s.PagesFit device .flash)
    (disjoint : DisjointUse (createImage .flash first) (createImage .flash second))
    (s : t.State) (erased : t.Erased s) :
    PassesAgree device t (createImage .flash first) (createImage .flash second) s ↔
      SparesOther device (createImage .flash first) (createImage .flash second) ∧
        SparesOther device (createImage .flash second) (createImage .flash first) := by
  constructor
  · rintro ⟨after, other, passed, passed', same, held⟩
    constructor
    · refine sparesOther_of_holdsBoth kind stores fit (wellFormed_createImage fit') passed' ?_ ?_
      · rw [← same]
        exact held.secondHeld
      · rw [← same]
        exact held.neither
    · exact sparesOther_of_holdsBoth kind stores fit' (wellFormed_createImage fit) passed
        held.firstHeld fun c inside unused unused' => held.neither c inside unused' unused
  · rintro ⟨spares, spares'⟩
    have disjoint' : DisjointUse (createImage .flash second) (createImage .flash first) := by
      intro c used
      by_contra usedToo
      rw [Bool.not_eq_false] at usedToo
      rw [disjoint c usedToo] at used
      cases used
    obtain ⟨after, passed, contents⟩ :=
      twoPasses_contents kind stores fit fit' disjoint spares spares' erased
    obtain ⟨other, passed', contents'⟩ :=
      twoPasses_contents kind stores fit' fit disjoint' spares' spares erased
    refine ⟨after, other, passed, passed', ?_, ?_, ?_, ?_⟩
    · funext c
      rw [contents, contents']
      cases used : ((createImage .flash first).image.peek c).used with
      | true => simp [disjoint c used]
      | false => simp
    · intro c used
      show t.contents after (0 + c) = _
      rw [Nat.zero_add, contents, if_pos used]
    · intro c used
      show t.contents after (0 + c) = _
      rw [Nat.zero_add, contents, disjoint' c used, used]
      rfl
    · intro c inside unused unused'
      rw [contents, unused, unused']
      exact erased c inside

end Both

/-! ## Two sections -/

section Example

def flashSection (lma : UInt64) (contents : List UInt8) (below : lma < fuseSpaceAddrOffset) :
    Section :=
  ⟨lma, true, true, true, contents, below⟩

def lowPage : List Section := [flashSection 0 [1, 2, 3, 4] (by decide)]

theorem secondPage_below : (4 : UInt64) < fuseSpaceAddrOffset := by decide

def highPage : List Section := [flashSection 4 [5, 6, 7, 8] secondPage_below]

def firstByte : List Section := [flashSection 0 [1] (by decide)]

def secondByte : List Section := [flashSection 1 [2] (by decide)]

theorem pagesFit_of_small {sections : List Section}
    (small : ∀ s ∈ sections, getSectionAddr s .flash + s.contents.length ≤ 8) :
    ∀ s ∈ sections, s.PagesFit smallPages .flash := by
  intro s listed _ page _ before
  have bound := small s listed
  show page + 4 ≤ 1000000
  omega

theorem used_iff_of_single {s : Section} (fit : ∀ other ∈ [s], other.PagesFit smallPages .flash)
    (found : getSectionAddr s .flash ≠ noSectionAddr) (c : Nat) :
    ((createImage .flash [s]).image.peek c).used = true ↔
      getSectionAddr s .flash ≤ c ∧ c < getSectionAddr s .flash + s.contents.length := by
  rw [createImage_peek fit c]
  simp only [byteAt, Option.none_or]
  cases has : s.byteAt .flash c with
  | some byte => exact ⟨fun _ => (byteAt_lt has).2, fun _ => rfl⟩
  | none =>
      constructor
      · intro used
        cases used
      · rintro ⟨reached, inside⟩
        rw [Section.byteAt, if_pos ⟨found, reached⟩, List.getElem?_eq_none_iff] at has
        omega

theorem spares_of_full_page {s : Section} (fit : ∀ other ∈ [s], other.PagesFit smallPages .flash)
    (found : getSectionAddr s .flash ≠ noSectionAddr)
    (aligned : getSectionAddr s .flash % 4 = 0) (full : s.contents.length = 4)
    (other : BFDimage) : SparesOther smallPages (createImage .flash [s]) other := by
  rintro c ⟨d, samePage, notBlank⟩ unused
  have usedAt := used_iff_of_single fit found
  have used : ((createImage .flash [s]).image.peek d).used = true := by
    by_contra unusedToo
    exact notBlank fun used => absurd used unusedToo
  have inside := (usedAt d).mp used
  have page : d / 4 = c / 4 := samePage
  rw [(usedAt c).mpr (by omega)] at unused
  cases unused

theorem passesAgree_pages :
    PassesAgree smallPages (.merging (· &&& ·)) (createImage .flash lowPage)
      (createImage .flash highPage) (fun _ => (0xff : UInt8)) := by
  have fit := @pagesFit_of_small lowPage (by decide)
  have fit' := @pagesFit_of_small highPage (by decide)
  refine (passesAgree_iff (fun _ _ => Or.inr rfl) (merging_storesPages smallPages _) fit fit' ?_
    (fun _ => (0xff : UInt8)) fun _ _ => rfl).mpr
    ⟨spares_of_full_page fit (by decide) (by decide) rfl _,
      spares_of_full_page fit' (by decide) (by decide) rfl _⟩
  intro c used
  by_contra usedToo
  have low := (used_iff_of_single fit (by decide) c).mp used
  have high := (used_iff_of_single fit' (by decide) c).mp (Bool.not_eq_false _ ▸ usedToo)
  have below : c < 4 := low.2
  have above : 4 ≤ c := high.1
  omega

/-- Two images that share a page: the bytes behind the first one's are lost. -/
theorem shared_page_lost :
    DisjointUse (createImage .flash firstByte) (createImage .flash secondByte) ∧
      ¬ PassesAgree smallPages (.merging fun _ new => new) (createImage .flash firstByte)
        (createImage .flash secondByte) (fun _ => (0xff : UInt8)) := by
  have fit := @pagesFit_of_small firstByte (by decide)
  have fit' := @pagesFit_of_small secondByte (by decide)
  constructor
  · intro c used
    by_contra usedToo
    have low := (used_iff_of_single fit (by decide) c).mp used
    have high := (used_iff_of_single fit' (by decide) c).mp (Bool.not_eq_false _ ▸ usedToo)
    have below : c < 1 := low.2
    have above : 1 ≤ c := high.1
    omega
  · rintro ⟨after, other, _, passed, same, held⟩
    have spares := sparesOther_of_holdsBoth (fun _ _ => Or.inl rfl)
      (merging_storesPages smallPages _) fit (wellFormed_createImage fit') passed
      (same ▸ held.secondHeld) (same ▸ held.neither)
    have written : (createImage .flash firstByte).InWrittenPage smallPages .flash 2 := by
      refine ⟨0, rfl, ?_⟩
      rw [BFDimage.IsBlank, createImage_peek fit]
      decide
    have unused : ((createImage .flash firstByte).image.peek 2).used = false := by
      rw [createImage_peek fit]
      rfl
    have used := (spares 2 written unused).1
    rw [createImage_peek fit'] at used
    cases used

end Example

end Avarice.Image

import Avarice.Programming.Chip

/-!
# Downloads

`jtag_flash_image` writes an image to a chip page by page and compares the chip with
the image, by calls that may throw.  `downloadToTarget` does so for the flash and for
the EEPROM image of a file.
-/

namespace Avarice.Programming

open Throwing PagedMemory
open Image (BFDimage BFDmemoryType Device Section createImage getPageSize_pos maxImageSize
  pageIsEmpty)

section Program

variable {State : Type} (programmer : Programmer State) (device : Device)

section Flash

variable (image : BFDimage) (memtype : BFDmemoryType)

def writePage (addr : Nat) (s : State) : Called State Unit :=
  if pageIsEmpty image addr (device.getPageSize memtype) memtype then ⟨some (), s⟩
  else
    let buf := (List.range (device.getPageSize memtype)).map fun i =>
      (image.image.peek (i + addr)).val
    (programmer.jtagWrite s ((Space.memory memtype).offset + addr.toUInt64) buf).andThen
      fun written s => ⟨if written then some () else none, s⟩

/-- The comparison of a page, for the bytes in use.  If there is one, a read that
returns `NULL` ends the program. -/
def verifyPage (addr : Nat) (isVerified : Bool) (s : State) : Called State Bool :=
  let pageSize := device.getPageSize memtype
  (programmer.jtagRead s ((Space.memory memtype).offset + addr.toUInt64)
    pageSize.toUInt32).andThen fun response s =>
      match response with
      | none =>
          ⟨if (List.range pageSize).any fun i => (image.image.peek (i + addr)).used then none
            else some isVerified, s⟩
      | some response =>
          ⟨some (isVerified && (List.range pageSize).all fun i =>
            !(image.image.peek (i + addr)).used ||
              (image.image.peek (i + addr)).val == response.getD i 0), s⟩

def programImage (s : State) : Called State Unit :=
  walk (getPageSize_pos device memtype) image.lastAddress
    (fun addr call => call.andThen fun _ s => writePage programmer device image memtype addr s)
    (device.pageAddr image.firstAddress memtype) ⟨some (), s⟩

def verifyImage (s : State) : Called State Bool :=
  walk (getPageSize_pos device memtype) image.lastAddress
    (fun addr call => call.andThen (verifyPage programmer device image memtype addr))
    (device.pageAddr image.firstAddress memtype) ⟨some true, s⟩

def jtagFlashImage (program verify : Bool) (s : State) : Called State Unit :=
  if image.hasData = false then ⟨none, s⟩
  else
    (if program then programImage programmer device image memtype s else ⟨some (), s⟩).andThen
      fun _ s =>
        if verify then
          (verifyImage programmer device image memtype s).andThen fun isVerified s =>
            ⟨if isVerified then some () else none, s⟩
        else ⟨some (), s⟩

def flashIfData (program verify : Bool) (s : State) : Called State Unit :=
  if image.hasData then jtagFlashImage programmer device image memtype program verify s
  else ⟨some (), s⟩

end Flash

def downloadToTarget (sections : List Section) (program verify : Bool) (s : State) :
    Called State Unit :=
  (programmer.setPageSizes device s).andThen fun _ s =>
    (programmer.enableProgramming s).andThen fun _ s =>
      (flashIfData programmer device (createImage .flash sections) .flash program verify
        s).andThen fun _ s =>
          (flashIfData programmer device (createImage .eeprom sections) .eeprom program verify
            s).andThen fun _ s => programmer.disableProgramming s

end Program

section Text

def memoryTypeName : BFDmemoryType → String
  | .flash => "FLASH"
  | .eeprom => "EEPROM"
  | .ram => "RAM"

variable (device : Device) (program verify : Bool)

def progress (image : BFDimage) (memtype : BFDmemoryType) : List Char :=
  walk (getPageSize_pos device memtype) image.lastAddress (fun _ text => text ++ ['.'])
    (device.pageAddr image.firstAddress memtype) []

def flashText (image : BFDimage) (memtype : BFDmemoryType) : List Char :=
  let name := (memoryTypeName memtype).toList
  if image.hasData then
    (if program then
      "Downloading ".toList ++ name ++ " image to target.".toList ++
        progress device image memtype ++ ['\n']
    else []) ++
      if verify then
        "\nVerifying ".toList ++ name ++ progress device image memtype ++ ['\n']
      else []
  else []

/-- What a download displays that does not throw. -/
def downloadText (sections : List Section) : List Char :=
  flashText device program verify (createImage .flash sections) .flash ++
    flashText device program verify (createImage .eeprom sections) .eeprom ++
      "\nDownload complete.\n".toList

end Text

/-! ## What becomes of a chip -/

open Classical in
noncomputable def programmedBelow (cells : Cells) (device : Device) (image : BFDimage)
    (memtype : BFDmemoryType) (stop : Nat) (contents : Contents) : Contents :=
  Function.update contents (.memory memtype) fun c =>
    if c < stop ∧ image.InWrittenPage device memtype c then
      cells.merge (.memory memtype) (contents (.memory memtype) c) (image.image.peek c).val
    else contents (.memory memtype) c

noncomputable def programmed (cells : Cells) (device : Device) (image : BFDimage)
    (memtype : BFDmemoryType) (contents : Contents) : Contents :=
  programmedBelow cells device image memtype maxImageSize contents

/-- The contents behind a download that may do without programming. -/
noncomputable def written (cells : Cells) (device : Device) (program : Bool) (image : BFDimage)
    (memtype : BFDmemoryType) (contents : Contents) : Contents :=
  if program then programmed cells device image memtype contents else contents

def Partly (cells : Cells) (device : Device) (program : Bool) (image : BFDimage)
    (memtype : BFDmemoryType) (before after : Contents) : Prop :=
  ∃ stop, (program = false → stop = 0) ∧
    after = programmedBelow cells device image memtype stop before

def Holds (contents : Contents) (image : BFDimage) (memtype : BFDmemoryType) : Prop :=
  ∀ c, (image.image.peek c).used = true →
    contents (.memory memtype) c = (image.image.peek c).val

/-- The pages of an EEPROM image lie in the EEPROM space. -/
def InSpace (device : Device) (image : BFDimage) (memtype : BFDmemoryType) : Prop :=
  memtype = .eeprom → ∀ page, page % device.getPageSize memtype = 0 → page < image.lastAddress →
    page + device.getPageSize memtype ≤ 0x10000

section Contents

variable {cells : Cells} {device : Device} {image : BFDimage} {memtype : BFDmemoryType}

theorem programmedBelow_congr {stop stop' : Nat}
    (same : ∀ c, image.InWrittenPage device memtype c → (c < stop ↔ c < stop'))
    (contents : Contents) :
    programmedBelow cells device image memtype stop contents =
      programmedBelow cells device image memtype stop' contents := by
  rw [programmedBelow, programmedBelow]
  congr 1
  funext c
  by_cases needed : image.InWrittenPage device memtype c
  · simp only [needed, and_true, same c needed]
  · rw [if_neg fun both => needed both.2, if_neg fun both => needed both.2]

theorem programmedBelow_none {stop : Nat}
    (none : ∀ c, image.InWrittenPage device memtype c → stop ≤ c) (contents : Contents) :
    programmedBelow cells device image memtype stop contents = contents := by
  rw [programmedBelow, Function.update_eq_self_iff]
  funext c
  exact if_neg fun both => absurd both.1 (Nat.not_lt.mpr (none c both.2))

theorem programmedBelow_other {stop : Nat} {space : Space} (other : space ≠ .memory memtype)
    (contents : Contents) :
    programmedBelow cells device image memtype stop contents space = contents space :=
  Function.update_of_ne other _ _

theorem partly_none (program : Bool) (contents : Contents) :
    Partly cells device program image memtype contents contents :=
  ⟨0, fun _ => rfl, (programmedBelow_none (fun _ _ => Nat.zero_le _) contents).symm⟩

theorem partly_written (program : Bool) (contents : Contents) :
    Partly cells device program image memtype contents
      (written cells device program image memtype contents) := by
  cases program with
  | false => exact partly_none false contents
  | true => exact ⟨maxImageSize, nofun, rfl⟩

theorem written_other {program : Bool} {space : Space} (other : space ≠ .memory memtype)
    (contents : Contents) :
    written cells device program image memtype contents space = contents space := by
  cases program with
  | false => rfl
  | true => exact programmedBelow_other other contents

theorem written_of_no_data (wellFormed : image.WellFormed device memtype)
    (noData : image.hasData = false) (program : Bool) (contents : Contents) :
    written cells device program image memtype contents = contents := by
  cases program with
  | false => rfl
  | true =>
      apply programmedBelow_none
      rintro c ⟨d, -, needed⟩
      have used : (image.image.peek d).used = true := by
        by_contra unused
        exact needed fun used => absurd used unused
      rw [wellFormed.hasData, (wellFormed.used d used).1] at noData
      cases noData

theorem programmedBelow_stored (wellFormed : image.WellFormed device memtype) {page : Nat}
    (aligned : page % device.getPageSize memtype = 0)
    (notEmpty : pageIsEmpty image page (device.getPageSize memtype) memtype = false)
    (contents : Contents) :
    programmedBelow cells device image memtype (page + device.getPageSize memtype) contents =
      cells.stored (programmedBelow cells device image memtype page contents) (.memory memtype)
        page ((List.range (device.getPageSize memtype)).map fun i =>
          (image.image.peek (i + page)).val) := by
  have inPage {c : Nat} := Image.pageIsEmpty_eq_false_iff (c := c) wellFormed aligned
  rw [Cells.stored]
  conv_rhs => rw [programmedBelow, Function.update_idem, Function.update_self]
  rw [programmedBelow]
  congr 1
  funext c
  rw [merged]
  rcases Nat.lt_or_ge c page with before | reached
  · rw [if_neg (Nat.not_le.mpr before)]
    by_cases needed : image.InWrittenPage device memtype c
    · rw [if_pos ⟨Nat.lt_add_right _ before, needed⟩, if_pos ⟨before, needed⟩]
    · rw [if_neg fun both => needed both.2, if_neg fun both => needed both.2]
  · rw [if_pos reached]
    have late : ¬(c < page ∧ image.InWrittenPage device memtype c) := fun both => by omega
    rw [if_neg late]
    rcases Nat.lt_or_ge c (page + device.getPageSize memtype) with inside | behind
    · rw [if_pos ⟨inside, (inPage reached inside).mp notEmpty⟩]
      have within : c - page < device.getPageSize memtype := by omega
      simp [within, Nat.sub_add_cancel reached]
    · rw [if_neg fun both => by omega, List.getElem?_eq_none (by simp; omega)]
      rfl

theorem programmedBelow_skipped (wellFormed : image.WellFormed device memtype) {page : Nat}
    (aligned : page % device.getPageSize memtype = 0)
    (empty : pageIsEmpty image page (device.getPageSize memtype) memtype = true)
    (contents : Contents) :
    programmedBelow cells device image memtype (page + device.getPageSize memtype) contents =
      programmedBelow cells device image memtype page contents := by
  apply programmedBelow_congr
  intro c needed
  refine ⟨fun inside => ?_, fun before => Nat.lt_add_right _ before⟩
  by_contra reached
  have notEmpty := (Image.pageIsEmpty_eq_false_iff wellFormed aligned (Nat.not_lt.mp reached)
    inside).mpr needed
  rw [empty] at notEmpty
  cases notEmpty

theorem programmedBelow_last (wellFormed : image.WellFormed device memtype) {stop : Nat}
    (aligned : stop % device.getPageSize memtype = 0) (reached : image.lastAddress ≤ stop)
    (contents : Contents) :
    programmedBelow cells device image memtype stop contents =
      programmed cells device image memtype contents := by
  apply programmedBelow_congr
  intro c needed
  refine iff_of_true ?_ (Image.inWrittenPage_lt wellFormed needed)
  obtain ⟨d, samePage, notBlank⟩ := needed
  have positive := getPageSize_pos device memtype
  have before : d < stop :=
    Nat.lt_of_lt_of_le (Image.used_lt_lastAddress wellFormed notBlank).2 reached
  obtain ⟨k, rfl⟩ := Nat.dvd_of_mod_eq_zero aligned
  rw [Nat.mul_comm, ← Nat.div_lt_iff_lt_mul positive] at before ⊢
  rwa [← samePage]

theorem programmed_holds (wellFormed : image.WellFormed device memtype) {contents : Contents}
    (takes : ∀ c, cells.merge (.memory memtype) (contents (.memory memtype) c)
      (image.image.peek c).val = (image.image.peek c).val)
    (erased : memtype = .flash → ∀ c, contents (.memory memtype) c = 0xff) :
    Holds (programmed cells device image memtype contents) image memtype := by
  intro c used
  rw [programmed, programmedBelow, Function.update_self]
  by_cases needed : image.InWrittenPage device memtype c
  · rw [if_pos ⟨Image.inWrittenPage_lt wellFormed needed, needed⟩, takes c]
  · have blank : image.IsBlank memtype c := by
      by_contra notBlank
      exact needed ⟨c, rfl, notBlank⟩
    obtain ⟨isFlash, value⟩ := blank used
    rw [if_neg fun both => needed both.2, erased isFlash, value]

end Contents

/-! ## What a programmer does -/

namespace Drives

variable {State : Type} {programmer : Programmer State} {device : Device} {cells : Cells}
  {view : View State} (drives : Drives programmer device cells view) {image : BFDimage}
  {memtype : BFDmemoryType} (wellFormed : image.WellFormed device memtype)
  (isPaged : memtype ≠ .ram) (inSpace : InSpace device image memtype)
include wellFormed isPaged inSpace

theorem within_page {page : Nat} (aligned : page % device.getPageSize memtype = 0)
    (below : page < image.lastAddress) :
    Within device (.memory memtype) page (device.getPageSize memtype) :=
  ⟨Image.isPage_of_lt wellFormed isPaged aligned below, rfl,
    fun isEeprom => inSpace isEeprom page aligned below⟩

include drives

theorem writePage {page : Nat} (aligned : page % device.getPageSize memtype = 0)
    (below : page < image.lastAddress) {s : State} {contents : Contents} (ready : view.Ready s)
    (paged : view.Paged s)
    (before : view.chip s =
      ⟨true, programmedBelow cells device image memtype page contents⟩) :
    Called.Ends
      (fun _ after => view.Kept s after ∧ view.chip after = ⟨true,
        programmedBelow cells device image memtype (page + device.getPageSize memtype) contents⟩)
      (fun after => ∃ stop, (view.chip after).contents =
        programmedBelow cells device image memtype stop contents)
      (Programming.writePage programmer device image memtype page s) := by
  rw [Programming.writePage]
  cases empty : pageIsEmpty image page (device.getPageSize memtype) memtype with
  | true =>
      refine Called.ends_return ⟨.refl ready, ?_⟩
      rw [programmedBelow_skipped wellFormed aligned empty, before]
  | false =>
      have within := within_page wellFormed isPaged inSpace aligned below
      have length : ((List.range (device.getPageSize memtype)).map fun i =>
          (image.image.peek (i + page)).val).length = device.getPageSize memtype := by simp
      have write := drives.write s (.memory memtype) page _ ready (by rw [before])
        (length.symm ▸ within) fun _ _ => paged
      rw [before] at write
      refine Called.Ends.andThen (write.imp (fun _ _ => id) ?_) ?_
      · rintro after (same | stored)
        · exact ⟨page, same⟩
        · refine ⟨page + device.getPageSize memtype, ?_⟩
          rw [stored, programmedBelow_stored wellFormed aligned empty]
      · rintro _ after ⟨rfl, kept, wrote⟩
        refine Called.ends_return ⟨kept, ?_⟩
        rw [wrote, programmedBelow_stored wellFormed aligned empty]
        rfl

theorem programImage {s : State} (ready : view.Ready s) (paged : view.Paged s)
    (programming : (view.chip s).programming = true) :
    Called.Ends
      (fun _ after => view.Kept s after ∧ view.chip after =
        ⟨true, programmed cells device image memtype (view.chip s).contents⟩)
      (fun after => ∃ stop, (view.chip after).contents =
        programmedBelow cells device image memtype stop (view.chip s).contents)
      (Programming.programImage programmer device image memtype s) := by
  obtain ⟨aligned, lowest⟩ := Image.start_of_wellFormed wellFormed
  have started : ∀ c, image.InWrittenPage device memtype c →
      device.pageAddr image.firstAddress memtype ≤ c := by
    rintro c ⟨d, samePage, needed⟩
    apply lowest
    rw [← samePage]
    exact Nat.div_le_div_right (Image.used_lt_lastAddress wellFormed needed).1
  have round : ∀ page (call : Called State Unit), page < image.lastAddress →
      (page % device.getPageSize memtype = 0 ∧ Called.Ends
        (fun _ after => view.Kept s after ∧ view.chip after = ⟨true,
          programmedBelow cells device image memtype page (view.chip s).contents⟩)
        (fun after => ∃ stop, (view.chip after).contents =
          programmedBelow cells device image memtype stop (view.chip s).contents) call) →
      (page + device.getPageSize memtype) % device.getPageSize memtype = 0 ∧ Called.Ends
        (fun _ after => view.Kept s after ∧ view.chip after = ⟨true, programmedBelow cells device
          image memtype (page + device.getPageSize memtype) (view.chip s).contents⟩)
        (fun after => ∃ stop, (view.chip after).contents =
          programmedBelow cells device image memtype stop (view.chip s).contents)
        (call.andThen fun _ s => Programming.writePage programmer device image memtype page s) := by
    rintro page call below ⟨aligned, ends⟩
    refine ⟨by rw [Nat.add_mod_right, aligned], ?_⟩
    refine Called.Ends.andThen (ends.imp (fun _ _ => id) fun _ => id) ?_
    rintro _ middle ⟨kept, before⟩
    refine (drives.writePage wellFormed isPaged inSpace aligned below kept.ready (kept.paged paged)
      before).imp ?_ fun _ cut => cut
    exact fun _ after both => ⟨kept.trans both.1, both.2⟩
  obtain ⟨stop, reached, aligned, ends⟩ :=
    walk_invariant (getPageSize_pos device memtype) round ⟨aligned, Called.ends_return
      ⟨.refl ready, by rw [programmedBelow_none started, ← programming]⟩⟩
  rw [programmedBelow_last wellFormed aligned reached] at ends
  exact ends

theorem verifyPage {page : Nat} (aligned : page % device.getPageSize memtype = 0)
    (below : page < image.lastAddress) {s : State} (ready : view.Ready s)
    (programming : (view.chip s).programming = true) (isVerified : Bool) :
    Called.Ends
      (fun verified after => view.KeptBut (.memory memtype) s after ∧
        view.chip after = view.chip s ∧
          (view.cached after (.memory memtype) = view.cached s (.memory memtype) ∨
            view.cached after (.memory memtype) = some page) ∧
            (view.cached s (.memory memtype) ≠ some page → (verified = true ↔
              isVerified = true ∧ ∀ c, page ≤ c → c < page + device.getPageSize memtype →
                (image.image.peek c).used = true →
                  (view.chip s).contents (.memory memtype) c = (image.image.peek c).val)))
      (fun after => (view.chip after).contents = (view.chip s).contents)
      (Programming.verifyPage programmer device image memtype page isVerified s) := by
  have read := drives.read s (.memory memtype) page _ ready programming
    (within_page wellFormed isPaged inSpace aligned below)
  simp only [Programming.verifyPage]
  refine Called.Ends.andThen (read.imp (fun _ _ => id) fun _ => id) ?_
  rintro response after ⟨kept, same, now, presented⟩
  cases response with
  | none =>
      constructor
      · intro verified returned
        dsimp only at returned
        split at returned
        next => cases returned
        next unused =>
          cases returned
          refine ⟨kept, same, now, fun _ => ⟨fun verified => ⟨verified, ?_⟩, And.left⟩⟩
          intro c reached inside used
          refine absurd (List.any_eq_true.mpr ⟨c - page, List.mem_range.mpr (by omega), ?_⟩) unused
          rwa [Nat.sub_add_cancel reached]
      · exact fun _ => congrArg Chip.contents same
  | some response =>
      refine Called.ends_return ⟨kept, same, now, fun fresh => ?_⟩
      have bytes := presented fresh response rfl
      have byte : ∀ i < device.getPageSize memtype,
          response.getD i 0 = (view.chip s).contents (.memory memtype) (page + i) := by
        intro i within
        have taken := congrArg (fun all => all.getD i 0) bytes
        rw [List.getD_eq_getElem?_getD, List.getElem?_take_of_lt within,
          ← List.getD_eq_getElem?_getD] at taken
        rw [taken]
        simp [slice, List.getD_eq_getElem?_getD, within]
      simp only [Bool.and_eq_true, List.all_eq_true, List.mem_range, Bool.or_eq_true,
        Bool.not_eq_true', beq_iff_eq]
      refine and_congr_right fun _ => ⟨fun all => ?_, fun all => ?_⟩
      · intro c reached inside used
        obtain ⟨i, rfl⟩ := Nat.exists_eq_add_of_le reached
        have within : i < device.getPageSize memtype := by omega
        rcases all i within with unused | equal
        · rw [Nat.add_comm i page, used] at unused
          cases unused
        · rw [byte i within, Nat.add_comm i page] at equal
          exact equal.symm
      · intro i within
        rw [byte i within, Nat.add_comm i page]
        cases used : (image.image.peek (page + i)).used with
        | false => exact .inl rfl
        | true => exact .inr (all (page + i) (by omega) (by omega) used).symm

/-- If no page of the memory is kept before, the comparison finds out whether the
chip has the image. -/
theorem verifyImage {s : State} (ready : view.Ready s)
    (programming : (view.chip s).programming = true) :
    Called.Ends
      (fun verified after => view.KeptBut (.memory memtype) s after ∧
        view.chip after = view.chip s ∧ (view.cached s (.memory memtype) = none →
          (verified = true ↔ Holds (view.chip s).contents image memtype)))
      (fun after => (view.chip after).contents = (view.chip s).contents)
      (Programming.verifyImage programmer device image memtype s) := by
  obtain ⟨aligned, lowest⟩ := Image.start_of_wellFormed wellFormed
  have round : ∀ page (call : Called State Bool), page < image.lastAddress →
      (page % device.getPageSize memtype = 0 ∧ Called.Ends
        (fun verified after => view.KeptBut (.memory memtype) s after ∧
          view.chip after = view.chip s ∧ (view.cached s (.memory memtype) = none →
            (∀ kept, view.cached after (.memory memtype) = some kept → kept < page) ∧
              (verified = true ↔ ∀ c < page, (image.image.peek c).used = true →
                (view.chip s).contents (.memory memtype) c = (image.image.peek c).val)))
        (fun after => (view.chip after).contents = (view.chip s).contents) call) →
      (page + device.getPageSize memtype) % device.getPageSize memtype = 0 ∧ Called.Ends
        (fun verified after => view.KeptBut (.memory memtype) s after ∧
          view.chip after = view.chip s ∧ (view.cached s (.memory memtype) = none →
            (∀ kept, view.cached after (.memory memtype) = some kept →
              kept < page + device.getPageSize memtype) ∧
              (verified = true ↔ ∀ c < page + device.getPageSize memtype,
                (image.image.peek c).used = true →
                  (view.chip s).contents (.memory memtype) c = (image.image.peek c).val)))
        (fun after => (view.chip after).contents = (view.chip s).contents)
        (call.andThen (Programming.verifyPage programmer device image memtype page)) := by
    rintro page call below ⟨aligned, ends⟩
    refine ⟨by rw [Nat.add_mod_right, aligned], ?_⟩
    refine Called.Ends.andThen (ends.imp (fun _ _ => id) fun _ => id) ?_
    rintro isVerified middle ⟨kept, same, earlier⟩
    have compared := drives.verifyPage wellFormed isPaged inSpace aligned below kept.ready
      (same ▸ programming) isVerified
    rw [same] at compared
    refine compared.imp ?_ fun _ => id
    rintro verified after ⟨keptToo, still, now, here⟩
    refine ⟨kept.trans keptToo, still, fun none => ?_⟩
    obtain ⟨old, before⟩ := earlier none
    have positive := getPageSize_pos device memtype
    constructor
    · intro other is
      rcases now with unchanged | this
      · exact Nat.lt_add_right _ (old other (unchanged.symm.trans is))
      · rw [this] at is
        cases is
        omega
    · have fresh : view.cached middle (.memory memtype) ≠ some page := fun is =>
        Nat.lt_irrefl page (old page is)
      rw [here fresh, before]
      constructor
      · rintro ⟨lower, upper⟩ c inside
        rcases Nat.lt_or_ge c page with less | reached
        · exact lower c less
        · exact upper c reached inside
      · intro all
        exact ⟨fun c less => all c (by omega), fun c _ inside => all c inside⟩
  have early : true = true ↔ ∀ c < device.pageAddr image.firstAddress memtype,
      (image.image.peek c).used = true →
        (view.chip s).contents (.memory memtype) c = (image.image.peek c).val := by
    refine iff_of_true rfl fun c before used => ?_
    have reached := lowest c (Nat.div_le_div_right (wellFormed.used c used).2.1)
    exact absurd reached (Nat.not_le.mpr before)
  obtain ⟨stop, reached, _, ends⟩ :=
    walk_invariant (getPageSize_pos device memtype) round ⟨aligned, Called.ends_return
      ⟨(View.Kept.refl ready).but _, rfl, fun none => ⟨by simp [none], early⟩⟩⟩
  refine ends.imp ?_ fun _ => id
  rintro verified after ⟨kept, same, found⟩
  refine ⟨kept, same, fun none => (found none).2.trans ⟨fun below c used => ?_, fun held c _ used => ?_⟩⟩
  · exact below c (Nat.lt_of_lt_of_le (wellFormed.used c used).2.2 reached) used
  · exact held c used

theorem jtagFlashImage (hasData : image.hasData = true) {s : State} (ready : view.Ready s)
    (paged : view.Paged s) (programming : (view.chip s).programming = true)
    (program verify : Bool) :
    let after := written cells device program image memtype (view.chip s).contents
    Called.Ends
      (fun _ last => view.KeptBut (.memory memtype) s last ∧ (verify = false → view.Kept s last) ∧
        view.chip last = ⟨true, after⟩ ∧ (verify = true →
          view.cached s (.memory memtype) = none → Holds after image memtype))
      (fun last => Partly cells device program image memtype (view.chip s).contents
        (view.chip last).contents)
      (Programming.jtagFlashImage programmer device image memtype program verify s) := by
  intro after
  have first : Called.Ends
      (fun _ middle => view.Kept s middle ∧ view.chip middle = ⟨true, after⟩)
      (fun middle => Partly cells device program image memtype (view.chip s).contents
        (view.chip middle).contents)
      (if program then Programming.programImage programmer device image memtype s
        else ⟨some (), s⟩) := by
    cases program with
    | false => exact Called.ends_return ⟨.refl ready, by rw [← programming]; rfl⟩
    | true =>
        refine (drives.programImage wellFormed isPaged inSpace ready paged programming).imp
          (fun _ _ => id) ?_
        rintro middle ⟨stop, cut⟩
        exact ⟨stop, nofun, cut⟩
  have data : ¬image.hasData = false := by simp [hasData]
  rw [Programming.jtagFlashImage, if_neg data]
  refine Called.Ends.andThen (first.imp (fun _ _ => id) fun _ => id) ?_
  rintro _ middle ⟨kept, done⟩
  cases verify with
  | false => exact Called.ends_return ⟨kept.but _, fun _ => kept, done, nofun⟩
  | true =>
      have compared := drives.verifyImage wellFormed isPaged inSpace kept.ready (by rw [done])
      simp only [done] at compared
      refine Called.Ends.andThen (compared.imp (fun _ _ => id) ?_) ?_
      · intro last same
        rw [same]
        exact partly_written program _
      · rintro isVerified last ⟨still, same, found⟩
        constructor
        · intro _ returned
          have verified : isVerified = true := by
            by_contra not
            simp [not] at returned
          refine ⟨(kept.but _).trans still, nofun, same, fun _ none => ?_⟩
          exact (found (kept.cached ▸ none)).mp verified
        · intro _
          show Partly _ _ _ _ _ _ (view.chip last).contents
          rw [same]
          exact partly_written program _

theorem flashIfData {s : State} (ready : view.Ready s) (paged : view.Paged s)
    (programming : (view.chip s).programming = true) (program verify : Bool) :
    let after := written cells device program image memtype (view.chip s).contents
    Called.Ends
      (fun _ last => view.KeptBut (.memory memtype) s last ∧ (verify = false → view.Kept s last) ∧
        view.chip last = ⟨true, after⟩ ∧ (verify = true →
          view.cached s (.memory memtype) = none → Holds after image memtype))
      (fun last => Partly cells device program image memtype (view.chip s).contents
        (view.chip last).contents)
      (Programming.flashIfData programmer device image memtype program verify s) := by
  intro after
  rw [Programming.flashIfData]
  cases data : image.hasData with
  | true =>
      exact drives.jtagFlashImage wellFormed isPaged inSpace data ready paged programming program
        verify
  | false =>
      have unchanged : after = (view.chip s).contents :=
        written_of_no_data wellFormed data program _
      refine Called.ends_return
        ⟨(View.Kept.refl ready).but _, fun _ => .refl ready, ?_, fun _ _ c used => ?_⟩
      · rw [unchanged, ← programming]
      · rw [wellFormed.hasData, (wellFormed.used c used).1] at data
        cases data

end Drives

/-! ## A file -/

noncomputable def downloaded (cells : Cells) (device : Device) (sections : List Section)
    (program : Bool) (contents : Contents) : Contents :=
  written cells device program (createImage .eeprom sections) .eeprom
    (written cells device program (createImage .flash sections) .flash contents)

/-- The contents behind a part of it: the flash image comes first. -/
def DownloadCut (cells : Cells) (device : Device) (sections : List Section) (program : Bool)
    (before after : Contents) : Prop :=
  Partly cells device program (createImage .flash sections) .flash before after ∨
    Partly cells device program (createImage .eeprom sections) .eeprom
      (written cells device program (createImage .flash sections) .flash before) after

def HoldsFile (contents : Contents) (sections : List Section) : Prop :=
  ∀ memtype, memtype ≠ .ram → Holds contents (createImage memtype sections) memtype

theorem holdsFile_iff {device : Device} {sections : List Section}
    (fit : ∀ memtype, memtype ≠ .ram → ∀ s ∈ sections, s.PagesFit device memtype)
    {contents : Contents} :
    HoldsFile contents sections ↔ ∀ memtype, memtype ≠ .ram → ∀ c byte,
      Image.byteAt memtype c sections = some byte → contents (.memory memtype) c = byte := by
  refine forall₂_congr fun memtype isPaged => forall_congr' fun c => ?_
  rw [Image.createImage_peek (fit memtype isPaged)]
  cases Image.byteAt memtype c sections <;> simp

/-- The pages of a file are pages of the images and of the EEPROM. -/
structure FitsPages (device : Device) (sections : List Section) : Prop where
  pages : ∀ memtype, memtype ≠ .ram → ∀ s ∈ sections, s.PagesFit device memtype
  inSpace : InSpace device (createImage .eeprom sections) .eeprom

theorem holds_other {contents after : Contents} {image : BFDimage} {memtype : BFDmemoryType}
    (same : after (.memory memtype) = contents (.memory memtype)) :
    Holds after image memtype ↔ Holds contents image memtype := by
  simp only [Holds, same]

theorem downloaded_holdsFile {cells : Cells} {device : Device} {sections : List Section}
    (fits : FitsPages device sections) {contents : Contents}
    (takes : ∀ memtype, memtype ≠ .ram → ∀ c byte,
      cells.merge (.memory memtype) (contents (.memory memtype) c) byte = byte)
    (erased : ∀ c, contents (.memory .flash) c = 0xff) :
    HoldsFile (downloaded cells device sections true contents) sections := by
  have wellFormed (memtype : BFDmemoryType) (isPaged : memtype ≠ .ram) :
      (createImage memtype sections).WellFormed device memtype :=
    Image.wellFormed_createImage (fits.pages memtype isPaged)
  intro memtype isPaged
  cases memtype with
  | flash =>
      refine (holds_other (written_other (by decide) _)).mpr ?_
      exact programmed_holds (wellFormed .flash isPaged)
        (fun c => takes .flash isPaged c _) fun _ => erased
  | eeprom =>
      refine programmed_holds (wellFormed .eeprom isPaged) (fun c => ?_) nofun
      rw [written_other (by decide)]
      exact takes .eeprom isPaged c _
  | ram => exact absurd rfl isPaged

/-- A download gives a chip the images of a file.  If nothing has been kept of its
memories before, a verification that passes has found every byte there. -/
theorem Drives.downloadToTarget {State : Type} {programmer : Programmer State} {device : Device}
    {cells : Cells} {view : View State} (drives : Drives programmer device cells view)
    {sections : List Section} (fits : FitsPages device sections) {s : State} (ready : view.Ready s)
    (program verify : Bool) :
    let after := downloaded cells device sections program (view.chip s).contents
    Called.Ends
      (fun _ last => view.Ready last ∧ (verify = false → view.cached last = view.cached s) ∧
        view.chip last = ⟨false, after⟩ ∧ (verify = true →
          (∀ memtype, memtype ≠ .ram → view.cached s (.memory memtype) = none) →
            HoldsFile after sections))
      (fun last => DownloadCut cells device sections program (view.chip s).contents
        (view.chip last).contents)
      (Programming.downloadToTarget programmer device sections program verify s) := by
  intro after
  have wellFormed (memtype : BFDmemoryType) (isPaged : memtype ≠ .ram) :
      (createImage memtype sections).WellFormed device memtype :=
    Image.wellFormed_createImage (fits.pages memtype isPaged)
  have unchanged {last : State} (same : (view.chip last).contents = (view.chip s).contents) :
      DownloadCut cells device sections program (view.chip s).contents (view.chip last).contents := by
    rw [same]
    exact .inl (partly_none program _)
  refine Called.Ends.andThen ((drives.setPageSizes s ready).imp (fun _ _ => id)
    fun _ => unchanged) ?_
  rintro _ sized ⟨kept, paged, sameSized⟩
  refine Called.Ends.andThen ((drives.enable sized kept.ready).imp (fun _ _ => id)
    fun _ same => unchanged (same.trans (congrArg Chip.contents sameSized))) ?_
  rintro _ entered ⟨keptToo, inMode⟩
  rw [sameSized] at inMode
  have before := kept.trans keptToo
  have flash := drives.flashIfData (wellFormed .flash (by decide)) (by decide) nofun keptToo.ready
    (keptToo.paged paged) (by rw [inMode]; rfl) program verify
  simp only [inMode, Request.effect] at flash
  refine Called.Ends.andThen (flash.imp (fun _ _ => id) fun _ => .inl) ?_
  rintro _ middle ⟨keptFlash, quietFlash, doneFlash, heldFlash⟩
  have eeprom := drives.flashIfData (wellFormed .eeprom (by decide)) (by decide) fits.inSpace
    keptFlash.ready (keptFlash.paged (keptToo.paged paged)) (by rw [doneFlash]) program verify
  simp only [doneFlash] at eeprom
  refine Called.Ends.andThen (eeprom.imp (fun _ _ => id) fun _ => .inr) ?_
  rintro _ done ⟨keptEeprom, quietEeprom, doneEeprom, heldEeprom⟩
  refine (drives.disable done keptEeprom.ready).imp ?_ ?_
  · rintro _ last ⟨keptLast, left⟩
    rw [doneEeprom] at left
    refine ⟨keptLast.ready, fun noVerify => ?_, left, fun verified none memtype isPaged => ?_⟩
    · rw [keptLast.cached, (quietEeprom noVerify).cached, (quietFlash noVerify).cached,
        before.cached]
    · have noneFlash : view.cached entered (.memory .flash) = Option.none := by
        rw [before.cached]
        exact none .flash (by decide)
      have noneEeprom : view.cached middle (.memory .eeprom) = Option.none := by
        rw [keptFlash.cached _ (by decide), before.cached]
        exact none .eeprom (by decide)
      cases memtype with
      | flash =>
          exact (holds_other (written_other (by decide) _)).mpr (heldFlash verified noneFlash)
      | eeprom => exact heldEeprom verified noneEeprom
      | ram => exact absurd rfl isPaged
  · intro last same
    rw [same, doneEeprom]
    exact .inr (partly_written program _)

end Avarice.Programming

import Avarice.Mk2.Breakpoint.Consistency
import Avarice.Mk2.Breakpoint.Update

/-!
# What an update downloads

Between two updates the ICE holds exactly the breakpoints whose entries have
`icestatus` set.  Each command of an update changes the ICE and one entry
together, so this is carried through both loops; at the end nothing is left to
remove or to add.
-/

namespace Avarice.Mk2

open Scan

/-- The ICE holds exactly the breakpoints of the entries with `icestatus`. -/
structure Mirrors (bp : BreakpointTable) (ice : Mk2Ice) : Prop where
  slots : ∀ slot content, ice.slot slot = some content ↔
    slot ≠ 0 ∧ ∃ j, (bp.peek j).icestatus = true ∧ (bp.peek j).bpnum = slot ∧
      setBreak (bp.peek j) = some content
  soft : ∀ word, ice.soft word = true ↔
    ∃ j, (bp.peek j).icestatus = true ∧ (bp.peek j).bpnum = 0 ∧
      (bp.peek j).address / 2 = word

theorem Mirrors.start : Mirrors constructedTable .empty := by
  have absent : ∀ j, (constructedTable.peek j).icestatus = false := by
    intro j
    rw [constructedTable, CArray.peek_fill]
    split <;> rfl
  constructor
  · intro slot content
    simp [absent, Mk2Ice.empty]
  · intro word
    simp [absent, Mk2Ice.empty]

theorem Mirrors.congr {before after : BreakpointTable} {ice : Mk2Ice}
    (mirrors : Mirrors before ice)
    (status : ∀ j, (after.peek j).icestatus = (before.peek j).icestatus)
    (same : ∀ j, (before.peek j).icestatus = true →
      (after.peek j).bpnum = (before.peek j).bpnum ∧
      (after.peek j).address = (before.peek j).address ∧
      setBreak (after.peek j) = setBreak (before.peek j)) :
    Mirrors after ice := by
  constructor
  · intro slot content
    rw [mirrors.slots]
    refine and_congr_right fun _ => exists_congr fun j => ?_
    rw [status]
    refine and_congr_right fun there => ?_
    rw [(same j there).1, (same j there).2.2]
  · intro word
    rw [mirrors.soft]
    refine exists_congr fun j => ?_
    rw [status]
    refine and_congr_right fun there => ?_
    rw [(same j there).1, (same j there).2.1]

section Commands

variable {bp : BreakpointTable} {ice : Mk2Ice} {i : Nat}

theorem exists_markRemoved_iff (visible : Visible bp i) (P : Breakpoint2 → Prop) :
    (∃ j, ((bp.modify i Breakpoint2.markRemoved).peek j).icestatus = true ∧
      P ((bp.modify i Breakpoint2.markRemoved).peek j)) ↔
      ∃ j, j ≠ i ∧ (bp.peek j).icestatus = true ∧ P (bp.peek j) := by
  constructor
  · rintro ⟨j, there, holds⟩
    rw [modify_peek_eq visible] at there holds
    split at there
    · cases there
    next different =>
      rw [if_neg different] at holds
      exact ⟨j, different, there, holds⟩
  · rintro ⟨j, different, there, holds⟩
    refine ⟨j, ?_⟩
    rw [modify_peek_eq visible, if_neg different]
    exact ⟨there, holds⟩

theorem exists_markAdded_iff (visible : Visible bp i) (absent : (bp.peek i).icestatus = false)
    (P : Breakpoint2 → Prop) :
    (∃ j, ((bp.modify i Breakpoint2.markAdded).peek j).icestatus = true ∧
      P ((bp.modify i Breakpoint2.markAdded).peek j)) ↔
      P (bp.peek i).markAdded ∨ ∃ j, (bp.peek j).icestatus = true ∧ P (bp.peek j) := by
  constructor
  · rintro ⟨j, there, holds⟩
    rw [modify_peek_eq visible] at there holds
    split at holds
    next here =>
      rw [here] at holds
      exact .inl holds
    next different =>
      rw [if_neg different] at there
      exact .inr ⟨j, there, holds⟩
  · rintro (holds | ⟨j, there, holds⟩)
    · refine ⟨i, ?_⟩
      rw [modify_peek_eq visible, if_pos rfl]
      exact ⟨rfl, holds⟩
    · have different : j ≠ i := by
        rintro rfl
        exact Bool.false_ne_true (absent.symm.trans there)
      refine ⟨j, ?_⟩
      rw [modify_peek_eq visible, if_neg different]
      exact ⟨there, holds⟩

theorem Mirrors.clear_software (mirrors : Mirrors bp ice) (consistent : Consistent bp)
    (there : (bp.peek i).icestatus = true) (software : (bp.peek i).bpnum = 0) :
    Mirrors (bp.modify i Breakpoint2.markRemoved)
      { ice with soft := fun word => word != (bp.peek i).address / 2 && ice.soft word } := by
  have visible := consistent.visible_of_icestatus there
  have flags := consistent.flags
  constructor
  · intro slot content
    rw [mirrors.slots, exists_markRemoved_iff visible
      fun entry => entry.bpnum = slot ∧ setBreak entry = some content]
    refine and_congr_right fun hardware => exists_congr fun j => ?_
    constructor
    · rintro ⟨thereJ, slotJ, content⟩
      refine ⟨?_, thereJ, slotJ, content⟩
      rintro rfl
      exact hardware (slotJ.symm.trans software)
    · exact fun found => found.2
  · intro word
    rw [exists_markRemoved_iff visible fun entry => entry.bpnum = 0 ∧ entry.address / 2 = word,
      Bool.and_eq_true, bne_iff_ne, mirrors.soft]
    constructor
    · rintro ⟨other, j, thereJ, slotJ, rfl⟩
      refine ⟨j, ?_, thereJ, slotJ, rfl⟩
      rintro rfl
      exact other rfl
    · rintro ⟨j, different, thereJ, slotJ, rfl⟩
      refine ⟨fun sameWord => different ?_, j, thereJ, slotJ, rfl⟩
      have codeI := (flags i).software there software
      have codeJ := (flags j).software thereJ slotJ
      refine consistent.unique j i (consistent.visible_of_icestatus thereJ) visible ?_
        (codeJ.trans codeI.symm)
      rw [← (flags j).even thereJ codeJ, ← (flags i).even there codeI, sameWord]

theorem Mirrors.clear_hardware (mirrors : Mirrors bp ice) (consistent : Consistent bp)
    (there : (bp.peek i).icestatus = true) (hardware : (bp.peek i).bpnum ≠ 0) :
    Mirrors (bp.modify i Breakpoint2.markRemoved)
      { ice with
        slot := fun slot => if slot = (bp.peek i).bpnum then none else ice.slot slot } := by
  have visible := consistent.visible_of_icestatus there
  constructor
  · intro slot content
    rw [exists_markRemoved_iff visible
      fun entry => entry.bpnum = slot ∧ setBreak entry = some content]
    dsimp only
    by_cases freed : slot = (bp.peek i).bpnum
    · rw [if_pos freed]
      refine iff_of_false (Option.some_ne_none content).symm ?_
      rintro ⟨_, j, different, thereJ, slotJ, _⟩
      rcases consistent.distinct i j there thereJ (freed.symm.trans slotJ.symm) with same | zero
      · exact different same.symm
      · exact hardware zero
    · rw [if_neg freed, mirrors.slots]
      refine and_congr_right fun _ => exists_congr fun j => ?_
      constructor
      · rintro ⟨thereJ, slotJ, content⟩
        refine ⟨?_, thereJ, slotJ, content⟩
        rintro rfl
        exact freed slotJ.symm
      · exact fun found => found.2
  · intro word
    rw [exists_markRemoved_iff visible fun entry => entry.bpnum = 0 ∧ entry.address / 2 = word,
      mirrors.soft]
    refine exists_congr fun j => ?_
    constructor
    · rintro ⟨thereJ, slotJ, sameWord⟩
      refine ⟨?_, thereJ, slotJ, sameWord⟩
      rintro rfl
      exact hardware slotJ
    · exact fun found => found.2

theorem Mirrors.clear (mirrors : Mirrors bp ice) (consistent : Consistent bp)
    (there : (bp.peek i).icestatus = true) :
    Mirrors (bp.modify i Breakpoint2.markRemoved)
      (Mk2Ice.execute (clearCommand (bp.peek i)) ice).2 := by
  by_cases software : (bp.peek i).bpnum = 0
  · rw [Mk2Ice.execute_clear_software software]
    exact mirrors.clear_software consistent there software
  · rw [Mk2Ice.execute_clear_hardware software]
    exact mirrors.clear_hardware consistent there software

theorem Mirrors.set_software {content : IceBreakpoint} (mirrors : Mirrors bp ice)
    (visible : Visible bp i) (absent : (bp.peek i).icestatus = false)
    (software : (bp.peek i).bpnum = 0) (code : content.address = (bp.peek i).address / 2) :
    Mirrors (bp.modify i Breakpoint2.markAdded)
      { ice with soft := fun word => word == content.address || ice.soft word } := by
  constructor
  · intro slot content'
    rw [mirrors.slots, exists_markAdded_iff visible absent
      fun entry => entry.bpnum = slot ∧ setBreak entry = some content']
    refine and_congr_right fun hardware => ?_
    constructor
    · exact .inr
    · rintro (⟨slotI, _⟩ | found)
      · exact absurd (slotI.symm.trans software) hardware
      · exact found
  · intro word
    rw [exists_markAdded_iff visible absent
      fun entry => entry.bpnum = 0 ∧ entry.address / 2 = word, Bool.or_eq_true,
      beq_iff_eq, mirrors.soft, code]
    exact or_congr_left ⟨fun same => ⟨software, same.symm⟩, fun both => both.2.symm⟩

theorem Mirrors.set_hardware {content : IceBreakpoint} (mirrors : Mirrors bp ice)
    (visible : Visible bp i) (absent : (bp.peek i).icestatus = false)
    (chosen : setBreak (bp.peek i) = some content) (hardware : (bp.peek i).bpnum ≠ 0)
    (free : ∀ j, (bp.peek j).icestatus = true → (bp.peek i).bpnum = (bp.peek j).bpnum →
      (bp.peek i).bpnum = 0) :
    Mirrors (bp.modify i Breakpoint2.markAdded)
      { ice with
        slot := fun slot => if slot = (bp.peek i).bpnum then some content else ice.slot slot } := by
  constructor
  · intro slot content'
    rw [exists_markAdded_iff visible absent
      fun entry => entry.bpnum = slot ∧ setBreak entry = some content']
    dsimp only
    by_cases taken : slot = (bp.peek i).bpnum
    · rw [if_pos taken]
      subst taken
      constructor
      · intro same
        exact ⟨hardware, .inl ⟨rfl, chosen.trans same⟩⟩
      · rintro ⟨_, ⟨_, same⟩ | ⟨j, thereJ, slotJ, _⟩⟩
        · exact chosen.symm.trans same
        · exact absurd (free j thereJ slotJ.symm) hardware
    · rw [if_neg taken, mirrors.slots]
      refine and_congr_right fun _ => ?_
      constructor
      · exact .inr
      · rintro (⟨slotI, _⟩ | found)
        · exact absurd slotI.symm taken
        · exact found
  · intro word
    rw [exists_markAdded_iff visible absent
      fun entry => entry.bpnum = 0 ∧ entry.address / 2 = word, mirrors.soft]
    constructor
    · exact .inr
    · rintro (⟨slotI, _⟩ | found)
      · exact absurd slotI hardware
      · exact found

theorem Mirrors.set {content : IceBreakpoint} (mirrors : Mirrors bp ice)
    (visible : Visible bp i) (absent : (bp.peek i).icestatus = false)
    (chosen : setBreak (bp.peek i) = some content)
    (code : (bp.peek i).bpnum = 0 → content.address = (bp.peek i).address / 2)
    (free : ∀ j, (bp.peek j).icestatus = true → (bp.peek i).bpnum = (bp.peek j).bpnum →
      (bp.peek i).bpnum = 0) :
    Mirrors (bp.modify i Breakpoint2.markAdded)
      (Mk2Ice.execute (.setBreak (bp.peek i).bpnum content) ice).2 := by
  by_cases software : (bp.peek i).bpnum = 0
  · rw [Mk2Ice.execute_set_software software]
    exact mirrors.set_software visible absent software (code software)
  · rw [Mk2Ice.execute_set_hardware software]
    exact mirrors.set_hardware visible absent chosen software free

end Commands

theorem setBreak_plain {entry : Breakpoint2} (plain : BpType.plain entry.type = true) :
    ∃ content, setBreak entry = some content ∧ content.hostType = entry.type ∧
      (entry.type = .code → content.address = entry.address / 2 ∧
        content.hostAddress = 2 * (entry.address / 2)) ∧
      (entry.type ≠ .code → content.hostAddress = entry.address) := by
  simp only [BpType.plain, Bool.or_eq_true, beq_iff_eq] at plain
  rcases plain with ((isCode | isWrite) | isRead) | isAccess
  · refine ⟨⟨0x01, entry.address / 2, 0x03⟩, ?_, isCode.symm, fun _ => ⟨rfl, rfl⟩,
      fun noCode => absurd isCode noCode⟩
    unfold setBreak
    rw [isCode]
    rfl
  · refine ⟨⟨0x02, entry.address, 0x01⟩, ?_, isWrite.symm, fun isCode => ?_, fun _ => rfl⟩
    · unfold setBreak
      rw [isWrite]
      rfl
    · exact absurd (isWrite.symm.trans isCode) (by decide)
  · refine ⟨⟨0x02, entry.address, 0x00⟩, ?_, isRead.symm, fun isCode => ?_, fun _ => rfl⟩
    · unfold setBreak
      rw [isRead]
      rfl
    · exact absurd (isRead.symm.trans isCode) (by decide)
  · refine ⟨⟨0x02, entry.address, 0x02⟩, ?_, isAccess.symm, fun isCode => ?_, fun _ => rfl⟩
    · unfold setBreak
      rw [isAccess]
      rfl
    · exact absurd (isAccess.symm.trans isCode) (by decide)

/-- The entries that wait have got slots of their own, and the code addresses
among them are addresses of flash locations. -/
structure Ready (bp : BreakpointTable) : Prop where
  software : ∀ i, Visible bp i → (bp.peek i).waits = true → (bp.peek i).bpnum = 0 →
    (bp.peek i).type = .code
  even : ∀ i, Visible bp i → (bp.peek i).waits = true → (bp.peek i).type = .code →
    2 * ((bp.peek i).address / 2) = (bp.peek i).address
  apart : ∀ i j, Visible bp i → Visible bp j → (bp.peek i).waits = true →
    (bp.peek j).waits = true ∨ (bp.peek j).icestatus = true →
      (bp.peek i).bpnum = (bp.peek j).bpnum → i = j ∨ (bp.peek i).bpnum = 0

theorem waits_of_toadd {bp : BreakpointTable} (consistent : Consistent bp) {i : Nat}
    (visible : Visible bp i) (wanted : ((bp.peek i).toadd && (bp.peek i).enabled) = true) :
    (bp.peek i).waits = true := by
  obtain ⟨flagged, enabled⟩ := Bool.and_eq_true_iff.mp wanted
  refine (consistent.waits_or_stable visible enabled).resolve_right fun stable => ?_
  have absent := (consistent.flags i).fresh flagged
  simp [Breakpoint2.stable, absent] at stable

section Loops

variable {bp : BreakpointTable} {ice : Mk2Ice} {i : Nat}

/-- What the table and the ICE are throughout an update. -/
structure Updating (s : UpdateState Mk2Ice) : Prop where
  consistent : Consistent s.bp
  mirrors : Mirrors s.bp s.ice
  running : s.thrown = false

def removed (entry : Breakpoint2) : Breakpoint2 :=
  if entry.toremove then entry.markRemoved else entry

def downloaded (entry : Breakpoint2) : Breakpoint2 :=
  if entry.toadd && entry.enabled then entry.markAdded else entry

theorem execute_accepts (command : BreakCommand) (ice : Mk2Ice) :
    Mk2Ice.execute command ice = (true, (Mk2Ice.execute command ice).2) := by
  cases command <;> rfl

theorem removeEntry_of_flagged {s : UpdateState Mk2Ice} {i : Nat}
    (flagged : (s.bp.peek i).toremove = true) :
    removeEntry Mk2Ice.execute i s = .next { s with
      ice := (Mk2Ice.execute (clearCommand (s.bp.peek i)) s.ice).2
      bp := s.bp.modify i Breakpoint2.markRemoved } := by
  unfold removeEntry
  simp only [flagged, if_true]
  rw [execute_accepts]

theorem downloadEntry_of_wanted {s : UpdateState Mk2Ice} {i : Nat} {content : IceBreakpoint}
    (wanted : ((s.bp.peek i).toadd && (s.bp.peek i).enabled) = true)
    (chosen : setBreak (s.bp.peek i) = some content) :
    downloadEntry Mk2Ice.execute i s = .next { s with
      ice := (Mk2Ice.execute (.setBreak (s.bp.peek i).bpnum content) s.ice).2
      bp := s.bp.modify i Breakpoint2.markAdded } := by
  unfold downloadEntry
  simp only [wanted, if_true, chosen]
  rw [execute_accepts]

theorem removeEntry_step {s : UpdateState Mk2Ice} {i : Nat} (updating : Updating s)
    (visible : Visible s.bp i) :
    (removeEntry Mk2Ice.execute i s).Meets
      (fun after => Updating after ∧ ∀ j, after.bp.peek j =
        if j = i then removed (s.bp.peek j) else s.bp.peek j) fun _ => False := by
  have consistent := updating.consistent
  cases flagged : (s.bp.peek i).toremove with
  | false =>
      have idle : removeEntry Mk2Ice.execute i s = .next s := by simp [removeEntry, flagged]
      rw [idle]
      refine ⟨updating, fun j => ?_⟩
      split
      next here => simp [here, removed, flagged]
      next elsewhere => rfl
  | true =>
      have there := (consistent.flags i).removed flagged
      have after : Consistent (s.bp.modify i Breakpoint2.markRemoved) := by
        refine consistent.of_modify visible rfl rfl rfl rfl nofun
          (.of_not_installed rfl rfl fun enabled => ?_)
        have kept := (consistent.flags i).kept enabled
        rw [flagged] at kept
        cases kept
      rw [removeEntry_of_flagged flagged]
      refine ⟨⟨after, updating.mirrors.clear consistent there, updating.running⟩, fun j => ?_⟩
      rw [modify_peek_eq visible]
      split
      next here => simp [here, removed, flagged]
      next elsewhere => rfl

theorem enabled_of_waits {entry : Breakpoint2} (waits : entry.waits = true) :
    entry.enabled = true := by
  by_contra disabled
  simp [Breakpoint2.waits, Breakpoint2.waitsForData, Breakpoint2.waitsForCode, disabled] at waits

theorem markAdded_bpnum (visible : Visible bp i) (j : Nat) :
    ((bp.modify i Breakpoint2.markAdded).peek j).bpnum = (bp.peek j).bpnum := by
  rw [modify_peek_eq visible]
  split <;> rfl

theorem markAdded_waits (visible : Visible bp i) {j : Nat}
    (waits : ((bp.modify i Breakpoint2.markAdded).peek j).waits = true) :
    j ≠ i ∧ (bp.peek j).waits = true := by
  rw [modify_peek_eq visible] at waits
  split at waits
  next same =>
    simp [Breakpoint2.waits, Breakpoint2.waitsForData, Breakpoint2.waitsForCode,
      Breakpoint2.markAdded] at waits
  next different => exact ⟨different, waits⟩

theorem markAdded_known (visible : Visible bp i) (waits : (bp.peek i).waits = true) {j : Nat}
    (either : ((bp.modify i Breakpoint2.markAdded).peek j).waits = true ∨
      ((bp.modify i Breakpoint2.markAdded).peek j).icestatus = true) :
    (bp.peek j).waits = true ∨ (bp.peek j).icestatus = true := by
  rw [modify_peek_eq visible] at either
  split at either
  next same => exact .inl (same ▸ waits)
  next different => exact either

theorem Consistent.markAdded (consistent : Consistent bp) (ready : Ready bp)
    (visible : Visible bp i) (waits : (bp.peek i).waits = true) :
    Consistent (bp.modify i Breakpoint2.markAdded) := by
  have here : ∀ j, (bp.modify i Breakpoint2.markAdded).peek j = _ := modify_peek_eq visible
  refine consistent.of_entries ?frame ?blank ?flags ?distinct
  case frame =>
    intro j
    rw [here]
    split <;> exact ⟨rfl, rfl, rfl⟩
  case blank =>
    intro j outside
    rw [here, if_neg fun same : j = i => outside (same ▸ visible)]
  case flags =>
    have enabled := enabled_of_waits waits
    intro j _
    rw [here]
    split
    next same =>
      subst same
      constructor
      · exact (consistent.flags j).kept
      · exact fun _ => rfl
      · exact fun _ => .inl enabled
      · exact fun _ missing => absurd missing Bool.noConfusion
      · exact fun flagged => absurd flagged Bool.false_ne_true
      · exact fun _ => ready.software j visible waits
      · exact fun _ => ready.even j visible waits
    next different => exact consistent.flags j
  case distinct =>
    intro j k visibleJ visibleK thereJ thereK same
    have knownJ := markAdded_known visible waits (.inr thereJ)
    have knownK := markAdded_known visible waits (.inr thereK)
    rw [markAdded_bpnum visible, markAdded_bpnum visible] at same
    rw [markAdded_bpnum visible]
    by_cases waitsJ : (bp.peek j).waits = true
    · exact ready.apart j k visibleJ visibleK waitsJ knownK same
    · have installedJ := knownJ.resolve_left waitsJ
      by_cases waitsK : (bp.peek k).waits = true
      · rw [same]
        exact (ready.apart k j visibleK visibleJ waitsK (.inr installedJ) same.symm).imp
          Eq.symm id
      · exact consistent.distinct j k installedJ (knownK.resolve_left waitsK) same

theorem Ready.markAdded (ready : Ready bp) (visible : Visible bp i)
    (waits : (bp.peek i).waits = true) : Ready (bp.modify i Breakpoint2.markAdded) := by
  have sameVisible : ∀ j, Visible (bp.modify i Breakpoint2.markAdded) j ↔ Visible bp j :=
    visible_modify rfl
  constructor
  · intro j visibleJ waitsJ
    obtain ⟨different, before⟩ := markAdded_waits visible waitsJ
    rw [modify_peek_eq visible, if_neg different]
    exact ready.software j ((sameVisible j).mp visibleJ) before
  · intro j visibleJ waitsJ
    obtain ⟨different, before⟩ := markAdded_waits visible waitsJ
    rw [modify_peek_eq visible, if_neg different]
    exact ready.even j ((sameVisible j).mp visibleJ) before
  · intro j k visibleJ visibleK waitsJ either
    rw [markAdded_bpnum visible, markAdded_bpnum visible]
    exact ready.apart j k ((sameVisible j).mp visibleJ) ((sameVisible k).mp visibleK)
      (markAdded_waits visible waitsJ).2 (markAdded_known visible waits either)

theorem downloadEntry_step {s : UpdateState Mk2Ice} {i : Nat} (updating : Updating s)
    (ready : Ready s.bp) (visible : Visible s.bp i) :
    (downloadEntry Mk2Ice.execute i s).Meets
      (fun after => (Updating after ∧ Ready after.bp) ∧ ∀ j, after.bp.peek j =
        if j = i then downloaded (s.bp.peek j) else s.bp.peek j) fun _ => False := by
  have consistent := updating.consistent
  cases wanted : (s.bp.peek i).toadd && (s.bp.peek i).enabled with
  | false =>
      have idle : downloadEntry Mk2Ice.execute i s = .next s := by
        unfold downloadEntry
        simp only [wanted, Bool.false_eq_true, if_false]
      rw [idle]
      refine ⟨⟨updating, ready⟩, fun j => ?_⟩
      split
      next here => rw [here, downloaded, wanted, if_neg Bool.false_ne_true]
      next elsewhere => rfl
  | true =>
      have waits := waits_of_toadd consistent visible wanted
      have absent := (consistent.flags i).fresh (Bool.and_eq_true_iff.mp wanted).1
      obtain ⟨content, chosen, _, code, _⟩ := setBreak_plain (consistent.plain i visible)
      have free : ∀ j, (s.bp.peek j).icestatus = true →
          (s.bp.peek i).bpnum = (s.bp.peek j).bpnum → (s.bp.peek i).bpnum = 0 := by
        intro j thereJ same
        have visibleJ := consistent.visible_of_icestatus thereJ
        refine (ready.apart i j visible visibleJ waits (.inr thereJ) same).resolve_left ?_
        rintro rfl
        rw [absent] at thereJ
        cases thereJ
      have after := consistent.markAdded ready visible waits
      have mirrors := updating.mirrors.set visible absent chosen
        (fun zero => (code (ready.software i visible waits zero)).1) free
      rw [downloadEntry_of_wanted wanted chosen]
      refine ⟨⟨⟨after, mirrors, updating.running⟩, ready.markAdded visible waits⟩, fun j => ?_⟩
      rw [modify_peek_eq visible]
      split
      next here => rw [here, downloaded, wanted, if_pos rfl]
      next elsewhere => rfl

end Loops

theorem settled (entry : Breakpoint2) :
    (downloaded (removed entry)).toremove = false ∧
      ((downloaded (removed entry)).enabled = true →
        (downloaded (removed entry)).toadd = false) := by
  have idle : (removed entry).toremove = false := by
    cases flagged : entry.toremove <;> simp [removed, flagged]
  unfold downloaded
  cases wanted : (removed entry).toadd && (removed entry).enabled with
  | true => exact ⟨idle, fun _ => rfl⟩
  | false =>
      refine ⟨idle, fun enabled => ?_⟩
      rcases Bool.and_eq_false_iff.mp wanted with unflagged | disabled
      · exact unflagged
      · exact absurd (enabled.symm.trans disabled) Bool.noConfusion

section Update

variable {target : Target} {bp : BreakpointTable} {ice : Mk2Ice}

theorem removeAll_spec {s : UpdateState Mk2Ice} (updating : Updating s) :
    Updating (removeAll Mk2Ice.execute s) ∧
      ∀ j, (removeAll Mk2Ice.execute s).bp.peek j = removed (s.bp.peek j) := by
  obtain ⟨after, entries⟩ := walk_rule UpdateState.bp (fun _ _ => rfl) s removed
    (fun entry => by unfold removed; split <;> rfl) Updating
    (fun i t visible here => removeEntry_step here visible) updating
  refine ⟨after, fun j => (entries j).trans ?_⟩
  split
  · rfl
  next outside =>
    rw [updating.consistent.blank j (Nat.not_lt.mp outside)]
    rfl

theorem downloadAll_spec {s : UpdateState Mk2Ice} (updating : Updating s) (ready : Ready s.bp) :
    Updating (downloadAll Mk2Ice.execute s) ∧
      ∀ j, (downloadAll Mk2Ice.execute s).bp.peek j = downloaded (s.bp.peek j) := by
  obtain ⟨⟨after, _⟩, entries⟩ := walk_rule UpdateState.bp (fun _ _ => rfl) s downloaded
    (fun entry => by unfold downloaded; split <;> rfl) (fun t => Updating t ∧ Ready t.bp)
    (fun i t visible here => downloadEntry_step here.1 here.2 visible) ⟨updating, ready⟩
  refine ⟨after, fun j => (entries j).trans ?_⟩
  split
  · rfl
  next outside =>
    rw [updating.consistent.blank j (Nat.not_lt.mp outside)]
    rfl

def EvenCode (bp : BreakpointTable) : Prop :=
  ∀ i < endIndex bp, (bp.peek i).enabled = true → (bp.peek i).type = .code →
    2 * ((bp.peek i).address / 2) = (bp.peek i).address

instance (bp : BreakpointTable) : Decidable (EvenCode bp) :=
  inferInstanceAs (Decidable (∀ _ < _, _ → _ → _))

theorem ready_of_room (consistent : Consistent bp) (room : HasRoom target bp)
    (even : EvenCode bp) {table : BreakpointTable}
    (entries : ∀ j, table.peek j = removed ((layoutBreakpoints target bp).2.peek j)) :
    Ready table := by
  have single := consistent.noRangesWaiting
  have laidOut := layout_laidOut target single room
  have sameVisible : ∀ j, Visible table j ↔ Visible bp j := by
    intro j
    rw [← (consistent.layout_entries target j).1, Visible, Visible]
    suffices same : endIndex table = endIndex (layoutBreakpoints target bp).2 by rw [same]
    apply endIndex_congr
    intro k
    rw [entries, removed]
    split <;> rfl
  have fields : ∀ j, (table.peek j).enabled = (bp.peek j).enabled ∧
      (table.peek j).address = (bp.peek j).address ∧
      (table.peek j).type = (bp.peek j).type ∧ (table.peek j).waits = (bp.peek j).waits ∧
      (table.peek j).bpnum = ((layoutBreakpoints target bp).2.peek j).bpnum := by
    intro j
    obtain ⟨slot, equal⟩ := (consistent.layout_entries target j).2.1
    rw [entries, equal, removed]
    split <;> exact ⟨rfl, rfl, rfl, rfl, rfl⟩
  -- what is still in the ICE after the removals was stable before the layout
  have stays : ∀ j, (table.peek j).icestatus = true → (bp.peek j).stable = true ∧
      (table.peek j).bpnum = (bp.peek j).bpnum := by
    intro j there
    rw [entries, removed] at there
    split at there
    · cases there
    next unflagged =>
      have kept := (consistent.layout_entries target j).2.2 there
      rw [kept] at there unflagged
      have idle : (bp.peek j).toremove = false := by simpa using unflagged
      have enabled := ((consistent.flags j).installed there).resolve_right (by simp [idle])
      exact ⟨by simp [Breakpoint2.stable, enabled, idle, there], by rw [(fields j).2.2.2.2, kept]⟩
  have slotFree : ∀ j, Visible bp j → (bp.peek j).waits = true →
      (table.peek j).bpnum ∈ freeSlots target bp ∨
        (table.peek j).bpnum = 0 ∧ (bp.peek j).type = .code := by
    intro j visible waits
    rw [(fields j).2.2.2.2]
    rcases Bool.or_eq_true_iff.mp waits with data | code
    · exact .inl (laidOut.data j visible data)
    · refine (laidOut.code j visible code).imp id fun zero => ⟨zero, ?_⟩
      simp only [Breakpoint2.waitsForCode, Bool.and_eq_true, beq_iff_eq] at code
      exact code.2
  constructor
  · intro j visible waits zero
    rw [(fields j).2.2.2.1] at waits
    rw [(fields j).2.2.1]
    rcases slotFree j ((sameVisible j).mp visible) waits with free | software
    · rw [zero] at free
      exact absurd (Finset.mem_Icc.mp (Finset.mem_filter.mp free).1).1 (by decide)
    · exact software.2
  · intro j visible waits isCode
    rw [(fields j).2.2.2.1] at waits
    rw [(fields j).2.2.1] at isCode
    rw [(fields j).2.1]
    exact even j ((sameVisible j).mp visible) (enabled_of_waits waits) isCode
  · intro j k visibleJ visibleK waitsJ either same
    have insideJ := (sameVisible j).mp visibleJ
    have insideK := (sameVisible k).mp visibleK
    rw [(fields j).2.2.2.1] at waitsJ
    rcases either with waitsK | thereK
    · rw [(fields k).2.2.2.1] at waitsK
      rw [(fields j).2.2.2.2, (fields k).2.2.2.2] at same
      rw [(fields j).2.2.2.2]
      exact laidOut.distinct j k insideJ insideK waitsJ waitsK same
    · right
      obtain ⟨stable, slotK⟩ := stays k thereK
      refine ((slotFree j insideJ waitsJ).resolve_left fun free => ?_).1
      exact (Finset.mem_filter.mp free).2.2 k insideK stable (slotK.symm.trans same.symm)

theorem updateBreakpoints_spec (consistent : Consistent bp) (room : HasRoom target bp)
    (mirrors : Mirrors bp ice) (even : EvenCode bp) :
    Updating (updateBreakpoints Mk2Ice.execute target bp ice) ∧
      ∀ j, ((updateBreakpoints Mk2Ice.execute target bp ice).bp.peek j).icestatus =
        ((updateBreakpoints Mk2Ice.execute target bp ice).bp.peek j).enabled := by
  have laidOut := consistent.layout target
  have start : Updating (⟨(layoutBreakpoints target bp).2, ice, false⟩ : UpdateState Mk2Ice) := by
    refine ⟨laidOut, mirrors.congr ?_ ?_, rfl⟩
    · intro j
      obtain ⟨slot, equal⟩ := (consistent.layout_entries target j).2.1
      rw [equal]
      rfl
    · intro j there
      rw [consistent.layout_peek_of_icestatus target there]
      exact ⟨rfl, rfl, rfl⟩
  obtain ⟨cleared, entriesCleared⟩ := removeAll_spec start
  have ready := ready_of_room consistent room even entriesCleared
  obtain ⟨finished, entriesFinished⟩ := downloadAll_spec cleared ready
  have same : updateBreakpoints Mk2Ice.execute target bp ice =
      downloadAll Mk2Ice.execute
        (removeAll Mk2Ice.execute ⟨(layoutBreakpoints target bp).2, ice, false⟩) := by
    unfold updateBreakpoints
    simp [cleared.running]
  rw [same]
  refine ⟨finished, fun j => ?_⟩
  have flags := finished.consistent.flags j
  obtain ⟨idle, added⟩ := settled (((layoutBreakpoints target bp).2).peek j)
  rw [← entriesCleared, ← entriesFinished] at idle added
  rw [Bool.eq_iff_iff]
  constructor
  · intro there
    exact (flags.installed there).resolve_right (by simp [idle])
  · intro enabled
    by_contra absent
    have pending := flags.pending enabled (by simpa using absent)
    rw [added enabled] at pending
    cases pending

end Update

end Avarice.Mk2

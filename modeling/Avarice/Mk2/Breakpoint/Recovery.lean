import Mathlib.Tactic.IntervalCases
import Avarice.Mk2.Breakpoint.Assignment
import Avarice.Mk2.Breakpoint.UpdateSpec

/-!
# Updates that are cut short

An update stops at the first command the ICE refuses.  The flags of an entry are
changed only behind its command, so the table still says what is in the ICE, and
the next update finishes what this one has left.
-/

namespace Avarice.Mk2

open Scan

/-- A device behind the connection, seen as an ICE: it executes the commands it
accepts, and those it refuses change nothing. -/
structure Mk2Ice.Obeys {Ice : Type} (doJtagCommand : BreakCommand → Ice → Bool × Ice)
    (view : Ice → Mk2Ice) : Prop where
  accepted : ∀ command ice, (doJtagCommand command ice).1 = true →
    view (doJtagCommand command ice).2 = (execute command (view ice)).2
  refused : ∀ command ice, (doJtagCommand command ice).1 = false →
    view (doJtagCommand command ice).2 = view ice

def Mk2Ice.Has (ice : Mk2Ice) (entry : Breakpoint2) : Prop :=
  if entry.bpnum = 0 then entry.type = .code ∧ ice.soft (entry.address / 2) = true
  else ∃ content, setBreak entry = some content ∧ ice.slot entry.bpnum = some content

structure Mk2Ice.HoldsExactly (ice : Mk2Ice) (bp : BreakpointTable) (who : Breakpoint2 → Bool) :
    Prop where
  has : ∀ i, Visible bp i → who (bp.peek i) = true → ice.Has (bp.peek i)
  slots : ∀ slot content, ice.slot slot = some content →
    slot ≠ 0 ∧ ∃ i, Visible bp i ∧ who (bp.peek i) = true ∧ (bp.peek i).bpnum = slot
  soft : ∀ word, ice.soft word = true → ∃ i, Visible bp i ∧ who (bp.peek i) = true ∧
    (bp.peek i).bpnum = 0 ∧ (bp.peek i).address / 2 = word

/-- How the flags of an entry in use fit together. -/
structure Breakpoint2.InStep (entry : Breakpoint2) : Prop where
  plain : entry.enabled = true → BpType.plain entry.type = true
  pending : entry.enabled = true → entry.toadd = !entry.icestatus
  kept : entry.icestatus = true → entry.enabled = !entry.toremove
  removed : entry.toremove = true → entry.icestatus = true

/-- The table and the ICE agree. -/
structure Synchronized (bp : BreakpointTable) (ice : Mk2Ice) : Prop where
  flags : ∀ i, Visible bp i → (bp.peek i).InStep
  unique : ∀ i j, Visible bp i → Visible bp j → (bp.peek i).address = (bp.peek j).address →
    (bp.peek i).type = (bp.peek j).type → i = j
  distinct : ∀ i j, Visible bp i → Visible bp j → (bp.peek i).icestatus = true →
    (bp.peek j).icestatus = true → (bp.peek i).bpnum = (bp.peek j).bpnum →
      i = j ∨ (bp.peek i).bpnum = 0
  holds : ice.HoldsExactly bp Breakpoint2.icestatus

/-- A software breakpoint that is to be removed has its flash location for itself. -/
def SeparateLocations (bp : BreakpointTable) : Prop :=
  ∀ i j, Visible bp i → Visible bp j → (bp.peek i).toremove = true →
    (bp.peek j).icestatus = true → (bp.peek i).bpnum = 0 → (bp.peek j).bpnum = 0 →
      (bp.peek i).address / 2 = (bp.peek j).address / 2 → i = j

/-! ## One command -/

section Commands

variable {bp : BreakpointTable} {ice : Mk2Ice} {i : Nat}

theorem Mk2Ice.has_software {entry : Breakpoint2} (software : entry.bpnum = 0) :
    ice.Has entry ↔ entry.type = .code ∧ ice.soft (entry.address / 2) = true := by
  rw [Has, if_pos software]

theorem Mk2Ice.has_hardware {entry : Breakpoint2} (hardware : entry.bpnum ≠ 0) :
    ice.Has entry ↔
      ∃ content, setBreak entry = some content ∧ ice.slot entry.bpnum = some content := by
  rw [Has, if_neg hardware]

theorem Mk2Ice.Has.mono {first second : Mk2Ice} {entry : Breakpoint2} (has : first.Has entry)
    (slot : entry.bpnum ≠ 0 → ∀ content, first.slot entry.bpnum = some content →
      second.slot entry.bpnum = some content)
    (soft : entry.bpnum = 0 → first.soft (entry.address / 2) = true →
      second.soft (entry.address / 2) = true) : second.Has entry := by
  by_cases software : entry.bpnum = 0
  · obtain ⟨isCode, occupied⟩ := (has_software software).mp has
    exact (has_software software).mpr ⟨isCode, soft software occupied⟩
  · obtain ⟨content, chosen, occupied⟩ := (has_hardware software).mp has
    exact (has_hardware software).mpr ⟨content, chosen, slot software content occupied⟩

theorem icestatus_markRemoved (visible : Visible bp i) {j : Nat}
    (there : ((bp.modify i Breakpoint2.markRemoved).peek j).icestatus = true) :
    j ≠ i ∧ (bp.modify i Breakpoint2.markRemoved).peek j = bp.peek j := by
  rw [modify_peek_eq visible] at there ⊢
  split at there
  · cases there
  next different => exact ⟨different, if_neg different⟩

/-- An ICE that has lost the breakpoint of an entry and no other has what the table
says when the entry is marked as removed. -/
theorem Mk2Ice.HoldsExactly.without {after : Mk2Ice}
    (holds : ice.HoldsExactly bp Breakpoint2.icestatus) (visible : Visible bp i)
    (has : ∀ j, j ≠ i → Visible bp j → (bp.peek j).icestatus = true → after.Has (bp.peek j))
    (slots : ∀ slot content, after.slot slot = some content →
      ice.slot slot = some content ∧ (slot = (bp.peek i).bpnum → slot = 0))
    (soft : ∀ word, after.soft word = true →
      ice.soft word = true ∧ ((bp.peek i).bpnum = 0 → word ≠ (bp.peek i).address / 2)) :
    after.HoldsExactly (bp.modify i Breakpoint2.markRemoved) Breakpoint2.icestatus := by
  have sameVisible : ∀ j, Visible (bp.modify i Breakpoint2.markRemoved) j ↔ Visible bp j :=
    visible_modify rfl
  have others : ∀ j, j ≠ i → (bp.modify i Breakpoint2.markRemoved).peek j = bp.peek j :=
    fun j different => CArray.peek_modify_ne _ _ (Ne.symm different)
  constructor
  case has =>
    intro j visibleJ thereJ
    obtain ⟨different, same⟩ := icestatus_markRemoved visible thereJ
    rw [same] at thereJ ⊢
    exact has j different ((sameVisible j).mp visibleJ) thereJ
  case slots =>
    intro slot content occupied
    obtain ⟨before, elsewhere⟩ := slots slot content occupied
    obtain ⟨hardware, j, visibleJ, thereJ, rfl⟩ := holds.slots slot content before
    have different : j ≠ i := fun same => hardware (elsewhere (same ▸ rfl))
    exact ⟨hardware, j, (sameVisible j).mpr visibleJ, by rw [others j different]; exact thereJ,
      by rw [others j different]⟩
  case soft =>
    intro word occupied
    obtain ⟨before, otherWord⟩ := soft word occupied
    obtain ⟨j, visibleJ, thereJ, zero, rfl⟩ := holds.soft word before
    have different : j ≠ i := by
      rintro rfl
      exact otherWord zero rfl
    refine ⟨j, (sameVisible j).mpr visibleJ, ?_⟩
    rw [others j different]
    exact ⟨thereJ, zero, rfl⟩

theorem Synchronized.clear (sync : Synchronized bp ice) (separate : SeparateLocations bp)
    (visible : Visible bp i) (flagged : (bp.peek i).toremove = true) :
    (Mk2Ice.execute (clearCommand (bp.peek i)) ice).2.HoldsExactly
      (bp.modify i Breakpoint2.markRemoved) Breakpoint2.icestatus := by
  have there := (sync.flags i visible).removed flagged
  by_cases software : (bp.peek i).bpnum = 0
  · rw [Mk2Ice.execute_clear_software software]
    refine sync.holds.without visible ?has ?slots ?soft
    case has =>
      intro j different visibleJ thereJ
      refine (sync.holds.has j visibleJ thereJ).mono (fun _ _ => id) fun softwareJ occupied => ?_
      have otherWord : (bp.peek j).address / 2 ≠ (bp.peek i).address / 2 := fun word =>
        different (separate i j visible visibleJ flagged thereJ software softwareJ word.symm).symm
      exact Bool.and_eq_true_iff.mpr ⟨bne_iff_ne.mpr otherWord, occupied⟩
    case slots => exact fun _ _ occupied => ⟨occupied, fun same => same.trans software⟩
    case soft =>
      intro word occupied
      obtain ⟨otherWord, before⟩ := Bool.and_eq_true_iff.mp occupied
      exact ⟨before, fun _ => bne_iff_ne.mp otherWord⟩
  · rw [Mk2Ice.execute_clear_hardware software]
    refine sync.holds.without visible ?has ?slots ?soft
    case has =>
      intro j different visibleJ thereJ
      refine (sync.holds.has j visibleJ thereJ).mono (fun hardware content occupied => ?_)
        fun _ => id
      refine Eq.trans (if_neg fun sameSlot => ?_) occupied
      rcases sync.distinct j i visibleJ visible thereJ there sameSlot with equal | zero
      · exact different equal
      · exact hardware zero
    case slots =>
      intro slot content occupied
      have otherSlot : slot ≠ (bp.peek i).bpnum := fun same => by simp [same] at occupied
      simp only [if_neg otherSlot] at occupied
      exact ⟨occupied, fun same => absurd same otherSlot⟩
    case soft => exact fun _ occupied => ⟨occupied, fun zero => absurd zero software⟩

theorem Synchronized.set (sync : Synchronized bp ice) (visible : Visible bp i)
    {content : IceBreakpoint} (chosen : setBreak (bp.peek i) = some content)
    (code : (bp.peek i).bpnum = 0 →
      (bp.peek i).type = .code ∧ content.address = (bp.peek i).address / 2)
    (free : ∀ j, Visible bp j → (bp.peek j).icestatus = true →
      (bp.peek j).bpnum = (bp.peek i).bpnum → (bp.peek i).bpnum = 0) :
    (Mk2Ice.execute (.setBreak (bp.peek i).bpnum content) ice).2.HoldsExactly
      (bp.modify i Breakpoint2.markAdded) Breakpoint2.icestatus := by
  have sameVisible : ∀ j, Visible (bp.modify i Breakpoint2.markAdded) j ↔ Visible bp j :=
    visible_modify rfl
  have entries : ∀ j, (bp.modify i Breakpoint2.markAdded).peek j = _ := modify_peek_eq visible
  have slots : ∀ j, ((bp.modify i Breakpoint2.markAdded).peek j).bpnum = (bp.peek j).bpnum ∧
      ((bp.modify i Breakpoint2.markAdded).peek j).address = (bp.peek j).address := by
    intro j
    rw [entries]
    split <;> exact ⟨rfl, rfl⟩
  have added : ((bp.modify i Breakpoint2.markAdded).peek i).icestatus = true := by
    rw [entries, if_pos rfl]
    rfl
  have stays : ∀ {j}, (bp.peek j).icestatus = true →
      ((bp.modify i Breakpoint2.markAdded).peek j).icestatus = true := by
    intro j there
    rw [entries]
    split
    · rfl
    · exact there
  by_cases software : (bp.peek i).bpnum = 0
  · rw [Mk2Ice.execute_set_software software]
    constructor
    case has =>
      intro j visibleJ thereJ
      rw [entries] at thereJ ⊢
      split at thereJ
      next here =>
        subst here
        rw [if_pos rfl]
        refine (Mk2Ice.has_software software).mpr
          ⟨(code software).1, Bool.or_eq_true_iff.mpr (.inl ?_)⟩
        exact beq_iff_eq.mpr (code software).2.symm
      next different =>
        rw [if_neg different]
        refine (sync.holds.has j ((sameVisible j).mp visibleJ) thereJ).mono (fun _ _ => id) ?_
        exact fun _ before => Bool.or_eq_true_iff.mpr (.inr before)
    case slots =>
      intro slot content' occupied
      obtain ⟨hardware, j, visibleJ, thereJ, same⟩ := sync.holds.slots slot content' occupied
      exact ⟨hardware, j, (sameVisible j).mpr visibleJ, stays thereJ, (slots j).1.trans same⟩
    case soft =>
      intro word occupied
      rcases Bool.or_eq_true_iff.mp occupied with same | before
      · refine ⟨i, (sameVisible i).mpr visible, added, (slots i).1.trans software, ?_⟩
        rw [(slots i).2, beq_iff_eq.mp same, (code software).2]
      · obtain ⟨j, visibleJ, thereJ, zero, sameWord⟩ := sync.holds.soft word before
        refine ⟨j, (sameVisible j).mpr visibleJ, stays thereJ, (slots j).1.trans zero, ?_⟩
        rw [(slots j).2, sameWord]
  · rw [Mk2Ice.execute_set_hardware software]
    constructor
    case has =>
      intro j visibleJ thereJ
      have before := (sameVisible j).mp visibleJ
      rw [entries] at thereJ ⊢
      split at thereJ
      next here =>
        subst here
        rw [if_pos rfl]
        exact (Mk2Ice.has_hardware software).mpr ⟨content, chosen, if_pos rfl⟩
      next different =>
        rw [if_neg different]
        refine (sync.holds.has j before thereJ).mono (fun _ content occupied => ?_) fun _ => id
        exact Eq.trans (if_neg fun sameSlot => software (free j before thereJ sameSlot)) occupied
    case slots =>
      intro slot content' occupied
      by_cases same : slot = (bp.peek i).bpnum
      · exact same ▸ ⟨software, i, (sameVisible i).mpr visible, added, (slots i).1⟩
      · simp only [if_neg same] at occupied
        obtain ⟨hardware, j, visibleJ, thereJ, held⟩ := sync.holds.slots slot content' occupied
        exact ⟨hardware, j, (sameVisible j).mpr visibleJ, stays thereJ, (slots j).1.trans held⟩
    case soft =>
      intro word occupied
      obtain ⟨j, visibleJ, thereJ, zero, sameWord⟩ := sync.holds.soft word occupied
      refine ⟨j, (sameVisible j).mpr visibleJ, stays thereJ, (slots j).1.trans zero, ?_⟩
      rw [(slots j).2, sameWord]

end Commands

/-! ## The table during an update -/

section Table

variable {target : Target} {bp : BreakpointTable} {ice : Mk2Ice}

theorem Breakpoint2.InStep.absent_of_waits {entry : Breakpoint2} (flags : entry.InStep)
    (waits : entry.waits = true) : entry.icestatus = false := by
  have enabled := enabled_of_waits waits
  have toadd : entry.toadd = true := by
    by_contra idle
    simp [Breakpoint2.waits, Breakpoint2.waitsForData, Breakpoint2.waitsForCode, idle] at waits
  simpa [toadd] using flags.pending enabled

theorem Breakpoint2.InStep.waits_or_stable {entry : Breakpoint2} (flags : entry.InStep)
    (enabled : entry.enabled = true) : entry.waits = true ∨ entry.stable = true := by
  have pending := flags.pending enabled
  cases there : entry.icestatus with
  | true =>
      right
      have idle : entry.toremove = false := by simpa [enabled] using (flags.kept there).symm
      simp [Breakpoint2.stable, enabled, idle, there]
  | false =>
      left
      have toadd : entry.toadd = true := by simpa [there] using pending
      by_cases isCode : entry.type = .code
      · simp [Breakpoint2.waits, Breakpoint2.waitsForCode, enabled, toadd, isCode]
      · have data := BpType.data_of_plain (flags.plain enabled) isCode
        simp [Breakpoint2.waits, Breakpoint2.waitsForData, enabled, toadd, data]

variable (sync : Synchronized bp ice)
include sync

theorem Synchronized.noRangesWaiting : NoRangesWaiting bp := fun i visible data =>
  BpType.not_masked_of_plain ((sync.flags i visible).plain
    (enabled_of_waits (Bool.or_eq_true_iff.mpr (.inl data))))

theorem Synchronized.layoutInput : LayoutInput bp where
  distinct i j visibleI visibleJ stableI stableJ same := by
    simp only [Breakpoint2.stable, Bool.and_eq_true] at stableI stableJ
    exact sync.distinct i j visibleI visibleJ stableI.2 stableJ.2 same
  fresh i visible enabled toadd := by
    simpa [toadd] using (sync.flags i visible).pending enabled
  masks := ownMasks_of_single sync.noRangesWaiting

theorem Synchronized.of_modify {i : Nat} {change : Breakpoint2 → Breakpoint2} {after : Mk2Ice}
    (visible : Visible bp i)
    (frame : ∀ entry, (change entry).last = entry.last ∧ (change entry).address = entry.address ∧
      (change entry).type = entry.type ∧ (change entry).bpnum = entry.bpnum)
    (flags : (change (bp.peek i)).InStep)
    (distinct : (change (bp.peek i)).icestatus = true → ∀ j, Visible bp j →
      (bp.peek j).icestatus = true → (bp.peek j).bpnum = (bp.peek i).bpnum →
        j = i ∨ (bp.peek i).bpnum = 0)
    (holds : after.HoldsExactly (bp.modify i change) Breakpoint2.icestatus) :
    Synchronized (bp.modify i change) after := by
  have entries : ∀ j, (bp.modify i change).peek j = _ := modify_peek_eq visible
  have sameVisible : ∀ j, Visible (bp.modify i change) j ↔ Visible bp j :=
    visible_modify (frame _).1
  have fields : ∀ j, ((bp.modify i change).peek j).address = (bp.peek j).address ∧
      ((bp.modify i change).peek j).type = (bp.peek j).type ∧
      ((bp.modify i change).peek j).bpnum = (bp.peek j).bpnum := by
    intro j
    rw [entries]
    split
    · exact (frame _).2
    · exact ⟨rfl, rfl, rfl⟩
  constructor
  case flags =>
    intro j visibleJ
    rw [entries]
    split
    next here => exact here ▸ flags
    next => exact sync.flags j ((sameVisible j).mp visibleJ)
  case unique =>
    intro j k visibleJ visibleK address type
    rw [(fields j).1, (fields k).1] at address
    rw [(fields j).2.1, (fields k).2.1] at type
    exact sync.unique j k ((sameVisible j).mp visibleJ) ((sameVisible k).mp visibleK) address type
  case distinct =>
    intro j k visibleJ visibleK thereJ thereK same
    have beforeJ := (sameVisible j).mp visibleJ
    have beforeK := (sameVisible k).mp visibleK
    simp only [(fields j).2.2, (fields k).2.2] at same ⊢
    rw [entries] at thereJ thereK
    split at thereJ <;> split at thereK
    next hereJ hereK => exact .inl (hereJ.trans hereK.symm)
    next hereJ _ =>
      subst hereJ
      exact (distinct thereJ k beforeK thereK same.symm).imp Eq.symm id
    next _ hereK =>
      subst hereK
      rw [same]
      exact distinct thereK j beforeJ thereJ same
    next => exact sync.distinct j k beforeJ beforeK thereJ thereK same
  case holds => exact holds

omit sync in
theorem Assignment.of_fewer {after : BreakpointTable} {slot : Nat → Nat} (input : LayoutInput bp)
    (single : NoRangesWaiting bp) (single' : NoRangesWaiting after)
    (assignment : Assignment target bp slot)
    (fewer : ∀ i, Visible after i → Visible bp i ∧ (after.peek i).bpnum = slot i ∧
      (after.peek i).type = (bp.peek i).type ∧
      ((after.peek i).waits = true → (bp.peek i).waits = true) ∧
      ((after.peek i).stable = true → (bp.peek i).stable = true ∨ (bp.peek i).waits = true)) :
    Assignment target after fun i => (after.peek i).bpnum := by
  have held : ∀ i, HoldsSlot after i → HoldsSlot bp i := by
    intro i holds
    obtain ⟨visible, either⟩ := (holdsSlot_iff_of_single single').mp holds
    obtain ⟨before, _, _, waits, stable⟩ := fewer i visible
    exact (holdsSlot_iff_of_single single).mpr ⟨before, either.elim stable fun w => .inr (waits w)⟩
  have data : ∀ i, Visible after i → (after.peek i).waitsForData = true →
      (bp.peek i).waitsForData = true := by
    intro i visible data
    obtain ⟨_, _, type, waits, _⟩ := fewer i visible
    have before := waits (Bool.or_eq_true_iff.mpr (.inl data))
    refine (Bool.or_eq_true_iff.mp before).resolve_right fun code => ?_
    have watches := Breakpoint2.type_of_waitsForData data
    simp only [Breakpoint2.waitsForCode, Bool.and_eq_true, beq_iff_eq] at code
    rw [type, code.2] at watches
    exact absurd watches (by decide)
  constructor
  case kept => exact fun _ _ _ => rfl
  case code =>
    intro i visible code
    obtain ⟨before, given, type, waits, _⟩ := fewer i visible
    have waited := waits (Bool.or_eq_true_iff.mpr (.inr code))
    have isCode : (bp.peek i).waitsForCode = true := by
      refine (Bool.or_eq_true_iff.mp waited).resolve_left fun data => ?_
      have watches := Breakpoint2.type_of_waitsForData data
      simp only [Breakpoint2.waitsForCode, Bool.and_eq_true, beq_iff_eq] at code
      rw [← type, code.2] at watches
      exact absurd watches (by decide)
    simpa only [given] using assignment.code i before isCode
  case data =>
    intro i visible waits unmasked
    obtain ⟨before, given, type, _, _⟩ := fewer i visible
    rw [type] at unmasked
    simpa only [given] using assignment.data i before (data i visible waits) unmasked
  case range =>
    intro i visible pair
    exact absurd (pair.symm.trans (noPairs single' visible)) Bool.noConfusion
  case distinct =>
    intro i j holdsI holdsJ same
    have slotI := (fewer i ((holdsSlot_iff_of_single single').mp holdsI).1).2.1
    have slotJ := (fewer j ((holdsSlot_iff_of_single single').mp holdsJ).1).2.1
    simp only [slotI, slotJ] at same ⊢
    exact assignment.distinct i j (held i holdsI) (held j holdsJ) same
  case debugWire =>
    intro wired i holds unstable
    obtain ⟨visible, either⟩ := (holdsSlot_iff_of_single single').mp holds
    obtain ⟨before, given, _, waits, _⟩ := fewer i visible
    have waited : (bp.peek i).waits = true := by
      refine waits (either.resolve_left fun stable => ?_)
      rw [unstable] at stable
      cases stable
    have toadd : (bp.peek i).toadd = true := by
      rcases Bool.or_eq_true_iff.mp waited with data | code
      · exact toadd_of_data data
      · exact toadd_of_code code
    simpa only [given] using assignment.debugWire wired i (held i holds)
      (input.not_stable before toadd)

omit sync in
theorem Assignment.of_modify {i : Nat} {change : Breakpoint2 → Breakpoint2}
    (assignment : Assignment target bp fun j => (bp.peek j).bpnum) (input : LayoutInput bp)
    (single : NoRangesWaiting bp) (single' : NoRangesWaiting (bp.modify i change))
    (visible : Visible bp i)
    (frame : ∀ entry, (change entry).last = entry.last ∧ (change entry).address = entry.address ∧
      (change entry).type = entry.type ∧ (change entry).bpnum = entry.bpnum)
    (waits : (change (bp.peek i)).waits = true → (bp.peek i).waits = true)
    (stable : (change (bp.peek i)).stable = true →
      (bp.peek i).stable = true ∨ (bp.peek i).waits = true) :
    Assignment target (bp.modify i change) fun j => ((bp.modify i change).peek j).bpnum := by
  refine assignment.of_fewer input single single' fun j visibleJ => ?_
  refine ⟨(visible_modify (frame _).1 j).mp visibleJ, ?_⟩
  rw [modify_peek_eq visible]
  split
  next here =>
    subst here
    exact ⟨(frame _).2.2.2, (frame _).2.2.1, waits, stable⟩
  next => exact ⟨rfl, rfl, id, .inl⟩

end Table

/-! ## The loops -/

/-- The requests an entry stands for are not changed by an update. -/
def SameRequests (before after : BreakpointTable) : Prop :=
  ∀ j, (after.peek j).last = (before.peek j).last ∧
    (after.peek j).enabled = (before.peek j).enabled ∧
    (after.peek j).address = (before.peek j).address ∧ (after.peek j).type = (before.peek j).type

theorem SameRequests.endIndex {before after : BreakpointTable} (same : SameRequests before after) :
    endIndex after = endIndex before :=
  endIndex_congr fun j => (same j).1

theorem SameRequests.visible {before after : BreakpointTable} (same : SameRequests before after)
    {j : Nat} : Visible after j ↔ Visible before j := by
  rw [Visible, same.endIndex, Visible]

theorem SameRequests.trans {first second third : BreakpointTable}
    (one : SameRequests first second) (two : SameRequests second third) :
    SameRequests first third := by
  intro j
  obtain ⟨last, enabled, address, type⟩ := one j
  obtain ⟨last', enabled', address', type'⟩ := two j
  exact ⟨last'.trans last, enabled'.trans enabled, address'.trans address, type'.trans type⟩

theorem SameRequests.modify {before after : BreakpointTable} (same : SameRequests before after)
    {change : Breakpoint2 → Breakpoint2}
    (frame : ∀ entry, (change entry).last = entry.last ∧ (change entry).enabled = entry.enabled ∧
      (change entry).address = entry.address ∧ (change entry).type = entry.type) (i : Nat) :
    SameRequests before (after.modify i change) := by
  intro j
  rw [CArray.peek_modify]
  split
  · obtain ⟨last, enabled, address, type⟩ := frame (after.peek j)
    obtain ⟨last', enabled', address', type'⟩ := same j
    exact ⟨last.trans last', enabled.trans enabled', address.trans address', type.trans type'⟩
  · exact same j

section Loops

variable {Ice : Type} (doJtagCommand : BreakCommand → Ice → Bool × Ice) (view : Ice → Mk2Ice)
  (target : Target) (start : BreakpointTable)

/-- What holds after every command of an update. -/
structure Underway (s : UpdateState Ice) : Prop where
  sync : Synchronized s.bp (view s.ice)
  separate : SeparateLocations s.bp
  seated : Assignment target s.bp fun i => (s.bp.peek i).bpnum
  same : SameRequests start s.bp
  /-- Only a refused command ends an update early. -/
  reason : s.thrown = true → ∃ command ice, (doJtagCommand command ice).1 = false

variable {doJtagCommand view target start} {s : UpdateState Ice} {i : Nat}

theorem Underway.refuse (obeys : Mk2Ice.Obeys doJtagCommand view)
    (underway : Underway doJtagCommand view target start s) {command : BreakCommand}
    (refused : (doJtagCommand command s.ice).1 = false) :
    Underway doJtagCommand view target start
      { s with ice := (doJtagCommand command s.ice).2, thrown := true } := by
  refine ⟨?_, underway.separate, underway.seated, underway.same, fun _ => ⟨_, _, refused⟩⟩
  rw [obeys.refused command s.ice refused]
  exact underway.sync

theorem SeparateLocations.markRemoved {bp : BreakpointTable} (separate : SeparateLocations bp)
    (visible : Visible bp i) : SeparateLocations (bp.modify i Breakpoint2.markRemoved) := by
  have sameVisible : ∀ j, Visible (bp.modify i Breakpoint2.markRemoved) j ↔ Visible bp j :=
    visible_modify rfl
  intro j k visibleJ visibleK flagged there softwareJ softwareK word
  have sameJ : (bp.modify i Breakpoint2.markRemoved).peek j = bp.peek j := by
    rw [modify_peek_eq visible] at flagged ⊢
    split at flagged
    · cases flagged
    next different => exact if_neg different
  obtain ⟨_, sameK⟩ := icestatus_markRemoved visible there
  rw [sameJ] at flagged softwareJ word
  rw [sameK] at there softwareK word
  exact separate j k ((sameVisible j).mp visibleJ) ((sameVisible k).mp visibleK) flagged there
    softwareJ softwareK word

theorem SeparateLocations.of_idle {bp : BreakpointTable}
    (idle : ∀ j, Visible bp j → (bp.peek j).toremove = false) : SeparateLocations bp := by
  intro j _ visible _ flagged
  rw [idle j visible] at flagged
  cases flagged

theorem Underway.remove (obeys : Mk2Ice.Obeys doJtagCommand view)
    (underway : Underway doJtagCommand view target start s) (visible : Visible s.bp i)
    (flagged : (s.bp.peek i).toremove = true)
    (accepted : (doJtagCommand (clearCommand (s.bp.peek i)) s.ice).1 = true) :
    Underway doJtagCommand view target start
      { s with
        ice := (doJtagCommand (clearCommand (s.bp.peek i)) s.ice).2
        bp := s.bp.modify i Breakpoint2.markRemoved } := by
  obtain ⟨sync, separate, seated, same, reason⟩ := underway
  have flags := sync.flags i visible
  have there := flags.removed flagged
  have disabled : (s.bp.peek i).enabled = false := by simpa [flagged] using flags.kept there
  have cleared := sync.clear separate visible flagged
  rw [← obeys.accepted _ _ accepted] at cleared
  have after : Synchronized (s.bp.modify i Breakpoint2.markRemoved)
      (view (doJtagCommand (clearCommand (s.bp.peek i)) s.ice).2) := by
    refine sync.of_modify visible (fun _ => ⟨rfl, rfl, rfl, rfl⟩) ?_ nofun cleared
    exact ⟨fun enabled => absurd (enabled.symm.trans disabled) Bool.noConfusion,
      fun enabled => absurd (enabled.symm.trans disabled) Bool.noConfusion, nofun, nofun⟩
  refine ⟨after, separate.markRemoved visible, ?_,
    @SameRequests.modify _ _ same Breakpoint2.markRemoved (fun _ => ⟨rfl, rfl, rfl, rfl⟩) i, reason⟩
  apply seated.of_modify sync.layoutInput sync.noRangesWaiting after.noRangesWaiting visible
    fun _ => ⟨rfl, rfl, rfl, rfl⟩
  · simp [Breakpoint2.waits, Breakpoint2.waitsForData, Breakpoint2.waitsForCode, disabled]
  · simp [Breakpoint2.stable, disabled]

theorem Underway.download (obeys : Mk2Ice.Obeys doJtagCommand view)
    (underway : Underway doJtagCommand view target start s) (visible : Visible s.bp i)
    (waits : (s.bp.peek i).waits = true)
    (idle : ∀ j, Visible s.bp j → (s.bp.peek j).toremove = false) {content : IceBreakpoint}
    (chosen : setBreak (s.bp.peek i) = some content)
    (accepted : (doJtagCommand (.setBreak (s.bp.peek i).bpnum content) s.ice).1 = true) :
    Underway doJtagCommand view target start
      { s with
        ice := (doJtagCommand (.setBreak (s.bp.peek i).bpnum content) s.ice).2
        bp := s.bp.modify i Breakpoint2.markAdded } := by
  obtain ⟨sync, _, seated, same, reason⟩ := underway
  have enabled := enabled_of_waits waits
  have flags := sync.flags i visible
  have holder : HoldsSlot s.bp i :=
    (holdsSlot_iff_of_single sync.noRangesWaiting).mpr ⟨visible, .inr waits⟩
  have free : ∀ j, Visible s.bp j → (s.bp.peek j).icestatus = true →
      (s.bp.peek j).bpnum = (s.bp.peek i).bpnum → (s.bp.peek i).bpnum = 0 := by
    intro j visibleJ there sameSlot
    have kept := (sync.flags j visibleJ).kept there
    have stable : (s.bp.peek j).stable = true := by
      simp [Breakpoint2.stable, there, idle j visibleJ, kept]
    have holderJ : HoldsSlot s.bp j := .inl ⟨visibleJ, .inl stable⟩
    refine (seated.distinct i j holder holderJ sameSlot.symm).resolve_left ?_
    rintro rfl
    rw [flags.absent_of_waits waits] at there
    cases there
  have software : (s.bp.peek i).bpnum = 0 → (s.bp.peek i).type = .code := by
    intro zero
    rcases Bool.or_eq_true_iff.mp waits with data | code
    · have unmasked := sync.noRangesWaiting i visible data
      rcases seated.data i visible data unmasked with slot | slot
      · exact absurd (zero.symm.trans slot) (by decide)
      · exact absurd (zero.symm.trans slot) (by decide)
    · simp only [Breakpoint2.waitsForCode, Bool.and_eq_true, beq_iff_eq] at code
      exact code.2
  obtain ⟨content', chosen', _, codeAddress, _⟩ := setBreak_plain (flags.plain enabled)
  obtain rfl := Option.some.inj (chosen.symm.trans chosen')
  have added := sync.set visible chosen
    (fun zero => ⟨software zero, (codeAddress (software zero)).1⟩) free
  rw [← obeys.accepted _ _ accepted] at added
  have after : Synchronized (s.bp.modify i Breakpoint2.markAdded)
      (view (doJtagCommand (.setBreak (s.bp.peek i).bpnum content) s.ice).2) := by
    refine sync.of_modify visible (fun _ => ⟨rfl, rfl, rfl, rfl⟩) ?_
      (fun _ j visibleJ there sameSlot => .inr (free j visibleJ there sameSlot)) added
    refine ⟨flags.plain, fun _ => rfl, fun _ => ?_, fun _ => rfl⟩
    simp [enabled, idle i visible]
  refine ⟨after, .of_idle fun j visibleJ => ?_, ?_,
    @SameRequests.modify _ _ same Breakpoint2.markAdded (fun _ => ⟨rfl, rfl, rfl, rfl⟩) i, reason⟩
  · have before := (visible_modify rfl j).mp visibleJ
    rw [modify_peek_eq visible]
    split <;> exact idle j before
  · exact seated.of_modify sync.layoutInput sync.noRangesWaiting after.noRangesWaiting visible
      (fun _ => ⟨rfl, rfl, rfl, rfl⟩) (fun _ => waits) fun _ => .inr waits

/-! What one turn of each loop does. -/

theorem removeEntry_of_idle (idle : (s.bp.peek i).toremove = false) :
    removeEntry doJtagCommand i s = .next s := by
  simp [removeEntry, idle]

theorem removeEntry_of_refused (flagged : (s.bp.peek i).toremove = true)
    (refused : (doJtagCommand (clearCommand (s.bp.peek i)) s.ice).1 = false) :
    removeEntry doJtagCommand i s = .leave
      { s with ice := (doJtagCommand (clearCommand (s.bp.peek i)) s.ice).2, thrown := true } := by
  simp only [removeEntry, flagged, if_true]
  rcases outcome : doJtagCommand (clearCommand (s.bp.peek i)) s.ice with ⟨_ | _, ice⟩
  · rfl
  · rw [outcome] at refused
    cases refused

theorem removeEntry_of_accepted (flagged : (s.bp.peek i).toremove = true)
    (accepted : (doJtagCommand (clearCommand (s.bp.peek i)) s.ice).1 = true) :
    removeEntry doJtagCommand i s = .next
      { s with
        ice := (doJtagCommand (clearCommand (s.bp.peek i)) s.ice).2
        bp := s.bp.modify i Breakpoint2.markRemoved } := by
  simp only [removeEntry, flagged, if_true]
  rcases outcome : doJtagCommand (clearCommand (s.bp.peek i)) s.ice with ⟨_ | _, ice⟩
  · rw [outcome] at accepted
    cases accepted
  · rfl

theorem downloadEntry_of_idle (idle : ((s.bp.peek i).toadd && (s.bp.peek i).enabled) = false) :
    downloadEntry doJtagCommand i s = .next s := by
  simp [downloadEntry, idle]

theorem downloadEntry_of_refused {content : IceBreakpoint}
    (wanted : ((s.bp.peek i).toadd && (s.bp.peek i).enabled) = true)
    (chosen : setBreak (s.bp.peek i) = some content)
    (refused : (doJtagCommand (.setBreak (s.bp.peek i).bpnum content) s.ice).1 = false) :
    downloadEntry doJtagCommand i s = .leave
      { s with
        ice := (doJtagCommand (.setBreak (s.bp.peek i).bpnum content) s.ice).2
        thrown := true } := by
  simp only [downloadEntry, wanted, chosen, if_true]
  rcases outcome : doJtagCommand (.setBreak (s.bp.peek i).bpnum content) s.ice with ⟨_ | _, ice⟩
  · rfl
  · rw [outcome] at refused
    cases refused

theorem downloadEntry_of_accepted {content : IceBreakpoint}
    (wanted : ((s.bp.peek i).toadd && (s.bp.peek i).enabled) = true)
    (chosen : setBreak (s.bp.peek i) = some content)
    (accepted : (doJtagCommand (.setBreak (s.bp.peek i).bpnum content) s.ice).1 = true) :
    downloadEntry doJtagCommand i s = .next
      { s with
        ice := (doJtagCommand (.setBreak (s.bp.peek i).bpnum content) s.ice).2
        bp := s.bp.modify i Breakpoint2.markAdded } := by
  simp only [downloadEntry, wanted, chosen, if_true]
  rcases outcome : doJtagCommand (.setBreak (s.bp.peek i).bpnum content) s.ice with ⟨_ | _, ice⟩
  · rw [outcome] at accepted
    cases accepted
  · rfl

theorem removeAll_underway (obeys : Mk2Ice.Obeys doJtagCommand view)
    (underway : Underway doJtagCommand view target start s) (running : s.thrown = false) :
    Underway doJtagCommand view target start (removeAll doJtagCommand s) ∧
      ((removeAll doJtagCommand s).thrown = false →
        ∀ j, Visible (removeAll doJtagCommand s).bp j →
          ((removeAll doJtagCommand s).bp.peek j).toremove = false) := by
  refine visit_rule UpdateState.bp (fun _ _ => rfl)
    (fun i t => Underway doJtagCommand view target start t ∧ t.thrown = false ∧
      ∀ j < i, (t.bp.peek j).toremove = false)
    (fun t => Underway doJtagCommand view target start t ∧ (t.thrown = false →
      ∀ j, Visible t.bp j → (t.bp.peek j).toremove = false))
    ?sameEnd ?turned ?finished ⟨underway, running, by simp⟩
  case sameEnd =>
    intro i t here
    rw [here.1.same.endIndex, underway.same.endIndex]
  case turned =>
    rintro i t visible ⟨here, running, earlier⟩
    have visible' : Visible t.bp i := here.same.visible.mpr (underway.same.visible.mp visible)
    cases flagged : (t.bp.peek i).toremove with
    | false =>
        rw [removeEntry_of_idle flagged]
        refine ⟨here, running, fun j before => ?_⟩
        rcases Nat.lt_or_eq_of_le (Nat.le_of_lt_succ before) with less | rfl
        · exact earlier j less
        · exact flagged
    | true =>
        cases answer : (doJtagCommand (clearCommand (t.bp.peek i)) t.ice).1 with
        | false =>
            rw [removeEntry_of_refused flagged answer]
            exact ⟨here.refuse obeys answer, fun impossible => absurd impossible (by simp)⟩
        | true =>
            rw [removeEntry_of_accepted flagged answer]
            refine ⟨here.remove obeys visible' flagged answer, running, fun j before => ?_⟩
            simp only [modify_peek_eq visible']
            split
            · rfl
            next different =>
              exact earlier j (Nat.lt_of_le_of_ne (Nat.le_of_lt_succ before) different)
  case finished =>
    rintro t ⟨here, _, all⟩
    refine ⟨here, fun _ j visible => all j ?_⟩
    exact underway.same.visible.mpr (here.same.visible.mp visible)

theorem downloadAll_underway (obeys : Mk2Ice.Obeys doJtagCommand view)
    (underway : Underway doJtagCommand view target start s) (running : s.thrown = false)
    (idle : ∀ j, Visible s.bp j → (s.bp.peek j).toremove = false) :
    Underway doJtagCommand view target start (downloadAll doJtagCommand s) ∧
      ((downloadAll doJtagCommand s).thrown = false →
        ∀ j, Visible (downloadAll doJtagCommand s).bp j →
          ((downloadAll doJtagCommand s).bp.peek j).icestatus =
            ((downloadAll doJtagCommand s).bp.peek j).enabled) := by
  refine visit_rule UpdateState.bp (fun _ _ => rfl)
    (fun i t => Underway doJtagCommand view target start t ∧ t.thrown = false ∧
      (∀ j, Visible t.bp j → (t.bp.peek j).toremove = false) ∧
      ∀ j < i, (t.bp.peek j).waits = false)
    (fun t => Underway doJtagCommand view target start t ∧ (t.thrown = false →
      ∀ j, Visible t.bp j → (t.bp.peek j).icestatus = (t.bp.peek j).enabled))
    ?sameEnd ?turned ?finished ⟨underway, running, idle, by simp⟩
  case sameEnd =>
    intro i t here
    rw [here.1.same.endIndex, underway.same.endIndex]
  case turned =>
    rintro i t visible ⟨here, running, idle, earlier⟩
    have visible' : Visible t.bp i := here.same.visible.mpr (underway.same.visible.mp visible)
    have flags := here.sync.flags i visible'
    have wanted : ((t.bp.peek i).toadd && (t.bp.peek i).enabled) = (t.bp.peek i).waits := by
      rw [Bool.eq_iff_iff, Bool.and_eq_true]
      constructor
      · rintro ⟨toadd, enabled⟩
        refine (flags.waits_or_stable enabled).resolve_right fun stable => ?_
        simp only [Breakpoint2.stable, Bool.and_eq_true] at stable
        have pending := flags.pending enabled
        rw [toadd, stable.2] at pending
        cases pending
      · intro waits
        have enabled := enabled_of_waits waits
        refine ⟨?_, enabled⟩
        rw [flags.pending enabled, flags.absent_of_waits waits]
        rfl
    cases waits : (t.bp.peek i).waits with
    | false =>
        rw [downloadEntry_of_idle (wanted.trans waits)]
        refine ⟨here, running, idle, fun j before => ?_⟩
        rcases Nat.lt_or_eq_of_le (Nat.le_of_lt_succ before) with less | rfl
        · exact earlier j less
        · exact waits
    | true =>
        obtain ⟨content, chosen, _⟩ := setBreak_plain (flags.plain (enabled_of_waits waits))
        cases answer : (doJtagCommand (.setBreak (t.bp.peek i).bpnum content) t.ice).1 with
        | false =>
            rw [downloadEntry_of_refused (wanted.trans waits) chosen answer]
            exact ⟨here.refuse obeys answer, fun impossible => absurd impossible (by simp)⟩
        | true =>
            rw [downloadEntry_of_accepted (wanted.trans waits) chosen answer]
            refine ⟨here.download obeys visible' waits idle chosen answer, running,
              fun j visibleJ => ?_, fun j before => ?_⟩
            · have before := (visible_modify rfl j).mp visibleJ
              simp only [modify_peek_eq visible']
              split <;> exact idle j before
            · simp only [modify_peek_eq visible']
              split
              · simp [Breakpoint2.waits, Breakpoint2.waitsForData, Breakpoint2.waitsForCode]
              next different =>
                exact earlier j (Nat.lt_of_le_of_ne (Nat.le_of_lt_succ before) different)
  case finished =>
    rintro t ⟨here, _, idle, all⟩
    refine ⟨here, fun _ j visible => ?_⟩
    have flags := here.sync.flags j visible
    have settled := all j (underway.same.visible.mpr (here.same.visible.mp visible))
    rw [Bool.eq_iff_iff]
    constructor
    · intro there
      rw [flags.kept there, idle j visible]
      rfl
    · intro enabled
      rcases flags.waits_or_stable enabled with waits | stable
      · rw [settled] at waits
        cases waits
      · simp only [Breakpoint2.stable, Bool.and_eq_true] at stable
        exact stable.2

theorem Underway.of_layout {bp : BreakpointTable} {ice : Ice} (sync : Synchronized bp (view ice))
    (separate : SeparateLocations bp) (hadroom : (layoutBreakpoints target bp).1 = true) :
    Underway doJtagCommand view target bp
      { bp := (layoutBreakpoints target bp).2, ice, thrown := false } := by
  have single := sync.noRangesWaiting
  have slots := layout_sameButSlots target single
  have same : SameRequests bp (layoutBreakpoints target bp).2 := by
    intro j
    obtain ⟨slot, equal⟩ := slots j
    rw [equal]
    exact ⟨rfl, rfl, rfl, rfl⟩
  have status : ∀ j, ((layoutBreakpoints target bp).2.peek j).icestatus =
      (bp.peek j).icestatus := by
    intro j
    obtain ⟨slot, equal⟩ := slots j
    rw [equal]
    rfl
  have untouched : ∀ j, Visible bp j → (bp.peek j).icestatus = true →
      (layoutBreakpoints target bp).2.peek j = bp.peek j := by
    intro j visible there
    refine layout_untouched target single fun waits => ?_
    rw [(sync.flags j visible).absent_of_waits waits.2] at there
    cases there
  have laidOut : Synchronized (layoutBreakpoints target bp).2 (view ice) := by
    constructor
    case flags =>
      intro j visible
      have flags := sync.flags j (slots.visible.mp visible)
      obtain ⟨slot, equal⟩ := slots j
      rw [equal]
      exact ⟨flags.plain, flags.pending, flags.kept, flags.removed⟩
    case unique =>
      intro j k visibleJ visibleK address type
      rw [(same j).2.2.1, (same k).2.2.1] at address
      rw [(same j).2.2.2, (same k).2.2.2] at type
      exact sync.unique j k (slots.visible.mp visibleJ) (slots.visible.mp visibleK) address type
    case distinct =>
      intro j k visibleJ visibleK thereJ thereK equal
      rw [status] at thereJ thereK
      have beforeJ := slots.visible.mp visibleJ
      have beforeK := slots.visible.mp visibleK
      rw [untouched j beforeJ thereJ] at equal ⊢
      rw [untouched k beforeK thereK] at equal
      exact sync.distinct j k beforeJ beforeK thereJ thereK equal
    case holds =>
      constructor
      case has =>
        intro j visible there
        rw [status] at there
        rw [untouched j (slots.visible.mp visible) there]
        exact sync.holds.has j (slots.visible.mp visible) there
      case slots =>
        intro slot content occupied
        obtain ⟨hardware, j, visible, there, equal⟩ := sync.holds.slots slot content occupied
        refine ⟨hardware, j, slots.visible.mpr visible, ?_⟩
        rw [untouched j visible there]
        exact ⟨there, equal⟩
      case soft =>
        intro word occupied
        obtain ⟨j, visible, there, equal⟩ := sync.holds.soft word occupied
        refine ⟨j, slots.visible.mpr visible, ?_⟩
        rw [untouched j visible there]
        exact ⟨there, equal⟩
  have apart : SeparateLocations (layoutBreakpoints target bp).2 := by
    intro j k visibleJ visibleK flagged there softwareJ softwareK word
    have beforeJ := slots.visible.mp visibleJ
    have beforeK := slots.visible.mp visibleK
    have thereJ := (laidOut.flags j visibleJ).removed flagged
    rw [status] at thereJ there
    rw [untouched j beforeJ thereJ] at flagged softwareJ word
    rw [untouched k beforeK there] at softwareK word
    exact separate j k beforeJ beforeK flagged there softwareJ softwareK word
  refine ⟨laidOut, apart, ?_, same, nofun⟩
  refine (sync.layoutInput.layout_sound hadroom).of_fewer sync.layoutInput single
    laidOut.noRangesWaiting fun j visible => ⟨slots.visible.mp visible, rfl, ?_⟩
  obtain ⟨slot, equal⟩ := slots j
  rw [equal]
  exact ⟨rfl, id, .inl⟩

theorem updateBreakpoints_underway {bp : BreakpointTable} {ice : Ice}
    (obeys : Mk2Ice.Obeys doJtagCommand view) (sync : Synchronized bp (view ice))
    (separate : SeparateLocations bp) (hadroom : (layoutBreakpoints target bp).1 = true) :
    Underway doJtagCommand view target bp (updateBreakpoints doJtagCommand target bp ice) ∧
      ((updateBreakpoints doJtagCommand target bp ice).thrown = false →
        ∀ j, Visible (updateBreakpoints doJtagCommand target bp ice).bp j →
          ((updateBreakpoints doJtagCommand target bp ice).bp.peek j).icestatus =
            ((updateBreakpoints doJtagCommand target bp ice).bp.peek j).enabled) := by
  have start : Underway doJtagCommand view target bp
      { bp := (layoutBreakpoints target bp).2, ice, thrown := false } :=
    .of_layout sync separate hadroom
  obtain ⟨removed, idle⟩ := removeAll_underway obeys start rfl
  unfold updateBreakpoints
  simp only
  split
  next thrown => exact ⟨removed, fun running => absurd (thrown.symm.trans running) (by simp)⟩
  next running =>
    have running := Bool.eq_false_iff.mpr running
    exact downloadAll_underway obeys removed running (idle running)

end Loops

theorem Mk2Ice.HoldsExactly.congr {ice : Mk2Ice} {bp : BreakpointTable}
    {who who' : Breakpoint2 → Bool} (holds : ice.HoldsExactly bp who)
    (same : ∀ j, Visible bp j → who (bp.peek j) = who' (bp.peek j)) :
    ice.HoldsExactly bp who' := by
  constructor
  case has => exact fun j visible chosen => holds.has j visible ((same j visible).trans chosen)
  case slots =>
    intro slot content occupied
    obtain ⟨hardware, j, visible, chosen, equal⟩ := holds.slots slot content occupied
    exact ⟨hardware, j, visible, (same j visible).symm.trans chosen, equal⟩
  case soft =>
    intro word occupied
    obtain ⟨j, visible, chosen, equal⟩ := holds.soft word occupied
    exact ⟨j, visible, (same j visible).symm.trans chosen, equal⟩

/-- Wherever an update is cut short, the table still says what the ICE holds, and
a later update over the same device fails only on a refused command and otherwise
installs exactly the enabled breakpoints. -/
theorem updateBreakpoints_recovers {Ice : Type} {doJtagCommand : BreakCommand → Ice → Bool × Ice}
    {view : Ice → Mk2Ice} (obeys : Mk2Ice.Obeys doJtagCommand view) (target : Target)
    {bp : BreakpointTable} {ice : Ice} (sync : Synchronized bp (view ice))
    (separate : SeparateLocations bp) (hadroom : (layoutBreakpoints target bp).1 = true) :
    let after := updateBreakpoints doJtagCommand target bp ice
    Synchronized after.bp (view after.ice) ∧ SeparateLocations after.bp ∧
      (layoutBreakpoints target after.bp).1 = true ∧ SameRequests bp after.bp ∧
      ∀ later, Mk2Ice.Obeys later view →
        let again := updateBreakpoints later target after.bp after.ice
        (again.thrown = true → ∃ command ice, (later command ice).1 = false) ∧
          (again.thrown = false → SameRequests bp again.bp ∧
            (view again.ice).HoldsExactly again.bp Breakpoint2.enabled) := by
  obtain ⟨first, _⟩ := updateBreakpoints_underway obeys sync separate hadroom
  have room := first.sync.layoutInput.layout_complete first.seated
  refine ⟨first.sync, first.separate, room, first.same, fun later obeys' => ?_⟩
  obtain ⟨second, finished⟩ := updateBreakpoints_underway obeys' first.sync first.separate room
  refine ⟨second.reason, fun running => ⟨first.same.trans second.same, ?_⟩⟩
  exact second.sync.holds.congr (finished running)

/-- The ICE behind a connection that answers as told, and accepts what comes after. -/
def Mk2Ice.answering (command : BreakCommand) :
    Mk2Ice × List Bool → Bool × (Mk2Ice × List Bool)
  | (ice, false :: answers) => (false, ice, answers)
  | (ice, true :: answers) => (true, (execute command ice).2, answers)
  | (ice, []) => (true, (execute command ice).2, [])

theorem Mk2Ice.obeys_answering : Obeys answering Prod.fst where
  accepted := by
    rintro command ⟨ice, _ | ⟨_ | _, answers⟩⟩ accepted
    · rfl
    · cases accepted
    · rfl
  refused := by
    rintro command ⟨ice, _ | ⟨_ | _, answers⟩⟩ refused
    · cases refused
    · rfl
    · cases refused

def oneOfEach (removed : UInt32) : List Breakpoint2 :=
  [{ defaultBp with
      address := 0x100, type := .code, enabled := true, last := false, icestatus := true },
    { defaultBp with
      address := removed, type := .code, last := false, icestatus := true, toremove := true },
    { defaultBp with
      address := 0x200, type := .code, enabled := true, last := false, toadd := true }]

def tableOf (entries : List Breakpoint2) : BreakpointTable :=
  constructedTable.pokeAll 0 entries

theorem tableOf_peek {entries : List Breakpoint2} (inside : entries.length < maxTotalBreakpoints2)
    (j : Nat) : (tableOf entries).peek j = (entries[j]?).getD defaultBp := by
  have within : ∀ i < entries.length, 0 + i < maxTotalBreakpoints2 := fun i less => by omega
  rw [tableOf, CArray.peek_pokeAll _ _ within, if_pos (Nat.zero_le j), Nat.sub_zero,
    constructedTable, CArray.peek_fill]
  split <;> rfl

def iceOfTwo (removed : UInt32) : Mk2Ice where
  slot _ := none
  soft word := word == 0x100 / 2 || word == removed / 2

theorem oneOfEach_synchronized {removed : UInt32} (first : removed ≠ 0x100)
    (last : removed ≠ 0x200) :
    Synchronized (tableOf (oneOfEach removed)) (iceOfTwo removed) := by
  have few : (oneOfEach removed).length < maxTotalBreakpoints2 := (by decide : 3 < 32)
  have entries : ∀ j, (tableOf (oneOfEach removed)).peek j = _ := tableOf_peek few
  have marker : endIndex (tableOf (oneOfEach removed)) = 3 := by
    refine endIndex_eq (by rw [entries]; rfl) (by decide) fun other less => ?_
    rw [entries]
    interval_cases other <;> rfl
  have inside : ∀ {i}, Visible (tableOf (oneOfEach removed)) i ↔ i < 3 := by
    intro i
    rw [Visible, marker]
  constructor
  case flags =>
    intro i visible
    have less := inside.mp visible
    rw [entries]
    interval_cases i <;> constructor <;> intro given <;> first | rfl | cases given
  case unique =>
    intro i j visibleI visibleJ address _
    have lessI := inside.mp visibleI
    have lessJ := inside.mp visibleJ
    rw [entries, entries] at address
    interval_cases i <;> interval_cases j <;> first | rfl | skip
    · exact absurd address.symm first
    · exact absurd (show (0x100 : UInt32) = 0x200 from address) (by decide)
    · exact absurd address first
    · exact absurd address last
    · exact absurd (show (0x200 : UInt32) = 0x100 from address) (by decide)
    · exact absurd address.symm last
  case distinct =>
    intro i j visible _ _ _ _
    have less := inside.mp visible
    rw [entries]
    interval_cases i <;> exact .inr rfl
  case holds =>
    constructor
    case has =>
      intro i visible there
      have less := inside.mp visible
      rw [entries] at there ⊢
      interval_cases i
      · exact ⟨rfl, Bool.or_eq_true_iff.mpr (.inl (beq_self_eq_true _))⟩
      · exact ⟨rfl, Bool.or_eq_true_iff.mpr (.inr (beq_self_eq_true _))⟩
      · cases there
    case slots =>
      intro slot content occupied
      cases occupied
    case soft =>
      intro word occupied
      rcases Bool.or_eq_true_iff.mp occupied with same | same
      · refine ⟨0, inside.mpr (by decide), ?_⟩
        rw [entries]
        exact ⟨rfl, rfl, (beq_iff_eq.mp same).symm⟩
      · refine ⟨1, inside.mpr (by decide), ?_⟩
        rw [entries]
        exact ⟨rfl, rfl, (beq_iff_eq.mp same).symm⟩

theorem updateBreakpoints_recovers_refused :
    let after := updateBreakpoints Mk2Ice.answering ⟨false, 0⟩ (tableOf (oneOfEach 0x300))
      (iceOfTwo 0x300, [true, false])
    after.thrown = true ∧ Synchronized after.bp after.ice.1 := by
  have separate : ∀ i < endIndex (tableOf (oneOfEach 0x300)),
      ∀ j < endIndex (tableOf (oneOfEach 0x300)),
        ((tableOf (oneOfEach 0x300)).peek i).address / 2 =
          ((tableOf (oneOfEach 0x300)).peek j).address / 2 → i = j := by
    decide +kernel
  have room : (layoutBreakpoints ⟨false, 0⟩ (tableOf (oneOfEach 0x300))).1 = true := by
    decide +kernel
  have recovers := @updateBreakpoints_recovers _ _ _ Mk2Ice.obeys_answering ⟨false, 0⟩ _
    (iceOfTwo 0x300, [true, false]) (oneOfEach_synchronized (by decide) (by decide))
    (fun i j visibleI visibleJ _ _ _ _ => separate i visibleI j visibleJ) room
  exact ⟨by decide +kernel, recovers.1⟩

/-- Two code breakpoints in one flash location: with the second the first leaves
the ICE, and no command brings it back. -/
theorem update_sharedLocation :
    let after := updateBreakpoints Mk2Ice.answering ⟨false, 0⟩ (tableOf (oneOfEach 0x101))
      (iceOfTwo 0x101, [true, false])
    Synchronized (tableOf (oneOfEach 0x101)) (iceOfTwo 0x101) ∧
      (layoutBreakpoints ⟨false, 0⟩ (tableOf (oneOfEach 0x101))).1 = true ∧
        after.thrown = true ∧ ¬ Synchronized after.bp after.ice.1 := by
  refine ⟨oneOfEach_synchronized (by decide) (by decide), by decide +kernel, by decide +kernel,
    fun sync => ?_⟩
  have has := sync.holds.has 0 (by decide +kernel) (by decide +kernel)
  rw [Mk2Ice.has_software (by decide +kernel)] at has
  exact absurd has.2 (by decide +kernel)

end Avarice.Mk2

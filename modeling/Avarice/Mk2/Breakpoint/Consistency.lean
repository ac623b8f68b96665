import Avarice.Mk2.Breakpoint.LayoutSpec
import Avarice.Mk2.Breakpoint.Occupancy

/-!
# Consistent tables

What holds of the table between two calls as long as only code breakpoints and
single data watchpoints are asked for: the flags of an entry fit each other,
the entries are told apart by address and type, and no two breakpoints in the
ICE hold the same slot.  The layout preserves all of it.
-/

namespace Avarice.Mk2

/-- The types GDB asks for. -/
def BpType.plain (type : BpType) : Bool :=
  type == .code || type == .writeData || type == .readData || type == .accessData

theorem BpType.not_masked_of_plain {type : BpType} (plain : BpType.plain type = true) :
    BpType.masked type = false := by
  simp only [BpType.plain, Bool.or_eq_true, beq_iff_eq] at plain
  rcases plain with ((isCode | isWrite) | isRead) | isAccess <;> subst type <;> decide

theorem BpType.data_of_plain {type : BpType} (plain : BpType.plain type = true)
    (noCode : type ≠ .code) : BpType.watchesData type = true := by
  simp only [BpType.plain, Bool.or_eq_true, beq_iff_eq] at plain
  rcases plain with ((isCode | isWrite) | isRead) | isAccess
  · exact absurd isCode noCode
  all_goals subst type; decide

structure Breakpoint2.Consistent (entry : Breakpoint2) : Prop where
  kept : entry.enabled = true → entry.toremove = false
  removed : entry.toremove = true → entry.icestatus = true
  installed : entry.icestatus = true → entry.enabled = true ∨ entry.toremove = true
  pending : entry.enabled = true → entry.icestatus = false → entry.toadd = true
  fresh : entry.toadd = true → entry.icestatus = false
  software : entry.icestatus = true → entry.bpnum = 0 → entry.type = .code
  even : entry.icestatus = true → entry.type = .code → 2 * (entry.address / 2) = entry.address

theorem Breakpoint2.Consistent.of_not_installed {entry : Breakpoint2}
    (absent : entry.icestatus = false) (idle : entry.toremove = false)
    (pending : entry.enabled = true → entry.toadd = true) : entry.Consistent where
  kept _ := idle
  removed flagged := by simp [idle] at flagged
  installed there := by simp [absent] at there
  pending enabled _ := pending enabled
  fresh _ := absent
  software there := by simp [absent] at there
  even there := by simp [absent] at there

theorem Breakpoint2.Consistent.default : defaultBp.Consistent :=
  .of_not_installed rfl rfl fun enabled => absurd enabled Bool.false_ne_true

structure Consistent (bp : BreakpointTable) : Prop where
  blank : ∀ i, endIndex bp ≤ i → bp.peek i = defaultBp
  bounded : endIndex bp < maxTotalBreakpoints2
  plain : ∀ i, Visible bp i → BpType.plain (bp.peek i).type = true
  unique : ∀ i j, Visible bp i → Visible bp j → (bp.peek i).address = (bp.peek j).address →
    (bp.peek i).type = (bp.peek j).type → i = j
  flags : ∀ i, (bp.peek i).Consistent
  distinct : ∀ i j, (bp.peek i).icestatus = true → (bp.peek j).icestatus = true →
    (bp.peek i).bpnum = (bp.peek j).bpnum → i = j ∨ (bp.peek i).bpnum = 0

namespace Consistent

theorem constructed : Consistent constructedTable := by
  have entries : ∀ i, constructedTable.peek i = defaultBp := by
    intro i
    rw [constructedTable, CArray.peek_fill]
    split <;> rfl
  have empty : endIndex constructedTable = 0 :=
    endIndex_eq (by rw [entries]; rfl) (Nat.zero_le _) (by simp)
  constructor
  · exact fun i _ => entries i
  · rw [empty]
    decide
  · intro i visible
    simp [Visible, empty] at visible
  · intro i j visible
    simp [Visible, empty] at visible
  · intro i
    rw [entries]
    exact .default
  · intro i j there
    rw [entries] at there
    cases there

variable {bp : BreakpointTable} (consistent : Consistent bp)
include consistent

theorem visible_of_ne {i : Nat} (used : bp.peek i ≠ defaultBp) : Visible bp i := by
  by_contra outside
  exact used (consistent.blank i (Nat.le_of_not_lt outside))

theorem visible_of_icestatus {i : Nat} (there : (bp.peek i).icestatus = true) :
    Visible bp i := by
  refine consistent.visible_of_ne fun blank => ?_
  rw [blank] at there
  cases there

theorem terminated : Terminated bp := by
  have blank : ∀ i, (bp.peek i).last = true → bp.peek i = defaultBp :=
    fun i marked => consistent.blank i (endIndex_le_of_last marked)
  have sentinel : bp.peek 31 = defaultBp :=
    consistent.blank 31 (Nat.le_of_lt_succ consistent.bounded)
  constructor
  · intro i marked
    rw [blank i marked]
    rfl
  all_goals
    rw [sentinel]
    rfl

theorem noRangesWaiting : NoRangesWaiting bp :=
  fun i visible _ => BpType.not_masked_of_plain (consistent.plain i visible)

theorem not_waits_of_icestatus {i : Nat} (there : (bp.peek i).icestatus = true) :
    (bp.peek i).waits = false := by
  have settled : (bp.peek i).toadd = false := by
    by_contra flagged
    rw [(consistent.flags i).fresh (by simpa using flagged)] at there
    cases there
  simp [Breakpoint2.waits, Breakpoint2.waitsForData, Breakpoint2.waitsForCode, settled]

theorem waits_or_stable {i : Nat} (visible : Visible bp i)
    (enabled : (bp.peek i).enabled = true) :
    (bp.peek i).waits = true ∨ (bp.peek i).stable = true := by
  have idle := (consistent.flags i).kept enabled
  cases there : (bp.peek i).icestatus with
  | true =>
      right
      simp [Breakpoint2.stable, enabled, idle, there]
  | false =>
      left
      have flagged := (consistent.flags i).pending enabled there
      by_cases isCode : (bp.peek i).type = .code
      · simp [Breakpoint2.waits, Breakpoint2.waitsForCode, enabled, flagged, isCode]
      · have data := BpType.data_of_plain (consistent.plain i visible) isCode
        simp [Breakpoint2.waits, Breakpoint2.waitsForData, enabled, flagged, data]

theorem of_entries {after : BreakpointTable}
    (frame : ∀ j, (after.peek j).last = (bp.peek j).last ∧
      (after.peek j).address = (bp.peek j).address ∧ (after.peek j).type = (bp.peek j).type)
    (blank : ∀ j, ¬ Visible bp j → after.peek j = bp.peek j)
    (flags : ∀ j, Visible bp j → (after.peek j).Consistent)
    (distinct : ∀ i j, Visible bp i → Visible bp j → (after.peek i).icestatus = true →
      (after.peek j).icestatus = true → (after.peek i).bpnum = (after.peek j).bpnum →
        i = j ∨ (after.peek i).bpnum = 0) :
    Consistent after := by
  have sameEnd : endIndex after = endIndex bp := endIndex_congr fun j => (frame j).1
  have sameVisible : ∀ {j}, Visible after j ↔ Visible bp j := by
    intro j
    rw [Visible, sameEnd, Visible]
  have installed : ∀ {j}, (after.peek j).icestatus = true → Visible bp j := by
    intro j there
    by_contra outside
    rw [blank j outside] at there
    exact outside (consistent.visible_of_icestatus there)
  constructor
  · intro j outside
    rw [sameEnd] at outside
    rw [blank j (Nat.not_lt.mpr outside)]
    exact consistent.blank j outside
  · rw [sameEnd]
    exact consistent.bounded
  · intro j visible
    rw [(frame j).2.2]
    exact consistent.plain j (sameVisible.mp visible)
  · intro i j visibleI visibleJ
    rw [(frame i).2.1, (frame i).2.2, (frame j).2.1, (frame j).2.2]
    exact consistent.unique i j (sameVisible.mp visibleI) (sameVisible.mp visibleJ)
  · intro j
    by_cases visible : Visible bp j
    · exact flags j visible
    · rw [blank j visible]
      exact consistent.flags j
  · intro i j thereI thereJ
    exact distinct i j (installed thereI) (installed thereJ) thereI thereJ

theorem of_modify {i : Nat} {change : Breakpoint2 → Breakpoint2} (visible : Visible bp i)
    (last : (change (bp.peek i)).last = (bp.peek i).last)
    (address : (change (bp.peek i)).address = (bp.peek i).address)
    (type : (change (bp.peek i)).type = (bp.peek i).type)
    (bpnum : (change (bp.peek i)).bpnum = (bp.peek i).bpnum)
    (fewer : (change (bp.peek i)).icestatus = true → (bp.peek i).icestatus = true)
    (flags : (change (bp.peek i)).Consistent) :
    Consistent (bp.modify i change) := by
  have changed : (bp.modify i change).peek i = change (bp.peek i) :=
    CArray.peek_modify_same _ _ (lt_of_visible visible)
  have others : ∀ {j}, j ≠ i → (bp.modify i change).peek j = bp.peek j :=
    fun different => CArray.peek_modify_ne _ _ (Ne.symm different)
  have slots : ∀ j, ((bp.modify i change).peek j).bpnum = (bp.peek j).bpnum := by
    intro j
    by_cases here : j = i
    · rw [here, changed, bpnum]
    · rw [others here]
  have installed : ∀ j, ((bp.modify i change).peek j).icestatus = true →
      (bp.peek j).icestatus = true := by
    intro j there
    by_cases here : j = i
    · rw [here, changed] at there
      rw [here]
      exact fewer there
    · rwa [others here] at there
  refine consistent.of_entries ?frame ?blank ?flags ?distinct
  case frame =>
    intro j
    by_cases here : j = i
    · rw [here, changed]
      exact ⟨last, address, type⟩
    · rw [others here]
      exact ⟨rfl, rfl, rfl⟩
  case blank =>
    intro j outside
    exact others fun here => outside (here ▸ visible)
  case flags =>
    intro j _
    by_cases here : j = i
    · rw [here, changed]
      exact flags
    · rw [others here]
      exact consistent.flags j
  case distinct =>
    intro j k _ _ thereJ thereK same
    rw [slots j, slots k] at same
    rw [slots j]
    exact consistent.distinct j k (installed j thereJ) (installed k thereK) same

/-! ## The layout -/

variable (target : Target)

theorem layout_peek_of_icestatus {i : Nat} (there : (bp.peek i).icestatus = true) :
    (layoutBreakpoints target bp).2.peek i = bp.peek i :=
  layout_untouched target consistent.noRangesWaiting fun both => by
    rw [consistent.not_waits_of_icestatus there] at both
    exact absurd both.2 Bool.false_ne_true

theorem layout_entries (j : Nat) :
    (Visible (layoutBreakpoints target bp).2 j ↔ Visible bp j) ∧
      (∃ slot, (layoutBreakpoints target bp).2.peek j = (bp.peek j).setBpnum slot) ∧
      (((layoutBreakpoints target bp).2.peek j).icestatus = true →
        (layoutBreakpoints target bp).2.peek j = bp.peek j) := by
  have same : SameButSlots bp (layoutBreakpoints target bp).2 :=
    layout_sameButSlots target consistent.noRangesWaiting
  refine ⟨same.visible, same j, fun there => ?_⟩
  obtain ⟨slot, equal⟩ := same j
  rw [equal] at there
  exact consistent.layout_peek_of_icestatus target there

theorem layout : Consistent (layoutBreakpoints target bp).2 := by
  have same : SameButSlots bp (layoutBreakpoints target bp).2 :=
    layout_sameButSlots target consistent.noRangesWaiting
  have installed : ∀ {j}, ((layoutBreakpoints target bp).2.peek j).icestatus = true →
      (layoutBreakpoints target bp).2.peek j = bp.peek j :=
    (consistent.layout_entries target _).2.2
  refine consistent.of_entries ?frame ?blank ?flags ?distinct
  case frame =>
    intro j
    obtain ⟨slot, equal⟩ := same j
    rw [equal]
    exact ⟨rfl, rfl, rfl⟩
  case blank =>
    intro j outside
    exact layout_untouched target consistent.noRangesWaiting fun both => outside both.1
  case flags =>
    intro j _
    cases there : (bp.peek j).icestatus with
    | true =>
        rw [consistent.layout_peek_of_icestatus target there]
        exact consistent.flags j
    | false =>
        obtain ⟨slot, equal⟩ := same j
        rw [equal]
        have flags := consistent.flags j
        refine .of_not_installed there ?_ fun enabled => flags.pending enabled there
        by_contra flagged
        rw [flags.removed (by simpa using flagged)] at there
        cases there
  case distinct =>
    intro i j _ _ thereI thereJ
    have keptI := installed thereI
    have keptJ := installed thereJ
    rw [keptI] at thereI ⊢
    rw [keptJ] at thereJ ⊢
    exact consistent.distinct i j thereI thereJ

end Consistent

end Avarice.Mk2

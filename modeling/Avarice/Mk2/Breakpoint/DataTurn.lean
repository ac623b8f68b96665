import Avarice.Mk2.Breakpoint.LayoutSpec

/-!
# The loop over the data watchpoints, ranges included

What one turn of the loop can do to any table, and what every layout leaves
alone: it changes slot numbers, and it disables range breakpoints that find no
room together with the entry that their mask pointer names.
-/

namespace Avarice.Mk2

open Scan

/-- The range breakpoints among the waiting entries. -/
def Breakpoint2.waitsForPair (entry : Breakpoint2) : Bool :=
  entry.waitsForData && BpType.masked entry.type

@[simp]
theorem Breakpoint2.waitsForPair_setBpnum (slot : Nat) (entry : Breakpoint2) :
    (entry.setBpnum slot).waitsForPair = entry.waitsForPair := rfl

def PairFree (remaining : SlotArray) : Prop :=
  remaining.peek breakpoint2DataMask = true ∧ remaining.peek breakpoint2FirstData = true

instance (remaining : SlotArray) : Decidable (PairFree remaining) :=
  inferInstanceAs (Decidable (_ ∧ _))

inductive DataTurn (i : Nat) (s : LayoutState) : Turn LayoutState → Prop where
  | pass (settled : (s.bp.peek i).waitsForData = false) : DataTurn i s (.next s)
  | drop (waits : (s.bp.peek i).waitsForPair = true) (full : ¬ PairFree s.remainingBps) :
      DataTurn i s (.next { s with
        bp := (s.bp.modify (s.bp.peek i).maskPointer Breakpoint2.disable).modify i
          Breakpoint2.disable
        hadroom := false })
  | pair (waits : (s.bp.peek i).waitsForPair = true) (free : PairFree s.remainingBps) :
      DataTurn i s (.next { s with
        bp := (s.bp.modify (s.bp.peek i).maskPointer
          (Breakpoint2.setBpnum breakpoint2DataMask)).modify i
            (Breakpoint2.setBpnum breakpoint2FirstData)
        remainingBps :=
          (s.remainingBps.poke breakpoint2DataMask false).poke breakpoint2FirstData false })
  | single (waits : (s.bp.peek i).waitsForData = true)
      (unmasked : BpType.masked (s.bp.peek i).type = false) (slot : Nat)
      (free : slot ∈ freeFrom s.remainingBps breakpoint2FirstData) :
      DataTurn i s (.next { s with
        bp := s.bp.modify i (Breakpoint2.setBpnum slot)
        remainingBps := s.remainingBps.poke slot false })
  | starve (waits : (s.bp.peek i).waitsForData = true)
      (unmasked : BpType.masked (s.bp.peek i).type = false)
      (full : freeFrom s.remainingBps breakpoint2FirstData = ∅) :
      DataTurn i s (.leave { s with hadroom := false })

theorem nextSlot_eq_first {remaining : SlotArray} {first : Nat} (low : first ≤ maxBreakpoints2)
    (free : remaining.peek first = true) : nextSlot remaining first = first := by
  obtain ⟨turns, more⟩ : ∃ turns, maxBreakpoints2 + 1 - first = turns + 1 :=
    ⟨maxBreakpoints2 - first, by omega⟩
  rw [nextSlot, more, scanFrom, free, Bool.true_or, if_pos rfl]

theorem placeData_turn (i : Nat) (s : LayoutState) : DataTurn i s (placeData i s) := by
  unfold placeData
  have same : ((s.bp.peek i).enabled && (s.bp.peek i).toadd &&
      BpType.watchesData (s.bp.peek i).type) = (s.bp.peek i).waitsForData := rfl
  simp only [same]
  cases waits : (s.bp.peek i).waitsForData with
  | false => exact .pass waits
  | true =>
      cases masked : BpType.masked (s.bp.peek i).type with
      | true =>
          have waitsForPair : (s.bp.peek i).waitsForPair = true := by
            rw [Breakpoint2.waitsForPair, waits, masked, Bool.and_self]
          by_cases free : PairFree s.remainingBps
          · have first : (s.remainingBps.poke breakpoint2DataMask false).peek
                breakpoint2FirstData = true := by
              rw [CArray.peek_poke_ne _ _ (by decide)]
              exact free.2
            simp only [free.1, free.2, nextSlot_eq_first (by decide) first, if_true]
            exact .pair waitsForPair free
          · have taken : (!s.remainingBps.peek breakpoint2DataMask ||
                !s.remainingBps.peek breakpoint2FirstData) = true := by
              rw [PairFree, not_and_or, Bool.not_eq_true, Bool.not_eq_true] at free
              simpa using free
            simp only [taken, Bool.and_self, if_true]
            exact .drop waitsForPair free
      | false =>
          simp only [Bool.false_and, Bool.false_eq_true, if_false, if_true]
          have low : breakpoint2FirstData ≤ maxBreakpoints2 := by decide
          rcases nextSlot_spec s.remainingBps low with free | ⟨beyond, full⟩
          · rw [if_neg (Nat.not_lt.mpr (mem_freeFrom.mp free).2.1)]
            exact .single waits masked _ free
          · rw [if_pos (beyond ▸ Nat.lt_succ_self _)]
            exact .starve waits masked full

/-! ## What every layout leaves alone -/

def Breakpoint2.Adjusted (before after : Breakpoint2) : Prop :=
  ∃ slot, after = before.setBpnum slot ∨ after = (before.setBpnum slot).disable

namespace Breakpoint2.Adjusted

theorem refl (entry : Breakpoint2) : Adjusted entry entry := ⟨entry.bpnum, .inl rfl⟩

theorem setBpnum {before after : Breakpoint2} (adjusted : Adjusted before after) (slot : Nat) :
    Adjusted before (after.setBpnum slot) := by
  obtain ⟨_, rfl | rfl⟩ := adjusted
  · exact ⟨slot, .inl rfl⟩
  · exact ⟨slot, .inr rfl⟩

theorem disable {before after : Breakpoint2} (adjusted : Adjusted before after) :
    Adjusted before after.disable := by
  obtain ⟨slot, rfl | rfl⟩ := adjusted
  · exact ⟨slot, .inr rfl⟩
  · exact ⟨slot, .inr rfl⟩

variable {before after : Breakpoint2} (adjusted : Adjusted before after)
include adjusted

theorem last : after.last = before.last := by
  obtain ⟨_, rfl | rfl⟩ := adjusted <;> rfl

theorem address : after.address = before.address := by
  obtain ⟨_, rfl | rfl⟩ := adjusted <;> rfl

theorem type : after.type = before.type := by
  obtain ⟨_, rfl | rfl⟩ := adjusted <;> rfl

theorem icestatus : after.icestatus = before.icestatus := by
  obtain ⟨_, rfl | rfl⟩ := adjusted <;> rfl

theorem toremove : after.toremove = before.toremove := by
  obtain ⟨_, rfl | rfl⟩ := adjusted <;> rfl

theorem maskPointer : after.maskPointer = before.maskPointer := by
  obtain ⟨_, rfl | rfl⟩ := adjusted <;> rfl

theorem of_enabled (enabled : after.enabled = true) : ∃ slot, after = before.setBpnum slot := by
  obtain ⟨slot, rfl | rfl⟩ := adjusted
  · exact ⟨slot, rfl⟩
  · cases enabled

end Breakpoint2.Adjusted

def Adjusts (before after : BreakpointTable) : Prop :=
  ∀ j, (before.peek j).Adjusted (after.peek j)

namespace Adjusts

theorem refl (bp : BreakpointTable) : Adjusts bp bp := fun j => .refl (bp.peek j)

theorem setBpnum {before after : BreakpointTable} (adjusts : Adjusts before after)
    (i slot : Nat) : Adjusts before (after.modify i (Breakpoint2.setBpnum slot)) := by
  intro j
  rw [CArray.peek_modify]
  split
  · exact (adjusts j).setBpnum slot
  · exact adjusts j

theorem disable {before after : BreakpointTable} (adjusts : Adjusts before after) (i : Nat) :
    Adjusts before (after.modify i Breakpoint2.disable) := by
  intro j
  rw [CArray.peek_modify]
  split
  · exact (adjusts j).disable
  · exact adjusts j

theorem endIndex {before after : BreakpointTable} (adjusts : Adjusts before after) :
    endIndex after = endIndex before :=
  endIndex_congr fun j => (adjusts j).last

theorem visible {before after : BreakpointTable} (adjusts : Adjusts before after) {j : Nat} :
    Visible after j ↔ Visible before j := by
  rw [Visible, adjusts.endIndex, Visible]

end Adjusts

theorem DataTurn.adjusts {before : BreakpointTable} {i : Nat} {s : LayoutState}
    {turn : Turn LayoutState} (taken : DataTurn i s turn) (adjusts : Adjusts before s.bp) :
    Adjusts before turn.state.bp := by
  cases taken with
  | pass => exact adjusts
  | drop => exact (adjusts.disable _).disable i
  | pair => exact (adjusts.setBpnum _ _).setBpnum i _
  | single => exact adjusts.setBpnum i _
  | starve => exact adjusts

theorem layoutData_adjusts (s : LayoutState) : Adjusts s.bp (layoutData s).bp := by
  have kept : ∀ (i : Nat) (t : LayoutState), Adjusts s.bp t.bp →
      Adjusts s.bp (placeData i t).state.bp :=
    fun i t adjusts => (placeData_turn i t).adjusts adjusts
  exact scan_state kept _ (Adjusts.refl s.bp)

theorem DataTurn.available {i : Nat} {s : LayoutState} {turn : Turn LayoutState}
    (taken : DataTurn i s turn) {slot : Nat}
    (free : turn.state.remainingBps.peek slot = true) : s.remainingBps.peek slot = true := by
  have poked : ∀ {remaining : SlotArray} {other : Nat},
      (remaining.poke other false).peek slot = true → remaining.peek slot = true := by
    intro remaining other available
    rw [CArray.peek_poke] at available
    split at available
    · cases available
    · exact available
  cases taken with
  | pass => exact free
  | drop => exact free
  | pair => exact poked (poked free)
  | single => exact poked free
  | starve => exact free

theorem layoutData_available (s : LayoutState) {slot : Nat}
    (free : (layoutData s).remainingBps.peek slot = true) : s.remainingBps.peek slot = true := by
  have kept : ∀ (i : Nat) (t : LayoutState),
      (t.remainingBps.peek slot = true → s.remainingBps.peek slot = true) →
        (placeData i t).state.remainingBps.peek slot = true → s.remainingBps.peek slot = true :=
    fun i t earlier available => earlier ((placeData_turn i t).available available)
  exact scan_state kept _ id free

theorem layoutCode_adjusts (soft : Bool) {before : BreakpointTable} {s : LayoutState}
    (adjusts : Adjusts before s.bp) : Adjusts before (layoutCode soft s).bp := by
  have kept : ∀ (i : Nat) (t : LayoutState), Adjusts before t.bp →
      Adjusts before (placeCode soft i t).state.bp := by
    intro i t adjusts
    rw [placeCode_eq, placeEntry]
    split
    · split
      · exact adjusts
      · exact adjusts.setBpnum i _
    · exact adjusts
  exact scan_state kept _ adjusts

theorem layout_adjusts (target : Target) (bp : BreakpointTable) :
    Adjusts bp (layoutBreakpoints target bp).2 :=
  layoutCode_adjusts _ (layoutData_adjusts (startLayout target bp))

/-! ## The second loop -/

theorem layoutCode_spec (target : Target) (bp : BreakpointTable) :
    let afterData := layoutData (startLayout target bp)
    let after := layoutCode (softwarebps target) afterData
    Placed Breakpoint2.waitsForCode afterData after ∧
      (Placing Breakpoint2.waitsForCode 0 (if softwarebps target then some 0 else none) afterData
          (endIndex afterData.bp) after ∨
        after.hadroom = false ∧ softwarebps target = false ∧
          (freeFrom afterData.remainingBps 0).card <
            (waiting Breakpoint2.waitsForCode afterData.bp).card) := by
  intro afterData after
  have spec := @placeAll_spec Breakpoint2.waitsForCode 0
    (if softwarebps target then some 0 else none) afterData (Nat.zero_le _)
  rw [← layoutCode_eq] at spec
  refine ⟨spec.1, spec.2.imp id fun failed => ⟨failed.1, ?_, failed.2.2⟩⟩
  simpa using failed.2.1

end Avarice.Mk2

import Avarice.Mk2.Breakpoint.Placement

/-!
# When the layout finds room

For tables whose waiting entries are code breakpoints and single data
watchpoints the layout succeeds exactly when the waiting entries can be
counted against the free slots.  The count depends only on which entries wait
and which are stable, so it can be compared between tables.
-/

namespace Avarice.Mk2

open Scan

namespace Breakpoint2

def waitsForData (entry : Breakpoint2) : Bool :=
  entry.enabled && entry.toadd && BpType.watchesData entry.type

def waitsForCode (entry : Breakpoint2) : Bool :=
  entry.enabled && entry.toadd && entry.type == .code

@[simp]
theorem waitsForData_setBpnum (slot : Nat) (entry : Breakpoint2) :
    (entry.setBpnum slot).waitsForData = entry.waitsForData := rfl

@[simp]
theorem waitsForCode_setBpnum (slot : Nat) (entry : Breakpoint2) :
    (entry.setBpnum slot).waitsForCode = entry.waitsForCode := rfl

@[simp]
theorem stable_setBpnum (slot : Nat) (entry : Breakpoint2) :
    (entry.setBpnum slot).stable = entry.stable := rfl

end Breakpoint2

/-- Hardware slots that no stable breakpoint holds; none under debugWire. -/
def freeSlots (target : Target) (bp : BreakpointTable) : Finset Nat :=
  (Finset.Icc 1 3).filter fun slot => target.useDebugWire = false ∧
    ∀ i < endIndex bp, (bp.peek i).stable = true → (bp.peek i).bpnum ≠ slot

/-- Every waiting entry can have a slot of its own: data watchpoints one of
the two data slots, code breakpoints any slot or a software breakpoint. -/
def HasRoom (target : Target) (bp : BreakpointTable) : Prop :=
  (waiting Breakpoint2.waitsForData bp).card ≤
      ((freeSlots target bp).filter (breakpoint2FirstData ≤ ·)).card ∧
    (softwarebps target = true ∨
      (waiting Breakpoint2.waitsForData bp).card +
        (waiting Breakpoint2.waitsForCode bp).card ≤ (freeSlots target bp).card)

instance (target : Target) (bp : BreakpointTable) : Decidable (HasRoom target bp) :=
  inferInstanceAs (Decidable (_ ∧ _))

def NoRangesWaiting (bp : BreakpointTable) : Prop :=
  ∀ i, Visible bp i → (bp.peek i).waitsForData = true →
    BpType.masked (bp.peek i).type = false

theorem availableSlots_peek (useDebugWire : Bool) (slot : Nat) :
    (availableSlots useDebugWire).peek slot = true ↔
      slot ∈ Finset.Icc 1 3 ∧ useDebugWire = false := by
  by_cases inside : slot < 6
  · revert useDebugWire slot
    decide
  · rw [CArray.peek_of_le (Nat.le_of_not_lt inside)]
    have far : slot ∉ Finset.Icc 1 3 := by
      rw [Finset.mem_Icc]
      omega
    simp only [far, false_and, iff_false]
    exact Bool.false_ne_true

theorem remainingSlots_peek (target : Target) (bp : BreakpointTable) (slot : Nat) :
    (remainingSlots target bp).peek slot = true ↔ slot ∈ freeSlots target bp := by
  unfold remainingSlots
  refine visit_rule (fun _ => bp) (fun _ _ => rfl)
    (fun i remaining => ∀ slot, CArray.peek remaining slot = true ↔
      (availableSlots target.useDebugWire).peek slot = true ∧
        ∀ j < i, (bp.peek j).stable = true → (bp.peek j).bpnum ≠ slot)
    (fun remaining => CArray.peek remaining slot = true ↔ slot ∈ freeSlots target bp)
    (fun _ _ _ => rfl) ?turned ?finished (by simp)
  case finished =>
    intro remaining content
    rw [content, availableSlots_peek]
    simp [freeSlots, and_assoc]
  case turned =>
    intro i remaining visible content
    have extended : ∀ slot, (∀ j < i + 1, (bp.peek j).stable = true →
        (bp.peek j).bpnum ≠ slot) ↔
        (∀ j < i, (bp.peek j).stable = true → (bp.peek j).bpnum ≠ slot) ∧
          ((bp.peek i).stable = true → (bp.peek i).bpnum ≠ slot) := by
      intro slot
      constructor
      · exact fun all => ⟨fun j before => all j (by omega), all i (by omega)⟩
      · rintro ⟨earlier, here⟩ j before
        rcases Nat.lt_or_eq_of_le (Nat.le_of_lt_succ before) with less | equal
        · exact earlier j less
        · exact equal ▸ here
    split
    next stable =>
      intro slot
      rw [extended slot, CArray.peek_poke]
      split
      next same =>
        simp [stable, same.1]
      next different =>
        rw [content slot]
        refine and_congr_right fun initially => ?_
        have small : slot < maxBreakpoints2 + 2 := by
          by_contra large
          rw [CArray.peek_of_le (by omega)] at initially
          cases initially
        have apart : (bp.peek i).bpnum ≠ slot := by
          rintro rfl
          exact different ⟨rfl, small⟩
        simp [stable, apart]
    next unstable =>
      intro slot
      rw [extended slot, content slot]
      simp [unstable]

theorem freeFrom_remainingSlots (target : Target) (bp : BreakpointTable) (first : Nat) :
    freeFrom (remainingSlots target bp) first =
      (freeSlots target bp).filter (first ≤ ·) := by
  ext slot
  rw [mem_freeFrom, remainingSlots_peek, Finset.mem_filter]
  constructor
  · rintro ⟨low, _, free⟩
    exact ⟨free, low⟩
  · rintro ⟨free, low⟩
    have small : slot ≤ 3 := (Finset.mem_Icc.mp (Finset.mem_filter.mp free).1).2
    exact ⟨low, Nat.le_succ_of_le small, free⟩

theorem freeFrom_remainingSlots_zero (target : Target) (bp : BreakpointTable) :
    freeFrom (remainingSlots target bp) 0 = freeSlots target bp := by
  rw [freeFrom_remainingSlots]
  simp

theorem placeCode_eq (soft : Bool) (i : Nat) (s : LayoutState) :
    placeCode soft i s =
      placeEntry Breakpoint2.waitsForCode 0 (if soft then some 0 else none) i s := by
  have small : nextSlot s.remainingBps 0 ≤ 5 := by
    rcases nextSlot_spec s.remainingBps (Nat.zero_le _) with free | ⟨beyond, _⟩
    · exact Nat.le_succ_of_le (mem_freeFrom.mp free).2.1
    · exact beyond.le
  unfold placeCode placeEntry Breakpoint2.waitsForCode
  by_cases full : nextSlot s.remainingBps 0 > maxBreakpoints2
  · cases soft <;> simp [full]
  · have notFlag : nextSlot s.remainingBps 0 ≠ 0xFF := by omega
    simp [full, notFlag]

theorem placeData_eq {i : Nat} {s : LayoutState}
    (single : (s.bp.peek i).waitsForData = true → BpType.masked (s.bp.peek i).type = false) :
    placeData i s = placeEntry Breakpoint2.waitsForData breakpoint2FirstData none i s := by
  unfold placeData placeEntry
  have same : ((s.bp.peek i).enabled && (s.bp.peek i).toadd &&
      BpType.watchesData (s.bp.peek i).type) = (s.bp.peek i).waitsForData := rfl
  cases wanted : (s.bp.peek i).waitsForData with
  | false => simp [same, wanted]
  | true =>
      by_cases full : nextSlot s.remainingBps breakpoint2FirstData > maxBreakpoints2
      · simp [same, wanted, single wanted, full]
      · simp [same, wanted, single wanted, full]

/-! ## Comparing tables -/

section Compare

variable {target : Target} {before after : BreakpointTable}

theorem freeSlots_subset
    (held : ∀ i, Visible after i → (after.peek i).stable = true →
      ∃ j, Visible before j ∧ (before.peek j).stable = true ∧
        (before.peek j).bpnum = (after.peek i).bpnum) :
    freeSlots target before ⊆ freeSlots target after := by
  intro slot free
  obtain ⟨inside, jtag, clear⟩ := Finset.mem_filter.mp free
  refine Finset.mem_filter.mpr ⟨inside, jtag, fun i visible stable => ?_⟩
  obtain ⟨j, visibleJ, stableJ, same⟩ := held i visible stable
  rw [← same]
  exact clear j visibleJ stableJ

theorem HasRoom.mono (room : HasRoom target before)
    (data : waiting Breakpoint2.waitsForData after ⊆ waiting Breakpoint2.waitsForData before)
    (code : waiting Breakpoint2.waitsForCode after ⊆ waiting Breakpoint2.waitsForCode before)
    (held : ∀ i, Visible after i → (after.peek i).stable = true →
      ∃ j, Visible before j ∧ (before.peek j).stable = true ∧
        (before.peek j).bpnum = (after.peek i).bpnum) :
    HasRoom target after := by
  have free := @freeSlots_subset target _ _ held
  have fewerData := Finset.card_le_card data
  have fewerCode := Finset.card_le_card code
  refine ⟨?_, room.2.imp id fun enough => ?_⟩
  · calc
      _ ≤ _ := fewerData
      _ ≤ _ := room.1
      _ ≤ _ := Finset.card_le_card (Finset.filter_subset_filter _ free)
  · calc
      _ ≤ _ := Nat.add_le_add fewerData fewerCode
      _ ≤ _ := enough
      _ ≤ _ := Finset.card_le_card free

/-- Room is kept by a change that disables entries, and gives slots to entries
the ICE does not have. -/
theorem HasRoom.of_entries (room : HasRoom target before)
    (kept : ∀ j, Visible after j → (after.peek j).enabled = true →
      Visible before j ∧ (∃ slot, after.peek j = (before.peek j).setBpnum slot) ∧
        ((after.peek j).icestatus = true → after.peek j = before.peek j)) :
    HasRoom target after := by
  refine room.mono ?data ?code ?held
  case data =>
    intro j waits
    obtain ⟨visible, wanted⟩ := mem_waiting.mp waits
    have enabled : (after.peek j).enabled = true := by
      simp only [Breakpoint2.waitsForData, Bool.and_eq_true] at wanted
      exact wanted.1.1
    obtain ⟨visible', ⟨slot, equal⟩, _⟩ := kept j visible enabled
    rw [equal, Breakpoint2.waitsForData_setBpnum] at wanted
    exact mem_waiting.mpr ⟨visible', wanted⟩
  case code =>
    intro j waits
    obtain ⟨visible, wanted⟩ := mem_waiting.mp waits
    have enabled : (after.peek j).enabled = true := by
      simp only [Breakpoint2.waitsForCode, Bool.and_eq_true] at wanted
      exact wanted.1.1
    obtain ⟨visible', ⟨slot, equal⟩, _⟩ := kept j visible enabled
    rw [equal, Breakpoint2.waitsForCode_setBpnum] at wanted
    exact mem_waiting.mpr ⟨visible', wanted⟩
  case held =>
    intro j visible stable
    have flags := stable
    simp only [Breakpoint2.stable, Bool.and_eq_true] at flags
    obtain ⟨visible', _, same⟩ := kept j visible flags.1.1
    have equal := same flags.2
    exact ⟨j, visible', equal ▸ stable, by rw [equal]⟩

theorem hasRoom_of_none_waiting
    (settled : ∀ i, Visible after i → (after.peek i).enabled = true →
      (after.peek i).toadd = false) :
    HasRoom target after := by
  have data : waiting Breakpoint2.waitsForData after = ∅ := by
    refine Finset.eq_empty_of_forall_notMem fun i waits => ?_
    obtain ⟨visible, wanted⟩ := mem_waiting.mp waits
    simp only [Breakpoint2.waitsForData, Bool.and_eq_true] at wanted
    simp [settled i visible wanted.1.1] at wanted
  have code : waiting Breakpoint2.waitsForCode after = ∅ := by
    refine Finset.eq_empty_of_forall_notMem fun i waits => ?_
    obtain ⟨visible, wanted⟩ := mem_waiting.mp waits
    simp only [Breakpoint2.waitsForCode, Bool.and_eq_true] at wanted
    simp [settled i visible wanted.1.1] at wanted
  simp [HasRoom, data, code]

end Compare

end Avarice.Mk2

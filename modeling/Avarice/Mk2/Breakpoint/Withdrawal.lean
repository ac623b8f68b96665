import Avarice.Mk2.Breakpoint.AddAnswer

/-!
# An entry that is added and withdrawn

Two layouts, one with the entry and one without it.  What they may cost another
breakpoint is a range that waits: the first may find its slots taken, by the
entry or by what the ICE has, and the second finds them taken when the first has
given the slot of the mask to a breakpoint that the ICE has elsewhere.
-/

namespace Avarice.Mk2

/-- The table from which an entry that has been added is withdrawn again. -/
def withdrawn (target : Target) (bp : BreakpointTable) (i : Nat) : BreakpointTable :=
  (finishAdd target bp i).2.modify i Breakpoint2.withdraw

/-- Entry `i` leaves the ranges that wait their slots. -/
def SparesRanges (target : Target) (bp : BreakpointTable) (i : Nat) : Prop :=
  ∀ r, Visible bp r → (bp.peek r).waitsForPair = true →
    ¬ (i < r ∧ (bp.peek i).waitsForData = true) ∧ PairFree (remainingSlots target bp) ∧
      (Visible bp (bp.peek r).maskPointer → (bp.peek r).maskPointer ≠ i →
        (bp.peek (bp.peek r).maskPointer).stable = false)

theorem mem_freeSlots {target : Target} {bp : BreakpointTable} {slot : Nat} :
    slot ∈ freeSlots target bp ↔ slot ∈ Finset.Icc 1 3 ∧ target.useDebugWire = false ∧
      ∀ i, Visible bp i → (bp.peek i).stable = true → (bp.peek i).bpnum ≠ slot :=
  Finset.mem_filter

section Stable

theorem Breakpoint2.enabled_of_stable {entry : Breakpoint2} (stable : entry.stable = true) :
    entry.enabled = true := by
  simp only [Breakpoint2.stable, Bool.and_eq_true] at stable
  exact stable.1.1

variable {bp : BreakpointTable} (fresh : Fresh bp) {j : Nat} (stable : (bp.peek j).stable = true)
include fresh stable

theorem Fresh.not_toadd : (bp.peek j).toadd = false := by
  refine Bool.eq_false_iff.mpr fun toadd => ?_
  have absent := fresh j toadd
  simp [Breakpoint2.stable, absent] at stable

theorem Fresh.not_waitsForData : (bp.peek j).waitsForData = false := by
  rw [Breakpoint2.waitsForData, fresh.not_toadd stable, Bool.and_false, Bool.false_and]

theorem Fresh.not_waitsForCode : (bp.peek j).waitsForCode = false := by
  rw [Breakpoint2.waitsForCode, fresh.not_toadd stable, Bool.and_false, Bool.false_and]

end Stable

theorem withdrawn_off {target : Target} {bp : BreakpointTable} {i : Nat} (visible : Visible bp i) :
    ((withdrawn target bp i).peek i).enabled = false := by
  rw [withdrawn, CArray.peek_modify_same _ _ (lt_of_visible visible)]
  rfl

theorem fewer_withdrawn (target : Target) (bp : BreakpointTable) (i : Nat) :
    Fewer (bp.modify i Breakpoint2.flagAdd) (withdrawn target bp i) :=
  (Fewer.of_adjusts (finishAdd_adjusts target bp i)).trans (fewer_withdraw _ i)

/-- The entry of a single breakpoint, as the layout is asked about it. -/
structure Entered (bp : BreakpointTable) (i : Nat) (table : BreakpointTable) : Prop where
  flagged : table = bp.modify i Breakpoint2.flagAdd
  visible : Visible bp i
  unmasked : BpType.masked (bp.peek i).type = false
  fresh : Fresh table
  alone : RangesAloneBut i table

namespace Entered

variable {target : Target} {bp table : BreakpointTable} {i : Nat} (entered : Entered bp i table)
include entered

theorem fewer : Fewer table (withdrawn target bp i) :=
  entered.flagged ▸ fewer_withdrawn target bp i

theorem peek_ne {j : Nat} (different : j ≠ i) :
    (withdrawn target bp i).peek j = (layoutBreakpoints target table).2.peek j := by
  rw [withdrawn, CArray.peek_modify_ne _ _ different.symm, entered.flagged]
  exact finishAdd_peek_ne entered.visible different fun masked =>
    absurd (entered.unmasked.symm.trans masked) Bool.noConfusion

theorem not_pair : (table.peek i).waitsForPair = false := by
  have unmasked : BpType.masked (table.peek i).type = false := by
    rw [entered.flagged, CArray.peek_modify_same _ _ (lt_of_visible entered.visible),
      Breakpoint2.flagAdd_eq]
    exact entered.unmasked
  rw [Breakpoint2.waitsForPair, unmasked, Bool.and_false]

theorem range_ne {r : Nat} (pair : (table.peek r).waitsForPair = true) : r ≠ i := by
  rintro rfl
  exact Bool.false_ne_true (entered.not_pair.symm.trans pair)

section Range

variable {r : Nat} (visible : Visible table r) (pair : (table.peek r).waitsForPair = true)
include visible pair

theorem only {j : Nat} (visibleJ : Visible table j) (waits : (table.peek j).waitsForData = true) :
    j = r ∨ j = i := by
  by_cases here : j = i
  · exact .inr here
  · exact .inl (entered.alone r j (entered.range_ne pair) here visible visibleJ pair waits)

theorem first (behind : ¬ (i < r ∧ (table.peek i).waitsForData = true)) :
    ∀ j < r, (table.peek j).waitsForData = false := by
  refine fun j less => Bool.eq_false_iff.mpr fun waits => ?_
  rcases entered.only visible pair (less.trans visible) waits with rfl | rfl
  · exact lt_irrefl _ less
  · exact behind ⟨less, waits⟩

theorem later {j : Nat} (visibleJ : Visible table j) (less : r < j) :
    (table.peek j).waitsForPair = false := by
  refine Bool.eq_false_iff.mpr fun waits => ?_
  rcases entered.only visible pair visibleJ (Breakpoint2.waitsForData_of_pair waits) with rfl | rfl
  · exact lt_irrefl _ less
  · exact Bool.false_ne_true (entered.not_pair.symm.trans waits)

theorem first_withdrawn :
    ∀ j < r, ((withdrawn target bp i).peek j).waitsForData = false := by
  refine fun j less => Bool.eq_false_iff.mpr fun waits => ?_
  rcases entered.only visible pair (less.trans visible) (entered.fewer.waitsForData waits)
    with rfl | rfl
  · exact lt_irrefl _ less
  · have off := @withdrawn_off target bp j entered.visible
    simp [Breakpoint2.waitsForData, off] at waits

theorem later_withdrawn {j : Nat} (visibleJ : Visible (withdrawn target bp i) j) (less : r < j) :
    ((withdrawn target bp i).peek j).waitsForPair = false :=
  Bool.eq_false_iff.mpr fun waits => Bool.false_ne_true
    ((entered.later visible pair (entered.fewer.visible.mp visibleJ) less).symm.trans
      (entered.fewer.waitsForPair waits))

theorem lost (taken : ((layoutBreakpoints target table).2.peek r).enabled = false ∨
      ¬ PairFree (remainingSlots target (withdrawn target bp i))) :
    ((layoutBreakpoints target (withdrawn target bp i)).2.peek r).enabled = false := by
  have there := @peek_ne target bp table i entered r (entered.range_ne pair)
  have again := layout_adjusts target (withdrawn target bp i) r
  cases enabled : ((layoutBreakpoints target table).2.peek r).enabled with
  | false => exact again.disabled (there ▸ enabled)
  | true =>
      have full := taken.resolve_left (by rw [enabled]; exact nofun)
      obtain ⟨slot, equal⟩ := (layout_adjusts target table r).of_enabled enabled
      have waits : ((withdrawn target bp i).peek r).waitsForPair = true := by
        rw [there, equal]
        exact pair
      exact layout_disabled (layoutData_dropped (entered.fewer.visible.mpr visible) waits
        (entered.first_withdrawn visible pair) full)

theorem placed (spares : SparesRanges target table i) :
    SameButSlots table (layoutBreakpoints target table).2 ∧
      ∀ j, (table.peek j).waitsForCode = false →
        (layoutBreakpoints target table).2.peek j = (placedRange table r).peek j := by
  obtain ⟨behind, free, _⟩ := spares r visible pair
  exact layout_placed visible pair (entered.first visible pair behind)
    (fun _ => entered.later visible pair) free

theorem pairFree_withdrawn (spares : SparesRanges target table i) :
    PairFree (remainingSlots target (withdrawn target bp i)) := by
  obtain ⟨_, free, pointer⟩ := spares r visible pair
  obtain ⟨same, entries⟩ := entered.placed visible pair spares
  have kept : ∀ j, Visible (withdrawn target bp i) j →
      ((withdrawn target bp i).peek j).stable = true →
        Visible table j ∧ (table.peek j).stable = true ∧
          ((withdrawn target bp i).peek j).bpnum = (table.peek j).bpnum := by
    intro j visibleJ stable
    have different : j ≠ i := by
      rintro rfl
      have off := @withdrawn_off target bp j entered.visible
      exact Bool.false_ne_true (off.symm.trans (Breakpoint2.enabled_of_stable stable))
    have inUse := entered.fewer.visible.mp visibleJ
    rw [entered.peek_ne different] at stable ⊢
    have before : (table.peek j).stable = true := by
      obtain ⟨slot, equal⟩ := same j
      rw [equal, Breakpoint2.stable_setBpnum] at stable
      exact stable
    rw [entries j (entered.fresh.not_waitsForCode before), placedRange,
      CArray.peek_modify_ne, CArray.peek_modify_ne]
    · exact ⟨inUse, before, rfl⟩
    · rintro rfl
      exact Bool.false_ne_true ((pointer inUse different).symm.trans before)
    · rintro rfl
      have settled := entered.fresh.not_waitsForData before
      exact Bool.false_ne_true (settled.symm.trans (Breakpoint2.waitsForData_of_pair pair))
  have still : ∀ {slot}, slot ∈ freeSlots target table →
      slot ∈ freeSlots target (withdrawn target bp i) := by
    intro slot before
    obtain ⟨inside, wired, unused⟩ := mem_freeSlots.mp before
    refine mem_freeSlots.mpr ⟨inside, wired, fun j visibleJ stable => ?_⟩
    obtain ⟨inUse, stable', equal⟩ := kept j visibleJ stable
    rw [equal]
    exact unused j inUse stable'
  rw [pairFree_iff] at free ⊢
  exact ⟨still free.1, still free.2⟩

theorem spared
    (kept : ((layoutBreakpoints target (withdrawn target bp i)).2.peek r).enabled = true) :
    ¬ (i < r ∧ (table.peek i).waitsForData = true) ∧ PairFree (remainingSlots target table) ∧
      (Visible table (table.peek r).maskPointer → (table.peek r).maskPointer ≠ i →
        (table.peek (table.peek r).maskPointer).stable = false) := by
  have notLost : ∀ {P : Prop}, ((layoutBreakpoints target table).2.peek r).enabled = false ∨
      ¬ PairFree (remainingSlots target (withdrawn target bp i)) → P := fun taken =>
    absurd (kept.symm.trans (entered.lost visible pair taken)) Bool.noConfusion
  have behind : ¬ (i < r ∧ (table.peek i).waitsForData = true) := by
    rintro ⟨less, waits⟩
    have others : ∀ j < r, (table.peek j).waitsForData = true → j = i := fun j before waitsJ =>
      (entered.only visible pair (before.trans visible) waitsJ).resolve_left before.ne
    rcases @layoutData_behind target table i r visible less pair waits others
      with off | ⟨full, same⟩
    · exact notLost (.inl (layout_disabled off))
    · refine notLost (.inr fun free => full ?_)
      have still : ∀ {slot}, slot ∈ freeSlots target (withdrawn target bp i) →
          slot ∈ freeSlots target table := by
        intro slot after
        obtain ⟨inside, wired, unused⟩ := mem_freeSlots.mp after
        refine mem_freeSlots.mpr ⟨inside, wired, fun j visibleJ stable => ?_⟩
        have different : j ≠ i := by
          rintro rfl
          exact Bool.false_ne_true ((entered.fresh.not_waitsForData stable).symm.trans waits)
        have equal : (withdrawn target bp i).peek j = table.peek j := by
          rw [entered.peek_ne different,
            layout_peek_of_settled (entered.fresh.not_waitsForCode stable), same]
        rw [← equal] at stable ⊢
        exact unused j (entered.fewer.visible.mpr visibleJ) stable
      rw [pairFree_iff] at free ⊢
      exact ⟨still free.1, still free.2⟩
  have free : PairFree (remainingSlots target table) := by
    by_contra full
    exact notLost (.inl (layout_disabled
      (layoutData_dropped visible pair (entered.first visible pair behind) full)))
  refine ⟨behind, free, fun inUse different => Bool.eq_false_iff.mpr fun stable => ?_⟩
  refine notLost (.inr fun again => ?_)
  obtain ⟨_, entries⟩ := layout_placed visible pair (entered.first visible pair behind)
    (fun _ => entered.later visible pair) free
  have notRange : r ≠ (table.peek r).maskPointer := by
    intro here
    rw [← here] at stable
    have settled := entered.fresh.not_waitsForData stable
    exact Bool.false_ne_true (settled.symm.trans (Breakpoint2.waitsForData_of_pair pair))
  have moved : (withdrawn target bp i).peek (table.peek r).maskPointer =
      (table.peek (table.peek r).maskPointer).setBpnum breakpoint2DataMask := by
    rw [entered.peek_ne different, entries _ (entered.fresh.not_waitsForCode stable), placedRange,
      CArray.peek_modify_ne _ _ notRange, CArray.peek_modify_same _ _ (lt_of_visible inUse)]
  obtain ⟨_, _, unused⟩ := mem_freeSlots.mp (pairFree_iff.mp again).2
  refine unused _ (entered.fewer.visible.mpr inUse) ?_ ?_
  · rw [moved, Breakpoint2.stable_setBpnum]
    exact stable
  · rw [moved]
    rfl

end Range

theorem keeps_iff : (∀ j ≠ i, Visible table j → (table.peek j).enabled = true →
      ((layoutBreakpoints target (withdrawn target bp i)).2.peek j).enabled = true) ↔
    SparesRanges target table i := by
  constructor
  · intro kept r visible pair
    have data := Breakpoint2.waitsForData_of_pair pair
    simp only [Breakpoint2.waitsForData, Bool.and_eq_true] at data
    exact entered.spared visible pair (kept r (entered.range_ne pair) visible data.1.1)
  · intro spares
    have both : SameButSlots table (layoutBreakpoints target table).2 ∧
        SameButSlots (withdrawn target bp i)
          (layoutBreakpoints target (withdrawn target bp i)).2 := by
      by_cases single : NoRangesWaiting table
      · refine ⟨layout_sameButSlots target single, layout_sameButSlots target ?_⟩
        intro j visible waits
        rw [entered.fewer.type]
        exact single j (entered.fewer.visible.mp visible) (entered.fewer.waitsForData waits)
      · obtain ⟨r, visible, pair⟩ := exists_range_of_waiting single
        obtain ⟨same, _⟩ := entered.placed visible pair spares
        have waits : ((withdrawn target bp i).peek r).waitsForPair = true := by
          obtain ⟨slot, equal⟩ := same r
          rw [entered.peek_ne (entered.range_ne pair), equal]
          exact pair
        exact ⟨same, (layout_placed (entered.fewer.visible.mpr visible) waits
          (entered.first_withdrawn visible pair)
          (fun _ => entered.later_withdrawn visible pair)
          (entered.pairFree_withdrawn visible pair spares)).1⟩
    intro j different visible enabled
    obtain ⟨slot, equal⟩ := both.1 j
    obtain ⟨slot', equal'⟩ := both.2 j
    rw [equal', entered.peek_ne different, equal]
    exact enabled

end Entered

end Avarice.Mk2

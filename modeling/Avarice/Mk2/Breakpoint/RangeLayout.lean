import Avarice.Mk2.Breakpoint.PairLayout

/-!
# Layouts with a waiting range breakpoint

The mask pointer of a range breakpoint may name any entry, in use or not.  A
layout succeeds only if a range that waits is the only data watchpoint that
does, and then it takes both data slots.
-/

namespace Avarice.Mk2

open Scan

/-- A range breakpoint that waits is the only data watchpoint that does. -/
def RangesAlone (bp : BreakpointTable) : Prop :=
  ∀ r j, Visible bp r → Visible bp j → (bp.peek r).waitsForPair = true →
    (bp.peek j).waitsForData = true → j = r

/-- A range breakpoint that can have its two slots. -/
structure RangeFits (target : Target) (bp : BreakpointTable) (r : Nat) : Prop where
  visible : Visible bp r
  waits : (bp.peek r).waitsForPair = true
  alone : ∀ j, Visible bp j → (bp.peek j).waitsForData = true → j = r
  first : breakpoint2FirstData ∈ freeSlots target bp
  mask : breakpoint2DataMask ∈ freeSlots target bp

def Fits (target : Target) (bp : BreakpointTable) : Prop :=
  (NoRangesWaiting bp ∧ HasRoom target bp) ∨
    (∃ r, RangeFits target bp r) ∧ (softwarebps target = true ∨
      (waiting Breakpoint2.waitsForCode bp).card ≤
        ((freeSlots target bp).filter (· < breakpoint2FirstData)).card)

section Alone

variable {target : Target} {bp : BreakpointTable}

theorem pairFree_iff : PairFree (remainingSlots target bp) ↔
    breakpoint2FirstData ∈ freeSlots target bp ∧ breakpoint2DataMask ∈ freeSlots target bp := by
  rw [PairFree, remainingSlots_peek, remainingSlots_peek, and_comm]

theorem exists_range_of_waiting (ranges : ¬ NoRangesWaiting bp) :
    ∃ r, Visible bp r ∧ (bp.peek r).waitsForPair = true := by
  by_contra none
  refine ranges fun i visible data => Bool.eq_false_iff.mpr fun masked => none ⟨i, visible, ?_⟩
  exact Breakpoint2.waitsForPair_iff.mpr ⟨data, masked⟩

theorem around_only {r : Nat} (visible : Visible bp r)
    (only : ∀ j, Visible bp j → (bp.peek j).waitsForData = true → j = r) :
    (∀ j < r, (bp.peek j).waitsForData = false) ∧
      ∀ j, Visible bp j → r < j → (bp.peek j).waitsForPair = false := by
  constructor
  · intro j less
    exact Bool.eq_false_iff.mpr fun waits => absurd (only j (less.trans visible) waits) less.ne
  · intro j visibleJ less
    exact Bool.eq_false_iff.mpr fun waits =>
      absurd (only j visibleJ (Breakpoint2.waitsForData_of_pair waits)) less.ne'

/-- While there has been room, a range that has been placed is the only data
watchpoint so far, and has taken both data slots. -/
structure RangesSoFar (target : Target) (bp : BreakpointTable) (i : Nat) (s : LayoutState) :
    Prop where
  same : SameButSlots bp s.bp
  available : ∀ slot, s.remainingBps.peek slot = true →
    (remainingSlots target bp).peek slot = true
  range : ∀ r < i, (bp.peek r).waitsForPair = true →
    PairFree (remainingSlots target bp) ∧ freeFrom s.remainingBps breakpoint2FirstData = ∅ ∧
      ∀ j < i, (bp.peek j).waitsForData = true → j = r
  data : ∀ j < i, (bp.peek j).waitsForData = true → ¬ PairFree s.remainingBps

theorem not_pairFree_of_empty {remaining : SlotArray}
    (empty : freeFrom remaining breakpoint2FirstData = ∅) : ¬ PairFree remaining := by
  intro free
  have member : breakpoint2FirstData ∈ freeFrom remaining breakpoint2FirstData :=
    mem_freeFrom.mpr ⟨le_refl _, by decide, free.2⟩
  rw [empty] at member
  exact Finset.notMem_empty _ member

theorem freeFrom_taken {remaining : SlotArray}
    (available : ∀ slot, remaining.peek slot = true →
      (remainingSlots target bp).peek slot = true) :
    freeFrom ((remaining.poke breakpoint2DataMask false).poke breakpoint2FirstData false)
      breakpoint2FirstData = ∅ := by
  refine Finset.eq_empty_of_forall_notMem fun slot free => ?_
  obtain ⟨low, high, left⟩ := mem_freeFrom.mp free
  rw [peek_poke_false_iff (by decide), peek_poke_false_iff (by decide)] at left
  obtain ⟨⟨initially, notMask⟩, notFirst⟩ := left
  rcases freeFrom_le_three (mem_freeFrom.mpr ⟨low, high, available slot initially⟩) with
    here | here
  · exact notFirst here.symm
  · exact notMask here.symm

theorem RangesSoFar.turn {i : Nat} {s : LayoutState} {taken : Turn LayoutState}
    (soFar : RangesSoFar target bp i s) (turn : DataTurn i s taken)
    (hadroom : taken.state.hadroom = true) : RangesSoFar target bp (i + 1) taken.state := by
  obtain ⟨same, available, range, data⟩ := soFar
  have blind : (s.bp.peek i).waitsForData = (bp.peek i).waitsForData ∧
      (s.bp.peek i).waitsForPair = (bp.peek i).waitsForPair := by
    obtain ⟨slot, equal⟩ := same i
    rw [equal]
    exact ⟨rfl, rfl⟩
  have earlier : ∀ {j}, j < i + 1 → j ≠ i → j < i := fun less different =>
    Nat.lt_of_le_of_ne (Nat.le_of_lt_succ less) different
  cases turn with
  | pass settled =>
      have idle : (bp.peek i).waitsForData = false := blind.1.symm.trans settled
      have noPair : (bp.peek i).waitsForPair = false := by simp [Breakpoint2.waitsForPair, idle]
      have before : ∀ {j}, j < i + 1 → (bp.peek j).waitsForData = true → j < i := by
        intro j less waits
        refine earlier less ?_
        rintro rfl
        exact Bool.false_ne_true (idle.symm.trans waits)
      refine ⟨same, available, fun r less pair => ?_, fun j less waits => ?_⟩
      · obtain ⟨free, empty, alone⟩ :=
          range r (before less (Breakpoint2.waitsForData_of_pair pair)) pair
        exact ⟨free, empty, fun j less waits => alone j (before less waits) waits⟩
      · exact data j (before less waits) waits
  | drop => cases hadroom
  | starve => cases hadroom
  | pair waits free =>
      have first : ∀ {j}, j < i + 1 → (bp.peek j).waitsForData = true → j = i := by
        intro j less waits
        by_contra different
        exact data j (earlier less different) waits free
      refine ⟨(same.modify _ _).modify i _, fun slot left => ?_, fun r less pair => ?_,
        fun j _ _ => not_pairFree_of_empty (freeFrom_taken available)⟩
      · simp only [Turn.state] at left
        rw [peek_poke_false_iff (by decide), peek_poke_false_iff (by decide)] at left
        exact available slot left.1.1
      · obtain rfl := first less (Breakpoint2.waitsForData_of_pair pair)
        exact ⟨⟨available _ free.1, available _ free.2⟩, freeFrom_taken available,
          fun j less waits => first less waits⟩
  | single waits unmasked slot free =>
      obtain ⟨low, high, left⟩ := mem_freeFrom.mp free
      have noPair : (bp.peek i).waitsForPair = false := by
        rw [← blind.2, Breakpoint2.waitsForPair, unmasked, Bool.and_false]
      have fewer : ∀ {other}, (s.remainingBps.poke slot false).peek other = true →
          s.remainingBps.peek other = true ∧ slot ≠ other :=
        (peek_poke_false_iff high _).mp
      refine ⟨same.modify i _, fun other left => available other (fewer left).1,
        fun r less pair => ?_, fun j _ _ free => ?_⟩
      · have before : r < i := by
          refine earlier less ?_
          rintro rfl
          exact Bool.false_ne_true (noPair.symm.trans pair)
        obtain ⟨_, empty, _⟩ := range r before pair
        rw [empty] at free
        exact absurd free (Finset.notMem_empty _)
      · rcases freeFrom_le_three (mem_freeFrom.mpr ⟨low, high, available slot left⟩) with
          here | here
        · exact (fewer free.2).2 here
        · exact (fewer free.1).2 here

/-- When the loop over the data watchpoints finds room, a waiting range has been
alone, and has both data slots. -/
theorem layoutData_room (hadroom : (layoutData (startLayout target bp)).hadroom = true) :
    SameButSlots bp (layoutData (startLayout target bp)).bp ∧ RangesAlone bp ∧
      ∀ r, Visible bp r → (bp.peek r).waitsForPair = true →
        PairFree (remainingSlots target bp) := by
  have soFar : (layoutData (startLayout target bp)).hadroom = true →
      RangesSoFar target bp (endIndex bp) (layoutData (startLayout target bp)) := by
    refine visit_rule LayoutState.bp (fun _ _ => rfl)
      (fun i s => Adjusts bp s.bp ∧ (s.hadroom = true → RangesSoFar target bp i s))
      (fun s => s.hadroom = true → RangesSoFar target bp (endIndex bp) s)
      ?sameEnd ?turned ?finished ⟨.refl bp, fun _ => ?start⟩
    case start =>
      exact ⟨.refl bp, fun _ => id, fun r less => absurd less (Nat.not_lt_zero r),
        fun j less => absurd less (Nat.not_lt_zero j)⟩
    case sameEnd => exact fun i s here => here.1.endIndex
    case turned =>
      rintro i s visible ⟨adjusts, soFar⟩
      have turn := placeData_turn i s
      generalize placeData i s = taken at turn
      have kept : taken.state.hadroom = true → s.hadroom = true := by
        cases turn <;> first | exact id | exact nofun
      have next : taken.state.hadroom = true → RangesSoFar target bp (i + 1) taken.state :=
        fun room => (soFar (kept room)).turn turn room
      cases taken with
      | next after => exact ⟨turn.adjusts adjusts, next⟩
      | leave after =>
          intro room
          cases turn
          cases room
    case finished => exact fun s here => here.2
  obtain ⟨same, _, range, _⟩ := soFar hadroom
  exact ⟨same, fun r j visibleR visibleJ pair waits => (range r visibleR pair).2.2 j visibleJ waits,
    fun r visible pair => (range r visible pair).1⟩

/-! ## The turn of the range -/

def placedRange (bp : BreakpointTable) (r : Nat) : BreakpointTable :=
  (bp.modify (bp.peek r).maskPointer (Breakpoint2.setBpnum breakpoint2DataMask)).modify r
    (Breakpoint2.setBpnum breakpoint2FirstData)

theorem placedRange_same (bp : BreakpointTable) (r : Nat) : SameButSlots bp (placedRange bp r) :=
  ((SameButSlots.refl bp).modify _ _).modify r _

theorem DataTurn.idle {i : Nat} {s : LayoutState} {taken : Turn LayoutState}
    (turn : DataTurn i s taken) (settled : (s.bp.peek i).waitsForData = false) :
    taken = .next s := by
  cases turn with
  | pass => rfl
  | drop waits =>
      exact absurd (settled.symm.trans (Breakpoint2.waitsForData_of_pair waits)) Bool.noConfusion
  | pair waits =>
      exact absurd (settled.symm.trans (Breakpoint2.waitsForData_of_pair waits)) Bool.noConfusion
  | single waits => exact absurd (settled.symm.trans waits) Bool.noConfusion
  | starve waits => exact absurd (settled.symm.trans waits) Bool.noConfusion

theorem Breakpoint2.Adjusted.disabled {before after : Breakpoint2}
    (adjusted : before.Adjusted after) (off : before.enabled = false) : after.enabled = false := by
  obtain ⟨slot, rfl | rfl⟩ := adjusted
  · exact off
  · rfl

theorem Breakpoint2.Adjusted.waitsForData {before after : Breakpoint2}
    (adjusted : before.Adjusted after) (waits : after.waitsForData = true) :
    before.waitsForData = true := by
  obtain ⟨slot, rfl | rfl⟩ := adjusted
  · exact waits
  · cases waits

theorem DataTurn.stays_disabled {i j : Nat} {s : LayoutState} {taken : Turn LayoutState}
    (turn : DataTurn i s taken) (off : (s.bp.peek j).enabled = false) :
    (taken.state.bp.peek j).enabled = false :=
  (turn.adjusts (.refl s.bp) j).disabled off

section First

variable {r : Nat} (visible : Visible bp r) (pair : (bp.peek r).waitsForPair = true)
  (first : ∀ j < r, (bp.peek j).waitsForData = false)
include visible pair first

theorem layoutData_placed (later : ∀ j, Visible bp j → r < j → (bp.peek j).waitsForPair = false)
    (free : PairFree (remainingSlots target bp)) :
    (layoutData (startLayout target bp)).bp = placedRange bp r ∧
      (layoutData (startLayout target bp)).remainingBps =
        ((remainingSlots target bp).poke breakpoint2DataMask false).poke breakpoint2FirstData
          false ∧
      ((∀ j, Visible bp j → (bp.peek j).waitsForData = true → j = r) →
        (layoutData (startLayout target bp)).hadroom = true) := by
  refine visit_rule LayoutState.bp (fun _ _ => rfl)
    (fun i s => (i ≤ r → s = startLayout target bp) ∧ (r < i → s.bp = placedRange bp r ∧
      s.remainingBps = ((remainingSlots target bp).poke breakpoint2DataMask false).poke
        breakpoint2FirstData false ∧ s.hadroom = true))
    (fun s => s.bp = placedRange bp r ∧
      s.remainingBps = ((remainingSlots target bp).poke breakpoint2DataMask false).poke
        breakpoint2FirstData false ∧
      ((∀ j, Visible bp j → (bp.peek j).waitsForData = true → j = r) → s.hadroom = true))
    ?sameEnd ?turned ?finished
    ⟨fun _ => rfl, fun less => absurd less (Nat.not_lt_zero r)⟩
  case sameEnd =>
    rintro i s ⟨before, after⟩
    rcases Nat.lt_or_ge r i with beyond | upTo
    · rw [(after beyond).1, (placedRange_same bp r).endIndex]
      rfl
    · rw [before upTo]
  case turned =>
    rintro i s visibleI ⟨before, after⟩
    have turn := placeData_turn i s
    generalize placeData i s = taken at turn
    rcases Nat.lt_trichotomy i r with earlier | rfl | beyond
    · obtain rfl := before (Nat.le_of_lt earlier)
      obtain rfl := turn.idle (first i earlier)
      exact ⟨fun _ => rfl, fun less => absurd less (Nat.not_lt.mpr earlier)⟩
    · obtain rfl := before (le_refl i)
      have data := Breakpoint2.waitsForData_of_pair pair
      have masked := (Breakpoint2.waitsForPair_iff.mp pair).2
      cases turn with
      | pass settled => exact absurd (settled.symm.trans data) Bool.noConfusion
      | drop _ full => exact absurd free full
      | pair => exact ⟨fun less => absurd less (Nat.not_succ_le_self i), fun _ => ⟨rfl, rfl, rfl⟩⟩
      | single _ unmasked => exact absurd (unmasked.symm.trans masked) Bool.noConfusion
      | starve _ unmasked => exact absurd (unmasked.symm.trans masked) Bool.noConfusion
    · obtain ⟨table, remaining, room⟩ := after beyond
      have empty : freeFrom s.remainingBps breakpoint2FirstData = ∅ := by
        rw [remaining]
        exact freeFrom_taken fun _ => id
      have single : (s.bp.peek i).waitsForPair = false := by
        obtain ⟨slot, equal⟩ := placedRange_same bp r i
        rw [table, equal]
        exact later i visibleI beyond
      cases turn with
      | pass => exact ⟨fun less => absurd less (Nat.not_le.mpr (Nat.lt_succ_of_lt beyond)),
          fun _ => ⟨table, remaining, room⟩⟩
      | drop waits => exact absurd (single.symm.trans waits) Bool.noConfusion
      | pair waits => exact absurd (single.symm.trans waits) Bool.noConfusion
      | single _ _ _ taken =>
          rw [empty] at taken
          exact absurd taken (Finset.notMem_empty _)
      | starve waits =>
          refine ⟨table, remaining, fun alone => absurd (alone i visibleI ?_) beyond.ne'⟩
          obtain ⟨slot, equal⟩ := placedRange_same bp r i
          rw [table, equal] at waits
          exact waits
  case finished =>
    rintro s ⟨_, after⟩
    obtain ⟨table, remaining, room⟩ := after visible
    exact ⟨table, remaining, fun _ => room⟩

theorem layoutData_dropped (full : ¬ PairFree (remainingSlots target bp)) :
    ((layoutData (startLayout target bp)).bp.peek r).enabled = false := by
  refine visit_rule LayoutState.bp (fun _ _ => rfl)
    (fun i s => Adjusts bp s.bp ∧ (i ≤ r → s = startLayout target bp) ∧
      (r < i → (s.bp.peek r).enabled = false))
    (fun s => (s.bp.peek r).enabled = false) ?sameEnd ?turned ?finished
    ⟨.refl bp, fun _ => rfl, fun less => absurd less (Nat.not_lt_zero r)⟩
  case sameEnd => exact fun i s here => here.1.endIndex
  case turned =>
    rintro i s visibleI ⟨adjusts, before, after⟩
    have turn := placeData_turn i s
    generalize placeData i s = taken at turn
    have adjusts' := turn.adjusts adjusts
    rcases Nat.lt_trichotomy i r with earlier | rfl | beyond
    · obtain rfl := before (Nat.le_of_lt earlier)
      obtain rfl := turn.idle (first i earlier)
      exact ⟨adjusts', fun _ => rfl, fun less => absurd less (Nat.not_lt.mpr earlier)⟩
    · obtain rfl := before (le_refl i)
      have masked := (Breakpoint2.waitsForPair_iff.mp pair).2
      cases turn with
      | pass settled =>
          exact absurd (settled.symm.trans (Breakpoint2.waitsForData_of_pair pair)) Bool.noConfusion
      | pair _ free => exact absurd free full
      | single _ unmasked => exact absurd (unmasked.symm.trans masked) Bool.noConfusion
      | starve _ unmasked => exact absurd (unmasked.symm.trans masked) Bool.noConfusion
      | drop =>
          refine ⟨adjusts', fun less => absurd less (Nat.not_succ_le_self i), fun _ => ?_⟩
          rw [CArray.peek_modify_same _ _ (lt_of_visible visible)]
          rfl
    · have off := turn.stays_disabled (after beyond)
      cases taken with
      | next =>
          have past := Nat.not_le.mpr (Nat.lt_succ_of_lt beyond)
          exact ⟨adjusts', fun less => absurd less past, fun _ => off⟩
      | leave => exact off
  case finished => exact fun s here => here.2.2 visible

end First

theorem layoutData_behind {i r : Nat} (visible : Visible bp r) (less : i < r)
    (pair : (bp.peek r).waitsForPair = true) (waits : (bp.peek i).waitsForData = true)
    (others : ∀ j < r, (bp.peek j).waitsForData = true → j = i) :
    ((layoutData (startLayout target bp)).bp.peek r).enabled = false ∨
      ¬ PairFree (remainingSlots target bp) ∧ (layoutData (startLayout target bp)).bp = bp := by
  refine visit_rule LayoutState.bp (fun _ _ => rfl)
    (fun k s => Adjusts bp s.bp ∧ (k ≤ i → s = startLayout target bp) ∧
      (i < k → k ≤ r → ¬ PairFree s.remainingBps) ∧ (r < k → (s.bp.peek r).enabled = false))
    (fun s => (s.bp.peek r).enabled = false ∨
      ¬ PairFree (remainingSlots target bp) ∧ s.bp = bp)
    ?sameEnd ?turned ?finished
    ⟨.refl bp, fun _ => rfl, fun less => absurd less (Nat.not_lt_zero i),
      fun less => absurd less (Nat.not_lt_zero r)⟩
  case sameEnd => exact fun k s here => here.1.endIndex
  case turned =>
    rintro k s visibleK ⟨adjusts, before, between, after⟩
    have turn := placeData_turn k s
    generalize placeData k s = taken at turn
    have adjusts' := turn.adjusts adjusts
    rcases Nat.lt_trichotomy k i with earlier | rfl | later
    · obtain rfl := before (Nat.le_of_lt earlier)
      have idle : (bp.peek k).waitsForData = false := Bool.eq_false_iff.mpr fun waitsK =>
        absurd (others k (earlier.trans less) waitsK) earlier.ne
      obtain rfl := turn.idle idle
      exact ⟨adjusts', fun _ => rfl, fun beyond => absurd beyond (Nat.not_lt.mpr earlier),
        fun beyond => absurd (beyond.trans_le (Nat.succ_le_of_lt (earlier.trans less)))
          (lt_irrefl r)⟩
    · obtain rfl := before (le_refl k)
      have next : ∀ {remaining : SlotArray}, ¬ PairFree remaining →
          (k + 1 ≤ k → taken.state = startLayout target bp) ∧
            (k < k + 1 → k + 1 ≤ r → ¬ PairFree remaining) ∧
            (r < k + 1 → (taken.state.bp.peek r).enabled = false) := fun full =>
        ⟨fun beyond => absurd beyond (Nat.not_succ_le_self k), fun _ _ => full,
          fun beyond => absurd (Nat.lt_of_lt_of_le beyond less) (lt_irrefl r)⟩
      cases turn with
      | pass settled => exact absurd (settled.symm.trans waits) Bool.noConfusion
      | drop _ full => exact ⟨adjusts', next full⟩
      | pair => exact ⟨adjusts', next (not_pairFree_of_empty (freeFrom_taken fun _ => id))⟩
      | single _ _ slot free =>
          refine ⟨adjusts', next fun both => ?_⟩
          have fewer : ∀ {other}, ((remainingSlots target bp).poke slot false).peek other = true →
              slot ≠ other := fun left =>
            ((peek_poke_false_iff (mem_freeFrom.mp free).2.1 _).mp left).2
          rcases freeFrom_le_three free with here | here
          · exact fewer both.2 here
          · exact fewer both.1 here
      | starve _ _ full => exact .inr ⟨not_pairFree_of_empty full, rfl⟩
    · rcases Nat.lt_trichotomy k r with earlier | rfl | beyond
      · have idle : (s.bp.peek k).waitsForData = false := Bool.eq_false_iff.mpr fun waitsK =>
          absurd (others k earlier ((adjusts k).waitsForData waitsK)) later.ne'
        obtain rfl := turn.idle idle
        exact ⟨adjusts', fun upTo => absurd upTo (Nat.not_le.mpr (Nat.lt_succ_of_lt later)),
          fun _ _ => between later (Nat.le_of_lt earlier),
          fun beyond => absurd (beyond.trans_le (Nat.succ_le_of_lt earlier)) (lt_irrefl r)⟩
      · have full := between later (le_refl k)
        have off : (taken.state.bp.peek k).enabled = false := by
          obtain ⟨slot, equal | equal⟩ := adjusts k
          · cases turn with
            | pass settled =>
                rw [equal] at settled
                exact absurd (settled.symm.trans (Breakpoint2.waitsForData_of_pair pair))
                  Bool.noConfusion
            | pair _ free => exact absurd free full
            | single _ unmasked =>
                rw [equal] at unmasked
                exact absurd (unmasked.symm.trans (Breakpoint2.waitsForPair_iff.mp pair).2)
                  Bool.noConfusion
            | starve _ unmasked =>
                rw [equal] at unmasked
                exact absurd (unmasked.symm.trans (Breakpoint2.waitsForPair_iff.mp pair).2)
                  Bool.noConfusion
            | drop =>
                simp only [Turn.state]
                rw [CArray.peek_modify_same _ _ (lt_of_visible visible)]
                rfl
          · exact turn.stays_disabled (by rw [equal]; rfl)
        cases taken with
        | next =>
            have past := Nat.not_le.mpr (Nat.lt_succ_of_lt later)
            exact ⟨adjusts', fun upTo => absurd upTo past,
              fun _ upTo => absurd upTo (Nat.not_succ_le_self k), fun _ => off⟩
        | leave => exact .inl off
      · have off := turn.stays_disabled (after beyond)
        cases taken with
        | next =>
            have past := Nat.not_le.mpr (Nat.lt_succ_of_lt later)
            have past' := Nat.not_le.mpr (Nat.lt_succ_of_lt beyond)
            exact ⟨adjusts', fun upTo => absurd upTo past, fun _ upTo => absurd upTo past',
              fun _ => off⟩
        | leave => exact .inl off
  case finished => exact fun s here => .inl (here.2.2.2 visible)

/-! ## The whole layout -/

theorem layout_disabled {j : Nat}
    (off : ((layoutData (startLayout target bp)).bp.peek j).enabled = false) :
    ((layoutBreakpoints target bp).2.peek j).enabled = false :=
  (layoutCode_adjusts (softwarebps target) (.refl _) j).disabled off

theorem layout_placed {r : Nat} (visible : Visible bp r) (pair : (bp.peek r).waitsForPair = true)
    (first : ∀ j < r, (bp.peek j).waitsForData = false)
    (later : ∀ j, Visible bp j → r < j → (bp.peek j).waitsForPair = false)
    (free : PairFree (remainingSlots target bp)) :
    SameButSlots bp (layoutBreakpoints target bp).2 ∧
      ∀ j, (bp.peek j).waitsForCode = false →
        (layoutBreakpoints target bp).2.peek j = (placedRange bp r).peek j := by
  obtain ⟨table, _, _⟩ := layoutData_placed visible pair first later free
  obtain ⟨placed, _⟩ := layoutCode_spec target bp
  have same := placedRange_same bp r
  rw [← table] at same ⊢
  refine ⟨same.trans placed.entries, fun j settled => placed.untouched j fun waits => ?_⟩
  have code := (mem_waiting.mp waits).2
  obtain ⟨slot, equal⟩ := same j
  rw [equal, Breakpoint2.waitsForCode_setBpnum, settled] at code
  cases code

theorem freeFrom_taken_zero :
    freeFrom (((remainingSlots target bp).poke breakpoint2DataMask false).poke
      breakpoint2FirstData false) 0 =
        (freeSlots target bp).filter (· < breakpoint2FirstData) := by
  ext slot
  rw [mem_freeFrom, peek_poke_false_iff (by decide), peek_poke_false_iff (by decide),
    remainingSlots_peek, Finset.mem_filter]
  constructor
  · rintro ⟨_, _, ⟨free, notMask⟩, notFirst⟩
    have high : slot ≤ 3 := (Finset.mem_Icc.mp (Finset.mem_filter.mp free).1).2
    refine ⟨free, ?_⟩
    change 3 ≠ slot at notMask
    change 2 ≠ slot at notFirst
    show slot < 2
    omega
  · rintro ⟨free, low⟩
    change slot < 2 at low
    have small : slot ≤ maxBreakpoints2 := Nat.le_trans low.le (by decide)
    exact ⟨Nat.zero_le _, small, ⟨free, (low.trans (Nat.lt_succ_self 2)).ne'⟩, low.ne'⟩

theorem layout_hadroom_iff_fits :
    (layoutBreakpoints target bp).1 = true ↔ Fits target bp := by
  obtain ⟨placed, codeCase⟩ := layoutCode_spec target bp
  constructor
  · intro hadroom
    have between : (layoutData (startLayout target bp)).hadroom = true := placed.hadroom hadroom
    obtain ⟨same, alone, free⟩ := layoutData_room between
    by_cases single : NoRangesWaiting bp
    · exact .inl ⟨single, (layout_hadroom_iff target single).mp hadroom⟩
    · right
      obtain ⟨r, visible, pair⟩ := exists_range_of_waiting single
      have only := fun j visibleJ => alone r j visible visibleJ pair
      have slots := pairFree_iff.mp (free r visible pair)
      refine ⟨⟨r, visible, pair, only, slots.1, slots.2⟩, ?_⟩
      obtain ⟨first, later⟩ := around_only visible only
      obtain ⟨_, remaining, _⟩ := layoutData_placed visible pair first later (free r visible pair)
      rcases codeCase with onCode | ⟨failed, _⟩
      · cases soft : softwarebps target with
        | true => exact .inl rfl
        | false =>
            right
            have count := onCode.consumed (by simp [soft]) 0 (le_refl _)
            rw [count_eq_card_waiting, same.waiting Breakpoint2.waitsForCode_setBpnum, remaining,
              freeFrom_taken_zero] at count
            omega
      · exact absurd (hadroom.symm.trans failed) Bool.noConfusion
  · rintro (⟨single, room⟩ | ⟨⟨r, visible, pair, only, firstFree, maskFree⟩, codes⟩)
    · exact (layout_hadroom_iff target single).mpr room
    · have free : PairFree (remainingSlots target bp) := pairFree_iff.mpr ⟨firstFree, maskFree⟩
      obtain ⟨first, later⟩ := around_only visible only
      obtain ⟨table, remaining, room⟩ := layoutData_placed visible pair first later free
      have same := placedRange_same bp r
      rw [← table] at same
      rcases codeCase with onCode | ⟨_, hard, few⟩
      · exact onCode.hadroom.trans (room only)
      · rw [remaining, freeFrom_taken_zero, same.waiting Breakpoint2.waitsForCode_setBpnum] at few
        rw [hard] at codes
        exact absurd (codes.resolve_left Bool.false_ne_true) (Nat.not_le.mpr few)

def AdmissibleSlot (target : Target) (type : BpType) (slot : Nat) : Prop :=
  target.useDebugWire = false ∧ (slot = breakpoint2FirstData ∨ slot = breakpoint2DataMask ∨
      type = .code ∧ slot = 1) ∨
    type = .code ∧ slot = 0 ∧ softwarebps target = true

theorem layout_slots (hadroom : (layoutBreakpoints target bp).1 = true) :
    SameButSlots bp (layoutBreakpoints target bp).2 ∧
      ∀ j, Visible bp j → (bp.peek j).waits = true →
        AdmissibleSlot target (bp.peek j).type ((layoutBreakpoints target bp).2.peek j).bpnum := by
  obtain ⟨placed, codeCase⟩ := layoutCode_spec target bp
  have between : (layoutData (startLayout target bp)).hadroom = true := placed.hadroom hadroom
  obtain ⟨same, alone, free⟩ := layoutData_room between
  refine ⟨same.trans placed.entries, fun j visible waits => ?_⟩
  have wired : ∀ {slot}, slot ∈ freeSlots target bp → target.useDebugWire = false := fun free =>
    (Finset.mem_filter.mp free).2.1
  rcases Bool.or_eq_true_iff.mp waits with data | code
  · have kept : (layoutBreakpoints target bp).2.peek j =
        (layoutData (startLayout target bp)).bp.peek j := by
      refine placed.untouched j fun both => ?_
      have code := (mem_waiting.mp both).2
      obtain ⟨slot, equal⟩ := same j
      rw [equal, Breakpoint2.waitsForCode_setBpnum, Breakpoint2.not_code_of_data data] at code
      cases code
    rw [kept]
    by_cases pair : (bp.peek j).waitsForPair = true
    · have only := fun k visibleK => alone j k visible visibleK pair
      obtain ⟨first, later⟩ := around_only visible only
      obtain ⟨table, _, _⟩ := layoutData_placed visible pair first later (free j visible pair)
      rw [table, placedRange, CArray.peek_modify_same _ _ (lt_of_visible visible)]
      exact .inl ⟨wired (pairFree_iff.mp (free j visible pair)).1, .inl rfl⟩
    · have single : NoRangesWaiting bp := by
        intro k visibleK dataK
        refine Bool.eq_false_iff.mpr fun masked => pair ?_
        have pairK := Breakpoint2.waitsForPair_iff.mpr ⟨dataK, masked⟩
        rw [alone k j visibleK visible pairK data]
        exact pairK
      have equal : layoutData (startLayout target bp) = afterData target bp := layoutData_eq single
      rw [equal] at between ⊢
      rcases (afterData_spec target bp).2 with onData | ⟨failed, _⟩
      · have slot := (onData.placed j visible data).resolve_right (by simp)
        have member := slot
        rw [show (startLayout target bp).remainingBps = remainingSlots target bp from rfl,
          freeFrom_remainingSlots] at member
        refine .inl ⟨wired (Finset.mem_filter.mp member).1, ?_⟩
        exact (freeFrom_le_three slot).imp id .inl
      · exact absurd (between.symm.trans failed) Bool.noConfusion
  · have isCode : (bp.peek j).type = .code := by
      simp only [Breakpoint2.waitsForCode, Bool.and_eq_true, beq_iff_eq] at code
      exact code.2
    rcases codeCase with onCode | ⟨failed, _⟩
    · have stillCode : ((layoutData (startLayout target bp)).bp.peek j).waitsForCode = true := by
        obtain ⟨slot, equal⟩ := same j
        rw [equal]
        exact code
      rcases onCode.placed j (same.visible.mpr visible) stillCode with slot | falls
      · obtain ⟨_, _, left⟩ := mem_freeFrom.mp slot
        have member := (remainingSlots_peek target bp _).mp (layoutData_available _ left)
        have inside := Finset.mem_Icc.mp (Finset.mem_filter.mp member).1
        have either : ∀ {slot : Nat}, 1 ≤ slot ∧ slot ≤ 3 → slot = 2 ∨ slot = 3 ∨ slot = 1 := by
          omega
        exact .inl ⟨wired member, (either inside).imp id (Or.imp id fun one => ⟨isCode, one⟩)⟩
      · split at falls
        next soft => exact .inr ⟨isCode, (Option.some.inj falls).symm, soft⟩
        next => cases falls
    · exact absurd (hadroom.symm.trans failed) Bool.noConfusion

end Alone

end Avarice.Mk2

import Avarice.Mk2.Breakpoint.Reached

/-!
# What a layout leaves of a range breakpoint

Whether or not there is room for everything: a range that waits is given its
slots if both are free and no other data watchpoint waits in front of it, and
is turned off with the entry its mask pointer names if not.
-/

namespace Avarice.Mk2

open Scan

/-- The breakpoint is in the ICE for good, or has a slot there for the next
update. -/
def Breakpoint2.Armed (target : Target) (entry : Breakpoint2) : Prop :=
  entry.enabled = true ∧ (entry.stable = true ∨
    entry.waits = true ∧ AdmissibleSlot target entry.type entry.bpnum)

/-- Both data slots are free, and no data watchpoint waits in front of the
entry. -/
structure Leads (target : Target) (bp : BreakpointTable) (r : Nat) : Prop where
  first : breakpoint2FirstData ∈ freeSlots target bp
  mask : breakpoint2DataMask ∈ freeSlots target bp
  before : ∀ j < r, (bp.peek j).waitsForData = false

/-- A range that waits and cannot have its slots. -/
structure Starved (target : Target) (bp : BreakpointTable) (r : Nat) : Prop where
  visible : Visible bp r
  waits : (bp.peek r).waitsForPair = true
  behind : ¬ Leads target bp r

/-- An enabled range that the layout will leave armed: it waits and can have its
slots, or it is in the ICE for good and is the mask of no range that cannot. -/
def KeepsSlots (target : Target) (bp : BreakpointTable) (j : Nat) : Prop :=
  (bp.peek j).enabled = true ∧
    ((bp.peek j).waitsForPair = true ∧ Leads target bp j ∨
      (bp.peek j).stable = true ∧ ∀ r, Starved target bp r → (bp.peek r).maskPointer ≠ j)

section Leaves

variable {target : Target} {bp : BreakpointTable} {i : Nat}

theorem leads_iff {r : Nat} : Leads target bp r ↔
    PairFree (remainingSlots target bp) ∧ ∀ j < r, (bp.peek j).waitsForData = false :=
  ⟨fun ⟨first, mask, before⟩ => ⟨pairFree_iff.mpr ⟨first, mask⟩, before⟩,
    fun ⟨free, before⟩ => ⟨(pairFree_iff.mp free).1, (pairFree_iff.mp free).2, before⟩⟩

theorem Breakpoint2.Adjusted.waitsForPair {before after : Breakpoint2}
    (adjusted : before.Adjusted after) (waits : after.waitsForPair = true) :
    before.waitsForPair = true := by
  obtain ⟨slot, rfl | rfl⟩ := adjusted
  · exact waits
  · cases waits

theorem layoutData_keeps
    (only : ∀ r ≠ i, Visible bp r → (bp.peek r).waitsForPair = false) {j : Nat} (notI : j ≠ i)
    (notMask : j ≠ (bp.peek i).maskPointer) :
    ∃ slot, (layoutData (startLayout target bp)).bp.peek j = (bp.peek j).setBpnum slot := by
  have slotted : ∀ {table : BreakpointTable} {k slot : Nat},
      (∃ slot, table.peek j = (bp.peek j).setBpnum slot) →
        ∃ slot', (table.modify k (Breakpoint2.setBpnum slot)).peek j =
          (bp.peek j).setBpnum slot' := by
    rintro table k slot ⟨old, equal⟩
    rw [CArray.peek_modify, equal]
    split
    · exact ⟨slot, rfl⟩
    · exact ⟨old, rfl⟩
  refine visit_rule LayoutState.bp (fun _ _ => rfl)
    (fun _ s => Adjusts bp s.bp ∧ ∃ slot, s.bp.peek j = (bp.peek j).setBpnum slot)
    (fun s => ∃ slot, s.bp.peek j = (bp.peek j).setBpnum slot)
    ?sameEnd ?turned ?finished ⟨.refl bp, _, rfl⟩
  case sameEnd => exact fun _ _ here => here.1.endIndex
  case finished => exact fun _ here => here.2
  case turned =>
    rintro k s visible ⟨adjusts, same⟩
    have turn := placeData_turn k s
    generalize placeData k s = taken at turn
    have adjusts' := turn.adjusts adjusts
    cases turn with
    | pass => exact ⟨adjusts', same⟩
    | drop waits =>
        have here : k = i := by
          by_contra different
          exact absurd ((only k different visible).symm.trans ((adjusts k).waitsForPair waits))
            Bool.noConfusion
        subst here
        obtain ⟨slot, equal⟩ := same
        refine ⟨adjusts', slot, ?_⟩
        rw [(adjusts k).maskPointer, CArray.peek_modify_ne _ _ notI.symm,
          CArray.peek_modify_ne _ _ notMask.symm, equal]
    | pair => exact ⟨adjusts', slotted (slotted same)⟩
    | single => exact ⟨adjusts', slotted same⟩
    | starve => exact same

theorem DataTurn.of_range {i : Nat} {s : LayoutState} {taken : Turn LayoutState}
    (turn : DataTurn i s taken)
    (range : (s.bp.peek i).waitsForData = true → (s.bp.peek i).waitsForPair = true) :
    taken = .next taken.state ∧ ((s.bp.peek i).waitsForData = true →
        ¬ PairFree taken.state.remainingBps) ∧
      ∀ j ≠ i, j ≠ (s.bp.peek i).maskPointer → taken.state.bp.peek j = s.bp.peek j := by
  have single : (s.bp.peek i).waitsForData = true → BpType.masked (s.bp.peek i).type = true :=
    fun waits => (Breakpoint2.waitsForPair_iff.mp (range waits)).2
  cases turn with
  | pass settled =>
      exact ⟨rfl, fun waits => absurd (settled.symm.trans waits) Bool.noConfusion, fun _ _ _ => rfl⟩
  | drop _ full =>
      refine ⟨rfl, fun _ => full, fun j differs apart => ?_⟩
      rw [Turn.state, CArray.peek_modify_ne _ _ differs.symm, CArray.peek_modify_ne _ _ apart.symm]
  | pair =>
      refine ⟨rfl, fun _ free => ?_, fun j differs apart => ?_⟩
      · exact ((peek_poke_false_iff (by decide) _).mp free.2).2 rfl
      · rw [Turn.state, CArray.peek_modify_ne _ _ differs.symm,
          CArray.peek_modify_ne _ _ apart.symm]
  | single waits unmasked =>
      exact absurd (unmasked.symm.trans (single waits)) Bool.noConfusion
  | starve waits unmasked =>
      exact absurd (unmasked.symm.trans (single waits)) Bool.noConfusion

/-- What becomes of entry `j` in a table where range `r` waits. -/
def LeftBy (target : Target) (bp : BreakpointTable) (r j : Nat) (after : BreakpointTable) : Prop :=
  (Leads target bp r → ∃ slot, after.peek j = (bp.peek j).setBpnum slot ∧
      (j = r → slot = breakpoint2FirstData) ∧
      (j ≠ r → j = (bp.peek r).maskPointer → slot = breakpoint2DataMask)) ∧
    (¬ Leads target bp r → if j = r ∨ j = (bp.peek r).maskPointer
      then (after.peek j).enabled = false else after.peek j = bp.peek j)

theorem layoutData_other_range (alone : RangesAloneBut i bp)
    (range : (bp.peek i).waitsForData = true → (bp.peek i).waitsForPair = true) {r : Nat}
    (notI : r ≠ i) (visible : Visible bp r) (pair : (bp.peek r).waitsForPair = true) {j : Nat}
    (visibleJ : Visible bp j) (differs : j ≠ i)
    (pointer : Visible bp i → (bp.peek i).waitsForData = true →
      r ≠ (bp.peek i).maskPointer ∧ j ≠ (bp.peek i).maskPointer) :
    LeftBy target bp r j (layoutData (startLayout target bp)).bp := by
  have data := Breakpoint2.waitsForData_of_pair pair
  have others : ∀ k, Visible bp k → (bp.peek k).waitsForData = true → k = i ∨ k = r := by
    intro k visibleK waits
    by_cases here : k = i
    · exact .inl here
    · exact .inr (alone r k notI here visible visibleK pair waits)
  refine visit_rule LayoutState.bp (fun _ _ => rfl)
    (fun k s => Adjusts bp s.bp ∧
      (PairFree s.remainingBps ↔ PairFree (remainingSlots target bp) ∧
        ∀ k' < k, (bp.peek k').waitsForData = false) ∧
      (k ≤ r → s.bp.peek r = bp.peek r ∧ s.bp.peek j = bp.peek j ∧ (k ≤ i → s.bp = bp)) ∧
      (r < k → LeftBy target bp r j s.bp))
    (fun s => LeftBy target bp r j s.bp)
    ?sameEnd ?turned ?finished
    ⟨.refl bp, by simp [startLayout], fun _ => ⟨rfl, rfl, fun _ => rfl⟩,
      fun less => absurd less (Nat.not_lt_zero r)⟩
  case sameEnd => exact fun _ _ here => here.1.endIndex
  case finished => exact fun _ here => here.2.2.2 visible
  case turned =>
    rintro k s visibleK ⟨adjusts, free, before, after⟩
    have turn := placeData_turn k s
    generalize placeData k s = taken at turn
    have adjusts' := turn.adjusts adjusts
    by_cases atR : k = r
    · subst atR
      obtain ⟨sameR, sameJ, _⟩ := before (le_refl k)
      have past : ¬ k + 1 ≤ k := Nat.not_succ_le_self k
      have taken' : ∀ {remaining : SlotArray}, ¬ PairFree remaining →
          (PairFree remaining ↔ PairFree (remainingSlots target bp) ∧
            ∀ k' < k + 1, (bp.peek k').waitsForData = false) := fun full =>
        ⟨fun free => absurd free full, fun idle => absurd ((idle.2 k (Nat.lt_succ_self k)).symm.trans
          data) Bool.noConfusion⟩
      obtain ⟨_, full, _⟩ := turn.of_range fun _ => sameR ▸ pair
      cases turn with
      | pass settled =>
          rw [sameR] at settled
          exact absurd (settled.symm.trans data) Bool.noConfusion
      | drop _ none =>
          refine ⟨adjusts', taken' (full (sameR ▸ data)), fun upTo => absurd upTo past, fun _ =>
            ⟨fun leads => absurd (free.mpr (leads_iff.mp leads)) none, fun _ => ?_⟩⟩
          have inside := lt_of_visible visibleJ
          rw [sameR]
          split
          next off =>
            rw [CArray.peek_modify]
            split
            · rfl
            next elsewhere =>
              have isMask := off.resolve_left fun same => elsewhere ⟨same.symm, same ▸ inside⟩
              rw [← isMask, CArray.peek_modify_same _ _ inside]
              rfl
          next other =>
            obtain ⟨notR, notPointer⟩ := not_or.mp other
            rw [CArray.peek_modify_ne _ _ (Ne.symm notR),
              CArray.peek_modify_ne _ _ (Ne.symm notPointer), sameJ]
      | pair _ both =>
          refine ⟨adjusts', taken' (full (sameR ▸ data)), fun upTo => absurd upTo past, fun _ =>
            ⟨fun _ => ?_, fun behind => absurd (leads_iff.mpr (free.mp both)) behind⟩⟩
          by_cases isRange : j = k
          · subst isRange
            refine ⟨breakpoint2FirstData, ?_, fun _ => rfl, fun differs => absurd rfl differs⟩
            rw [CArray.peek_modify_same _ _ (lt_of_visible visibleJ), CArray.peek_modify]
            split <;> rw [sameJ]
            rfl
          · rw [CArray.peek_modify_ne _ _ (Ne.symm isRange), CArray.peek_modify]
            split
            · exact ⟨breakpoint2DataMask, by rw [sameJ], fun same => absurd same isRange,
                fun _ _ => rfl⟩
            next elsewhere =>
              refine ⟨(bp.peek j).bpnum, by rw [sameJ]; rfl, fun same => absurd same isRange,
                fun _ isMask => absurd ⟨?_, ?_⟩ elsewhere⟩
              · rw [sameR, isMask]
              · rw [sameR, ← isMask]
                exact lt_of_visible visibleJ
      | single _ unmasked =>
          rw [sameR] at unmasked
          exact absurd (unmasked.symm.trans (Breakpoint2.waitsForPair_iff.mp pair).2)
            Bool.noConfusion
      | starve _ unmasked =>
          rw [sameR] at unmasked
          exact absurd (unmasked.symm.trans (Breakpoint2.waitsForPair_iff.mp pair).2)
            Bool.noConfusion
    by_cases atI : k = i
    · subst atI
      have range' : (s.bp.peek k).waitsForData = true → (s.bp.peek k).waitsForPair = true := by
        intro waits
        have pairI := range ((adjusts k).waitsForData waits)
        rw [Breakpoint2.waitsForPair_iff, (adjusts k).type]
        exact ⟨waits, (Breakpoint2.waitsForPair_iff.mp pairI).2⟩
      obtain ⟨next, full, elsewhere⟩ := turn.of_range range'
      rw [(adjusts k).maskPointer] at elsewhere
      have unchanged : taken.state.bp.peek r = s.bp.peek r ∧
          taken.state.bp.peek j = s.bp.peek j := by
        cases waits : (bp.peek k).waitsForData with
        | false =>
            obtain rfl := turn.idle (Bool.eq_false_iff.mpr fun waits' =>
              absurd (waits.symm.trans ((adjusts k).waitsForData waits')) Bool.noConfusion)
            exact ⟨rfl, rfl⟩
        | true =>
            obtain ⟨notR, notJ⟩ := pointer visibleK waits
            exact ⟨elsewhere r notI notR, elsewhere j differs notJ⟩
      obtain ⟨atR', atJ⟩ := unchanged
      rw [next]
      refine ⟨adjusts', ?_, fun upTo => ⟨?_, ?_, fun past => ?_⟩, fun past => ?_⟩
      · cases waits : (bp.peek k).waitsForData with
        | false =>
            obtain rfl := turn.idle (Bool.eq_false_iff.mpr fun waits' =>
              absurd (waits.symm.trans ((adjusts k).waitsForData waits')) Bool.noConfusion)
            refine free.trans (and_congr_right fun _ => ?_)
            rw [Nat.forall_lt_succ_right]
            exact (and_iff_left waits).symm
        | true =>
            refine ⟨fun both => ?_, fun idle => absurd ((idle.2 k (Nat.lt_succ_self k)).symm.trans
              waits) Bool.noConfusion⟩
            rcases Nat.lt_or_gt_of_ne notI with earlier | later
            · have idle := free.mp ⟨turn.available both.1, turn.available both.2⟩
              exact absurd ((idle.2 r earlier).symm.trans data) Bool.noConfusion
            · obtain ⟨_, _, same⟩ := before (Nat.le_of_lt later)
              rw [same (le_refl k)] at full
              exact absurd both (full waits)
      · rw [atR', (before (Nat.le_of_succ_le upTo)).1]
      · rw [atJ, (before (Nat.le_of_succ_le upTo)).2.1]
      · exact absurd past (Nat.not_succ_le_self k)
      · have here := after (Nat.lt_of_le_of_ne (Nat.le_of_lt_succ past) notI)
        rw [LeftBy, atJ]
        exact here
    · have idle : (bp.peek k).waitsForData = false := Bool.eq_false_iff.mpr fun waits =>
        (others k visibleK waits).elim atI atR
      obtain rfl := turn.idle (Bool.eq_false_iff.mpr fun waits =>
        absurd (idle.symm.trans ((adjusts k).waitsForData waits)) Bool.noConfusion)
      have still : (∀ k' < k + 1, (bp.peek k').waitsForData = false) ↔
          ∀ k' < k, (bp.peek k').waitsForData = false := by
        rw [Nat.forall_lt_succ_right]
        exact and_iff_left idle
      refine ⟨adjusts', by rw [still]; exact free, fun upTo => ?_, fun past => ?_⟩
      · obtain ⟨sameR, sameJ, same⟩ := before (Nat.le_of_succ_le upTo)
        exact ⟨sameR, sameJ, fun upToI => same (Nat.le_of_succ_le upToI)⟩
      · exact after (Nat.lt_of_le_of_ne (Nat.le_of_lt_succ past) (Ne.symm atR))

theorem Breakpoint2.not_code_of_masked {entry : Breakpoint2}
    (masked : BpType.masked entry.type = true) : entry.waitsForCode = false := by
  by_cases isCode : entry.type = .code
  · rw [isCode] at masked
    exact absurd masked (by decide)
  · simp [waitsForCode, isCode]

theorem layout_peek_of_settled {j : Nat} (settled : (bp.peek j).waitsForCode = false) :
    (layoutBreakpoints target bp).2.peek j = (layoutData (startLayout target bp)).bp.peek j := by
  refine (layoutCode_spec target bp).1.untouched j fun waits => ?_
  have code := (mem_waiting.mp waits).2
  obtain ⟨slot, equal | equal⟩ := layoutData_adjusts (startLayout target bp) j
  · rw [equal] at code
    exact absurd (settled.symm.trans code) Bool.noConfusion
  · rw [equal] at code
    cases code

theorem layout_armed_iff (alone : RangesAloneBut i bp) (fresh : Fresh bp)
    (range : BpType.masked (bp.peek i).type = true)
    (pointer : ∀ j, Visible bp j → BpType.masked (bp.peek j).type = true →
      j ≠ (bp.peek i).maskPointer) {j : Nat} (visible : Visible bp j) (differs : j ≠ i)
    (masked : BpType.masked (bp.peek j).type = true) :
    ((layoutBreakpoints target bp).2.peek j).Armed target ↔ KeepsSlots target bp j := by
  have pairI : (bp.peek i).waitsForData = true → (bp.peek i).waitsForPair = true := fun waits =>
    Breakpoint2.waitsForPair_iff.mpr ⟨waits, range⟩
  have apart := pointer j visible masked
  have waits : (bp.peek j).waits = (bp.peek j).waitsForPair := by
    rw [Breakpoint2.waits, Breakpoint2.not_code_of_masked masked, Bool.or_false,
      Breakpoint2.waitsForPair, masked, Bool.and_true]
  rw [layout_peek_of_settled (Breakpoint2.not_code_of_masked masked)]
  have idle : ∀ {after : BreakpointTable}, (∃ slot, after.peek j = (bp.peek j).setBpnum slot) →
      (bp.peek j).waitsForPair = false →
        (∀ r, Starved target bp r → (bp.peek r).maskPointer ≠ j) →
          ((after.peek j).Armed target ↔ KeepsSlots target bp j) := by
    rintro after ⟨slot, equal⟩ settled spared
    rw [equal, Breakpoint2.Armed, KeepsSlots, Breakpoint2.waits_setBpnum, waits, settled,
      Breakpoint2.stable_setBpnum, Breakpoint2.setBpnum_enabled]
    simp only [Bool.false_eq_true, false_and, or_false, false_or]
    constructor
    · rintro ⟨enabled, stable⟩
      exact ⟨enabled, stable, spared⟩
    · rintro ⟨enabled, stable, _⟩
      exact ⟨enabled, stable⟩
  by_cases other : ∃ r ≠ i, Visible bp r ∧ (bp.peek r).waitsForPair = true
  · obtain ⟨r, notI, visibleR, pair⟩ := other
    have maskedR := (Breakpoint2.waitsForPair_iff.mp pair).2
    have left : LeftBy target bp r j (layoutData (startLayout target bp)).bp :=
      layoutData_other_range alone pairI notI visibleR pair visible differs fun _ _ =>
        ⟨pointer r visibleR maskedR, apart⟩
    generalize (layoutData (startLayout target bp)).bp = after at left
    obtain ⟨enabledR, toaddR⟩ : (bp.peek r).enabled = true ∧ (bp.peek r).toadd = true := by
      have data := Breakpoint2.waitsForData_of_pair pair
      simp only [Breakpoint2.waitsForData, Bool.and_eq_true] at data
      exact data.1
    have only : ∀ k ≠ i, Visible bp k → (bp.peek k).waitsForPair = true → k = r :=
      fun k notK visibleK pairK => alone r k notI notK visibleR visibleK pair
        (Breakpoint2.waitsForData_of_pair pairK)
    have settled : j ≠ r → (bp.peek j).waitsForPair = false := fun notR =>
      Bool.eq_false_iff.mpr fun pairJ => notR (only j differs visible pairJ)
    have spared : (Starved target bp r → (bp.peek r).maskPointer ≠ j) →
        ∀ k, Starved target bp k → (bp.peek k).maskPointer ≠ j := by
      intro atR k starved
      by_cases here : k = i
      · exact here ▸ apart.symm
      · exact only k here starved.visible starved.waits ▸ atR
          (only k here starved.visible starved.waits ▸ starved)
    by_cases leads : Leads target bp r
    · obtain ⟨slot, equal, atR, _⟩ := left.1 leads
      by_cases here : j = r
      · subst here
        have wired : target.useDebugWire = false := (Finset.mem_filter.mp leads.first).2.1
        rw [equal, atR rfl]
        exact ⟨fun _ => ⟨enabledR, .inl ⟨pair, leads⟩⟩,
          fun _ => ⟨enabledR, .inr ⟨waits.trans pair, .inl ⟨wired, .inl rfl⟩⟩⟩⟩
      · exact idle ⟨slot, equal⟩ (settled here) (spared fun starved => absurd leads starved.behind)
    · have off := left.2 leads
      have starved : Starved target bp r := ⟨visibleR, pair, leads⟩
      split at off
      next hit =>
        refine ⟨fun armed => absurd (off.symm.trans armed.1) Bool.noConfusion, fun keeps => ?_⟩
        exfalso
        by_cases here : j = r
        · subst here
          rcases keeps.2 with ⟨_, lead⟩ | ⟨stable, _⟩
          · exact leads lead
          · simp [Breakpoint2.stable, fresh j toaddR] at stable
        · rcases keeps.2 with ⟨pairJ, _⟩ | ⟨_, spare⟩
          · exact here (only j differs visible pairJ)
          · exact spare r starved (hit.resolve_left here).symm
      next missed =>
        obtain ⟨here, notMask⟩ := not_or.mp missed
        exact idle ⟨(bp.peek j).bpnum, off⟩ (settled here) (spared fun _ => Ne.symm notMask)
  · have only : ∀ r ≠ i, Visible bp r → (bp.peek r).waitsForPair = false := fun r notI visibleR =>
      Bool.eq_false_iff.mpr fun pair => other ⟨r, notI, visibleR, pair⟩
    refine idle (layoutData_keeps only differs apart) (only j differs visible) fun k starved => ?_
    by_cases here : k = i
    · exact here ▸ apart.symm
    · exact absurd ((only k here starved.visible).symm.trans starved.waits) Bool.noConfusion

end Leaves

end Avarice.Mk2

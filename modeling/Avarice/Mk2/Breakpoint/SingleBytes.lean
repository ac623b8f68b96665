import Avarice.Mk2.Breakpoint.AddAnswer
import Avarice.Mk2.Breakpoint.Recovery

/-!
# Tables without ranges

Where only code breakpoints and breakpoints on single bytes of data are added,
no entry is given up for the sake of another one, so each call changes what is
said about its own address only.
-/

namespace Avarice.Mk2

open Scan

/-- Calls lead to this table, and those that add breakpoints are for code or for
single bytes of data. -/
inductive SingleReached (target : Target) : BreakpointTable → Prop where
  | constructed : SingleReached target constructedTable
  | addBreakpoint {bp : BreakpointTable} (address : UInt32) (type : BpType) (length : UInt32)
      (plain : BpType.plain type = true) (single : type = .code ∨ length ≤ 1)
      (before : SingleReached target bp) :
      SingleReached target (addBreakpoint target bp address type length).2
  | deleteBreakpoint {bp : BreakpointTable} (address : UInt32) (type : BpType) (length : UInt32)
      (before : SingleReached target bp) :
      SingleReached target (deleteBreakpoint target bp address type length).2
  | deleteAllBreakpoints {bp : BreakpointTable} (before : SingleReached target bp) :
      SingleReached target (deleteAllBreakpoints bp)
  | updateBreakpoints {bp : BreakpointTable} {Ice : Type}
      (doJtagCommand : BreakCommand → Ice → Bool × Ice) (ice : Ice)
      (before : SingleReached target bp) :
      SingleReached target (updateBreakpoints doJtagCommand target bp ice).bp

/-- No entry is for a range. -/
def Unmasked (bp : BreakpointTable) : Prop :=
  ∀ j, BpType.masked (bp.peek j).type = false

theorem Unmasked.of_types {before after : BreakpointTable} (unmasked : Unmasked before)
    (types : ∀ j, (after.peek j).type = (before.peek j).type) : Unmasked after := by
  intro j
  rw [types]
  exact unmasked j

/-- An entry makes the program stop at an address. -/
def StopsAt (bp : BreakpointTable) (address : UInt32) (j : Nat) : Prop :=
  Visible bp j ∧ (bp.peek j).address = address ∧ (bp.peek j).type = .code ∧
    (bp.peek j).enabled = true

theorem codeBreakpointAt_congr {before after : BreakpointTable} {address : UInt32}
    (same : ∀ j, StopsAt after address j ↔ StopsAt before address j) :
    codeBreakpointAt after address = codeBreakpointAt before address := by
  rw [Bool.eq_iff_iff, codeBreakpointAt_iff, codeBreakpointAt_iff]
  exact exists_congr same

theorem SameRequests.stopsAt {before after : BreakpointTable} (same : SameRequests before after)
    (address : UInt32) (j : Nat) : StopsAt after address j ↔ StopsAt before address j := by
  obtain ⟨_, enabled, addresses, types⟩ := same j
  rw [StopsAt, StopsAt, same.visible, enabled, addresses, types]

namespace SingleReached

variable {target : Target} {bp : BreakpointTable}

theorem reached (single : SingleReached target bp) : ∃ added, Reached target added bp := by
  induction single with
  | constructed => exact ⟨_, .constructed⟩
  | addBreakpoint address type length _ _ _ inductionHypothesis =>
      obtain ⟨added, reached⟩ := inductionHypothesis
      exact ⟨_, reached.addBreakpoint address type length⟩
  | deleteBreakpoint address type length _ inductionHypothesis =>
      obtain ⟨added, reached⟩ := inductionHypothesis
      exact ⟨_, reached.deleteBreakpoint address type length⟩
  | deleteAllBreakpoints _ inductionHypothesis =>
      obtain ⟨added, reached⟩ := inductionHypothesis
      exact ⟨_, reached.deleteAllBreakpoints⟩
  | updateBreakpoints doJtagCommand ice _ inductionHypothesis =>
      obtain ⟨added, reached⟩ := inductionHypothesis
      exact ⟨_, reached.updateBreakpoints doJtagCommand ice⟩

end SingleReached

theorem BpType.not_masked_none : BpType.masked .none = false := by decide

theorem Unmasked.claimEntry {bp : BreakpointTable} {type : BpType} (unmasked : Unmasked bp)
    (i : Nat) (address : UInt32) (plain : BpType.plain type = true) :
    Unmasked (claimEntry bp i address type) := by
  have marked : Unmasked (if (bp.peek i).last then bp.modify (i + 1) Breakpoint2.mark else bp) := by
    split
    · intro j
      rw [CArray.peek_modify]
      split
      · exact BpType.not_masked_none
      · exact unmasked j
    · exact unmasked
  intro j
  rw [Mk2.claimEntry, CArray.peek_modify]
  split
  · exact BpType.not_masked_of_plain plain
  · exact marked j

theorem Unmasked.finishAdd {bp : BreakpointTable} (unmasked : Unmasked bp) (target : Target)
    (i : Nat) : Unmasked (finishAdd target bp i).2 := by
  refine unmasked.of_types fun j => (finishAdd_adjusts target bp i j).type.trans ?_
  rw [CArray.peek_modify]
  split
  · rw [Breakpoint2.flagAdd_eq]
  · rfl

theorem Unmasked.addBreakpoint {bp : BreakpointTable} (unmasked : Unmasked bp)
    (terminated : Terminated bp) (target : Target) (address : UInt32) {type : BpType}
    {length : UInt32} (plain : BpType.plain type = true) (single : ¬IsRange type length) :
    Unmasked (addBreakpoint target bp address type length).2 := by
  have outcome := @addBreakpoint_outcome target bp terminated address type length
  generalize Mk2.addBreakpoint target bp address type length = result at outcome
  cases outcome with
  | full => exact unmasked
  | rejected _ range => exact absurd range single
  | single => exact (unmasked.claimEntry _ address plain).finishAdd target _
  | range _ range => exact absurd range single

theorem SingleReached.unmasked {target : Target} {bp : BreakpointTable}
    (single : SingleReached target bp) : Unmasked bp := by
  induction single with
  | constructed =>
      intro j
      rw [constructedTable, CArray.peek_fill]
      split <;> exact BpType.not_masked_none
  | addBreakpoint address type length plain single before inductionHypothesis =>
      obtain ⟨added, reached⟩ := before.reached
      refine inductionHypothesis.addBreakpoint reached.orderly.toTerminated target address plain ?_
      rintro ⟨data, long⟩
      exact absurd (single.resolve_left data) (UInt32.not_le.mpr long)
  | @deleteBreakpoint bp address type length before inductionHypothesis =>
      obtain ⟨added, reached⟩ := before.reached
      rw [deleteBreakpoint_eq reached.orderly.toTerminated]
      split
      · have fewer :=
          (fewer_withdraw bp (searchEntry bp address type)).trans (fewer_layout target _)
        exact inductionHypothesis.of_types fewer.type
      · exact inductionHypothesis
  | deleteAllBreakpoints before inductionHypothesis =>
      obtain ⟨added, reached⟩ := before.reached
      exact inductionHypothesis.of_types
        (fewer_deleteAllBreakpoints reached.orderly.toTerminated).type
  | updateBreakpoints doJtagCommand ice before inductionHypothesis =>
      obtain ⟨added, reached⟩ := before.reached
      exact inductionHypothesis.of_types
        (fewer_updateBreakpoints doJtagCommand target reached.orderly.toOrdered ice).type

/-! ## What the calls change -/

section Calls

variable {target : Target} {bp : BreakpointTable}

theorem layout_sameRequests (unmasked : Unmasked bp) :
    SameRequests bp (layoutBreakpoints target bp).2 := by
  intro j
  have single : NoRangesWaiting bp := fun i _ _ => unmasked i
  obtain ⟨slot, equal⟩ := @layout_sameButSlots target bp single j
  rw [equal]
  exact ⟨rfl, rfl, rfl, rfl⟩

theorem update_sameRequests {Ice : Type} (doJtagCommand : BreakCommand → Ice → Bool × Ice)
    (unmasked : Unmasked bp) (ice : Ice) :
    SameRequests bp (updateBreakpoints doJtagCommand target bp ice).bp := by
  have removed (i : Nat) (s : UpdateState Ice) (same : SameRequests bp s.bp) :
      SameRequests bp (removeEntry doJtagCommand i s).state.bp := by
    apply removeEntry_keeps same
    refine same.modify ?_ i
    exact fun _ => ⟨rfl, rfl, rfl, rfl⟩
  have downloaded (i : Nat) (s : UpdateState Ice) (same : SameRequests bp s.bp) :
      SameRequests bp (downloadEntry doJtagCommand i s).state.bp := by
    apply downloadEntry_keeps same
    refine same.modify ?_ i
    exact fun _ => ⟨rfl, rfl, rfl, rfl⟩
  unfold updateBreakpoints
  dsimp only
  have afterRemoving : SameRequests bp (removeAll doJtagCommand
      ⟨(layoutBreakpoints target bp).2, ice, false⟩).bp :=
    scan_state removed _ (layout_sameRequests unmasked)
  split
  · exact afterRemoving
  · exact scan_state downloaded _ afterRemoving

theorem finishAdd_stopsAt (unmasked : Unmasked bp) {i : Nat} (visible : Visible bp i)
    {other : UInt32} (elsewhere : other ≠ (bp.peek i).address) (j : Nat) :
    StopsAt (finishAdd target bp i).2 other j ↔ StopsAt bp other j := by
  have adjusted := finishAdd_adjusts target bp i
  have flagged (k : Nat) : ((bp.modify i Breakpoint2.flagAdd).peek k).address =
      (bp.peek k).address := by
    rw [CArray.peek_modify]
    split
    · rw [Breakpoint2.flagAdd_eq]
    · rfl
  by_cases here : j = i
  · subst here
    have address := (adjusted j).address.trans (flagged j)
    refine iff_of_false (fun stops => ?_) fun stops => elsewhere stops.2.1.symm
    exact elsewhere (stops.2.1.symm.trans address)
  · have apart (masked : BpType.masked (bp.peek i).type = true) : j ≠ (bp.peek i).maskPointer :=
      absurd ((unmasked i).symm.trans masked) Bool.false_ne_true
    have unmasked' : Unmasked (bp.modify i Breakpoint2.flagAdd) := by
      refine unmasked.of_types fun k => ?_
      rw [CArray.peek_modify]
      split
      · rw [Breakpoint2.flagAdd_eq]
      · rfl
    have same := (@layout_sameRequests target _ unmasked') j
    rw [← finishAdd_peek_ne visible here apart, CArray.peek_modify_ne _ _ (Ne.symm here)] at same
    obtain ⟨_, enabled, address, type⟩ := same
    have inUse : Visible (finishAdd target bp i).2 j ↔ Visible bp j := by
      rw [adjusted.visible]
      exact visible_modify (by rw [Breakpoint2.flagAdd_eq]) j
    rw [StopsAt, StopsAt, inUse, enabled, address, type]

theorem claimed_stopsAt (terminated : Terminated bp) {address : UInt32}
    (room : occupied bp address .code < 31) {other : UInt32} (elsewhere : other ≠ address)
    (j : Nat) : StopsAt (claimed bp address .code) other j ↔ StopsAt bp other j := by
  rcases occupied_spec terminated address .code with ⟨_, full⟩ | ⟨_, occupies⟩
  · exact absurd full room.ne
  · have visible := @claimEntry_visible bp address .code _ room occupies.le_endIndex j
    by_cases here : j = occupied bp address .code
    · subst here
      have self :
          ((claimed bp address .code).peek (occupied bp address .code)).address = address := by
        rw [claimed, claimEntry_peek_self room]
        rfl
      refine iff_of_false (fun stops => elsewhere (stops.2.1.symm.trans self)) fun stops => ?_
      cases occupies with
      | again _ same => exact elsewhere (stops.2.1.symm.trans same)
      | append atEnd => exact absurd stops.1 (Nat.not_lt.mpr atEnd.ge)
      | reuse _ disabled => exact Bool.false_ne_true (disabled.symm.trans stops.2.2.2)
    · have inUse : Visible (claimed bp address .code) j ↔ Visible bp j := by
        rw [claimed, visible]
        exact or_iff_left here
      by_cases used : Visible bp j
      · have same : (claimed bp address .code).peek j = bp.peek j := claimEntry_peek_ne used here
        rw [StopsAt, StopsAt, inUse, same]
      · exact iff_of_false (fun stops => used (inUse.mp stops.1)) fun stops => used stops.1

theorem add_code_elsewhere (terminated : Terminated bp) (unmasked : Unmasked bp)
    {address other : UInt32} (elsewhere : other ≠ address) (length : UInt32) :
    codeBreakpointAt (addBreakpoint target bp address .code length).2 other =
      codeBreakpointAt bp other := by
  have outcome := @addBreakpoint_outcome target bp terminated address .code length
  generalize addBreakpoint target bp address .code length = result at outcome
  cases outcome with
  | full => rfl
  | rejected _ range => exact absurd rfl range.1
  | range _ range => exact absurd rfl range.1
  | single room =>
      rcases occupied_spec terminated address .code with ⟨_, full⟩ | ⟨_, occupies⟩
      · exact absurd full room.ne
      · have visible : Visible (claimed bp address .code) (occupied bp address .code) :=
          (claimEntry_visible room occupies.le_endIndex _).mpr (.inr rfl)
        have self : ((claimed bp address .code).peek (occupied bp address .code)).address =
            address := by
          rw [claimed, claimEntry_peek_self room]
          rfl
        refine codeBreakpointAt_congr fun j => ?_
        have unmasked' : Unmasked (claimed bp address .code) :=
          unmasked.claimEntry _ address (by decide)
        have elsewhere' : other ≠
            ((claimed bp address .code).peek (occupied bp address .code)).address := by
          rw [self]
          exact elsewhere
        rw [finishAdd_stopsAt unmasked' visible elsewhere' j]
        exact claimed_stopsAt terminated room elsewhere j

theorem add_code_refused (terminated : Terminated bp) {address length : UInt32}
    (refused : (addBreakpoint target bp address .code length).1 = false) :
    (addBreakpoint target bp address .code length).2 = bp := by
  have outcome := @addBreakpoint_outcome target bp terminated address .code length
  generalize addBreakpoint target bp address .code length = result at outcome refused
  cases outcome with
  | full => rfl
  | rejected _ range => exact absurd rfl range.1
  | range _ range => exact absurd rfl range.1
  | single room =>
      rw [finishAdd_accepts] at refused
      cases refused

theorem not_stopsAt_of_absent {address : UInt32} (absent : Absent bp address .code) (j : Nat) :
    ¬StopsAt bp address j :=
  fun stops => absent j stops.1 ⟨stops.2.1, stops.2.2.1⟩

theorem withdraw_stopsAt (unmasked : Unmasked bp) (i j : Nat) (other : UInt32) :
    StopsAt (layoutBreakpoints target (bp.modify i Breakpoint2.withdraw)).2 other j ↔
      StopsAt bp other j ∧ j ≠ i := by
  have types (k : Nat) : ((bp.modify i Breakpoint2.withdraw).peek k).type = (bp.peek k).type := by
    rw [CArray.peek_modify]
    split <;> rfl
  rw [(layout_sameRequests (unmasked.of_types types)).stopsAt, StopsAt, StopsAt,
    visible_modify (by rfl)]
  by_cases here : j = i
  · subst here
    refine iff_of_false (fun stops => ?_) fun stops => stops.2 rfl
    obtain ⟨visible, _, _, enabled⟩ := stops
    rw [CArray.peek_modify_same _ _ (lt_of_visible visible)] at enabled
    cases enabled
  · rw [CArray.peek_modify_ne _ _ (Ne.symm here)]
    exact (and_iff_left here).symm

theorem eq_searchEntry_of_stopsAt {added : List (UInt32 × BpType)} (orderly : Orderly added bp)
    {address : UInt32} {j : Nat} (stops : StopsAt bp address j) :
    j = searchEntry bp address .code := by
  rcases searchEntry_spec bp address .code with ⟨_, absent⟩ | ⟨visible, sameAddress, sameType⟩
  · exact absurd stops (not_stopsAt_of_absent absent j)
  · obtain ⟨inUse, address', type, _⟩ := stops
    refine orderly.named.unique j _ inUse visible (address'.trans sameAddress.symm)
      (type.trans sameType.symm) ?_
    rw [type]
    decide

theorem delete_code {added : List (UInt32 × BpType)} (orderly : Orderly added bp)
    (unmasked : Unmasked bp) (address length other : UInt32) :
    codeBreakpointAt (deleteBreakpoint target bp address .code length).2 other = true ↔
      other ≠ address ∧ codeBreakpointAt bp other = true := by
  rw [codeBreakpointAt_iff, codeBreakpointAt_iff, deleteBreakpoint_eq orderly.toTerminated]
  split
  · rename_i found
    refine Iff.trans (exists_congr fun j => withdraw_stopsAt unmasked _ j other) ?_
    constructor
    · rintro ⟨j, stops, different⟩
      refine ⟨?_, j, stops⟩
      rintro rfl
      exact different (eq_searchEntry_of_stopsAt orderly stops)
    · rintro ⟨elsewhere, j, stops⟩
      refine ⟨j, stops, ?_⟩
      rintro rfl
      exact elsewhere (stops.2.1.symm.trans found.1)
  · rename_i missing
    refine ⟨fun ⟨j, stops⟩ => ⟨?_, j, stops⟩, And.right⟩
    rintro rfl
    have here := eq_searchEntry_of_stopsAt orderly stops
    subst here
    exact missing ⟨stops.2.1, stops.2.2.1⟩

end Calls

end Avarice.Mk2

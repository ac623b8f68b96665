import Avarice.Mk2.Breakpoint.Operations

/-!
# Which entry a request occupies

Whatever is asked for, `addBreakpoint` first settles on one entry: the one that
already has the address and the type, else the end marker, else a disabled
entry of a full table.
-/

namespace Avarice.Mk2

def Absent (bp : BreakpointTable) (address : UInt32) (type : BpType) : Prop :=
  ∀ j, Visible bp j → ¬ ((bp.peek j).address = address ∧ (bp.peek j).type = type)

theorem searchEntry_spec (bp : BreakpointTable) (address : UInt32) (type : BpType) :
    (searchEntry bp address type = endIndex bp ∧ Absent bp address type) ∨
      (Visible bp (searchEntry bp address type) ∧
        (bp.peek (searchEntry bp address type)).address = address ∧
        (bp.peek (searchEntry bp address type)).type = type) := by
  have passed : ∀ j < searchEntry bp address type, (bp.peek j).last = false ∧
      ¬ ((bp.peek j).address = address ∧ (bp.peek j).type = type) := by
    intro j before
    have missing := CArray.not_found_before_firstIndex before
    simpa [not_and] using missing
  by_cases marked : (bp.peek (searchEntry bp address type)).last = true
  · left
    have atEnd : endIndex bp = searchEntry bp address type :=
      endIndex_eq marked (bp.firstIndex_le _) fun j before => (passed j before).1
    refine ⟨atEnd.symm, fun j visible => (passed j ?_).2⟩
    rw [← atEnd]
    exact visible
  · right
    have unmarked : (bp.peek (searchEntry bp address type)).last = false := by simpa using marked
    have reached : ((bp.peek (searchEntry bp address type)).last ||
        ((bp.peek (searchEntry bp address type)).address == address &&
          (bp.peek (searchEntry bp address type)).type == type)) = true :=
      CArray.found_at_firstIndex (lt_of_not_last unmarked)
    refine ⟨?_, by simpa [unmarked] using reached⟩
    refine lt_of_not_ge fun beyond => ?_
    rcases Nat.lt_or_eq_of_le beyond with before | here
    · have unseen := (passed _ before).1
      rw [last_at_endIndex] at unseen
      cases unseen
    · rw [← here, last_at_endIndex] at unmarked
      cases unmarked

theorem not_atMax {i : Nat} (small : i < 31) : (i + 1 == maxTotalBreakpoints2) = false :=
  beq_false_of_ne (Nat.succ_lt_succ small).ne

/-- Which entry a request may occupy. -/
inductive Occupies (bp : BreakpointTable) (address : UInt32) (type : BpType) (i : Nat) : Prop where
  | again (visible : Visible bp i) (address : (bp.peek i).address = address)
      (type : (bp.peek i).type = type)
  | append (atEnd : i = endIndex bp) (absent : Absent bp address type)
  | reuse (visible : Visible bp i) (disabled : (bp.peek i).enabled = false)
      (idle : (bp.peek i).toremove = false) (absent : Absent bp address type)

theorem Occupies.le_endIndex {bp : BreakpointTable} {address : UInt32} {type : BpType} {i : Nat}
    (occupies : Occupies bp address type i) : i ≤ endIndex bp := by
  cases occupies with
  | again visible => exact Nat.le_of_lt visible
  | append atEnd => exact atEnd.le
  | reuse visible => exact Nat.le_of_lt visible

/-! ## What claiming does to the entries -/

section Claims

variable {bp : BreakpointTable} {address : UInt32} {type : BpType} {i : Nat}

theorem claimEntry_peek_self (small : i < 31) :
    (claimEntry bp i address type).peek i = (bp.peek i).occupy address type := by
  rw [claimEntry, CArray.peek_modify_same _ _ (Nat.lt_succ_of_lt small)]
  split
  · rw [CArray.peek_modify_ne _ _ (Nat.succ_ne_self _)]
  · rfl

theorem claimEntry_peek_ne {j : Nat} (visible : Visible bp j) (different : j ≠ i) :
    (claimEntry bp i address type).peek j = bp.peek j := by
  rw [claimEntry, CArray.peek_modify_ne _ _ different.symm]
  split
  next marked =>
    have before : j < i + 1 :=
      Nat.lt_succ_of_lt (Nat.lt_of_lt_of_le visible (endIndex_le_of_last marked))
    exact CArray.peek_modify_ne _ _ before.ne'
  next used => rfl

theorem claimEntry_peek_inUse {j : Nat} (visible : Visible bp i) (different : j ≠ i) :
    (claimEntry bp i address type).peek j = bp.peek j := by
  rw [claimEntry, not_last_of_visible visible, if_neg Bool.false_ne_true,
    CArray.peek_modify_ne _ _ different.symm]

theorem claimEntry_marker (small : i < 31) (atEnd : i = endIndex bp) :
    endIndex (claimEntry bp i address type) = i + 1 ∧
      (claimEntry bp i address type).peek (i + 1) = (bp.peek (i + 1)).mark := by
  have marked : (bp.peek i).last = true := atEnd ▸ last_at_endIndex bp
  have next : (claimEntry bp i address type).peek (i + 1) = (bp.peek (i + 1)).mark := by
    rw [claimEntry, CArray.peek_modify_ne _ _ (Nat.succ_ne_self i).symm, marked, if_pos rfl,
      CArray.peek_modify_same _ _ (Nat.succ_lt_succ small)]
  refine ⟨endIndex_eq ?_ (Nat.succ_le_of_lt (Nat.lt_succ_of_lt small)) fun j before => ?_, next⟩
  · rw [next]
    rfl
  · rcases Nat.lt_or_eq_of_le (Nat.le_of_lt_succ before) with visible | rfl
    · have inUse : Visible bp j := Nat.lt_of_lt_of_eq visible atEnd
      rw [claimEntry_peek_ne inUse visible.ne]
      exact not_last_of_visible inUse
    · rw [claimEntry_peek_self small]
      rfl

theorem claimEntry_endIndex (visible : Visible bp i) :
    endIndex (claimEntry bp i address type) = endIndex bp := by
  apply endIndex_congr
  intro j
  rw [claimEntry, not_last_of_visible visible, if_neg Bool.false_ne_true, CArray.peek_modify]
  split
  next here => rw [← here.1, not_last_of_visible visible]; rfl
  next => rfl

theorem claimEntry_visible (small : i < 31) (low : i ≤ endIndex bp) (j : Nat) :
    Visible (claimEntry bp i address type) j ↔ Visible bp j ∨ j = i := by
  rcases Nat.lt_or_eq_of_le low with visible | atEnd
  · rw [Visible, claimEntry_endIndex visible]
    exact ⟨.inl, fun either => either.elim id fun here => here ▸ visible⟩
  · rw [Visible, (claimEntry_marker small atEnd).1, Nat.lt_succ_iff_lt_or_eq, Visible, ← atEnd]

/-- Up to the marker, claiming an entry changes no other one, but may leave a
blank behind it. -/
theorem claimEntry_upTo {j : Nat} (small : i < 31) (low : i ≤ endIndex bp)
    (upTo : j ≤ endIndex (claimEntry bp i address type)) (different : j ≠ i) :
    j ≤ endIndex bp ∧ (claimEntry bp i address type).peek j = bp.peek j ∨
      ((claimEntry bp i address type).peek j).type = .none := by
  rcases Nat.lt_or_eq_of_le low with visible | atEnd
  · rw [claimEntry_endIndex visible] at upTo
    exact .inl ⟨upTo, claimEntry_peek_inUse visible different⟩
  · obtain ⟨marker, blank⟩ := @claimEntry_marker bp address type i small atEnd
    rw [marker] at upTo
    rcases Nat.lt_or_eq_of_le upTo with before | rfl
    · have inUse : Visible bp j :=
        Nat.lt_of_lt_of_eq (Nat.lt_of_le_of_ne (Nat.le_of_lt_succ before) different) atEnd
      exact .inl ⟨inUse.le, claimEntry_peek_ne inUse different⟩
    · rw [blank]
      exact .inr rfl

end Claims

/-- The last entry is never used, and an end marker is never enabled. -/
structure Terminated (bp : BreakpointTable) : Prop where
  markers : ∀ i, (bp.peek i).last = true → (bp.peek i).enabled = false
  sentinel : (bp.peek 31).last = true
  idle : (bp.peek 31).toremove = false
  unused : (bp.peek 31).type = .none

namespace Terminated

variable {bp : BreakpointTable} (terminated : Terminated bp)
include terminated

theorem modify {i : Nat} {change : Breakpoint2 → Breakpoint2}
    (sentinel : i = 31 → (change (bp.peek i)).last = true ∧
      (change (bp.peek i)).toremove = false ∧ (change (bp.peek i)).type = .none)
    (marker : (change (bp.peek i)).last = true → (change (bp.peek i)).enabled = false) :
    Terminated (bp.modify i change) := by
  have sentinel' : ((bp.modify i change).peek 31).last = true ∧
      ((bp.modify i change).peek 31).toremove = false ∧
      ((bp.modify i change).peek 31).type = .none := by
    rw [CArray.peek_modify]
    split
    next here => exact here.1 ▸ sentinel here.1
    next elsewhere => exact ⟨terminated.sentinel, terminated.idle, terminated.unused⟩
  refine ⟨fun j marked => ?_, sentinel'.1, sentinel'.2.1, sentinel'.2.2⟩
  rw [CArray.peek_modify] at marked ⊢
  split at marked
  next here =>
    rw [if_pos here]
    exact here.1 ▸ marker (here.1 ▸ marked)
  next elsewhere =>
    rw [if_neg elsewhere]
    exact terminated.markers j marked

theorem claimEntry {i : Nat} (address : UInt32) (type : BpType) (small : i < 31) :
    Terminated (claimEntry bp i address type) := by
  have marked : Terminated
      (if (bp.peek i).last then bp.modify (i + 1) Breakpoint2.mark else bp) := by
    split
    · refine terminated.modify (fun atEnd => ⟨rfl, ?_, rfl⟩) fun _ => rfl
      rw [atEnd]
      exact terminated.idle
    · exact terminated
  exact marked.modify (fun atEnd => absurd atEnd small.ne) nofun

end Terminated

def occupied (bp : BreakpointTable) (address : UInt32) (type : BpType) : Nat :=
  chooseEntry (enableFound bp (searchEntry bp address type)) (searchEntry bp address type)

section Occupied

variable {bp : BreakpointTable} (terminated : Terminated bp)
include terminated

theorem searchDisabled_spec (full : endIndex bp = 31) :
    searchDisabled bp = 31 ∨ Visible bp (searchDisabled bp) ∧
      (bp.peek (searchDisabled bp)).enabled = false ∧
      (bp.peek (searchDisabled bp)).toremove = false := by
  have low : searchDisabled bp ≤ 31 := by
    refine CArray.firstIndex_le_of_found ?_
    rw [terminated.markers 31 terminated.sentinel, terminated.idle]
    rfl
  rcases Nat.lt_or_eq_of_le low with before | atEnd
  · right
    have reached := CArray.found_at_firstIndex (Nat.lt_succ_of_le low)
    refine ⟨?_, by simpa [searchDisabled] using reached⟩
    rw [Visible, full]
    exact before
  · exact .inl atEnd

theorem occupied_spec (address : UInt32) (type : BpType) :
    enableFound bp (searchEntry bp address type) = bp ∧ occupied bp address type = 31 ∨
      occupied bp address type < 31 ∧ Occupies bp address type (occupied bp address type) := by
  have bounded : endIndex bp ≤ 31 := endIndex_le_of_last terminated.sentinel
  unfold occupied
  rcases searchEntry_spec bp address type with ⟨atEnd, absent⟩ | ⟨visible, sameAddress, sameType⟩
  · have unchanged : enableFound bp (searchEntry bp address type) = bp := by
      rw [enableFound, atEnd, if_pos (last_at_endIndex bp)]
    rw [unchanged, chooseEntry, atEnd]
    rcases Nat.lt_or_eq_of_le bounded with small | full
    · rw [not_atMax small, if_neg Bool.false_ne_true]
      exact .inr ⟨small, .append rfl absent⟩
    · rw [full, if_pos (by rfl)]
      rcases searchDisabled_spec terminated full with none | ⟨visible, disabled, idle⟩
      · exact .inl ⟨rfl, none⟩
      · exact .inr ⟨full ▸ visible, .reuse visible disabled idle absent⟩
  · right
    have small := Nat.lt_of_lt_of_le visible bounded
    rw [chooseEntry, not_atMax small, if_neg Bool.false_ne_true]
    exact ⟨small, .again visible sameAddress sameType⟩

theorem claimEntry_enableFound (address : UInt32) (type : BpType) :
    claimEntry (enableFound bp (searchEntry bp address type)) (occupied bp address type)
      address type = claimEntry bp (occupied bp address type) address type := by
  unfold occupied enableFound
  rcases searchEntry_spec bp address type with ⟨atEnd, _⟩ | ⟨visible, _⟩
  · rw [atEnd, if_pos (last_at_endIndex bp)]
  · have notLast := not_last_of_visible visible
    have small := Nat.lt_of_lt_of_le visible (endIndex_le_of_last terminated.sentinel)
    simp only [notLast, Bool.false_eq_true, if_false, chooseEntry, not_atMax small, claimEntry,
      CArray.peek_modify_same _ _ (lt_of_visible visible), Breakpoint2.enable_last,
      CArray.modify_modify]
    rfl

theorem addBreakpointAt_succ (target : Target) (depth : Nat) (address : UInt32) (type : BpType)
    (length : UInt32) :
    addBreakpointAt target (depth + 1) bp address type length =
      if occupied bp address type + 1 == maxTotalBreakpoints2 then (false, bp)
      else if length > 1 && type != .code then
        addRange target (fun bp mask => addBreakpointAt target depth bp mask .dataMask 1)
          (claimEntry bp (occupied bp address type) address type) (occupied bp address type)
          address type length
      else
        finishAdd target (claimEntry bp (occupied bp address type) address type)
          (occupied bp address type) := by
  have searched :
      (!((enableFound bp (searchEntry bp address type)).peek (searchEntry bp address type)).enabled
        || ((enableFound bp (searchEntry bp address type)).peek
              (searchEntry bp address type)).address != address
        || ((enableFound bp (searchEntry bp address type)).peek
              (searchEntry bp address type)).type == type) = true := by
    rcases searchEntry_spec bp address type with ⟨atEnd, _⟩ | ⟨visible, _, sameType⟩
    · rw [atEnd, enableFound, if_pos (last_at_endIndex bp),
        terminated.markers _ (last_at_endIndex bp)]
      rfl
    · rw [enableFound, not_last_of_visible visible, if_neg Bool.false_ne_true,
        CArray.peek_modify_same _ _ (lt_of_visible visible), Breakpoint2.enable_type, sameType,
        beq_self_eq_true, Bool.or_true]
  have claim := claimEntry_enableFound terminated address type
  conv_lhs => unfold addBreakpointAt
  simp only [searched, if_true]
  show (if occupied bp address type + 1 == maxTotalBreakpoints2 then _ else _) = _
  split
  next full =>
    rcases occupied_spec terminated address type with ⟨unchanged, _⟩ | ⟨small, _⟩
    · rw [unchanged]
    · rw [not_atMax small] at full
      cases full
  next room =>
    change (if (decide (length > 1) && type != BpType.code) = true then
      addRange target _ (claimEntry _ (occupied bp address type) address type) _ _ _ _
      else finishAdd target (claimEntry _ (occupied bp address type) address type) _) = _
    rw [claim]
    rfl

end Occupied

theorem finishAdd_eq (target : Target) (bp : BreakpointTable) (i : Nat) :
    finishAdd target bp i =
      let laid := layoutBreakpoints target (bp.modify i Breakpoint2.flagAdd)
      let disabled := laid.2.modify i Breakpoint2.disable
      (true,
        if laid.1 then laid.2
        else if BpType.masked (disabled.peek i).type then
          disabled.modify (disabled.peek i).maskPointer Breakpoint2.disable
        else disabled) := by
  unfold finishAdd
  rcases outcome : layoutBreakpoints target (bp.modify i Breakpoint2.flagAdd) with ⟨_ | _, laid⟩
  · simp only [outcome, Bool.false_eq_true, if_false]
    split <;> rfl
  · simp only [outcome, if_true]

theorem finishAdd_accepts (target : Target) (bp : BreakpointTable) (i : Nat) :
    (finishAdd target bp i).1 = true := by
  rw [finishAdd_eq]

theorem finishAdd_keeps {property : BreakpointTable → Prop} {target : Target}
    {bp : BreakpointTable} {i : Nat}
    (laid : property (layoutBreakpoints target (bp.modify i Breakpoint2.flagAdd)).2)
    (disabled : ∀ table j, property table → property (table.modify j Breakpoint2.disable)) :
    property (finishAdd target bp i).2 := by
  rw [finishAdd_eq]
  dsimp only
  split
  · exact laid
  · split
    · exact disabled _ _ (disabled _ _ laid)
    · exact disabled _ _ laid

end Avarice.Mk2

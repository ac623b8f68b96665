import Avarice.Mk2.Breakpoint.DataTurn
import Avarice.Mk2.Breakpoint.Ranges

/-!
# What a call does to the table

For every table that ends before its last entry: the ways `addBreakpoint` can
go, and what `deleteBreakpoint` withdraws.
-/

namespace Avarice.Mk2

/-- A request for more than one byte of data. -/
def IsRange (type : BpType) (length : UInt32) : Prop :=
  type ≠ .code ∧ length > 1

instance (type : BpType) (length : UInt32) : Decidable (IsRange type length) :=
  inferInstanceAs (Decidable (_ ∧ _))

def Refused (bp : BreakpointTable) (address : UInt32) (type : BpType) (length : UInt32) : Prop :=
  occupied bp address type = 31 ∨
    IsRange type length ∧ ¬ ReachesSearchMask bp address type length

instance (bp : BreakpointTable) (address : UInt32) (type : BpType) (length : UInt32) :
    Decidable (Refused bp address type length) :=
  inferInstanceAs (Decidable (_ ∨ _))

/-- The ways `addBreakpoint` can go. -/
inductive AddOutcome (target : Target) (bp : BreakpointTable) (address : UInt32) (type : BpType)
    (length : UInt32) : Bool × BreakpointTable → Prop where
  | full (full : occupied bp address type = 31) :
      AddOutcome target bp address type length (false, bp)
  | rejected (room : occupied bp address type < 31) (range : IsRange type length)
      (turnedDown : ¬ ReachesSearchMask bp address type length) (table : BreakpointTable)
      (which : table = claimed bp address type ∨ table = claimedRange bp address type) :
      AddOutcome target bp address type length
        (false, table.modify (occupied bp address type) Breakpoint2.reject)
  | single (room : occupied bp address type < 31) (single : ¬ IsRange type length) :
      AddOutcome target bp address type length
        (finishAdd target (claimed bp address type) (occupied bp address type))
  | range (room : occupied bp address type < 31) (range : IsRange type length)
      (reaches : ReachesSearchMask bp address type length) :
      AddOutcome target bp address type length
        (finishAdd target (linked target bp address type length) (occupied bp address type))

section Outcomes

variable {target : Target} {bp : BreakpointTable} (terminated : Terminated bp)
  {address : UInt32} {type : BpType} {length : UInt32}
include terminated

theorem addBreakpoint_outcome :
    AddOutcome target bp address type length (addBreakpoint target bp address type length) := by
  rcases occupied_spec terminated address type with ⟨_, full⟩ | ⟨room, _⟩
  · have refused : addBreakpoint target bp address type length = (false, bp) := by
      unfold addBreakpoint
      rw [addBreakpointAt_succ terminated, full]
      rfl
    rw [refused]
    exact .full full
  by_cases range : IsRange type length
  · by_cases reaches : ReachesSearchMask bp address type length
    · rw [addBreakpoint_linked terminated room reaches]
      exact .range room range reaches
    · obtain ⟨table, which, rejected⟩ :=
        @addRange_turned_down _ terminated target _ _ _ range.1 range.2 room reaches
      rw [rejected]
      exact .rejected room range reaches table which
  · have single : (decide (length > 1) && type != .code) = false := by
      rw [Bool.and_eq_false_iff]
      by_cases isCode : type = .code
      · exact .inr (by simp [isCode])
      · exact .inl (decide_eq_false fun long => range ⟨isCode, long⟩)
    have accepted : addBreakpoint target bp address type length =
        finishAdd target (claimed bp address type) (occupied bp address type) := by
      unfold addBreakpoint
      rw [addBreakpointAt_succ terminated, not_atMax room, if_neg Bool.false_ne_true, single,
        if_neg Bool.false_ne_true]
      rfl
    rw [accepted]
    exact .single room range

theorem addBreakpoint_fst : (addBreakpoint target bp address type length).1 = true ↔
    ¬ Refused bp address type length := by
  have outcome := @addBreakpoint_outcome target bp terminated address type length
  generalize addBreakpoint target bp address type length = result at outcome
  cases outcome with
  | full full => exact ⟨nofun, fun notRefused => absurd (.inl full) notRefused⟩
  | rejected _ range turnedDown =>
      exact ⟨nofun, fun notRefused => absurd (.inr ⟨range, turnedDown⟩) notRefused⟩
  | single room single =>
      refine ⟨fun _ refused => ?_, fun _ => finishAdd_accepts target _ _⟩
      rcases refused with full | ⟨range, _⟩
      · exact room.ne full
      · exact single range
  | range room range reaches =>
      refine ⟨fun _ refused => ?_, fun _ => finishAdd_accepts target _ _⟩
      rcases refused with full | ⟨_, turnedDown⟩
      · exact room.ne full
      · exact turnedDown reaches

end Outcomes

theorem finishAdd_adjusts (target : Target) (bp : BreakpointTable) (i : Nat) :
    Adjusts (bp.modify i Breakpoint2.flagAdd) (finishAdd target bp i).2 :=
  finishAdd_keeps (layout_adjusts target (bp.modify i Breakpoint2.flagAdd))
    fun _ j laid => laid.disable j

theorem finishAdd_given_up {target : Target} {bp : BreakpointTable} {i : Nat}
    (visible : Visible bp i)
    (full : (layoutBreakpoints target (bp.modify i Breakpoint2.flagAdd)).1 = false) :
    ((finishAdd target bp i).2.peek i).enabled = false := by
  have inside := lt_of_visible visible
  rw [finishAdd_eq]
  simp only [full, Bool.false_eq_true, if_false]
  split
  · rw [CArray.peek_modify]
    split <;> rw [CArray.peek_modify_same _ _ inside]
    · rfl
    · rfl
  · rw [CArray.peek_modify_same _ _ inside]
    rfl

/-! ## Deleting -/

/-- Take a breakpoint out of the table; the ICE is told later. -/
def Breakpoint2.withdraw (entry : Breakpoint2) : Breakpoint2 :=
  { entry with enabled := false, toadd := false, toremove := entry.icestatus }

def Finds (bp : BreakpointTable) (address : UInt32) (type : BpType) : Prop :=
  (bp.peek (searchEntry bp address type)).address = address ∧
    (bp.peek (searchEntry bp address type)).type = type

instance (bp : BreakpointTable) (address : UInt32) (type : BpType) :
    Decidable (Finds bp address type) :=
  inferInstanceAs (Decidable (_ ∧ _))

theorem deleteBreakpoint_eq {target : Target} {bp : BreakpointTable} (terminated : Terminated bp)
    (address : UInt32) (type : BpType) (length : UInt32) :
    deleteBreakpoint target bp address type length =
      if Finds bp address type then
        (true, (layoutBreakpoints target
          (bp.modify (searchEntry bp address type) Breakpoint2.withdraw)).2)
      else (false, bp) := by
  unfold deleteBreakpoint
  rcases searchEntry_spec bp address type with ⟨atEnd, _⟩ | ⟨visible, sameAddress, sameType⟩
  · have marked : (bp.peek (searchEntry bp address type)).last = true :=
      atEnd ▸ last_at_endIndex bp
    have off := terminated.markers _ marked
    simp only [marked, if_true, off, Bool.false_or]
    by_cases different : ((bp.peek (searchEntry bp address type)).address != address ||
        (bp.peek (searchEntry bp address type)).type != type) = true
    · have missing : ¬ Finds bp address type := by
        rintro ⟨sameAddress, sameType⟩
        simp [sameAddress, sameType] at different
      rw [if_pos different, if_neg missing]
    · have found : Finds bp address type := by simpa [Finds] using different
      rw [if_neg different, if_pos found]
      congr 3
      refine CArray.ext_peek fun j inside => ?_
      rw [CArray.peek_modify, CArray.peek_modify]
      split
      next here =>
        rw [← here.1, Breakpoint2.flagDelete_eq, Breakpoint2.withdraw]
        simp [off]
      next => rfl
  · have inside := lt_of_visible visible
    have found : Finds bp address type := ⟨sameAddress, sameType⟩
    rw [if_pos found]
    simp only [not_last_of_visible visible, Bool.false_eq_true, if_false,
      CArray.peek_modify_same _ _ inside, sameAddress, sameType, bne_self_eq_false, Bool.or_false,
      CArray.modify_modify]
    congr 4
    funext entry
    rw [Function.comp_apply, Breakpoint2.flagDelete_eq]
    rfl

end Avarice.Mk2

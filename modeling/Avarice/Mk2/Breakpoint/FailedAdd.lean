import Avarice.Mk2.Breakpoint.Reached

/-!
# Requests that are turned down

A range breakpoint that is turned down turns its entry into the end marker.
That is harmless for an entry at the end of the table, but an entry in front of
others, which the request has found again or written over, takes those behind
it out of use.
-/

namespace Avarice.Mk2

/-- The entry is for the breakpoint of this address and type. -/
def Breakpoint2.IsFor (address : UInt32) (type : BpType) (entry : Breakpoint2) : Prop :=
  entry.address = address ∧ entry.type = type

instance (address : UInt32) (type : BpType) (entry : Breakpoint2) :
    Decidable (entry.IsFor address type) :=
  inferInstanceAs (Decidable (_ ∧ _))

/-- The entry is enabled, or still has to be removed from the ICE. -/
def Breakpoint2.engaged (entry : Breakpoint2) : Bool :=
  entry.enabled || entry.toremove

/-- What a call leaves of the breakpoints it is not about. -/
structure LeavesOthersAlone (before after : BreakpointTable) (address : UInt32) (type : BpType) :
    Prop where
  entries : ∀ j, Visible before j → (before.peek j).engaged = true →
    ¬ (before.peek j).IsFor address type → Visible after j ∧ after.peek j = before.peek j
  codeAt : ∀ other, codeBreakpointAt after other = codeBreakpointAt before other
  codeBetween : ∀ start stop,
    codeBreakpointBetween after start stop = codeBreakpointBetween before start stop

/-- A range that is turned down has other breakpoints behind its entry. -/
def BuriesOthers (bp : BreakpointTable) (address : UInt32) (type : BpType) (length : UInt32) :
    Prop :=
  IsRange type length ∧ ¬ ReachesSearchMask bp address type length ∧
    ∃ j < endIndex bp, occupied bp address type < j ∧ (bp.peek j).engaged = true ∧
      ¬ (bp.peek j).IsFor address type

instance (bp : BreakpointTable) (address : UInt32) (type : BpType) (length : UInt32) :
    Decidable (BuriesOthers bp address type length) :=
  inferInstanceAs (Decidable (_ ∧ _))

section Search

variable {bp : BreakpointTable}

/-- A search that stops at the end marker has found something in use, or has
stopped there. -/
theorem found_before_last (wanted : Breakpoint2 → Bool) :
    (!(bp.peek (bp.firstIndex fun entry => entry.last || wanted entry)).last) = true ↔
      ∃ j, Visible bp j ∧ wanted (bp.peek j) = true := by
  generalize stop : bp.firstIndex (fun entry => entry.last || wanted entry) = i
  have passed : ∀ j < i, (bp.peek j).last = false ∧ wanted (bp.peek j) = false := by
    intro j before
    have missing := CArray.not_found_before_firstIndex (stop ▸ before)
    exact Bool.or_eq_false_iff.mp missing
  constructor
  · intro found
    have inUse : (bp.peek i).last = false := by simpa using found
    have reached : ((bp.peek i).last || wanted (bp.peek i)) = true := by
      rw [← stop]
      exact CArray.found_at_firstIndex (stop ▸ lt_of_not_last inUse)
    refine ⟨i, lt_of_not_ge fun beyond => ?_, by simpa [inUse] using reached⟩
    rcases Nat.lt_or_eq_of_le beyond with before | here
    · exact absurd ((passed _ before).1.symm.trans (last_at_endIndex bp)) Bool.noConfusion
    · rw [← here, last_at_endIndex] at inUse
      cases inUse
  · rintro ⟨j, visible, wantedJ⟩
    have upTo : i ≤ j := le_of_not_gt fun before =>
      absurd ((passed j before).2.symm.trans wantedJ) Bool.noConfusion
    rw [not_last_of_visible (Nat.lt_of_le_of_lt upTo visible)]
    rfl

theorem codeBreakpointAt_iff {address : UInt32} : codeBreakpointAt bp address = true ↔
    ∃ j, Visible bp j ∧ (bp.peek j).address = address ∧ (bp.peek j).type = .code ∧
      (bp.peek j).enabled = true := by
  refine (found_before_last _).trans (exists_congr fun j => and_congr_right fun _ => ?_)
  simp only [Bool.and_eq_true, beq_iff_eq, and_assoc]

theorem codeBreakpointBetween_iff {start stop : UInt32} :
    codeBreakpointBetween bp start stop = true ↔
      ∃ j, Visible bp j ∧ (bp.peek j).address ≥ start ∧ (bp.peek j).address < stop ∧
        (bp.peek j).type = .code ∧ (bp.peek j).enabled = true := by
  refine (found_before_last _).trans (exists_congr fun j => and_congr_right fun _ => ?_)
  simp only [Bool.and_eq_true, beq_iff_eq, decide_eq_true_eq, and_assoc]

end Search

theorem LeavesOthersAlone.of_entries {before after : BreakpointTable} {address : UInt32}
    {type : BpType} (noCode : type ≠ .code)
    (kept : ∀ j, Visible before j → (before.peek j).engaged = true →
      ¬ (before.peek j).IsFor address type → Visible after j ∧ after.peek j = before.peek j)
    (fewer : ∀ j, Visible after j → Visible before j ∧ after.peek j = before.peek j) :
    LeavesOthersAlone before after address type := by
  have same : ∀ wanted : UInt32 → Prop,
      (∃ j, Visible after j ∧ wanted (after.peek j).address ∧ (after.peek j).type = .code ∧
          (after.peek j).enabled = true) ↔
        ∃ j, Visible before j ∧ wanted (before.peek j).address ∧ (before.peek j).type = .code ∧
          (before.peek j).enabled = true := by
    intro wanted
    constructor
    · rintro ⟨j, visible, found⟩
      obtain ⟨inUse, equal⟩ := fewer j visible
      exact ⟨j, inUse, equal ▸ found⟩
    · rintro ⟨j, visible, found⟩
      have engaged : (before.peek j).engaged = true := Bool.or_eq_true_iff.mpr (.inl found.2.2)
      obtain ⟨inUse, equal⟩ := kept j visible engaged fun isFor =>
        noCode (isFor.2.symm.trans found.2.1)
      exact ⟨j, inUse, equal.symm ▸ found⟩
  refine ⟨kept, fun other => ?_, fun start stop => ?_⟩
  · rw [Bool.eq_iff_iff, codeBreakpointAt_iff, codeBreakpointAt_iff]
    exact same fun found => found = other
  · rw [Bool.eq_iff_iff, codeBreakpointBetween_iff, codeBreakpointBetween_iff]
    simpa only [and_assoc] using same fun found => found ≥ start ∧ found < stop

/-- A request that fails leaves the other breakpoints alone unless it is for a
range whose entry has others behind it. -/
theorem failed_add_iff {target : Target} {added : List (UInt32 × BpType)} {bp : BreakpointTable}
    (reached : Reached target added bp) (address : UInt32) (type : BpType) (length : UInt32) :
    ((addBreakpoint target bp address type length).1 = false →
        LeavesOthersAlone bp (addBreakpoint target bp address type length).2 address type) ↔
      ¬ BuriesOthers bp address type length := by
  have orderly := reached.orderly
  have accepted : ∀ table i, (finishAdd target table i).1 ≠ false := by
    intro table i
    rw [finishAdd_accepts]
    exact nofun
  have outcome := @addBreakpoint_outcome target bp orderly.toTerminated address type length
  generalize addBreakpoint target bp address type length = result at outcome
  cases outcome with
  | full full =>
      refine ⟨fun _ buries => ?_, fun _ _ => ⟨fun _ visible _ _ => ⟨visible, rfl⟩, fun _ => rfl,
        fun _ _ => rfl⟩⟩
      obtain ⟨_, _, j, visible, behind, _⟩ := buries
      rw [full] at behind
      have before := visible.trans_le (endIndex_le_of_last orderly.sentinel)
      exact absurd before (Nat.not_lt.mpr behind.le)
  | single room single =>
      exact ⟨fun _ buries => single buries.1, fun _ failed => absurd failed (accepted _ _)⟩
  | range room _ reaches =>
      exact ⟨fun _ buries => buries.2.1 reaches, fun _ failed => absurd failed (accepted _ _)⟩
  | rejected room range turnedDown table which =>
      have occupies := ((occupied_spec orderly.toTerminated address type).resolve_left
        fun full => room.ne full.2).2
      obtain ⟨marker, before, _⟩ := orderly.rejected room occupies which
      have kept : ∀ j < occupied bp address type,
          (table.modify (occupied bp address type) Breakpoint2.reject).peek j = bp.peek j := by
        intro j less
        rw [CArray.peek_modify_ne _ _ less.ne', before j less]
      constructor
      · rintro harmless ⟨_, _, j, visible, behind, engaged, other⟩
        have still := ((harmless rfl).entries j visible engaged other).1
        rw [Visible, marker] at still
        exact absurd still (Nat.not_lt.mpr behind.le)
      · intro spared _
        refine .of_entries range.1 (fun j visible engaged other => ?_) fun j visible => ?_
        · -- the entry of the request is for no other breakpoint in use
          have notHere : j ≠ occupied bp address type := by
            rintro rfl
            cases occupies with
            | again _ sameAddress sameType => exact other ⟨sameAddress, sameType⟩
            | append atEnd => exact lt_irrefl _ (atEnd ▸ visible)
            | reuse _ disabled idle =>
                simp [Breakpoint2.engaged, disabled, idle] at engaged
          have inFront : j < occupied bp address type := by
            refine Nat.lt_of_le_of_ne (le_of_not_gt fun behind => spared ?_) notHere
            exact ⟨range, turnedDown, j, visible, behind, engaged, other⟩
          exact ⟨by rw [Visible, marker]; exact inFront, kept j inFront⟩
        · rw [Visible, marker] at visible
          exact ⟨visible.trans_le occupies.le_endIndex, kept j visible⟩

def watchThenBreak (target : Target) : BreakpointTable :=
  (addBreakpoint target (addBreakpoint target constructedTable 0x800100 .writeData 1).2
    0x200 .code 0).2

theorem watchThenBreak_reached (target : Target) :
    ∃ added, Reached target added (watchThenBreak target) :=
  ⟨_, .addBreakpoint _ _ _ (.addBreakpoint _ _ _ .constructed)⟩

/-- A range for another address only gives up the entry it was to have. -/
theorem failed_add_apart :
    (addBreakpoint ⟨false, 0⟩ (watchThenBreak ⟨false, 0⟩) 0x800102 .writeData 3).1 = false ∧
      LeavesOthersAlone (watchThenBreak ⟨false, 0⟩)
        (addBreakpoint ⟨false, 0⟩ (watchThenBreak ⟨false, 0⟩) 0x800102 .writeData 3).2
        0x800102 .writeData := by
  obtain ⟨added, reached⟩ := watchThenBreak_reached ⟨false, 0⟩
  have failed : (addBreakpoint ⟨false, 0⟩ (watchThenBreak ⟨false, 0⟩) 0x800102 .writeData 3).1 =
      false := by
    decide +kernel
  have spared : ¬ BuriesOthers (watchThenBreak ⟨false, 0⟩) 0x800102 .writeData 3 := by
    decide +kernel
  exact ⟨failed, (failed_add_iff reached 0x800102 .writeData 3).mpr spared failed⟩

/-- A range for the address of the watchpoint takes the code breakpoint with it. -/
theorem failed_add_buries :
    (∃ added, Reached ⟨false, 0⟩ added (watchThenBreak ⟨false, 0⟩)) ∧
      (addBreakpoint ⟨false, 0⟩ (watchThenBreak ⟨false, 0⟩) 0x800100 .writeData 3).1 = false ∧
        ¬ LeavesOthersAlone (watchThenBreak ⟨false, 0⟩)
          (addBreakpoint ⟨false, 0⟩ (watchThenBreak ⟨false, 0⟩) 0x800100 .writeData 3).2
          0x800100 .writeData := by
  refine ⟨watchThenBreak_reached ⟨false, 0⟩, by decide +kernel, fun kept => ?_⟩
  have still := kept.codeAt 0x200
  exact absurd still (by decide +kernel)

end Avarice.Mk2

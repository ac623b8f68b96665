import Avarice.Mk2.Breakpoint.Checked

/-!
# Scans stay in the table

The last entry of the array is never used, and so ends every loop that reaches
it.  Every operation therefore stays in range, on every table that calls can
lead to.
-/

namespace Avarice.Mk2

open Scan

abbrev finalIndex : Nat := maxTotalBreakpoints2 - 1

namespace Breakpoint2

/-- An end marker that the search for a disabled entry stops at, too. -/
structure Unused (entry : Breakpoint2) : Prop where
  last : entry.last = true
  disabled : entry.enabled = false
  kept : entry.toremove = false
  absent : entry.icestatus = false

/-- What an entry says about other entries and about slots is in range. -/
structure InRange (entry : Breakpoint2) : Prop where
  maskPointer : entry.maskPointer < maxTotalBreakpoints2
  bpnum : entry.bpnum ≤ maxBreakpoints2

structure Keeps (change : Breakpoint2 → Breakpoint2) : Prop where
  unused : ∀ entry, entry.Unused → (change entry).Unused
  inRange : ∀ entry, entry.InRange → (change entry).InRange

theorem keeps_setBpnum {slot : Nat} (inside : slot ≤ maxBreakpoints2) :
    Keeps (setBpnum slot) where
  unused _ unused := ⟨unused.last, unused.disabled, unused.kept, unused.absent⟩
  inRange _ inRange := ⟨inRange.maskPointer, inside⟩

theorem keeps_setMaskPointer {index : Nat} (inside : index < maxTotalBreakpoints2) :
    Keeps (setMaskPointer index) where
  unused _ unused := ⟨unused.last, unused.disabled, unused.kept, unused.absent⟩
  inRange _ inRange := ⟨inside, inRange.bpnum⟩

theorem keeps_setType (type : BpType) : Keeps (setType type) where
  unused _ unused := ⟨unused.last, unused.disabled, unused.kept, unused.absent⟩
  inRange _ inRange := ⟨inRange.maskPointer, inRange.bpnum⟩

theorem keeps_disable : Keeps disable where
  unused _ unused := ⟨unused.last, rfl, unused.kept, unused.absent⟩
  inRange _ inRange := ⟨inRange.maskPointer, inRange.bpnum⟩

theorem keeps_reject : Keeps reject where
  unused _ unused := ⟨rfl, rfl, unused.kept, unused.absent⟩
  inRange _ inRange := ⟨inRange.maskPointer, inRange.bpnum⟩

theorem keeps_mark : Keeps mark where
  unused _ unused := ⟨rfl, rfl, unused.kept, unused.absent⟩
  inRange _ inRange := ⟨inRange.maskPointer, inRange.bpnum⟩

theorem keeps_clear : Keeps fun entry => { entry with enabled := false } where
  unused _ unused := ⟨unused.last, rfl, unused.kept, unused.absent⟩
  inRange _ inRange := ⟨inRange.maskPointer, inRange.bpnum⟩

theorem keeps_markRemoved : Keeps markRemoved where
  unused _ unused := ⟨unused.last, unused.disabled, rfl, rfl⟩
  inRange _ inRange := ⟨inRange.maskPointer, inRange.bpnum⟩

theorem keeps_flagAdd : Keeps flagAdd where
  unused entry unused := by
    rw [flagAdd_eq]
    exact ⟨unused.last, unused.disabled, rfl, unused.absent⟩
  inRange entry inRange := by
    rw [flagAdd_eq]
    exact ⟨inRange.maskPointer, inRange.bpnum⟩

theorem keeps_flagDelete : Keeps flagDelete where
  unused entry unused := by
    rw [flagDelete_eq]
    exact ⟨unused.last, unused.disabled, unused.absent, unused.absent⟩
  inRange entry inRange := by
    rw [flagDelete_eq]
    exact ⟨inRange.maskPointer, inRange.bpnum⟩

theorem keeps_disableEntry : Keeps disableEntry where
  unused entry unused := by
    simp only [disableEntry, unused.disabled, Bool.false_and, if_neg Bool.false_ne_true]
    exact ⟨unused.last, rfl, unused.kept, unused.absent⟩
  inRange entry inRange := by
    unfold disableEntry
    split <;> exact ⟨inRange.maskPointer, inRange.bpnum⟩

end Breakpoint2

open Breakpoint2

structure Bounded (bp : BreakpointTable) : Prop where
  final : (bp.peek finalIndex).Unused
  inRange : ∀ i, (bp.peek i).InRange

theorem bounded_constructedTable : Bounded constructedTable where
  final := by constructor <;> decide
  inRange i := by
    rw [constructedTable, CArray.peek_fill]
    split <;> constructor <;> decide

section Bounded

variable {bp : BreakpointTable} (bounded : Bounded bp)
include bounded

theorem Bounded.modify {change : Breakpoint2 → Breakpoint2} (keeps : Keeps change) (i : Nat) :
    Bounded (bp.modify i change) where
  final := by
    rw [CArray.peek_modify]
    split
    · exact keeps.unused _ bounded.final
    · exact bounded.final
  inRange j := by
    rw [CArray.peek_modify]
    split
    · exact keeps.inRange _ (bounded.inRange j)
    · exact bounded.inRange j

theorem Bounded.modify_other {change : Breakpoint2 → Breakpoint2} {i : Nat}
    (other : i ≠ finalIndex)
    (inRange : ∀ entry : Breakpoint2, entry.InRange → (change entry).InRange) :
    Bounded (bp.modify i change) where
  final := by
    rw [CArray.peek_modify_ne _ _ other]
    exact bounded.final
  inRange j := by
    rw [CArray.peek_modify]
    split
    · exact inRange _ (bounded.inRange j)
    · exact bounded.inRange j

theorem Bounded.firstIndex_lt {found : Breakpoint2 → Bool}
    (marked : ∀ entry : Breakpoint2, entry.Unused → found entry = true) :
    bp.firstIndex found < maxTotalBreakpoints2 :=
  Nat.lt_of_le_of_lt (CArray.firstIndex_le_of_found (marked _ bounded.final)) (by decide)

theorem Bounded.firstIndex? {found : Breakpoint2 → Bool}
    (marked : ∀ entry : Breakpoint2, entry.Unused → found entry = true) :
    bp.firstIndex? found = some (bp.firstIndex found) :=
  CArray.firstIndex?_eq (bounded.firstIndex_lt marked)

end Bounded

theorem scan?_table {State : Type} (table : State → BreakpointTable)
    {body : Nat → State → Turn State} {body? : Nat → State → Option (Turn State)}
    (turned : ∀ i s, i < maxTotalBreakpoints2 → Bounded (table s) →
      body? i s = some (body i s) ∧ Bounded (table (body i s).state))
    {s : State} (bounded : Bounded (table s)) :
    scan? (fun i s => Checked.atLast i (table s)) body? maxTotalBreakpoints2 s =
        some (scan (fun i s => atLast i (table s)) body maxTotalBreakpoints2 s) ∧
      Bounded (table (scan (fun i s => atLast i (table s)) body maxTotalBreakpoints2 s).2) := by
  constructor
  · refine scan?_eq (fun s => Bounded (table s)) ?_ ?_ ?_ bounded
    · intro i s inside _
      rw [Checked.atLast, CArray.peek?_eq (Nat.lt_succ_of_le inside)]
      rfl
    · intro s bounded
      exact bounded.final.last
    · intro i s before bounded _
      exact turned i s (Nat.lt_succ_of_lt before) bounded
  · refine scan_rule (fun _ s => Bounded (table s)) (fun _ s => Bounded (table s)) ?_ ?_ ?_ bounded
    · intro _ _ bounded _
      exact bounded
    · intro _ _
      exact last_of_le (Nat.le_refl _)
    · intro i s inside bounded _
      have kept := (turned i s inside bounded).2
      cases outcome : body i s <;> rw [outcome] at kept <;> exact kept

section Reading

variable {bp : BreakpointTable} (bounded : Bounded bp)
include bounded

theorem Bounded.search {found : Breakpoint2 → Bool}
    (marked : ∀ entry : Breakpoint2, entry.Unused → found entry = true) :
    (do
      let i ← bp.firstIndex? found
      return !(← bp.peek? i).last) = some (!(bp.peek (bp.firstIndex found)).last) := by
  have inside := bounded.firstIndex_lt marked
  simp [CArray.firstIndex?_eq inside, CArray.peek?_eq inside]

theorem Bounded.checked_codeBreakpointAt (address : UInt32) :
    Checked.codeBreakpointAt bp address = some (codeBreakpointAt bp address) :=
  bounded.search fun _ unused => by simp [unused.last]

theorem Bounded.checked_codeBreakpointBetween (start stop : UInt32) :
    Checked.codeBreakpointBetween bp start stop = some (codeBreakpointBetween bp start stop) :=
  bounded.search fun _ unused => by simp [unused.last]

theorem Bounded.checked_deleteAllBreakpoints :
    Checked.deleteAllBreakpoints bp = some (deleteAllBreakpoints bp) ∧
      Bounded (deleteAllBreakpoints bp) := by
  obtain ⟨same, after⟩ := @scan?_table _ id (fun i bp => .next (bp.modify i disableEntry))
    (fun i bp => do return .next (← bp.modify? i disableEntry))
    (fun i bp inside bounded => ⟨by simp [CArray.modify?_eq _ inside],
      bounded.modify keeps_disableEntry i⟩) bp bounded
  refine ⟨?_, after⟩
  rw [Checked.deleteAllBreakpoints]
  exact congrArg (Option.bind · fun s => some s.2) same

end Reading

/-! ## Layout -/

theorem availableSlots?_eq (useDebugWire : Bool) :
    Checked.availableSlots useDebugWire = some (availableSlots useDebugWire) := by
  cases useDebugWire <;> rfl

theorem nextSlot?_eq (remaining : CArray Bool (maxBreakpoints2 + 2)) {bpnum : Nat}
    (inside : bpnum ≤ maxBreakpoints2) :
    Checked.nextSlot remaining bpnum = some (nextSlot remaining bpnum) := by
  have same := @scanFrom?_eq Unit
    (fun bpnum _ => remaining.peek bpnum || !(bpnum ≤ maxBreakpoints2))
    (fun _ nothing => .next nothing)
    (fun bpnum _ => do return (← remaining.peek? bpnum) || !(bpnum ≤ maxBreakpoints2))
    (fun _ nothing => some (.next nothing)) (fun _ _ => True) (maxBreakpoints2 + 1)
    (fun slot _ inside _ => by simp [CArray.peek?_eq (Nat.lt_succ_of_le inside)])
    (fun _ _ => by simp) (fun _ _ _ _ _ => ⟨rfl, trivial⟩) (maxBreakpoints2 + 1 - bpnum)
    (maxBreakpoints2 + 2 - bpnum) bpnum () (by omega) (by omega) (by omega) trivial
  rw [Checked.nextSlot, same]
  rfl

section Layout

variable {bp : BreakpointTable} (bounded : Bounded bp)
include bounded

theorem Bounded.checked_remainingSlots (target : Target) :
    Checked.remainingSlots target bp = some (remainingSlots target bp) := by
  have same := (@scan?_table _ (fun _ => bp)
    (fun i remaining =>
      if (bp.peek i).stable then .next (CArray.poke remaining (bp.peek i).bpnum false)
      else .next remaining)
    (fun i remaining => do
      let entry ← bp.peek? i
      if entry.stable then return .next (← CArray.poke? remaining entry.bpnum false)
      else return .next remaining)
    (fun i remaining inside _ => by
      have slot : (bp.peek i).bpnum < maxBreakpoints2 + 2 :=
        Nat.lt_add_right 1 (Nat.lt_succ_of_le (bounded.inRange i).bpnum)
      refine ⟨?_, bounded⟩
      rw [CArray.peek?_eq inside, Option.bind_eq_bind, Option.bind_some]
      split
      · simp [CArray.poke?_eq _ slot]
      · rfl)
    (availableSlots target.useDebugWire) bounded).1
  rw [Checked.remainingSlots, availableSlots?_eq, Option.bind_eq_bind, Option.bind_some, same]
  rfl

end Layout

def placeInSlot (i : Nat) (s : LayoutState) : Turn LayoutState :=
  if nextSlot s.remainingBps breakpoint2FirstData > maxBreakpoints2 then
    .leave { s with hadroom := false }
  else
    .next { s with
      bp := s.bp.modify i (setBpnum (nextSlot s.remainingBps breakpoint2FirstData))
      remainingBps := s.remainingBps.poke (nextSlot s.remainingBps breakpoint2FirstData) false }

section Turns

variable {i : Nat} {s : LayoutState} (inside : i < maxTotalBreakpoints2) (bounded : Bounded s.bp)
include inside bounded

theorem giveSlot?_eq {slot : Nat} (low : slot ≤ maxBreakpoints2) :
    (do
      let bp ← s.bp.modify? i (setBpnum slot)
      let remainingBps ← s.remainingBps.poke? slot false
      return Turn.next { s with bp, remainingBps }) =
        some (.next { s with
          bp := s.bp.modify i (setBpnum slot), remainingBps := s.remainingBps.poke slot false }) ∧
      Bounded (s.bp.modify i (setBpnum slot)) := by
  have within : slot < maxBreakpoints2 + 2 := Nat.lt_add_right 1 (Nat.lt_succ_of_le low)
  refine ⟨?_, bounded.modify (keeps_setBpnum low) i⟩
  simp [CArray.modify?_eq _ inside, CArray.poke?_eq _ within]

theorem placeInSlot?_eq :
    (do
      let bpnum ← Checked.nextSlot s.remainingBps breakpoint2FirstData
      if bpnum > maxBreakpoints2 then return .leave { s with hadroom := false }
      else
        let bp ← s.bp.modify? i (setBpnum bpnum)
        let remainingBps ← s.remainingBps.poke? bpnum false
        return .next { s with bp, remainingBps }) =
        some (placeInSlot i s) ∧
      Bounded (placeInSlot i s).state.bp := by
  rw [nextSlot?_eq s.remainingBps (by decide), Option.bind_eq_bind, Option.bind_some, placeInSlot]
  split
  · exact ⟨rfl, bounded⟩
  · rename_i room
    exact giveSlot?_eq inside bounded (Nat.not_lt.mp room)

theorem placeData?_eq :
    Checked.placeData i s = some (placeData i s) ∧ Bounded (placeData i s).state.bp := by
  have mask := (bounded.inRange i).maskPointer
  have maskSlot : breakpoint2DataMask < maxBreakpoints2 + 2 := by decide
  have firstSlot : breakpoint2FirstData < maxBreakpoints2 + 2 := by decide
  simp only [Checked.placeData, placeData, CArray.peek?_eq inside, CArray.peek?_eq maskSlot,
    CArray.peek?_eq firstSlot, CArray.poke?_eq _ maskSlot, CArray.modify?_eq _ mask,
    Option.bind_eq_bind, Option.bind_some]
  split
  · split
    · have disabled := bounded.modify keeps_disable (s.bp.peek i).maskPointer
      refine ⟨?_, disabled.modify keeps_disable i⟩
      simp [CArray.modify?_eq _ inside]
    · have searched := @placeInSlot?_eq i
      by_cases masked : BpType.masked (s.bp.peek i).type = true
      · simp only [masked, if_true]
        exact searched inside (bounded.modify (keeps_setBpnum (by decide)) _)
      · simp only [masked]
        exact searched inside bounded
  · exact ⟨rfl, bounded⟩

theorem placeCode?_eq (softwarebps : Bool) :
    Checked.placeCode softwarebps i s = some (placeCode softwarebps i s) ∧
      Bounded (placeCode softwarebps i s).state.bp := by
  have search := nextSlot?_eq s.remainingBps (Nat.zero_le _)
  simp only [Checked.placeCode, placeCode, search, CArray.peek?_eq inside, Option.bind_eq_bind,
    Option.bind_some]
  generalize chosen : (if nextSlot s.remainingBps 0x00 > maxBreakpoints2 then
    (if softwarebps then 0x00 else 0xFF) else nextSlot s.remainingBps 0x00) = slot
  split
  · by_cases none : slot = 0xFF
    · simp only [none]
      exact ⟨rfl, bounded⟩
    · have low : slot ≤ maxBreakpoints2 := by
        by_cases full : nextSlot s.remainingBps 0x00 > maxBreakpoints2
        · cases softwarebps with
          | true =>
              rw [← chosen, if_pos full]
              exact Nat.zero_le _
          | false => exact absurd (chosen.symm.trans (if_pos full)) none
        · rw [← chosen, if_neg full]
          exact Nat.not_lt.mp full
      obtain ⟨same, after⟩ := giveSlot?_eq inside bounded low
      simp only [beq_iff_eq, none, if_false]
      exact ⟨same, after⟩
  · exact ⟨rfl, bounded⟩

end Turns

section Operations

variable {bp : BreakpointTable} (bounded : Bounded bp) (target : Target)
include bounded

theorem Bounded.checked_layoutBreakpoints :
    Checked.layoutBreakpoints target bp = some (layoutBreakpoints target bp) ∧
      Bounded (layoutBreakpoints target bp).2 := by
  obtain ⟨data, afterData⟩ := @scan?_table _ LayoutState.bp _ Checked.placeData
    (fun _ _ inside bounded => placeData?_eq inside bounded)
    { bp, remainingBps := remainingSlots target bp, hadroom := true } bounded
  obtain ⟨code, afterCode⟩ := @scan?_table _ LayoutState.bp _
    (Checked.placeCode (softwarebps target))
    (fun _ _ inside bounded => placeCode?_eq inside bounded (softwarebps target)) _ afterData
  refine ⟨?_, afterCode⟩
  simp only [Checked.layoutBreakpoints, bounded.checked_remainingSlots target,
    Option.bind_eq_bind, Option.bind_some, data, code]
  rfl

/-! ## Adding and deleting -/

theorem Bounded.searchEntry_lt (address : UInt32) (type : BpType) :
    searchEntry bp address type < maxTotalBreakpoints2 :=
  bounded.firstIndex_lt fun _ unused => by simp [unused.last]

theorem Bounded.checked_searchEntry (address : UInt32) (type : BpType) :
    Checked.searchEntry bp address type = some (searchEntry bp address type) :=
  CArray.firstIndex?_eq (bounded.searchEntry_lt address type)

theorem Bounded.searchDisabled_lt : searchDisabled bp < maxTotalBreakpoints2 :=
  bounded.firstIndex_lt fun _ unused => by simp [unused.disabled, unused.kept]

theorem Bounded.searchMask_lt (i : Nat) (mask : UInt32) :
    searchMask bp i mask < maxTotalBreakpoints2 :=
  bounded.firstIndex_lt fun _ unused => by simp [unused.last]

/-- Where a search has stopped, an entry that is not an end marker is enabled. -/
theorem Bounded.checked_enableFound {i : Nat} (inside : i < maxTotalBreakpoints2) :
    Checked.enableFound bp i = some (enableFound bp i) ∧ Bounded (enableFound bp i) := by
  rw [Checked.enableFound, CArray.peek?_eq inside, Option.bind_eq_bind, Option.bind_some,
    enableFound]
  split
  · exact ⟨rfl, bounded⟩
  · rename_i used
    have other : i ≠ finalIndex := by
      rintro rfl
      exact used bounded.final.last
    refine ⟨CArray.modify?_eq _ inside, bounded.modify_other other fun _ inRange => ?_⟩
    exact ⟨inRange.maskPointer, inRange.bpnum⟩

theorem Bounded.checked_chooseEntry {i : Nat} (inside : i < maxTotalBreakpoints2) :
    Checked.chooseEntry bp i = some (chooseEntry bp i) ∧
      chooseEntry bp i < maxTotalBreakpoints2 := by
  rw [Checked.chooseEntry, chooseEntry]
  split
  · exact ⟨CArray.firstIndex?_eq bounded.searchDisabled_lt, bounded.searchDisabled_lt⟩
  · exact ⟨rfl, inside⟩

theorem Bounded.checked_claimEntry {i : Nat} (room : i + 1 < maxTotalBreakpoints2)
    (address : UInt32) (type : BpType) :
    Checked.claimEntry bp i address type = some (claimEntry bp i address type) ∧
      Bounded (claimEntry bp i address type) := by
  have inside : i < maxTotalBreakpoints2 := Nat.lt_of_succ_lt room
  have other : i ≠ finalIndex := by
    rintro rfl
    exact absurd room (Nat.lt_irrefl _)
  rw [Checked.claimEntry, CArray.peek?_eq inside, Option.bind_eq_bind, Option.bind_some,
    claimEntry]
  have occupied {bp : BreakpointTable} (bounded : Bounded bp) :
      Bounded (bp.modify i (occupy address type)) :=
    bounded.modify_other other fun _ inRange => ⟨inRange.maskPointer, inRange.bpnum⟩
  split
  · refine ⟨?_, occupied (bounded.modify keeps_mark (i + 1))⟩
    simp [CArray.modify?_eq _ room, CArray.modify?_eq _ inside]
  · refine ⟨?_, occupied bounded⟩
    simp [CArray.modify?_eq _ inside]

theorem Bounded.checked_finishAdd {i : Nat} (inside : i < maxTotalBreakpoints2) :
    Checked.finishAdd target bp i = some (finishAdd target bp i) ∧
      Bounded (finishAdd target bp i).2 := by
  have flagged := bounded.modify keeps_flagAdd i
  obtain ⟨same, laidOut⟩ := flagged.checked_layoutBreakpoints target
  simp only [Checked.finishAdd, CArray.modify?_eq _ inside, Option.bind_eq_bind, Option.bind_some,
    same, finishAdd]
  generalize layoutBreakpoints target (bp.modify i flagAdd) = outcome at laidOut
  obtain ⟨hadroom, after⟩ := outcome
  cases hadroom with
  | true => exact ⟨rfl, laidOut⟩
  | false =>
      have disabled := laidOut.modify keeps_disable i
      have mask := (disabled.inRange i).maskPointer
      simp only [CArray.peek?_eq inside, Option.bind_some]
      split
      · refine ⟨?_, disabled.modify keeps_disable _⟩
        simp [CArray.modify?_eq _ mask]
      · exact ⟨rfl, disabled⟩

theorem Bounded.checked_addRange {i : Nat} (inside : i < maxTotalBreakpoints2)
    {addMask : BreakpointTable → UInt32 → Bool × BreakpointTable}
    {addMask? : BreakpointTable → UInt32 → Option (Bool × BreakpointTable)}
    (nested : ∀ bp mask, Bounded bp →
      addMask? bp mask = some (addMask bp mask) ∧ Bounded (addMask bp mask).2)
    (address : UInt32) (type : BpType) (length : UInt32) :
    Checked.addRange target addMask? bp i address type length =
        some (addRange target addMask bp i address type length) ∧
      Bounded (addRange target addMask bp i address type length).2 := by
  have rejected := bounded.modify keeps_reject i
  have typed := bounded.modify (keeps_setType (type ||| .hasMask)) i
  simp only [Checked.addRange, addRange, CArray.modify?_eq _ inside, Option.bind_eq_bind,
    Option.bind_some]
  split
  · exact ⟨rfl, rejected⟩
  · split
    · exact ⟨rfl, rejected⟩
    · obtain ⟨same, after⟩ := nested _ (~~~(lowestBit length - 1)) typed
      simp only [same, Option.bind_some]
      generalize addMask _ _ = outcome at after
      obtain ⟨added, after'⟩ := outcome
      cases added with
      | false => exact ⟨rfl, Bounded.modify after keeps_reject i⟩
      | true =>
          have search := Bounded.searchMask_lt after i (~~~(lowestBit length - 1))
          have pointed := Bounded.modify after (keeps_setMaskPointer search) i
          have searched : Checked.searchMask after' i (~~~(lowestBit length - 1)) =
              some (searchMask after' i (~~~(lowestBit length - 1))) := by
            rw [Checked.searchMask, CArray.peek?_eq inside]
            exact CArray.firstIndex?_eq search
          simp only [searched, Option.bind_some]
          exact pointed.checked_finishAdd target inside

/-- A call for a single byte nests no other, and one for a range nests one. -/
theorem Bounded.checked_addBreakpointAt (depth : Nat) (address : UInt32) (type : BpType)
    (length : UInt32) (enough : 1 < length → 1 < depth) (positive : 0 < depth) :
    Checked.addBreakpointAt target depth bp address type length =
        some (addBreakpointAt target depth bp address type length) ∧
      Bounded (addBreakpointAt target depth bp address type length).2 := by
  induction depth generalizing bp address type length with
  | zero => exact absurd positive (Nat.lt_irrefl _)
  | succ depth inductionHypothesis =>
      have found := bounded.searchEntry_lt address type
      obtain ⟨enabled, after⟩ := bounded.checked_enableFound found
      simp only [Checked.addBreakpointAt, addBreakpointAt,
        bounded.checked_searchEntry address type, Option.bind_eq_bind, Option.bind_some, enabled,
        CArray.peek?_eq found]
      split
      · obtain ⟨chosen, inside⟩ := after.checked_chooseEntry found
        simp only [chosen, Option.bind_some]
        split
        · exact ⟨rfl, after⟩
        · rename_i room
          have within : chooseEntry (enableFound bp (searchEntry bp address type))
              (searchEntry bp address type) + 1 < maxTotalBreakpoints2 :=
            Nat.lt_of_le_of_ne inside fun full => room (beq_iff_eq.mpr full)
          obtain ⟨claimed, taken⟩ := after.checked_claimEntry within address type
          simp only [claimed, Option.bind_some]
          split
          · rename_i range
            have long : 1 < length := by
              simp only [Bool.and_eq_true, decide_eq_true_eq] at range
              exact range.1
            have deeper : 0 < depth := Nat.lt_of_succ_lt_succ (enough long)
            refine taken.checked_addRange target inside ?_ address type length
            intro bp mask bounded
            exact inductionHypothesis bounded mask .dataMask 1
              (fun absurd => by simp at absurd) deeper
          · exact taken.checked_finishAdd target inside
      · exact after.checked_finishAdd target found

theorem Bounded.checked_addBreakpoint (address : UInt32) (type : BpType) (length : UInt32) :
    Checked.addBreakpoint target bp address type length =
        some (addBreakpoint target bp address type length) ∧
      Bounded (addBreakpoint target bp address type length).2 :=
  bounded.checked_addBreakpointAt target 2 address type length (fun _ => Nat.one_lt_two)
    Nat.two_pos

theorem Bounded.checked_deleteBreakpoint (address : UInt32) (type : BpType) (length : UInt32) :
    Checked.deleteBreakpoint target bp address type length =
        some (deleteBreakpoint target bp address type length) ∧
      Bounded (deleteBreakpoint target bp address type length).2 := by
  have found := bounded.searchEntry_lt address type
  have finish {bp : BreakpointTable} (bounded : Bounded bp) (i : Nat) (wrong : Bool) :
      (if wrong then some (false, bp)
        else (Checked.layoutBreakpoints target (bp.modify i flagDelete)).bind
          fun after => some (true, after.2)) =
          some (if wrong then (false, bp)
            else (true, (layoutBreakpoints target (bp.modify i flagDelete)).2)) ∧
        Bounded (if wrong then (false, bp)
          else (true, (layoutBreakpoints target (bp.modify i flagDelete)).2)).2 := by
    cases wrong with
    | true => exact ⟨rfl, bounded⟩
    | false =>
        obtain ⟨same, after⟩ := (bounded.modify keeps_flagDelete i).checked_layoutBreakpoints target
        rw [same]
        exact ⟨rfl, after⟩
  simp only [Checked.deleteBreakpoint, deleteBreakpoint, bounded.checked_searchEntry address type,
    Option.bind_eq_bind, Option.bind_some, CArray.peek?_eq found, CArray.modify?_eq _ found]
  by_cases last : (bp.peek (searchEntry bp address type)).last = true
  · simp only [last, if_true, Option.pure_def, Option.bind_some]
    exact finish bounded _ _
  · simp only [last, Bool.false_eq_true, if_false, Option.pure_def, Option.bind_some]
    exact finish (bounded.modify keeps_clear _) _ _

end Operations

/-! ## Downloading -/

section Update

variable {Ice : Type} (doJtagCommand : BreakCommand → Ice → Bool × Ice)

section Turns

variable {i : Nat} {s : UpdateState Ice} (inside : i < maxTotalBreakpoints2)
  (bounded : Bounded s.bp)
include inside bounded

theorem removeEntry?_eq :
    Checked.removeEntry doJtagCommand i s = some (removeEntry doJtagCommand i s) ∧
      Bounded (removeEntry doJtagCommand i s).state.bp := by
  simp only [Checked.removeEntry, removeEntry, CArray.peek?_eq inside, Option.bind_eq_bind,
    Option.bind_some]
  split
  · generalize doJtagCommand (clearCommand (s.bp.peek i)) s.ice = answer
    obtain ⟨success, ice⟩ := answer
    cases success with
    | false => exact ⟨rfl, bounded⟩
    | true =>
        refine ⟨?_, bounded.modify keeps_markRemoved i⟩
        simp [CArray.modify?_eq _ inside]
  · exact ⟨rfl, bounded⟩

theorem downloadEntry?_eq :
    Checked.downloadEntry doJtagCommand i s = some (downloadEntry doJtagCommand i s) ∧
      Bounded (downloadEntry doJtagCommand i s).state.bp := by
  simp only [Checked.downloadEntry, downloadEntry, CArray.peek?_eq inside, Option.bind_eq_bind,
    Option.bind_some]
  split
  · rename_i wanted
    have other : i ≠ finalIndex := by
      rintro rfl
      rw [bounded.final.disabled, Bool.and_false] at wanted
      cases wanted
    cases setBreak (s.bp.peek i) with
    | none => exact ⟨rfl, bounded⟩
    | some content =>
        dsimp only
        generalize doJtagCommand (.setBreak (s.bp.peek i).bpnum content) s.ice = answer
        obtain ⟨success, ice⟩ := answer
        cases success with
        | false => exact ⟨rfl, bounded⟩
        | true =>
            refine ⟨?_, bounded.modify_other other fun _ inRange => ?_⟩
            · simp [CArray.modify?_eq _ inside]
            · exact ⟨inRange.maskPointer, inRange.bpnum⟩
  · exact ⟨rfl, bounded⟩

end Turns

theorem Bounded.checked_updateBreakpoints {bp : BreakpointTable} (bounded : Bounded bp)
    (target : Target) (ice : Ice) :
    Checked.updateBreakpoints doJtagCommand target bp ice =
        some (updateBreakpoints doJtagCommand target bp ice) ∧
      Bounded (updateBreakpoints doJtagCommand target bp ice).bp := by
  obtain ⟨laidOut, afterLayout⟩ := bounded.checked_layoutBreakpoints target
  obtain ⟨removed, afterRemoving⟩ := @scan?_table _ UpdateState.bp _
    (Checked.removeEntry doJtagCommand)
    (fun _ _ inside bounded => removeEntry?_eq doJtagCommand inside bounded)
    { bp := (layoutBreakpoints target bp).2, ice, thrown := false } afterLayout
  simp only [Checked.updateBreakpoints, updateBreakpoints, laidOut, Option.bind_eq_bind,
    Option.bind_some, removed]
  by_cases thrown : (removeAll doJtagCommand
      { bp := (layoutBreakpoints target bp).2, ice, thrown := false }).thrown = true
  · simp only [removeAll] at thrown
    simp only [removeAll, thrown, if_true]
    exact ⟨rfl, afterRemoving⟩
  · obtain ⟨downloaded, afterDownloading⟩ := @scan?_table _ UpdateState.bp _
      (Checked.downloadEntry doJtagCommand)
      (fun _ _ inside bounded => downloadEntry?_eq doJtagCommand inside bounded) _ afterRemoving
    simp only [removeAll] at thrown
    simp only [removeAll, thrown, downloaded, Option.bind_some]
    exact ⟨rfl, afterDownloading⟩

end Update

/-! ## Runs -/

/-- The calls of the breakpoint code that change the table. -/
inductive TableOp where
  | addBreakpoint (address : UInt32) (type : BpType) (length : UInt32)
  | deleteBreakpoint (address : UInt32) (type : BpType) (length : UInt32)
  | deleteAllBreakpoints
  | layoutBreakpoints
  | updateBreakpoints

/-- The table, and an ICE that answers commands. -/
@[ext]
structure TableState (Ice : Type) where
  bp : BreakpointTable
  ice : Ice

section Runs

variable {Ice : Type} (target : Target) (doJtagCommand : BreakCommand → Ice → Bool × Ice)

def TableState.apply (s : TableState Ice) : TableOp → TableState Ice
  | .addBreakpoint address type length =>
      { s with bp := (addBreakpoint target s.bp address type length).2 }
  | .deleteBreakpoint address type length =>
      { s with bp := (deleteBreakpoint target s.bp address type length).2 }
  | .deleteAllBreakpoints => { s with bp := deleteAllBreakpoints s.bp }
  | .layoutBreakpoints => { s with bp := (layoutBreakpoints target s.bp).2 }
  | .updateBreakpoints =>
      let after := updateBreakpoints doJtagCommand target s.bp s.ice
      { bp := after.bp, ice := after.ice }

def Checked.apply (s : TableState Ice) : TableOp → Option (TableState Ice)
  | .addBreakpoint address type length => do
      return { s with bp := (← Checked.addBreakpoint target s.bp address type length).2 }
  | .deleteBreakpoint address type length => do
      return { s with bp := (← Checked.deleteBreakpoint target s.bp address type length).2 }
  | .deleteAllBreakpoints => do return { s with bp := ← Checked.deleteAllBreakpoints s.bp }
  | .layoutBreakpoints => do
      return { s with bp := (← Checked.layoutBreakpoints target s.bp).2 }
  | .updateBreakpoints => do
      let after ← Checked.updateBreakpoints doJtagCommand target s.bp s.ice
      return { bp := after.bp, ice := after.ice }

theorem apply?_eq {s : TableState Ice} (bounded : Bounded s.bp) (op : TableOp) :
    Checked.apply target doJtagCommand s op = some (s.apply target doJtagCommand op) ∧
      Bounded (s.apply target doJtagCommand op).bp := by
  cases op with
  | addBreakpoint address type length =>
      obtain ⟨same, after⟩ := bounded.checked_addBreakpoint target address type length
      exact ⟨by simp [Checked.apply, same, TableState.apply], after⟩
  | deleteBreakpoint address type length =>
      obtain ⟨same, after⟩ := bounded.checked_deleteBreakpoint target address type length
      exact ⟨by simp [Checked.apply, same, TableState.apply], after⟩
  | deleteAllBreakpoints =>
      obtain ⟨same, after⟩ := bounded.checked_deleteAllBreakpoints
      exact ⟨by simp [Checked.apply, same, TableState.apply], after⟩
  | layoutBreakpoints =>
      obtain ⟨same, after⟩ := bounded.checked_layoutBreakpoints target
      exact ⟨by simp [Checked.apply, same, TableState.apply], after⟩
  | updateBreakpoints =>
      obtain ⟨same, after⟩ := bounded.checked_updateBreakpoints doJtagCommand target s.ice
      exact ⟨by simp [Checked.apply, same, TableState.apply], after⟩

theorem bounded_run (ice : Ice) (ops : List TableOp) :
    Bounded (Transition.run (TableState.apply target doJtagCommand)
      ⟨constructedTable, ice⟩ ops).bp :=
  @Transition.invariant_of_run _ _ _ (fun s : TableState Ice => Bounded s.bp)
    (fun _ op bounded => (apply?_eq target doJtagCommand bounded op).2) _ _ bounded_constructedTable

/-- In every state that calls lead to, some entry of the table is marked as the
last one, the indexes that entries hold are in range, the search for a disabled
entry ends in the table, and the next call never leaves it and nests at most one
call. -/
theorem scans_end (ice : Ice) (ops : List TableOp) :
    let s := Transition.run (TableState.apply target doJtagCommand) ⟨constructedTable, ice⟩ ops
    (∃ i ≤ 31, (s.bp.peek i).last = true) ∧
      (∀ i, (s.bp.peek i).maskPointer ≤ 31 ∧ (s.bp.peek i).bpnum < maxBreakpoints2 + 2) ∧
      searchDisabled s.bp ≤ 31 ∧
      (∀ address, Checked.codeBreakpointAt s.bp address = some (codeBreakpointAt s.bp address)) ∧
      (∀ start stop, Checked.codeBreakpointBetween s.bp start stop =
        some (codeBreakpointBetween s.bp start stop)) ∧
      ∀ op, Checked.apply target doJtagCommand s op =
        some (s.apply target doJtagCommand op) := by
  intro s
  have bounded : Bounded s.bp := bounded_run target doJtagCommand ice ops
  refine ⟨⟨finalIndex, Nat.le_refl _, bounded.final.last⟩, fun i => ?_,
    Nat.le_of_lt_succ bounded.searchDisabled_lt, bounded.checked_codeBreakpointAt,
    bounded.checked_codeBreakpointBetween,
    fun op => (apply?_eq target doJtagCommand bounded op).1⟩
  obtain ⟨mask, slot⟩ := bounded.inRange i
  exact ⟨Nat.le_of_lt_succ mask, Nat.lt_add_right 1 (Nat.lt_succ_of_le slot)⟩

end Runs

end Avarice.Mk2

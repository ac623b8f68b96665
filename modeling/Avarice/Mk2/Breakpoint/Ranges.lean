import Avarice.Mk2.Breakpoint.Consistency
import Avarice.Mk2.Breakpoint.Update

/-!
# Requests for range breakpoints

A range breakpoint is a pair of entries, the second of which `maskPointer` is
meant to name.  The search for that entry compares the address of the range
itself with the mask, so that most ranges are linked to the end marker.
-/

namespace Avarice.Mk2

/-- The entry `addBreakpoint` has claimed for a range, before the mask is added. -/
def claimedRange (bp : BreakpointTable) (address : UInt32) (type : BpType) : BreakpointTable :=
  (claimEntry bp (occupied bp address type) address type).modify (occupied bp address type)
    (Breakpoint2.setType (type ||| .hasMask))

theorem setType_claimEntry (bp : BreakpointTable) (address : UInt32) (type : BpType) :
    (claimEntry bp (occupied bp address type) address type).modify (occupied bp address type)
      (Breakpoint2.setType (type ||| .hasMask)) = claimedRange bp address type := rfl

/-- A request for a range breakpoint gets as far as the search for its mask:
its length is a power of two, its address is aligned, and the table has entries
left for the range and for the mask. -/
def ReachesSearchMask (bp : BreakpointTable) (address : UInt32) (type : BpType)
    (length : UInt32) : Prop :=
  type ≠ .code ∧ length > 1 ∧ lowestBit length = length ∧ address &&& (length - 1) = 0 ∧
    occupied bp address type ≠ 31 ∧
    occupied (claimedRange bp address type) (~~~(length - 1)) .dataMask ≠ 31

instance (bp : BreakpointTable) (address : UInt32) (type : BpType) (length : UInt32) :
    Decidable (ReachesSearchMask bp address type length) :=
  inferInstanceAs (Decidable (_ ∧ _))

theorem addMask_eq (target : Target) {bp : BreakpointTable} (terminated : Terminated bp)
    (mask : UInt32) :
    addBreakpointAt target 1 bp mask .dataMask 1 =
      if occupied bp mask .dataMask = 31 then (false, bp)
      else finishAdd target (claimEntry bp (occupied bp mask .dataMask) mask .dataMask)
        (occupied bp mask .dataMask) := by
  rw [addBreakpointAt_succ terminated]
  rcases occupied_spec terminated mask .dataMask with ⟨_, full⟩ | ⟨small, _⟩
  · rw [full, if_pos rfl]
    exact if_pos rfl
  · have single : (decide ((1 : UInt32) > 1) && BpType.dataMask != .code) = false := by decide
    rw [not_atMax small, if_neg Bool.false_ne_true, if_neg small.ne, single,
      if_neg Bool.false_ne_true]

theorem claimedRange_terminated {bp : BreakpointTable} (terminated : Terminated bp)
    {address : UInt32} {type : BpType} (room : occupied bp address type < 31) :
    Terminated (claimedRange bp address type) := by
  refine (terminated.claimEntry address type room).modify
    (fun atEnd => absurd atEnd room.ne) fun marked => ?_
  rw [Breakpoint2.setType_last, claimEntry, CArray.peek_modify_same _ _
    (Nat.lt_succ_of_lt room)] at marked
  cases marked

/-- A range that does not reach the search is turned down, and loses at most
its own entry. -/
theorem addRange_turned_down {bp : BreakpointTable} (terminated : Terminated bp)
    {target : Target} {address : UInt32} {type : BpType} {length : UInt32} (noCode : type ≠ .code)
    (long : length > 1) (room : occupied bp address type < 31)
    (turnedDown : ¬ ReachesSearchMask bp address type length) :
    ∃ table, (table = claimEntry bp (occupied bp address type) address type ∨
        table = claimedRange bp address type) ∧
      addBreakpoint target bp address type length =
        (false, table.modify (occupied bp address type) Breakpoint2.reject) := by
  have range : (decide (length > 1) && type != .code) = true := by simp [long, noCode]
  unfold addBreakpoint
  rw [addBreakpointAt_succ terminated, not_atMax room, if_neg Bool.false_ne_true, range,
    if_pos rfl]
  unfold addRange
  by_cases power : lowestBit length = length
  swap
  · refine ⟨_, .inl rfl, ?_⟩
    simp only [bne_iff_ne, ne_eq, power, not_false_eq_true, if_true]
  by_cases aligned : address &&& (length - 1) = 0
  swap
  · refine ⟨_, .inl rfl, ?_⟩
    simp [power, aligned]
  refine ⟨_, .inr rfl, ?_⟩
  have full : occupied (claimedRange bp address type) (~~~(length - 1)) .dataMask = 31 := by
    by_contra free
    exact turnedDown ⟨noCode, long, power, aligned, room.ne, free⟩
  have refused := addMask_eq target (claimedRange_terminated terminated room)
    (~~~(length - 1))
  rw [full, if_pos rfl] at refused
  simp only [power, bne_self_eq_false, Bool.false_eq_true, if_false, aligned]
  rw [setType_claimEntry, refused]

/-! ## The search for the mask -/

theorem BpType.masked_hasMask (type : BpType) : BpType.masked (type ||| .hasMask) = true := by
  rw [BpType.masked, beq_iff_eq, ← UInt32.toBitVec_inj]
  ext bit
  simp only [UInt32.toBitVec_and, UInt32.toBitVec_or, BitVec.getElem_and, BitVec.getElem_or]
  cases (BpType.hasMask.toBitVec)[bit] <;> simp

theorem BpType.watchesData_masked {type : BpType} (plain : BpType.plain type = true)
    (noCode : type ≠ .code) : BpType.watchesData (type ||| .hasMask) = true := by
  simp only [BpType.plain, Bool.or_eq_true, beq_iff_eq] at plain
  rcases plain with ((isCode | isWrite) | isRead) | isAccess
  · exact absurd isCode noCode
  all_goals subst type; decide

section Search

variable {bp : BreakpointTable} {address : UInt32} {type : BpType} {length : UInt32}

theorem claimedRange_peek (room : occupied bp address type < 31) :
    (claimedRange bp address type).peek (occupied bp address type) =
      ((bp.peek (occupied bp address type)).occupy address type).setType (type ||| .hasMask) := by
  rw [claimedRange, CArray.peek_modify_same _ _ (Nat.lt_succ_of_lt room), claimEntry_peek_self room]

theorem claimedRange_peek_ne {j : Nat} (visible : Visible bp j)
    (different : j ≠ occupied bp address type) :
    (claimedRange bp address type).peek j = bp.peek j := by
  rw [claimedRange, CArray.peek_modify_ne _ _ different.symm, claimEntry_peek_ne visible different]

theorem claimedRange_visible (room : occupied bp address type < 31)
    (occupies : Occupies bp address type (occupied bp address type)) :
    Visible (claimedRange bp address type) (occupied bp address type) :=
  (visible_modify rfl _).mpr ((claimEntry_visible room occupies.le_endIndex _).mpr (.inr rfl))

theorem claimedRange_apart (room : occupied bp address type < 31)
    (occupies : Occupies bp address type (occupied bp address type)) {mask : UInt32}
    (occupiesMask : Occupies (claimedRange bp address type) mask .dataMask
      (occupied (claimedRange bp address type) mask .dataMask)) :
    occupied bp address type ≠ occupied (claimedRange bp address type) mask .dataMask := by
  intro same
  rw [← same] at occupiesMask
  cases occupiesMask with
  | again _ _ sameType =>
      rw [claimedRange_peek room] at sameType
      have masked := BpType.masked_hasMask type
      rw [show type ||| .hasMask = .dataMask from sameType] at masked
      exact absurd masked (by decide)
  | append atEnd =>
      exact absurd (claimedRange_visible room occupies) (Nat.not_lt.mpr atEnd.ge)
  | reuse _ disabled =>
      rw [claimedRange_peek room] at disabled
      cases disabled

/-- The search compares the address of the range: it finds no mask, and ends at
the end marker. -/
theorem searchMask_eq_endIndex {i : Nat} {mask : UInt32} (other : (bp.peek i).address ≠ mask) :
    searchMask bp i mask = endIndex bp := by
  have different : ((bp.peek i).address == mask) = false := beq_false_of_ne other
  unfold searchMask endIndex
  simp only [different, Bool.and_false, Bool.or_false]

/-- The table in which a request has its entry. -/
def claimed (bp : BreakpointTable) (address : UInt32) (type : BpType) : BreakpointTable :=
  claimEntry bp (occupied bp address type) address type

/-- The table in which a range has been claimed and its mask has been added. -/
def withMask (target : Target) (bp : BreakpointTable) (address : UInt32) (type : BpType)
    (length : UInt32) : BreakpointTable :=
  let range := claimedRange bp address type
  let mask := ~~~(length - 1)
  (finishAdd target (claimed range mask .dataMask) (occupied range mask .dataMask)).2

/-- The table in which a range points to its mask. -/
def linked (target : Target) (bp : BreakpointTable) (address : UInt32) (type : BpType)
    (length : UInt32) : BreakpointTable :=
  let added := withMask target bp address type length
  let i := occupied bp address type
  added.modify i (Breakpoint2.setMaskPointer (searchMask added i (~~~(length - 1))))

theorem addBreakpoint_linked {target : Target} (terminated : Terminated bp)
    (room : occupied bp address type < 31)
    (reaches : ReachesSearchMask bp address type length) :
    addBreakpoint target bp address type length =
      finishAdd target (linked target bp address type length) (occupied bp address type) := by
  obtain ⟨noCode, long, power, aligned, _, roomMask⟩ := reaches
  have range : (decide (length > 1) && type != .code) = true := by simp [long, noCode]
  have terminated' : Terminated (claimedRange bp address type) :=
    claimedRange_terminated terminated room
  have added := addMask_eq target terminated' (~~~(length - 1))
  rw [if_neg roomMask] at added
  unfold addBreakpoint
  rw [addBreakpointAt_succ terminated, not_atMax room, if_neg Bool.false_ne_true, range,
    if_pos rfl]
  unfold addRange
  simp only [power, bne_self_eq_false, Bool.false_eq_true, if_false, aligned]
  rw [setType_claimEntry, added, finishAdd_eq]
  simp only [linked, withMask, finishAdd_eq, claimed]

end Search

end Avarice.Mk2

import Avarice.Mk2.Breakpoint.DataTurn

/-!
# The loop over the data watchpoints with ranges

A waiting data watchpoint needs one of the two data slots, a range breakpoint
needs both, one of them for its mask.  If every range has a mask of its own, the
loop gives each of them slots of its own, and it fails only when more slots are
asked for than are free.
-/

namespace Avarice.Mk2

open Scan

/-- Entries that stand for one hardware slot each: a waiting data watchpoint,
and its mask if it is a range. -/
def slotUsers (bp : BreakpointTable) (i : Nat) : Finset Nat :=
  if (bp.peek i).waitsForData then
    if BpType.masked (bp.peek i).type then {i, (bp.peek i).maskPointer} else {i}
  else ∅

/-- Those of the entries before an index. -/
def slotUsersBefore (bp : BreakpointTable) (i : Nat) : Finset Nat :=
  (Finset.range i).biUnion (slotUsers bp)

/-- Every waiting range breakpoint has a mask entry of its own, which is waiting
with it. -/
structure OwnMasks (bp : BreakpointTable) : Prop where
  mask : ∀ i, Visible bp i → (bp.peek i).waitsForPair = true →
    Visible bp (bp.peek i).maskPointer ∧ (bp.peek (bp.peek i).maskPointer).type = .dataMask ∧
      (bp.peek (bp.peek i).maskPointer).toadd = true
  own : ∀ i j, Visible bp i → Visible bp j → (bp.peek i).waitsForPair = true →
    (bp.peek j).waitsForPair = true → (bp.peek i).maskPointer = (bp.peek j).maskPointer → i = j

theorem Breakpoint2.type_of_waitsForData {entry : Breakpoint2}
    (waits : entry.waitsForData = true) : BpType.watchesData entry.type = true := by
  simp only [waitsForData, Bool.and_eq_true] at waits
  exact waits.2

theorem Breakpoint2.waitsForData_of_pair {entry : Breakpoint2}
    (waits : entry.waitsForPair = true) : entry.waitsForData = true :=
  (Bool.and_eq_true_iff.mp waits).1

theorem Breakpoint2.waitsForPair_iff {entry : Breakpoint2} :
    entry.waitsForPair = true ↔
      entry.waitsForData = true ∧ BpType.masked entry.type = true :=
  Bool.and_eq_true_iff

section Users

variable {bp : BreakpointTable}

theorem mem_slotUsers {i u : Nat} : u ∈ slotUsers bp i ↔
    (bp.peek i).waitsForData = true ∧
      (u = i ∨ (bp.peek i).waitsForPair = true ∧ u = (bp.peek i).maskPointer) := by
  unfold slotUsers Breakpoint2.waitsForPair
  cases (bp.peek i).waitsForData <;> cases BpType.masked (bp.peek i).type <;> simp

theorem mem_slotUsersBefore {i u : Nat} :
    u ∈ slotUsersBefore bp i ↔ ∃ j < i, u ∈ slotUsers bp j := by
  simp [slotUsersBefore]

theorem slotUsersBefore_succ (i : Nat) :
    slotUsersBefore bp (i + 1) = slotUsersBefore bp i ∪ slotUsers bp i := by
  rw [slotUsersBefore, Finset.range_add_one, Finset.biUnion_insert, Finset.union_comm]
  rfl

variable (masks : OwnMasks bp)
include masks

theorem OwnMasks.mask_not_data {i : Nat} (visible : Visible bp i)
    (pair : (bp.peek i).waitsForPair = true) :
    (bp.peek (bp.peek i).maskPointer).waitsForData = false := by
  refine Bool.eq_false_iff.mpr fun waits => ?_
  have watches := Breakpoint2.type_of_waitsForData waits
  rw [(masks.mask i visible pair).2.1] at watches
  exact absurd watches (by decide)

theorem OwnMasks.users_disjoint {i : Nat} (visible : Visible bp i) :
    Disjoint (slotUsersBefore bp i) (slotUsers bp i) := by
  refine Finset.disjoint_left.mpr fun u before here => ?_
  obtain ⟨j, less, there⟩ := mem_slotUsersBefore.mp before
  have visibleJ : Visible bp j := Nat.lt_trans less visible
  obtain ⟨waitsJ, atJ⟩ := mem_slotUsers.mp there
  obtain ⟨waitsI, atI⟩ := mem_slotUsers.mp here
  rcases atJ with rfl | ⟨pairJ, rfl⟩ <;> rcases atI with same | ⟨pairI, same⟩
  · exact absurd same (Nat.ne_of_lt less)
  · rw [same, masks.mask_not_data visible pairI] at waitsJ
    cases waitsJ
  · rw [← same, masks.mask_not_data visibleJ pairJ] at waitsI
    cases waitsI
  · exact absurd (masks.own j i visibleJ visible pairJ pairI same) (Nat.ne_of_lt less)

theorem OwnMasks.card_succ {i : Nat} (visible : Visible bp i) :
    (slotUsersBefore bp (i + 1)).card = (slotUsersBefore bp i).card +
      (if (bp.peek i).waitsForPair then 2 else if (bp.peek i).waitsForData then 1 else 0) := by
  rw [slotUsersBefore_succ, Finset.card_union_of_disjoint (masks.users_disjoint visible)]
  congr 1
  unfold slotUsers
  cases waits : (bp.peek i).waitsForData with
  | false => simp [Breakpoint2.waitsForPair, waits]
  | true =>
      cases masked : BpType.masked (bp.peek i).type with
      | false => simp [Breakpoint2.waitsForPair, waits, masked]
      | true =>
          have pair : (bp.peek i).waitsForPair = true :=
            Breakpoint2.waitsForPair_iff.mpr ⟨waits, masked⟩
          have apart : i ≠ (bp.peek i).maskPointer := by
            intro same
            have data := masks.mask_not_data visible pair
            rw [← same, waits] at data
            cases data
          simp [pair, Finset.card_pair apart]

theorem OwnMasks.not_mem_before {i : Nat} (visible : Visible bp i)
    (data : BpType.watchesData (bp.peek i).type = true) : i ∉ slotUsersBefore bp i := by
  intro before
  obtain ⟨j, less, there⟩ := mem_slotUsersBefore.mp before
  obtain ⟨_, rfl | ⟨pair, rfl⟩⟩ := mem_slotUsers.mp there
  · exact absurd less (lt_irrefl i)
  · rw [(masks.mask j (Nat.lt_trans less visible) pair).2.1] at data
    exact absurd data (by decide)

end Users

/-! ## The loop over the data watchpoints -/

/-- The loop has looked at the entries before `i`, and there was room. -/
structure DataPlacing (target : Target) (bp : BreakpointTable) (i : Nat) (s : LayoutState) :
    Prop where
  reached : i ≤ endIndex bp
  hadroom : s.hadroom = true
  same : SameButSlots bp s.bp
  untouched : ∀ u ∉ slotUsersBefore bp i, s.bp.peek u = bp.peek u
  placed : ∀ u ∈ slotUsersBefore bp i,
    (s.bp.peek u).bpnum ∈ freeFrom (remainingSlots target bp) breakpoint2FirstData
  pairs : ∀ j < i, (bp.peek j).waitsForPair = true →
    (s.bp.peek j).bpnum = breakpoint2FirstData ∧
      (s.bp.peek (bp.peek j).maskPointer).bpnum = breakpoint2DataMask
  distinct : ∀ u ∈ slotUsersBefore bp i, ∀ v ∈ slotUsersBefore bp i,
    (s.bp.peek u).bpnum = (s.bp.peek v).bpnum → u = v
  remaining : ∀ slot, s.remainingBps.peek slot = true ↔
    (remainingSlots target bp).peek slot = true ∧
      ∀ u ∈ slotUsersBefore bp i, (s.bp.peek u).bpnum ≠ slot

/-- The loop has run out of slots. -/
structure DataShort (target : Target) (bp : BreakpointTable) (i : Nat) (s : LayoutState) :
    Prop where
  reached : i ≤ endIndex bp
  hadroom : s.hadroom = false
  adjusts : Adjusts bp s.bp
  untouched : ∀ u ∉ slotUsersBefore bp i, s.bp.peek u = bp.peek u
  short : (freeFrom (remainingSlots target bp) breakpoint2FirstData).card <
    (slotUsersBefore bp (endIndex bp)).card

section DataLoop

variable {target : Target} {bp : BreakpointTable} {i : Nat} {s : LayoutState}

theorem DataPlacing.start (target : Target) (bp : BreakpointTable) :
    DataPlacing target bp 0 (startLayout target bp) := by
  have none : ∀ u, u ∉ slotUsersBefore bp 0 := fun u there => by
    obtain ⟨j, before, _⟩ := mem_slotUsersBefore.mp there
    exact absurd before (Nat.not_lt_zero j)
  constructor
  · exact Nat.zero_le _
  · rfl
  · exact SameButSlots.refl bp
  · exact fun _ _ => rfl
  · exact fun u there => absurd there (none u)
  · exact fun j before => absurd before (Nat.not_lt_zero j)
  · exact fun u there => absurd there (none u)
  · exact fun slot => (and_iff_left fun u there => absurd there (none u)).symm

theorem DataPlacing.card (placing : DataPlacing target bp i s) {least : Nat}
    (low : least ≤ breakpoint2FirstData) :
    (freeFrom s.remainingBps least).card + (slotUsersBefore bp i).card =
      (freeFrom (remainingSlots target bp) least).card := by
  have given : ((slotUsersBefore bp i).image fun u => (s.bp.peek u).bpnum).card =
      (slotUsersBefore bp i).card :=
    Finset.card_image_of_injOn fun u there v there' same =>
      placing.distinct u there v there' same
  have apart : Disjoint (freeFrom s.remainingBps least)
      ((slotUsersBefore bp i).image fun u => (s.bp.peek u).bpnum) := by
    refine Finset.disjoint_left.mpr fun slot free taken => ?_
    obtain ⟨u, there, rfl⟩ := Finset.mem_image.mp taken
    exact ((placing.remaining _).mp (mem_freeFrom.mp free).2.2).2 u there rfl
  rw [← given, ← Finset.card_union_of_disjoint apart]
  congr 1
  ext slot
  simp only [Finset.mem_union, Finset.mem_image, mem_freeFrom, placing.remaining]
  constructor
  · rintro (⟨lower, upper, free, _⟩ | ⟨u, there, rfl⟩)
    · exact ⟨lower, upper, free⟩
    · obtain ⟨lower, upper, free⟩ := mem_freeFrom.mp (placing.placed u there)
      exact ⟨low.trans lower, upper, free⟩
  · rintro ⟨lower, upper, free⟩
    by_cases taken : ∃ u ∈ slotUsersBefore bp i, (s.bp.peek u).bpnum = slot
    · exact .inr taken
    · exact .inl ⟨lower, upper, free, fun u there same => taken ⟨u, there, same⟩⟩

/-- A turn that gives the users of entry `i` slots of their own. -/
theorem DataPlacing.extend (masks : OwnMasks bp) (placing : DataPlacing target bp i s)
    (visible : Visible bp i) {after : LayoutState} (hadroom : after.hadroom = true)
    (same : SameButSlots bp after.bp)
    (others : ∀ u ∉ slotUsers bp i, after.bp.peek u = s.bp.peek u)
    (free : ∀ u ∈ slotUsers bp i,
      (after.bp.peek u).bpnum ∈ freeFrom s.remainingBps breakpoint2FirstData)
    (pair : (bp.peek i).waitsForPair = true →
      (after.bp.peek i).bpnum = breakpoint2FirstData ∧
        (after.bp.peek (bp.peek i).maskPointer).bpnum = breakpoint2DataMask)
    (apart : ∀ u ∈ slotUsers bp i, ∀ v ∈ slotUsers bp i,
      (after.bp.peek u).bpnum = (after.bp.peek v).bpnum → u = v)
    (remaining : ∀ slot, after.remainingBps.peek slot = true ↔
      s.remainingBps.peek slot = true ∧ ∀ u ∈ slotUsers bp i, (after.bp.peek u).bpnum ≠ slot) :
    DataPlacing target bp (i + 1) after := by
  have split : ∀ {u}, u ∈ slotUsersBefore bp (i + 1) →
      u ∈ slotUsersBefore bp i ∧ after.bp.peek u = s.bp.peek u ∨ u ∈ slotUsers bp i := by
    intro u there
    rw [slotUsersBefore_succ] at there
    refine (Finset.mem_union.mp there).imp (fun before => ⟨before, others u ?_⟩) id
    exact Finset.disjoint_left.mp (masks.users_disjoint visible) before
  have fresh : ∀ u ∈ slotUsersBefore bp i, ∀ v ∈ slotUsers bp i,
      (s.bp.peek u).bpnum ≠ (after.bp.peek v).bpnum := fun u before v here =>
    ((placing.remaining _).mp (mem_freeFrom.mp (free v here)).2.2).2 u before
  constructor
  · exact visible
  · exact hadroom
  · exact same
  · intro u outside
    rw [slotUsersBefore_succ, Finset.mem_union, not_or] at outside
    exact (others u outside.2).trans (placing.untouched u outside.1)
  · intro u there
    rcases split there with ⟨before, kept⟩ | here
    · rw [kept]
      exact placing.placed u before
    · obtain ⟨lower, upper, available⟩ := mem_freeFrom.mp (free u here)
      exact mem_freeFrom.mpr ⟨lower, upper, ((placing.remaining _).mp available).1⟩
  · intro j before waits
    rcases Nat.lt_or_eq_of_le (Nat.le_of_lt_succ before) with less | rfl
    · have member : ∀ {u}, u ∈ slotUsers bp j → after.bp.peek u = s.bp.peek u := fun there =>
        others _ (Finset.disjoint_left.mp (masks.users_disjoint visible)
          (mem_slotUsersBefore.mpr ⟨j, less, there⟩))
      have data := Breakpoint2.waitsForData_of_pair waits
      rw [member (mem_slotUsers.mpr ⟨data, .inl rfl⟩),
        member (mem_slotUsers.mpr ⟨data, .inr ⟨waits, rfl⟩⟩)]
      exact placing.pairs j less waits
    · exact pair waits
  · intro u there v there' equal
    rcases split there with ⟨before, kept⟩ | here <;>
      rcases split there' with ⟨before', kept'⟩ | here'
    · rw [kept, kept'] at equal
      exact placing.distinct u before v before' equal
    · rw [kept] at equal
      exact absurd equal (fresh u before v here')
    · rw [kept'] at equal
      exact absurd equal.symm (fresh v before' u here)
    · exact apart u here v here' equal
  · intro slot
    simp only [remaining, placing.remaining, and_assoc]
    refine and_congr_right fun _ => ⟨fun clear u there => ?_, fun clear => ⟨?_, ?_⟩⟩
    · rcases split there with ⟨before, kept⟩ | here
      · rw [kept]
        exact clear.1 u before
      · exact clear.2 u here
    · intro u before
      have there : u ∈ slotUsersBefore bp (i + 1) := by
        rw [slotUsersBefore_succ]
        exact Finset.mem_union_left _ before
      rw [← others u (Finset.disjoint_left.mp (masks.users_disjoint visible) before)]
      exact clear u there
    · intro u here
      refine clear u ?_
      rw [slotUsersBefore_succ]
      exact Finset.mem_union_right _ here

theorem slotUsers_of_settled (settled : (bp.peek i).waitsForData = false) :
    slotUsers bp i = ∅ := by
  simp [slotUsers, settled]

theorem slotUsers_of_pair (pair : (bp.peek i).waitsForPair = true) :
    slotUsers bp i = {i, (bp.peek i).maskPointer} := by
  obtain ⟨data, masked⟩ := Breakpoint2.waitsForPair_iff.mp pair
  simp [slotUsers, data, masked]

theorem slotUsers_of_single (data : (bp.peek i).waitsForData = true)
    (unmasked : BpType.masked (bp.peek i).type = false) : slotUsers bp i = {i} := by
  simp [slotUsers, data, unmasked]

theorem turn_entry (masks : OwnMasks bp) (visible : Visible bp i) (adjusts : Adjusts bp s.bp)
    (untouched : ∀ u ∉ slotUsersBefore bp i, s.bp.peek u = bp.peek u)
    (data : (s.bp.peek i).waitsForData = true ∨ (bp.peek i).waitsForData = true) :
    s.bp.peek i = bp.peek i := by
  refine untouched i (masks.not_mem_before visible ?_)
  rcases data with there | here
  · rw [← (adjusts i).type]
    exact Breakpoint2.type_of_waitsForData there
  · exact Breakpoint2.type_of_waitsForData here

theorem SameButSlots.adjusts {before after : BreakpointTable} (same : SameButSlots before after) :
    Adjusts before after := fun j => by
  obtain ⟨slot, equal⟩ := same j
  exact ⟨slot, .inl equal⟩

theorem freeFrom_le_three {slot : Nat}
    (free : slot ∈ freeFrom (remainingSlots target bp) breakpoint2FirstData) :
    slot = breakpoint2FirstData ∨ slot = breakpoint2DataMask := by
  rw [freeFrom_remainingSlots, Finset.mem_filter] at free
  have upper := (Finset.mem_Icc.mp (Finset.mem_filter.mp free.1).1).2
  have lower : 2 ≤ slot := free.2
  show slot = 2 ∨ slot = 3
  omega

theorem card_users_le (visible : Visible bp i) :
    (slotUsersBefore bp (i + 1)).card ≤ (slotUsersBefore bp (endIndex bp)).card := by
  refine Finset.card_le_card fun u there => ?_
  obtain ⟨j, less, member⟩ := mem_slotUsersBefore.mp there
  exact mem_slotUsersBefore.mpr ⟨j, Nat.lt_of_lt_of_le less visible, member⟩

theorem peek_poke_false_iff {remaining : SlotArray} {slot : Nat} (small : slot ≤ maxBreakpoints2)
    (other : Nat) :
    (remaining.poke slot false).peek other = true ↔
      remaining.peek other = true ∧ slot ≠ other := by
  have inside : slot < maxBreakpoints2 + 2 := Nat.lt_of_le_of_lt small (by decide)
  rw [CArray.peek_poke]
  by_cases same : slot = other
  · simp [same, same ▸ inside]
  · simp [same]

theorem DataPlacing.givePair (masks : OwnMasks bp) (placing : DataPlacing target bp i s)
    (visible : Visible bp i) (pair : (bp.peek i).waitsForPair = true)
    (free : PairFree s.remainingBps) :
    DataPlacing target bp (i + 1)
      { s with
        bp := (s.bp.modify (bp.peek i).maskPointer
          (Breakpoint2.setBpnum breakpoint2DataMask)).modify i
            (Breakpoint2.setBpnum breakpoint2FirstData)
        remainingBps :=
          (s.remainingBps.poke breakpoint2DataMask false).poke breakpoint2FirstData false } := by
  obtain ⟨visibleMask, _, _⟩ := masks.mask i visible pair
  have users := slotUsers_of_pair pair
  have apart : (bp.peek i).maskPointer ≠ i := by
    intro same
    have data := masks.mask_not_data visible pair
    rw [same, Breakpoint2.waitsForData_of_pair pair] at data
    cases data
  have here : ((s.bp.modify (bp.peek i).maskPointer
      (Breakpoint2.setBpnum breakpoint2DataMask)).modify i
        (Breakpoint2.setBpnum breakpoint2FirstData)).peek i =
          (s.bp.peek i).setBpnum breakpoint2FirstData := by
    rw [CArray.peek_modify_same _ _ (lt_of_visible visible), CArray.peek_modify_ne _ _ apart]
  have mask : ((s.bp.modify (bp.peek i).maskPointer
      (Breakpoint2.setBpnum breakpoint2DataMask)).modify i
        (Breakpoint2.setBpnum breakpoint2FirstData)).peek (bp.peek i).maskPointer =
          (s.bp.peek (bp.peek i).maskPointer).setBpnum breakpoint2DataMask := by
    rw [CArray.peek_modify_ne _ _ apart.symm,
      CArray.peek_modify_same _ _ (lt_of_visible visibleMask)]
  refine placing.extend masks visible placing.hadroom ((placing.same.modify _ _).modify _ _)
    ?others ?free ?pair ?apart ?remaining
  case others =>
    intro u outside
    rw [users, Finset.mem_insert, Finset.mem_singleton, not_or] at outside
    rw [CArray.peek_modify_ne _ _ (Ne.symm outside.1),
      CArray.peek_modify_ne _ _ (Ne.symm outside.2)]
  case free =>
    rw [users]
    simp only [Finset.forall_mem_insert, Finset.mem_singleton, forall_eq, here, mask,
      Breakpoint2.setBpnum_bpnum]
    exact ⟨mem_freeFrom.mpr ⟨le_refl _, by decide, free.2⟩,
      mem_freeFrom.mpr ⟨by decide, by decide, free.1⟩⟩
  case pair =>
    intro _
    rw [here, mask]
    exact ⟨rfl, rfl⟩
  case apart =>
    rw [users]
    intro u there v there' equal
    rcases Finset.mem_insert.mp there with rfl | atMask <;>
      rcases Finset.mem_insert.mp there' with rfl | atMask'
    · rfl
    · rw [Finset.mem_singleton.mp atMask', here, mask] at equal
      exact absurd equal (show ¬ breakpoint2FirstData = breakpoint2DataMask by decide)
    · rw [Finset.mem_singleton.mp atMask, here, mask] at equal
      exact absurd equal (show ¬ breakpoint2DataMask = breakpoint2FirstData by decide)
    · exact (Finset.mem_singleton.mp atMask).trans (Finset.mem_singleton.mp atMask').symm
  case remaining =>
    intro slot
    simp only [users, Finset.forall_mem_insert, Finset.mem_singleton, forall_eq, here, mask,
      Breakpoint2.setBpnum_bpnum,
      peek_poke_false_iff (show breakpoint2FirstData ≤ maxBreakpoints2 by decide),
      peek_poke_false_iff (show breakpoint2DataMask ≤ maxBreakpoints2 by decide), and_assoc]
    exact and_congr_right fun _ => and_comm

theorem DataPlacing.giveSingle (masks : OwnMasks bp) (placing : DataPlacing target bp i s)
    (visible : Visible bp i) (waits : (bp.peek i).waitsForData = true)
    (unmasked : BpType.masked (bp.peek i).type = false) {slot : Nat}
    (free : slot ∈ freeFrom s.remainingBps breakpoint2FirstData) :
    DataPlacing target bp (i + 1)
      { s with
        bp := s.bp.modify i (Breakpoint2.setBpnum slot)
        remainingBps := s.remainingBps.poke slot false } := by
  have users := slotUsers_of_single waits unmasked
  have here : (s.bp.modify i (Breakpoint2.setBpnum slot)).peek i = (s.bp.peek i).setBpnum slot :=
    CArray.peek_modify_same _ _ (lt_of_visible visible)
  refine placing.extend masks visible placing.hadroom (placing.same.modify _ _)
    ?others ?free ?pair ?apart ?remaining
  case others =>
    intro u outside
    rw [users, Finset.mem_singleton] at outside
    exact CArray.peek_modify_ne _ _ (Ne.symm outside)
  case free =>
    simpa only [users, Finset.mem_singleton, forall_eq, here, Breakpoint2.setBpnum_bpnum] using free
  case pair =>
    intro pair
    rw [(Breakpoint2.waitsForPair_iff.mp pair).2] at unmasked
    cases unmasked
  case apart =>
    rw [users]
    simp
  case remaining =>
    intro other
    simp only [users, Finset.mem_singleton, forall_eq, here, Breakpoint2.setBpnum_bpnum,
      peek_poke_false_iff (mem_freeFrom.mp free).2.1]

theorem DataTurn.untouched {taken : Turn LayoutState} (turn : DataTurn i s taken) {u : Nat}
    (outside : u ∉ slotUsers s.bp i) : taken.state.bp.peek u = s.bp.peek u := by
  have apart : ∀ {waits : (s.bp.peek i).waitsForPair = true},
      i ≠ u ∧ (s.bp.peek i).maskPointer ≠ u := by
    intro pair
    rw [slotUsers_of_pair pair, Finset.mem_insert, Finset.mem_singleton, not_or] at outside
    exact ⟨Ne.symm outside.1, Ne.symm outside.2⟩
  cases turn with
  | pass => rfl
  | drop waits =>
      obtain ⟨here, mask⟩ := @apart waits
      exact (CArray.peek_modify_ne _ _ here).trans (CArray.peek_modify_ne _ _ mask)
  | pair waits =>
      obtain ⟨here, mask⟩ := @apart waits
      exact (CArray.peek_modify_ne _ _ here).trans (CArray.peek_modify_ne _ _ mask)
  | single waits unmasked =>
      rw [slotUsers_of_single waits unmasked, Finset.mem_singleton] at outside
      exact CArray.peek_modify_ne _ _ (Ne.symm outside)
  | starve => rfl

theorem slotUsers_eq (masks : OwnMasks bp) (visible : Visible bp i) (adjusts : Adjusts bp s.bp)
    (untouched : ∀ u ∉ slotUsersBefore bp i, s.bp.peek u = bp.peek u) :
    slotUsers s.bp i = slotUsers bp i := by
  by_cases data : (s.bp.peek i).waitsForData = true ∨ (bp.peek i).waitsForData = true
  · have same := turn_entry masks visible adjusts untouched data
    unfold slotUsers
    rw [same]
  · simp only [not_or, Bool.not_eq_true] at data
    rw [slotUsers_of_settled data.1, slotUsers_of_settled data.2]

theorem DataTurn.short (masks : OwnMasks bp) (visible : Visible bp i)
    {taken : Turn LayoutState} (turn : DataTurn i s taken) (adjusts : Adjusts bp s.bp)
    (untouched : ∀ u ∉ slotUsersBefore bp i, s.bp.peek u = bp.peek u)
    (hadroom : taken.state.hadroom = false)
    (short : (freeFrom (remainingSlots target bp) breakpoint2FirstData).card <
      (slotUsersBefore bp (endIndex bp)).card) :
    DataShort target bp (i + 1) taken.state := by
  refine ⟨visible, hadroom, turn.adjusts adjusts, fun u outside => ?_, short⟩
  rw [slotUsersBefore_succ, Finset.mem_union, not_or] at outside
  have own : u ∉ slotUsers s.bp i := by
    rw [slotUsers_eq masks visible adjusts untouched]
    exact outside.2
  exact (turn.untouched own).trans (untouched u outside.1)

theorem DataShort.turn (masks : OwnMasks bp) (short : DataShort target bp i s)
    (visible : Visible bp i) {taken : Turn LayoutState} (turn : DataTurn i s taken) :
    DataShort target bp (i + 1) taken.state := by
  refine turn.short masks visible short.adjusts short.untouched ?_ short.short
  cases turn <;> first | rfl | exact short.hadroom

/-- Without a pair there is at most one data slot left. -/
theorem DataPlacing.card_le_one (placing : DataPlacing target bp i s)
    (full : ¬ PairFree s.remainingBps) :
    (freeFrom s.remainingBps breakpoint2FirstData).card ≤ 1 := by
  rw [PairFree, not_and_or] at full
  have either : ∀ slot ∈ freeFrom s.remainingBps breakpoint2FirstData,
      slot = breakpoint2FirstData ∨ slot = breakpoint2DataMask := by
    intro slot free
    obtain ⟨lower, upper, available⟩ := mem_freeFrom.mp free
    exact @freeFrom_le_three target bp slot
      (mem_freeFrom.mpr ⟨lower, upper, ((placing.remaining slot).mp available).1⟩)
  refine Finset.card_le_one.mpr fun a thereA b thereB => ?_
  have freeA := (mem_freeFrom.mp thereA).2.2
  have freeB := (mem_freeFrom.mp thereB).2.2
  rcases either a thereA with rfl | rfl <;> rcases either b thereB with rfl | rfl
  · rfl
  · exact full.elim (absurd freeB) (absurd freeA)
  · exact full.elim (absurd freeA) (absurd freeB)
  · rfl

/-- A turn while there has been room. -/
theorem DataPlacing.turn (masks : OwnMasks bp) (placing : DataPlacing target bp i s)
    (visible : Visible bp i) {taken : Turn LayoutState} (turn : DataTurn i s taken) :
    taken.Meets
      (fun after => DataPlacing target bp (i + 1) after ∨ DataShort target bp (i + 1) after)
      fun after => DataShort target bp (i + 1) after := by
  have entry : (s.bp.peek i).waitsForData = true ∨ (bp.peek i).waitsForData = true →
      s.bp.peek i = bp.peek i :=
    turn_entry masks visible placing.same.adjusts placing.untouched
  have count := placing.card (le_refl breakpoint2FirstData)
  have grown := masks.card_succ visible
  have bound := @card_users_le bp i visible
  have short := @DataTurn.short target bp i s masks visible taken turn placing.same.adjusts
    placing.untouched
  cases turn with
  | pass settled =>
      have none : slotUsers bp i = ∅ := by
        refine slotUsers_of_settled (Bool.eq_false_iff.mpr fun waits => ?_)
        rw [entry (.inr waits), waits] at settled
        cases settled
      have noUser : ∀ u, u ∉ slotUsers bp i := fun u => none ▸ Finset.notMem_empty u
      left
      refine placing.extend masks visible placing.hadroom placing.same (fun _ _ => rfl)
        (fun u there => absurd there (noUser u)) (fun pair => ?_)
        (fun u there => absurd there (noUser u))
        fun slot => (and_iff_left fun u there => absurd there (noUser u)).symm
      exact absurd (mem_slotUsers.mpr ⟨Breakpoint2.waitsForData_of_pair pair, .inl rfl⟩) (noUser i)
  | drop waits full =>
      have same := entry (.inl (Breakpoint2.waitsForData_of_pair waits))
      have few := placing.card_le_one full
      rw [← same, if_pos waits] at grown
      exact .inr (short rfl (by omega))
  | pair waits free =>
      have same := entry (.inl (Breakpoint2.waitsForData_of_pair waits))
      rw [same] at waits ⊢
      exact .inl (placing.givePair masks visible waits free)
  | single waits unmasked slot free =>
      have same := entry (.inl waits)
      rw [same] at waits unmasked
      exact .inl (placing.giveSingle masks visible waits unmasked free)
  | starve waits unmasked full =>
      have same := entry (.inl waits)
      have single : (s.bp.peek i).waitsForPair = false := by
        rw [Breakpoint2.waitsForPair, unmasked, Bool.and_false]
      rw [← same, single, if_neg Bool.false_ne_true, if_pos waits] at grown
      rw [full, Finset.card_empty] at count
      exact short rfl (by omega)

theorem layoutData_spec (target : Target) (masks : OwnMasks bp) :
    DataPlacing target bp (endIndex bp) (layoutData (startLayout target bp)) ∨
      ∃ stopped, DataShort target bp stopped (layoutData (startLayout target bp)) := by
  refine visit_rule LayoutState.bp (fun _ _ => rfl)
    (fun i s => DataPlacing target bp i s ∨ DataShort target bp i s)
    (fun s => DataPlacing target bp (endIndex bp) s ∨ ∃ stopped, DataShort target bp stopped s)
    ?sameEnd ?turned ?finished (.inl (DataPlacing.start target bp))
  case sameEnd =>
    rintro i s (placing | short)
    · exact placing.same.endIndex
    · exact short.adjusts.endIndex
  case turned =>
    intro i s visible either
    have turn := placeData_turn i s
    generalize placeData i s = taken at turn
    rcases either with placing | short
    · have outcome := placing.turn masks visible turn
      cases taken with
      | next => exact outcome
      | leave => exact .inr ⟨i + 1, outcome⟩
    · have outcome := short.turn masks visible turn
      cases taken with
      | next => exact .inr outcome
      | leave => exact .inr ⟨i + 1, outcome⟩
  case finished =>
    rintro s (placing | short)
    · exact .inl placing
    · exact .inr ⟨_, short⟩

end DataLoop

end Avarice.Mk2

import Avarice.Mk2.Breakpoint.Consistency

/-!
# Requests keep the table consistent

The spec lemmas of `addBreakpoint`, `deleteBreakpoint` and
`deleteAllBreakpoints` for single breakpoints.  Adding a breakpoint comes down
to occupying one entry; the one request that can lose track of a breakpoint is
the one that takes back a delete the ICE has not seen yet.
-/

namespace Avarice.Mk2

/-- The table a request for a single breakpoint lays out. -/
def requested (bp : BreakpointTable) (i : Nat) (address : UInt32) (type : BpType) :
    BreakpointTable :=
  (bp.modify i (Breakpoint2.occupy address type)).modify i Breakpoint2.flagAdd

/-- The entries the ICE has are the same in both tables, up to their flags. -/
def SameInstalled (before after : BreakpointTable) : Prop :=
  ∀ j, (after.peek j).icestatus = (before.peek j).icestatus ∧
    ((before.peek j).icestatus = true → (after.peek j).bpnum = (before.peek j).bpnum ∧
      (after.peek j).address = (before.peek j).address ∧
      (after.peek j).type = (before.peek j).type)

theorem SameInstalled.refl (bp : BreakpointTable) : SameInstalled bp bp :=
  fun _ => ⟨rfl, fun _ => ⟨rfl, rfl, rfl⟩⟩

theorem SameInstalled.trans {first second third : BreakpointTable}
    (one : SameInstalled first second) (two : SameInstalled second third) :
    SameInstalled first third := by
  intro j
  refine ⟨(two j).1.trans (one j).1, fun there => ?_⟩
  obtain ⟨bpnum, address, type⟩ := (one j).2 there
  obtain ⟨bpnum', address', type'⟩ := (two j).2 ((one j).1.trans there)
  exact ⟨bpnum'.trans bpnum, address'.trans address, type'.trans type⟩

theorem SameInstalled.of_modify {bp : BreakpointTable} {i : Nat}
    {change : Breakpoint2 → Breakpoint2}
    (flags : (change (bp.peek i)).icestatus = (bp.peek i).icestatus ∧
      (change (bp.peek i)).bpnum = (bp.peek i).bpnum ∧
      (change (bp.peek i)).address = (bp.peek i).address ∧
      (change (bp.peek i)).type = (bp.peek i).type) :
    SameInstalled bp (bp.modify i change) := by
  intro j
  rw [CArray.peek_modify]
  split
  next here => exact here.1 ▸ ⟨flags.1, fun _ => flags.2⟩
  next elsewhere => exact ⟨rfl, fun _ => ⟨rfl, rfl, rfl⟩⟩

theorem SameInstalled.layout {bp : BreakpointTable} (consistent : Consistent bp)
    (target : Target) : SameInstalled bp (layoutBreakpoints target bp).2 := by
  intro j
  obtain ⟨_, ⟨slot, equal⟩, _⟩ := consistent.layout_entries target j
  refine ⟨by rw [equal]; rfl, fun there => ?_⟩
  rw [consistent.layout_peek_of_icestatus target there]
  exact ⟨rfl, rfl, rfl⟩

section Request

variable {target : Target} {bp : BreakpointTable} (consistent : Consistent bp)
include consistent

/-- A request for a single breakpoint is refused when the table is full, and
otherwise occupies one entry. -/
theorem addBreakpoint_cases {address : UInt32} {type : BpType} {length : UInt32}
    (single : length ≤ 1 ∨ type = .code) :
    addBreakpoint target bp address type length = (false, bp) ∨
      ∃ i < 31, Occupies bp address type i ∧ addBreakpoint target bp address type length =
        finishAdd target (bp.modify i (Breakpoint2.occupy address type)) i := by
  have noRange : (decide (length > 1) && type != .code) = false := by
    rcases single with short | isCode
    · simp [UInt32.not_lt.mpr short]
    · simp [isCode]
  unfold addBreakpoint
  rw [addBreakpointAt_succ consistent.terminated]
  rcases occupied_spec consistent.terminated address type with ⟨_, full⟩ | ⟨small, occupies⟩
  · left
    rw [full]
    rfl
  · right
    refine ⟨occupied bp address type, small, occupies, ?_⟩
    rw [not_atMax small, noRange, if_neg Bool.false_ne_true, if_neg Bool.false_ne_true]
    congr 1
    cases marked : (bp.peek (occupied bp address type)).last with
    | false => rw [claimEntry, marked, if_neg Bool.false_ne_true]
    | true =>
        have next : bp.peek (occupied bp address type + 1) = defaultBp :=
          consistent.blank _ (Nat.le_succ_of_le (endIndex_le_of_last marked))
        have unchanged : bp.modify (occupied bp address type + 1) Breakpoint2.mark = bp :=
          CArray.modify_eq_self (by rw [next]; rfl)
        rw [claimEntry, marked, if_pos rfl, unchanged]

/-- A request that finds its entry in the ICE finds its own breakpoint. -/
theorem Occupies.same_of_icestatus {address : UInt32} {type : BpType} {i : Nat}
    (occupies : Occupies bp address type i) (there : (bp.peek i).icestatus = true) :
    Visible bp i ∧ (bp.peek i).address = address ∧ (bp.peek i).type = type := by
  cases occupies with
  | again visible sameAddress sameType => exact ⟨visible, sameAddress, sameType⟩
  | append atEnd =>
      rw [consistent.blank i atEnd.ge] at there
      cases there
  | reuse visible disabled idle =>
      rcases (consistent.flags i).installed there with enabled | flagged
      · rw [disabled] at enabled
        cases enabled
      · rw [idle] at flagged
        cases flagged

section Requested

variable {address : UInt32} {type : BpType} {i : Nat}

omit consistent in
theorem requested_peek (small : i < 31) :
    (requested bp i address type).peek i =
      { bp.peek i with
        last := false, enabled := true, address, type
        toadd := !(bp.peek i).icestatus, toremove := false } := by
  have inside : i < maxTotalBreakpoints2 := Nat.lt_succ_of_lt small
  unfold requested
  rw [CArray.peek_modify_same _ _ inside, CArray.peek_modify_same _ _ inside,
    Breakpoint2.flagAdd_eq]
  rfl

omit consistent in
theorem requested_peek_ne {j : Nat} (different : j ≠ i) :
    (requested bp i address type).peek j = bp.peek j := by
  unfold requested
  rw [CArray.peek_modify_ne _ _ different.symm, CArray.peek_modify_ne _ _ different.symm]

theorem requested_visible (small : i < 31) (occupies : Occupies bp address type i) (j : Nat) :
    Visible (requested bp i address type) j ↔ Visible bp j ∨ j = i := by
  have low := occupies.le_endIndex
  have marked : endIndex (requested bp i address type) = max (endIndex bp) (i + 1) := by
    apply endIndex_eq
    · rcases Nat.lt_or_eq_of_le low with before | atEnd
      · rw [Nat.max_eq_left before, requested_peek_ne before.ne']
        exact last_at_endIndex bp
      · rw [Nat.max_eq_right (atEnd ▸ Nat.le_succ _), requested_peek_ne (Nat.succ_ne_self i),
          consistent.blank _ (atEnd ▸ Nat.le_succ _)]
        rfl
    · exact Nat.max_le.mpr ⟨endIndex_le bp, Nat.succ_le_of_lt (Nat.lt_succ_of_lt small)⟩
    · intro j before
      by_cases here : j = i
      · rw [here, requested_peek small]
      · rw [requested_peek_ne here]
        rcases lt_max_iff.mp before with visible | within
        · exact not_last_of_visible visible
        · have below : j < i := Nat.lt_of_le_of_ne (Nat.le_of_lt_succ within) here
          exact not_last_of_visible (Nat.lt_of_lt_of_le below low)
  rw [Visible, Visible, marked, lt_max_iff, Nat.lt_succ_iff]
  constructor
  · rintro (visible | within)
    · exact .inl visible
    · rcases Nat.lt_or_eq_of_le within with below | here
      · exact .inl (Nat.lt_of_lt_of_le below low)
      · exact .inr here
  · exact Or.imp id fun here => here.le

theorem requested_consistent (small : i < 31) (occupies : Occupies bp address type i)
    (plain : BpType.plain type = true) : Consistent (requested bp i address type) := by
  have visible := requested_visible consistent small occupies
  have here : (requested bp i address type).peek i = _ := requested_peek small
  have sameStatus : ∀ j, ((requested bp i address type).peek j).icestatus =
      (bp.peek j).icestatus ∧
        ((requested bp i address type).peek j).bpnum = (bp.peek j).bpnum := by
    intro j
    by_cases equal : j = i
    · rw [equal, here]
      exact ⟨rfl, rfl⟩
    · rw [requested_peek_ne equal]
      exact ⟨rfl, rfl⟩
  have alone : ∀ j, Visible bp j → (bp.peek j).address = address → (bp.peek j).type = type →
      j = i := by
    intro j visibleJ sameAddress sameType
    cases occupies with
    | again visibleI sameAddressI sameTypeI =>
        exact consistent.unique j i visibleJ visibleI (sameAddress.trans sameAddressI.symm)
          (sameType.trans sameTypeI.symm)
    | append _ absent => exact absurd ⟨sameAddress, sameType⟩ (absent j visibleJ)
    | reuse _ _ _ absent => exact absurd ⟨sameAddress, sameType⟩ (absent j visibleJ)
  constructor
  · intro j outside
    have away : ¬ (Visible bp j ∨ j = i) := fun inside =>
      absurd ((visible j).mpr inside) (Nat.not_lt.mpr outside)
    rw [requested_peek_ne fun equal => away (.inr equal)]
    exact consistent.blank j (Nat.not_lt.mp fun inside => away (.inl inside))
  · by_contra full
    have inside : Visible (requested bp i address type) 31 := Nat.not_lt.mp full
    rcases (visible 31).mp inside with before | equal
    · exact absurd before (Nat.not_lt.mpr (Nat.le_of_lt_succ consistent.bounded))
    · exact absurd equal small.ne'
  · intro j inside
    by_cases equal : j = i
    · rw [equal, here]
      exact plain
    · rw [requested_peek_ne equal]
      exact consistent.plain j (((visible j).mp inside).resolve_right equal)
  · intro j k insideJ insideK sameAddress sameType
    by_cases equalJ : j = i <;> by_cases equalK : k = i
    · exact equalJ.trans equalK.symm
    · rw [equalJ, here, requested_peek_ne equalK] at sameAddress sameType
      exact equalJ.trans (alone k (((visible k).mp insideK).resolve_right equalK)
        sameAddress.symm sameType.symm).symm
    · rw [equalK, here, requested_peek_ne equalJ] at sameAddress sameType
      exact (alone j (((visible j).mp insideJ).resolve_right equalJ)
        sameAddress sameType).trans equalK.symm
    · rw [requested_peek_ne equalJ, requested_peek_ne equalK] at sameAddress sameType
      exact consistent.unique j k (((visible j).mp insideJ).resolve_right equalJ)
        (((visible k).mp insideK).resolve_right equalK) sameAddress sameType
  · intro j
    by_cases equal : j = i
    · rw [equal, here]
      cases there : (bp.peek i).icestatus with
      | false => exact .of_not_installed there rfl fun _ => rfl
      | true =>
          obtain ⟨_, sameAddress, sameType⟩ := occupies.same_of_icestatus consistent there
          have flags := consistent.flags i
          constructor
          · exact fun _ => rfl
          · exact fun flagged => absurd flagged Bool.false_ne_true
          · exact fun _ => .inl rfl
          · exact fun _ absent => absurd (there.symm.trans absent) Bool.noConfusion
          · exact fun flagged => absurd flagged Bool.false_ne_true
          · exact fun _ slot => sameType ▸ flags.software there slot
          · intro _ isCode
            rw [← sameAddress]
            exact flags.even there (sameType.trans isCode)
    · rw [requested_peek_ne equal]
      exact consistent.flags j
  · intro j k thereJ thereK sameSlot
    rw [(sameStatus j).1] at thereJ
    rw [(sameStatus k).1] at thereK
    rw [(sameStatus j).2, (sameStatus k).2] at sameSlot
    rw [(sameStatus j).2]
    exact consistent.distinct j k thereJ thereK sameSlot

end Requested

/-! ## Adding -/

/-- A breakpoint whose delete the ICE has not seen yet can be taken back, if it
is asked for. -/
def ReaddFits (target : Target) (bp : BreakpointTable) (address : UInt32) (type : BpType) :
    Prop :=
  ∀ i < endIndex bp, (bp.peek i).address = address → (bp.peek i).type = type →
    (bp.peek i).enabled = false → (bp.peek i).icestatus = true →
      HasRoom target (bp.modify i fun entry =>
        { entry with enabled := true, toadd := false, toremove := false })

instance (target : Target) (bp : BreakpointTable) (address : UInt32) (type : BpType) :
    Decidable (ReaddFits target bp address type) :=
  inferInstanceAs (Decidable (∀ _ < _, _ → _ → _ → _ → _))

variable {address : UInt32} {type : BpType}

theorem requested_hasRoom {i : Nat} (small : i < 31) (occupies : Occupies bp address type i)
    (room : HasRoom target bp)
    (fits : ReaddFits target bp address type) (there : (bp.peek i).icestatus = true) :
    HasRoom target (requested bp i address type) := by
  obtain ⟨visible, sameAddress, sameType⟩ := occupies.same_of_icestatus consistent there
  have notLast := not_last_of_visible visible
  have entry : (requested bp i address type).peek i = _ := requested_peek small
  cases enabled : (bp.peek i).enabled with
  | true =>
      have idle := (consistent.flags i).kept enabled
      have settled : (bp.peek i).toadd = false := by
        by_contra flagged
        rw [(consistent.flags i).fresh (by simpa using flagged)] at there
        cases there
      have same : requested bp i address type = bp := by
        apply CArray.ext_peek
        intro j _
        by_cases here : j = i
        · rw [here, entry]
          ext <;> simp [sameAddress, sameType, there, notLast, enabled, idle, settled]
        · exact requested_peek_ne here
      rw [same]
      exact room
  | false =>
      have again := fits i visible sameAddress sameType enabled there
      have same : requested bp i address type = bp.modify i fun entry =>
          { entry with enabled := true, toadd := false, toremove := false } := by
        apply CArray.ext_peek
        intro j inside
        by_cases here : j = i
        · rw [here] at inside ⊢
          rw [entry, CArray.peek_modify_same _ _ inside]
          ext <;> simp [sameAddress, sameType, there, notLast]
        · rw [requested_peek_ne here, CArray.peek_modify_ne _ _ (Ne.symm here)]
      rw [same]
      exact again

theorem finishAdd_occupied {i : Nat} (small : i < 31) (occupies : Occupies bp address type i)
    (plain : BpType.plain type = true) :
    (finishAdd target (bp.modify i (Breakpoint2.occupy address type)) i).2 =
      if HasRoom target (requested bp i address type) then
        (layoutBreakpoints target (requested bp i address type)).2
      else
        (layoutBreakpoints target (requested bp i address type)).2.modify i
          Breakpoint2.disable := by
  have after := requested_consistent consistent small occupies plain
  have inside : i < maxTotalBreakpoints2 := Nat.lt_succ_of_lt small
  have decides := layout_hadroom_iff target after.noRangesWaiting
  have single : BpType.masked (((layoutBreakpoints target (requested bp i address type)).2.modify
      i Breakpoint2.disable).peek i).type = false := by
    obtain ⟨slot, equal⟩ := (after.layout_entries target i).2.1
    rw [CArray.peek_modify_same _ _ inside, equal, requested_peek small]
    exact BpType.not_masked_of_plain plain
  rw [finishAdd_eq]
  show (if (layoutBreakpoints target (requested bp i address type)).1 = true then _
    else if BpType.masked (((layoutBreakpoints target (requested bp i address type)).2.modify
      i Breakpoint2.disable).peek i).type = true then _ else _) = _
  rw [single, if_neg Bool.false_ne_true]
  simp only [decides]
  rfl

theorem addBreakpoint_kept {length : UInt32} (room : HasRoom target bp)
    (plain : BpType.plain type = true) (single : length ≤ 1 ∨ type = .code)
    (fits : ReaddFits target bp address type) :
    Consistent (addBreakpoint target bp address type length).2 ∧
      HasRoom target (addBreakpoint target bp address type length).2 := by
  rcases addBreakpoint_cases consistent single with refused | ⟨i, small, occupies, finished⟩
  · rw [refused]
    exact ⟨consistent, room⟩
  have after := requested_consistent consistent small occupies plain
  have visible := requested_visible consistent small occupies
  have laidOut := after.layout_entries target
  rw [finished, finishAdd_occupied consistent small occupies plain]
  split
  next enough =>
    refine ⟨after.layout target, enough.of_entries fun j inside _ => ?_⟩
    exact ⟨(laidOut j).1.mp inside, (laidOut j).2⟩
  next short =>
    have absent : (bp.peek i).icestatus = false := by
      by_contra there
      exact short (requested_hasRoom consistent small occupies room fits (by simpa using there))
    have inside : i < maxTotalBreakpoints2 := Nat.lt_succ_of_lt small
    constructor
    · refine (after.layout target).of_modify ?_ rfl rfl rfl rfl id ?_
      · exact (laidOut i).1.mpr ((visible i).mpr (.inr rfl))
      · obtain ⟨slot, equal⟩ := (laidOut i).2.1
        rw [equal, requested_peek small]
        exact .of_not_installed absent rfl fun enabled => absurd enabled Bool.false_ne_true
    · refine room.of_entries fun j insideJ enabled => ?_
      rw [visible_modify rfl, (laidOut j).1, visible] at insideJ
      by_cases here : j = i
      · rw [here, CArray.peek_modify_same _ _ inside] at enabled
        cases enabled
      · have kept := (laidOut j).2
        rw [requested_peek_ne here] at kept
        rw [CArray.peek_modify_ne _ _ (Ne.symm here)]
        exact ⟨insideJ.resolve_right here, kept⟩

theorem requested_sameInstalled {i : Nat} (small : i < 31)
    (occupies : Occupies bp address type i) :
    SameInstalled bp (requested bp i address type) := by
  intro j
  by_cases here : j = i
  · rw [here, requested_peek small]
    refine ⟨rfl, fun there => ?_⟩
    obtain ⟨_, sameAddress, sameType⟩ := occupies.same_of_icestatus consistent there
    exact ⟨rfl, sameAddress.symm, sameType.symm⟩
  · rw [requested_peek_ne here]
    exact ⟨rfl, fun _ => ⟨rfl, rfl, rfl⟩⟩

theorem addBreakpoint_sameInstalled {length : UInt32} (plain : BpType.plain type = true)
    (single : length ≤ 1 ∨ type = .code) :
    SameInstalled bp (addBreakpoint target bp address type length).2 := by
  rcases addBreakpoint_cases consistent single with refused | ⟨i, small, occupies, finished⟩
  · rw [refused]
    exact .refl bp
  have after := requested_consistent consistent small occupies plain
  have laidOut := (requested_sameInstalled consistent small occupies).trans
    (.layout after target)
  rw [finished, finishAdd_occupied consistent small occupies plain]
  split
  · exact laidOut
  · exact laidOut.trans (.of_modify ⟨rfl, rfl, rfl, rfl⟩)

/-! ## Deleting -/

theorem deleteBreakpoint_cases {length : UInt32} (plain : BpType.plain type = true) :
    deleteBreakpoint target bp address type length = (false, bp) ∨
      ∃ i, Visible bp i ∧ deleteBreakpoint target bp address type length =
        (true, (layoutBreakpoints target (bp.modify i fun entry =>
          { entry with enabled := false, toadd := false, toremove := entry.icestatus })).2) := by
  unfold deleteBreakpoint
  rcases searchEntry_spec bp address type with ⟨atEnd, _⟩ | ⟨visible, sameAddress, sameType⟩
  · left
    have blank := consistent.blank _ atEnd.ge
    have different : ((bp.peek (searchEntry bp address type)).type != type) = true := by
      rw [blank, bne_iff_ne]
      rintro rfl
      cases plain
    simp [show (bp.peek (searchEntry bp address type)).last = true by rw [blank]; rfl, different]
  · right
    refine ⟨_, visible, ?_⟩
    have inside := lt_of_visible visible
    simp [not_last_of_visible visible, CArray.peek_modify_same _ _ inside, sameAddress, sameType,
      CArray.modify_modify, Function.comp_def, Breakpoint2.flagDelete_eq]

theorem deleteBreakpoint_kept {length : UInt32} (room : HasRoom target bp)
    (plain : BpType.plain type = true) :
    Consistent (deleteBreakpoint target bp address type length).2 ∧
      HasRoom target (deleteBreakpoint target bp address type length).2 ∧
      SameInstalled bp (deleteBreakpoint target bp address type length).2 := by
  rcases @deleteBreakpoint_cases target _ consistent address _ length plain with
    refused | ⟨i, visible, deleted⟩
  · rw [refused]
    exact ⟨consistent, room, .refl bp⟩
  rw [deleted]
  have flags := consistent.flags i
  have after : Consistent (bp.modify i fun entry =>
      { entry with enabled := false, toadd := false, toremove := entry.icestatus }) := by
    refine consistent.of_modify visible rfl rfl rfl rfl id ?_
    constructor
    · exact fun enabled => absurd enabled Bool.false_ne_true
    · exact id
    · exact fun there => .inr there
    · exact fun enabled => absurd enabled Bool.false_ne_true
    · exact fun flagged => absurd flagged Bool.false_ne_true
    · exact flags.software
    · exact flags.even
  refine ⟨after.layout target, room.of_entries fun j insideJ enabled => ?_,
    .trans (.of_modify ⟨rfl, rfl, rfl, rfl⟩) (.layout after target)⟩
  obtain ⟨visibleJ, ⟨slot, equal⟩, kept⟩ := after.layout_entries target j
  rw [visibleJ, visible_modify rfl] at insideJ
  by_cases here : j = i
  · rw [equal, here, CArray.peek_modify_same _ _ (lt_of_visible visible)] at enabled
    cases enabled
  · rw [CArray.peek_modify_ne _ _ (Ne.symm here)] at equal kept
    exact ⟨insideJ, ⟨slot, equal⟩, kept⟩

theorem deleteAllBreakpoints_kept :
    Consistent (deleteAllBreakpoints bp) ∧ HasRoom target (deleteAllBreakpoints bp) ∧
      SameInstalled bp (deleteAllBreakpoints bp) := by
  have entries : ∀ j, Visible bp j →
      (deleteAllBreakpoints bp).peek j = disableEntry (bp.peek j) := by
    intro j visible
    rw [deleteAllBreakpoints_peek, if_pos visible]
  have same : ∀ entry : Breakpoint2, disableEntry entry =
      { entry with enabled := false,
                   toremove := entry.toremove || entry.enabled && entry.icestatus } := by
    intro entry
    unfold disableEntry
    cases flagged : entry.enabled && entry.icestatus <;> simp
  refine ⟨consistent.of_entries ?frame ?blank ?flags ?distinct,
    hasRoom_of_none_waiting fun j _ enabled => ?settled, fun j => ?same⟩
  case frame =>
    intro j
    rw [deleteAllBreakpoints_peek, same]
    split <;> exact ⟨rfl, rfl, rfl⟩
  case blank =>
    intro j outside
    rw [deleteAllBreakpoints_peek, if_neg outside]
  case flags =>
    intro j visible
    have flags := consistent.flags j
    rw [entries j visible, same]
    constructor
    · exact fun enabled => absurd enabled Bool.false_ne_true
    · intro flagged
      rcases Bool.or_eq_true_iff.mp flagged with before | both
      · exact flags.removed before
      · exact (Bool.and_eq_true_iff.mp both).2
    · intro there
      right
      rcases flags.installed there with enabled | flagged
      · exact Bool.or_eq_true_iff.mpr (.inr (Bool.and_eq_true_iff.mpr ⟨enabled, there⟩))
      · exact Bool.or_eq_true_iff.mpr (.inl flagged)
    · exact fun enabled => absurd enabled Bool.false_ne_true
    · exact flags.fresh
    · exact flags.software
    · exact flags.even
  case distinct =>
    intro i j visibleI visibleJ
    rw [entries i visibleI, entries j visibleJ, same, same]
    exact consistent.distinct i j
  case settled =>
    rw [deleteAllBreakpoints_peek, same] at enabled ⊢
    split at enabled
    · cases enabled
    next outside =>
      rw [consistent.blank j (Nat.not_lt.mp outside)] at enabled
      cases enabled
  case same =>
    rw [deleteAllBreakpoints_peek, same]
    split <;> exact ⟨rfl, fun _ => ⟨rfl, rfl, rfl⟩⟩

end Request

end Avarice.Mk2

import Avarice.Mk2.Breakpoint.RangeEntry

/-!
# What addBreakpoint answers

Behind the checks on the request, `addBreakpoint` answers true whether or not
the layout has found room.  The answer is the truth when there is room for the
request, or when another entry for the same range happens to be left.
-/

namespace Avarice.Mk2

def storedType (type : BpType) (length : UInt32) : BpType :=
  if IsRange type length then type ||| .hasMask else type

/-- The table has the breakpoint of a request, and the layout has placed it. -/
def HasArmed (target : Target) (bp : BreakpointTable) (address : UInt32) (type : BpType)
    (length : UInt32) : Prop :=
  ∃ j, Visible bp j ∧ (bp.peek j).IsFor address (storedType type length) ∧
    (bp.peek j).Armed target

/-- An answer that says whether the breakpoint will be armed. -/
structure TellsTruth (target : Target) (answer : Bool) (after : BreakpointTable)
    (address : UInt32) (type : BpType) (length : UInt32) : Prop where
  armed : answer = true ↔ HasArmed target after address type length
  code : type = .code → (answer = true ↔ codeBreakpointAt after address = true)

/-- The table with a single breakpoint in it, flagged for download. -/
def entered (bp : BreakpointTable) (address : UInt32) (type : BpType) : BreakpointTable :=
  (claimed bp address type).modify (occupied bp address type) Breakpoint2.flagAdd

/-- Another entry for the range of a request keeps its slots beside it. -/
def KeptBeside (target : Target) (bp : BreakpointTable) (address : UInt32) (type : BpType)
    (length : UInt32) : Prop :=
  let table := rangeEntered bp address type length
  ∃ j ≠ occupied bp address type, Visible table j ∧
    (table.peek j).IsFor address (storedType type length) ∧ KeepsSlots target table j

/-- There is room for the mask of a range that is not turned down. -/
def MaskFits (target : Target) (bp : BreakpointTable) (address : UInt32) (type : BpType)
    (length : UInt32) : Prop :=
  IsRange type length → ¬ Refused bp address type length →
    Fits target (maskEntered bp address type length)

/-- For a single breakpoint the table is full, or there is room for it and all
that waits.  For a range that is turned down no other entry for it is armed in
front of the one it was to have.  For one that is not, there is room for its
mask, and then for all that waits with it, or another entry for it keeps its
slots. -/
def AnswerFits (target : Target) (bp : BreakpointTable) (address : UInt32) (type : BpType)
    (length : UInt32) : Prop :=
  if IsRange type length then
    if Refused bp address type length then
      ∀ j, Visible bp j → j < occupied bp address type →
        (bp.peek j).IsFor address (storedType type length) → ¬ (bp.peek j).Armed target
    else
      Fits target (maskEntered bp address type length) ∧
        (Fits target (rangeEntered bp address type length) ∨
          KeptBeside target bp address type length)
  else Refused bp address type length ∨ Fits target (entered bp address type)

/-! ## The end of a request -/

section Finish

variable {target : Target} {bp : BreakpointTable} {i : Nat}

theorem finishAdd_peek_ne (visible : Visible bp i) {j : Nat} (different : j ≠ i)
    (apart : BpType.masked (bp.peek i).type = true → j ≠ (bp.peek i).maskPointer) :
    (finishAdd target bp i).2.peek j =
      (layoutBreakpoints target (bp.modify i Breakpoint2.flagAdd)).2.peek j := by
  have inside := lt_of_visible visible
  have adjusted := layout_adjusts target (bp.modify i Breakpoint2.flagAdd) i
  have type := adjusted.type
  have maskPointer := adjusted.maskPointer
  rw [CArray.peek_modify_same _ _ inside, Breakpoint2.flagAdd_eq] at type maskPointer
  rw [finishAdd_eq]
  dsimp only
  split
  · rfl
  · rw [CArray.peek_modify_same _ _ inside, Breakpoint2.disable_type,
      Breakpoint2.disable_maskPointer, type, maskPointer]
    split
    next masked =>
      rw [CArray.peek_modify_ne _ _ (apart masked).symm, CArray.peek_modify_ne _ _ different.symm]
    next => exact CArray.peek_modify_ne _ _ different.symm

theorem finishAdd_armed_iff (visible : Visible bp i)
    (kind : (bp.peek i).type = .code ∨ BpType.watchesData (bp.peek i).type = true) :
    ((finishAdd target bp i).2.peek i).Armed target ↔
      Fits target (bp.modify i Breakpoint2.flagAdd) ∧ (bp.peek i).enabled = true := by
  have inside := lt_of_visible visible
  have entry : (bp.modify i Breakpoint2.flagAdd).peek i = (bp.peek i).flagAdd :=
    CArray.peek_modify_same _ _ inside
  have visible' : Visible (bp.modify i Breakpoint2.flagAdd) i :=
    (visible_modify (by rw [Breakpoint2.flagAdd_eq]) i).mpr visible
  rw [← layout_hadroom_iff_fits]
  cases hadroom : (layoutBreakpoints target (bp.modify i Breakpoint2.flagAdd)).1 with
  | false =>
      have off := @finishAdd_given_up target bp i visible hadroom
      exact ⟨fun armed => absurd (off.symm.trans armed.1) Bool.noConfusion,
        fun room => absurd room.1 Bool.false_ne_true⟩
  | true =>
      obtain ⟨same, slots⟩ := layout_slots hadroom
      obtain ⟨slot, equal⟩ := same i
      rw [finishAdd_of_room hadroom]
      have slotOf := slots i visible'
      rw [equal, entry, Breakpoint2.flagAdd_eq] at slotOf ⊢
      constructor
      · exact fun armed => ⟨rfl, armed.1⟩
      · rintro ⟨_, enabled⟩
        refine ⟨enabled, ?_⟩
        cases there : (bp.peek i).icestatus with
        | true => exact .inl (by simp [Breakpoint2.stable, enabled])
        | false =>
            right
            have waits : Breakpoint2.waits
                { bp.peek i with toadd := true, toremove := false } = true := by
              rcases kind with isCode | data
              · simp [Breakpoint2.waits, Breakpoint2.waitsForCode, enabled, isCode]
              · simp [Breakpoint2.waits, Breakpoint2.waitsForData, enabled, data]
            rw [there] at slotOf
            exact ⟨waits, slotOf waits⟩

end Finish

/-! ## The answer -/

theorem searchMask_spec (bp : BreakpointTable) (i : Nat) (mask : UInt32) :
    searchMask bp i mask = endIndex bp ∨ (bp.peek (searchMask bp i mask)).type = .dataMask := by
  have passed : ∀ j < searchMask bp i mask, (bp.peek j).last = false := by
    intro j before
    have missing := CArray.not_found_before_firstIndex before
    exact (Bool.or_eq_false_iff.mp missing).1
  cases marked : (bp.peek (searchMask bp i mask)).last with
  | true => exact .inl (endIndex_eq marked (bp.firstIndex_le _) passed).symm
  | false =>
      right
      have reached := CArray.found_at_firstIndex (lt_of_not_last marked)
      rcases Bool.or_eq_true_iff.mp reached with last | found
      · exact absurd (marked.symm.trans last) Bool.noConfusion
      · exact beq_iff_eq.mp (Bool.and_eq_true_iff.mp found).1

theorem finishAdd_hasArmed_iff {target : Target} {table flagged : BreakpointTable} {i : Nat}
    {address : UInt32} {type : BpType} {length : UInt32}
    (flaggedTable : flagged = table.modify i Breakpoint2.flagAdd) (visible : Visible table i)
    (here : (table.peek i).IsFor address (storedType type length))
    (kind : (table.peek i).type = .code ∨ BpType.watchesData (table.peek i).type = true)
    (apart : ∀ j ≠ i, Visible table j → (table.peek j).IsFor address (storedType type length) →
      BpType.masked (table.peek i).type = true → j ≠ (table.peek i).maskPointer) :
    HasArmed target (finishAdd target table i).2 address type length ↔
      Fits target flagged ∧ (flagged.peek i).enabled = true ∨
        ∃ j ≠ i, Visible flagged j ∧ (flagged.peek j).IsFor address (storedType type length) ∧
          ((layoutBreakpoints target flagged).2.peek j).Armed target := by
  subst flaggedTable
  generalize flaggedTable : table.modify i Breakpoint2.flagAdd = flagged
  have fewer : Fewer flagged (finishAdd target table i).2 :=
    .of_adjusts (flaggedTable ▸ finishAdd_adjusts target table i)
  have visibleFlagged : ∀ j, Visible flagged j ↔ Visible table j := fun j =>
    flaggedTable ▸ visible_modify (by rw [Breakpoint2.flagAdd_eq]) j
  have entries : ∀ j, flagged.peek j = if j = i then (table.peek j).flagAdd else table.peek j :=
    fun j => flaggedTable ▸ modify_peek_eq visible j
  have enabled : (flagged.peek i).enabled = (table.peek i).enabled := by
    rw [entries, if_pos rfl, Breakpoint2.flagAdd_eq]
  have isFor : ∀ j, ((finishAdd target table i).2.peek j).IsFor address (storedType type length) ↔
      (flagged.peek j).IsFor address (storedType type length) := by
    intro j
    rw [Breakpoint2.IsFor, fewer.address, fewer.type, Breakpoint2.IsFor]
  have others : ∀ j ≠ i, Visible flagged j →
      (flagged.peek j).IsFor address (storedType type length) →
        (finishAdd target table i).2.peek j = (layoutBreakpoints target flagged).2.peek j := by
    intro j different visibleJ isForJ
    rw [entries, if_neg different] at isForJ
    rw [← flaggedTable]
    exact finishAdd_peek_ne visible different
      (apart j different ((visibleFlagged j).mp visibleJ) isForJ)
  have own : ((finishAdd target table i).2.peek i).Armed target ↔
      Fits target flagged ∧ (flagged.peek i).enabled = true := by
    rw [enabled, ← flaggedTable]
    exact finishAdd_armed_iff visible kind
  constructor
  · rintro ⟨j, visibleJ, isForJ, armed⟩
    by_cases same : j = i
    · exact .inl (own.mp (same ▸ armed))
    · have inUse := fewer.visible.mp visibleJ
      have isFor' := (isFor j).mp isForJ
      exact .inr ⟨j, same, inUse, isFor', others j same inUse isFor' ▸ armed⟩
  · rintro (room | ⟨j, different, visibleJ, isForJ, armed⟩)
    · refine ⟨i, fewer.visible.mpr ((visibleFlagged i).mpr visible), (isFor i).mpr ?_,
        own.mpr room⟩
      rw [entries, if_pos rfl, Breakpoint2.flagAdd_eq]
      exact here
    · exact ⟨j, fewer.visible.mpr visibleJ, (isFor j).mpr isForJ,
        (others j different visibleJ isForJ).symm ▸ armed⟩

section Answer

variable {target : Target} {added : List (UInt32 × BpType)} {bp : BreakpointTable}
  {address : UInt32} {type : BpType} {length : UInt32}

theorem absent_of_full (terminated : Terminated bp) (full : occupied bp address type = 31) :
    Absent bp address type := by
  rcases searchEntry_spec bp address type with ⟨_, absent⟩ | ⟨visible, _⟩
  · exact absent
  · have small := Nat.lt_of_lt_of_le visible (endIndex_le_of_last terminated.sentinel)
    rw [occupied, chooseEntry, not_atMax small, if_neg Bool.false_ne_true] at full
    exact absurd full small.ne

theorem not_codeBreakpointAt_of_absent (absent : Absent bp address .code) :
    codeBreakpointAt bp address ≠ true := by
  intro found
  obtain ⟨j, visible, sameAddress, sameType, _⟩ := codeBreakpointAt_iff.mp found
  exact absent j visible ⟨sameAddress, sameType⟩

theorem HasArmed.codeBreakpointAt (armed : HasArmed target bp address .code length) :
    codeBreakpointAt bp address = true := by
  obtain ⟨j, visible, ⟨sameAddress, sameType⟩, armedJ⟩ := armed
  rw [storedType, if_neg fun range => range.1 rfl] at sameType
  exact codeBreakpointAt_iff.mpr ⟨j, visible, sameAddress, sameType, armedJ.1⟩

theorem single_hasArmed_iff (orderly : Orderly added bp) (plain : BpType.plain type = true)
    (room : occupied bp address type < 31) (single : ¬ IsRange type length) :
    HasArmed target (finishAdd target (claimed bp address type) (occupied bp address type)).2
        address type length ↔ Fits target (entered bp address type) := by
  have occupies := ((occupied_spec orderly.toTerminated address type).resolve_left
    fun full => room.ne full.2).2
  obtain ⟨ordered, _, visible⟩ := orderly.claimed room occupies
  have entry : (claimed bp address type).peek (occupied bp address type) =
      (bp.peek (occupied bp address type)).occupy address type := claimEntry_peek_self room
  have stored : storedType type length = type := if_neg single
  have here : ((claimed bp address type).peek (occupied bp address type)).IsFor address
      (storedType type length) := by
    rw [entry, stored]
    exact ⟨rfl, rfl⟩
  have kind : ((claimed bp address type).peek (occupied bp address type)).type = .code ∨
      BpType.watchesData ((claimed bp address type).peek (occupied bp address type)).type =
        true := by
    rw [entry]
    exact (em (type = .code)).imp id (BpType.data_of_plain plain)
  have unmasked : BpType.masked ((claimed bp address type).peek (occupied bp address type)).type =
      false := by
    rw [entry]
    exact BpType.not_masked_of_plain plain
  have flaggedTable : entered bp address type =
      (claimed bp address type).modify (occupied bp address type) Breakpoint2.flagAdd := rfl
  rw [finishAdd_hasArmed_iff flaggedTable visible here kind fun _ _ _ _ masked =>
    absurd (unmasked.symm.trans masked) Bool.noConfusion]
  constructor
  · rintro (⟨fits, _⟩ | ⟨j, different, visibleJ, isFor, _⟩)
    · exact fits
    · exfalso
      rw [flaggedTable, modify_peek_eq visible, if_neg different] at isFor
      rw [flaggedTable, visible_modify (by rw [Breakpoint2.flagAdd_eq])] at visibleJ
      refine different (ordered.named.unique j _ visibleJ visible (isFor.1.trans here.1.symm)
        (isFor.2.trans here.2.symm) ?_)
      rw [isFor.2, stored]
      exact plain
  · intro fits
    refine .inl ⟨fits, ?_⟩
    rw [flaggedTable, CArray.peek_modify_same _ _ (Nat.lt_succ_of_lt room), entry,
      Breakpoint2.flagAdd_eq]
    rfl

theorem linked_mask_no_range (room : occupied bp address type < 31) {j : Nat}
    (visible : Visible (linked target bp address type length) j)
    (masked : BpType.masked ((linked target bp address type length).peek j).type = true) :
    j ≠ ((linked target bp address type length).peek (occupied bp address type)).maskPointer := by
  unfold linked at visible masked ⊢
  dsimp only at visible masked ⊢
  generalize withMask target bp address type length = table at visible masked ⊢
  generalize pointer : searchMask table (occupied bp address type) (~~~(length - 1)) = mask
    at visible masked ⊢
  rw [visible_modify (Breakpoint2.setMaskPointer_last _ _)] at visible
  rw [CArray.peek_modify_same _ _ (Nat.lt_succ_of_lt room),
    Breakpoint2.setMaskPointer_maskPointer]
  have isRange : BpType.masked (table.peek j).type = true := by
    rw [CArray.peek_modify] at masked
    split at masked
    · rwa [Breakpoint2.setMaskPointer_type] at masked
    · exact masked
  rintro rfl
  rcases searchMask_spec table (occupied bp address type) (~~~(length - 1)) with atEnd | isMask
  · exact visible.ne (pointer.symm.trans atEnd)
  · rw [pointer] at isMask
    rw [isMask] at isRange
    exact absurd isRange (by decide)

theorem rangeEntered_enabled (room : occupied bp address type < 31)
    (occupies : Occupies bp address type (occupied bp address type))
    (terminated : Terminated bp) (reaches : ReachesSearchMask bp address type length) :
    ((rangeEntered bp address type length).peek (occupied bp address type)).enabled = true := by
  obtain ⟨_, occupiesMask⟩ := (occupied_spec (claimedRange_terminated terminated room)
    (~~~(length - 1)) .dataMask).resolve_left fun full => reaches.2.2.2.2.2 full.2
  have inside := Nat.lt_succ_of_lt room
  have different := claimedRange_apart room occupies occupiesMask
  have here : ((maskEntered bp address type length).peek (occupied bp address type)).enabled =
      true := by
    unfold maskEntered
    dsimp only
    rw [CArray.peek_modify_ne _ _ different.symm, claimed,
      claimEntry_peek_ne (claimedRange_visible room occupies) different, claimedRange_peek room]
    rfl
  generalize tableEq : maskEntered bp address type length = table at here
  have placed : ((masksPlaced table).peek (occupied bp address type)).enabled = true := by
    unfold masksPlaced
    dsimp only
    split
    · exact here
    · rw [CArray.peek_modify]
      split <;> exact here
  unfold rangeEntered
  dsimp only
  rw [tableEq, CArray.peek_modify_same _ _ inside, CArray.peek_modify_same _ _ inside,
    Breakpoint2.flagAdd_eq]
  exact placed

theorem range_hasArmed_iff (orderly : Orderly added bp) (plain : BpType.plain type = true)
    (room : occupied bp address type < 31) (range : IsRange type length)
    (reaches : ReachesSearchMask bp address type length)
    (fits : Fits target (maskEntered bp address type length)) :
    HasArmed target (finishAdd target (linked target bp address type length)
        (occupied bp address type)).2 address type length ↔
      Fits target (rangeEntered bp address type length) ∨
        KeptBeside target bp address type length := by
  have occupies := ((occupied_spec orderly.toTerminated address type).resolve_left
    fun full => room.ne full.2).2
  obtain ⟨ordered, alone, visible, sameAddress, sameType⟩ :=
    @Orderly.linked target _ _ _ _ _ orderly room occupies reaches
  have stored : storedType type length = type ||| .hasMask := if_pos range
  have kind : BpType.watchesData ((linked target bp address type length).peek
      (occupied bp address type)).type = true := by
    rw [sameType]
    exact BpType.watchesData_masked plain range.1
  have same := rangeEntered_sameInIce orderly room reaches fits
  have enabled := rangeEntered_enabled room occupies orderly.toTerminated reaches
  have noRange := fun j => @linked_mask_no_range target bp address type length room j
  have isRange : ∀ {j}, (Breakpoint2.IsFor address (storedType type length) j) →
      BpType.masked j.type = true := by
    intro entry isFor
    rw [isFor.2, stored]
    exact BpType.masked_hasMask type
  rw [finishAdd_hasArmed_iff rfl visible ⟨sameAddress, sameType.trans stored.symm⟩ (.inr kind)
    fun j _ visibleJ isFor _ => noRange j visibleJ (isRange isFor)]
  have keepsLast : ∀ entry : Breakpoint2, entry.flagAdd.last = entry.last := fun entry => by
    rw [Breakpoint2.flagAdd_eq]
  have fresh := (ordered.flagAdd room visible).fresh
  have aloneToo := alone.modify visible (keepsLast _)
  have visible' : ∀ j, Visible ((linked target bp address type length).modify
      (occupied bp address type) Breakpoint2.flagAdd) j ↔
        Visible (linked target bp address type length) j := visible_modify (keepsLast _)
  have unflagged : ∀ k, (((linked target bp address type length).modify
      (occupied bp address type) Breakpoint2.flagAdd).peek k).type =
        ((linked target bp address type length).peek k).type ∧
      (((linked target bp address type length).modify
        (occupied bp address type) Breakpoint2.flagAdd).peek k).maskPointer =
          ((linked target bp address type length).peek k).maskPointer := by
    intro k
    rw [modify_peek_eq visible, Breakpoint2.flagAdd_eq]
    split <;> exact ⟨rfl, rfl⟩
  generalize (linked target bp address type length).modify (occupied bp address type)
    Breakpoint2.flagAdd = flagged at same fresh aloneToo visible' unflagged ⊢
  refine or_congr ⟨fun room => same.fits.mp room.1, fun fits => ⟨same.fits.mpr fits, ?_⟩⟩
    (exists_congr fun j => and_congr_right fun different => ?_)
  · exact (same.blind Breakpoint2.enabled (fun _ _ => rfl) _).trans enabled
  rw [same.sameButSlots.visible, Breakpoint2.IsFor, Breakpoint2.IsFor,
    same.blind Breakpoint2.address (fun _ _ => rfl) j, same.blind Breakpoint2.type (fun _ _ => rfl) j]
  refine and_congr_right fun visibleJ => and_congr_right fun isFor => ?_
  have masked : BpType.masked (flagged.peek j).type = true := by
    rw [same.blind Breakpoint2.type (fun _ _ => rfl) j]
    exact isRange isFor
  have armed : ((layoutBreakpoints target flagged).2.peek j).Armed target ↔
      KeepsSlots target flagged j := by
    refine layout_armed_iff aloneToo fresh ?_ (fun k visibleK range => ?_)
      (same.sameButSlots.visible.mpr visibleJ) different masked
    · rw [(unflagged _).1, sameType]
      exact BpType.masked_hasMask type
    · rw [(unflagged _).1] at range
      rw [(unflagged _).2]
      exact noRange k ((visible' k).mp visibleK) range
  exact armed.trans ⟨same.symm.keepsSlots, same.keepsSlots⟩

end Answer

theorem tellsTruth_iff {target : Target} {added : List (UInt32 × BpType)} {bp : BreakpointTable}
    (reached : Reached target added bp) (address : UInt32) {type : BpType}
    (plain : BpType.plain type = true) {length : UInt32}
    (maskFits : MaskFits target bp address type length) :
    TellsTruth target (addBreakpoint target bp address type length).1
        (addBreakpoint target bp address type length).2 address type length ↔
      AnswerFits target bp address type length := by
  have orderly := reached.orderly
  have outcome := @addBreakpoint_outcome target bp orderly.toTerminated address type length
  generalize addBreakpoint target bp address type length = result at outcome
  unfold AnswerFits
  cases outcome with
  | full full =>
      have absent := absent_of_full orderly.toTerminated full
      have refused : Refused bp address type length := .inl full
      have noCode : type = .code → (false = true ↔ codeBreakpointAt bp address = true) := by
        rintro rfl
        exact ⟨fun answer => absurd answer Bool.false_ne_true,
          fun found => absurd found (not_codeBreakpointAt_of_absent absent)⟩
      rw [if_pos refused, full]
      split
      next range =>
        constructor
        · intro truth j visible _ isFor armed
          exact Bool.false_ne_true (truth.armed.mpr ⟨j, visible, isFor, armed⟩)
        · refine fun none => ⟨⟨fun answer => absurd answer Bool.false_ne_true, ?_⟩, noCode⟩
          rintro ⟨j, visible, isFor, armed⟩
          exact (none j visible (visible.trans_le (endIndex_le_of_last orderly.sentinel)) isFor
            armed).elim
      next single =>
        refine ⟨fun _ => .inl refused,
          fun _ => ⟨⟨fun answer => absurd answer Bool.false_ne_true, ?_⟩, noCode⟩⟩
        rintro ⟨j, visible, isFor, _⟩
        rw [storedType, if_neg single] at isFor
        exact (absent j visible isFor).elim
  | rejected room range turnedDown table which =>
      have occupies := ((occupied_spec orderly.toTerminated address type).resolve_left
        fun full => room.ne full.2).2
      obtain ⟨marker, before, _⟩ := orderly.rejected room occupies which
      have entries : ∀ j < occupied bp address type,
          (table.modify (occupied bp address type) Breakpoint2.reject).peek j = bp.peek j := by
        intro j less
        rw [CArray.peek_modify_ne _ _ less.ne', before j less]
      rw [if_pos range, if_pos (.inr ⟨range, turnedDown⟩)]
      constructor
      · intro truth j _ less isFor armed
        refine Bool.false_ne_true (truth.armed.mpr ⟨j, by rwa [Visible, marker], ?_⟩)
        rw [entries j less]
        exact ⟨isFor, armed⟩
      · refine fun none => ⟨⟨fun answer => absurd answer Bool.false_ne_true, ?_⟩,
          fun isCode => absurd isCode range.1⟩
        rintro ⟨j, visible, isFor, armed⟩
        rw [Visible, marker] at visible
        rw [entries j visible] at isFor armed
        exact (none j (visible.trans_le occupies.le_endIndex) visible isFor armed).elim
  | single room single =>
      have notRefused : ¬ Refused bp address type length := by
        rintro (full | ⟨range, _⟩)
        · exact room.ne full
        · exact single range
      have armed := @single_hasArmed_iff target _ _ _ _ _ orderly plain room single
      rw [if_neg single, or_iff_right notRefused, ← armed, finishAdd_accepts]
      refine ⟨fun truth => truth.armed.mp rfl, fun here => ⟨⟨fun _ => here, fun _ => rfl⟩, ?_⟩⟩
      rintro rfl
      exact ⟨fun _ => here.codeBreakpointAt, fun _ => rfl⟩
  | range room range reaches =>
      have notRefused : ¬ Refused bp address type length := by
        rintro (full | ⟨_, turnedDown⟩)
        · exact room.ne full
        · exact turnedDown reaches
      have room' := maskFits range notRefused
      have armed := @range_hasArmed_iff target _ _ _ _ _ orderly plain room range reaches room'
      rw [if_pos range, if_neg notRefused, finishAdd_accepts]
      refine ⟨fun truth => ⟨room', armed.mp (truth.armed.mp rfl)⟩, fun fits => ?_⟩
      exact ⟨⟨fun _ => armed.mpr fits.2, fun _ => rfl⟩, fun isCode => absurd isCode range.1⟩

theorem AnswerFits.maskFits {target : Target} {bp : BreakpointTable} {address : UInt32}
    {type : BpType} {length : UInt32} (fits : AnswerFits target bp address type length) :
    MaskFits target bp address type length := by
  intro range accepted
  rw [AnswerFits, if_pos range, if_neg accepted] at fits
  exact fits.1

/-- `addBreakpoint` tells the truth when its answer fits what is left, and only
then, unless the mask of a range finds no room. -/
theorem add_answer_iff {target : Target} {added : List (UInt32 × BpType)} {bp : BreakpointTable}
    (reached : Reached target added bp) (address : UInt32) {type : BpType}
    (plain : BpType.plain type = true) (length : UInt32) :
    (AnswerFits target bp address type length →
        TellsTruth target (addBreakpoint target bp address type length).1
          (addBreakpoint target bp address type length).2 address type length) ∧
      (MaskFits target bp address type length →
        TellsTruth target (addBreakpoint target bp address type length).1
            (addBreakpoint target bp address type length).2 address type length →
          AnswerFits target bp address type length) :=
  ⟨fun fits => (tellsTruth_iff reached address plain fits.maskFits).mpr fits,
    fun room => (tellsTruth_iff reached address plain room).mp⟩

theorem add_answer_first :
    TellsTruth ⟨false, 0⟩ (addBreakpoint ⟨false, 0⟩ constructedTable 0x100 .code 0).1
      (addBreakpoint ⟨false, 0⟩ constructedTable 0x100 .code 0).2 0x100 .code 0 := by
  refine (add_answer_iff .constructed 0x100 rfl 0).1 ?_
  have single : ¬ IsRange .code 0 := by decide
  have room : Fits ⟨false, 0⟩ (entered constructedTable 0x100 .code) :=
    layout_hadroom_iff_fits.mp (by decide +kernel)
  rw [AnswerFits, if_neg single]
  exact .inr room

def twoWatchpoints : BreakpointTable :=
  (addBreakpoint ⟨false, 0⟩
    (addBreakpoint ⟨false, 0⟩ constructedTable 0x800100 .writeData 1).2 0x800101 .writeData 1).2

/-- A third one is given up, and the answer is true all the same. -/
theorem add_answer_third :
    (∃ added, Reached ⟨false, 0⟩ added twoWatchpoints) ∧
      (addBreakpoint ⟨false, 0⟩ twoWatchpoints 0x800102 .writeData 1).1 = true ∧
        ¬ TellsTruth ⟨false, 0⟩ (addBreakpoint ⟨false, 0⟩ twoWatchpoints 0x800102 .writeData 1).1
          (addBreakpoint ⟨false, 0⟩ twoWatchpoints 0x800102 .writeData 1).2 0x800102 .writeData
          1 := by
  have answer : (addBreakpoint ⟨false, 0⟩ twoWatchpoints 0x800102 .writeData 1).1 = true := by
    decide +kernel
  have off : ∀ j < endIndex (addBreakpoint ⟨false, 0⟩ twoWatchpoints 0x800102 .writeData 1).2,
      ((addBreakpoint ⟨false, 0⟩ twoWatchpoints 0x800102 .writeData 1).2.peek j).IsFor 0x800102
          (storedType .writeData 1) →
        ((addBreakpoint ⟨false, 0⟩ twoWatchpoints 0x800102 .writeData 1).2.peek j).enabled =
          false := by
    decide +kernel
  refine ⟨⟨_, .addBreakpoint _ _ _ (.addBreakpoint _ _ _ .constructed)⟩, answer, fun truth => ?_⟩
  obtain ⟨j, visible, isFor, armed⟩ := truth.armed.mp answer
  exact absurd ((off j visible isFor).symm.trans armed.1) Bool.noConfusion

end Avarice.Mk2

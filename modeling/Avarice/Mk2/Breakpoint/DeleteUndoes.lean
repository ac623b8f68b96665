import Avarice.Mk2.Breakpoint.Withdrawal

/-!
# Whether deleteBreakpoint undoes addBreakpoint

A range is entered under another type than that of its request, so the request
cannot be deleted again.  A single breakpoint can, but adding and deleting it may
cost a range that waits its slots.  And a request that was turned down stays in
the end marker, where `deleteBreakpoint` finds it.
-/

namespace Avarice.Mk2

def EnabledAt (bp : BreakpointTable) (j : Nat) : Prop :=
  Visible bp j ∧ (bp.peek j).enabled = true

structure SameEnabled (before after : BreakpointTable) : Prop where
  enabled : ∀ j, EnabledAt after j ↔ EnabledAt before j
  names : ∀ j, EnabledAt before j →
    (after.peek j).IsFor (before.peek j).address (before.peek j).type

def Matching (bp : BreakpointTable) (address : UInt32) (type : BpType) (length : UInt32) : Prop :=
  ∃ j, EnabledAt bp j ∧
    ((bp.peek j).IsFor address type ∨ (bp.peek j).IsFor address (storedType type length))

/-- What `deleteBreakpoint` does after the same request to `addBreakpoint`, and
without any such request. -/
structure DeleteUndoes (target : Target) (added : List (UInt32 × BpType)) (bp : BreakpointTable)
    (address : UInt32) (type : BpType) (length : UInt32) : Prop where
  undone : ¬ Matching bp address type length →
    (addBreakpoint target bp address type length).1 = true →
      let after :=
        deleteBreakpoint target (addBreakpoint target bp address type length).2 address type length
      after.1 = true ∧ SameEnabled bp after.2
  unmatched : (address, type) ∉ added → (deleteBreakpoint target bp address type length).1 = false

/-- Every range that waits keeps its slots while the request has an entry: no
data watchpoint waits in front of it, the two data slots are free whatever the
ICE has for the entry of the request, and its mask pointer names no other
breakpoint that the ICE has. -/
def KeepsRanges (target : Target) (bp : BreakpointTable) (address : UInt32) (type : BpType) :
    Prop :=
  let i := occupied bp address type
  ∀ r, Visible bp r → (bp.peek r).waitsForPair = true →
    (i < r → (bp.peek i).icestatus = true ∨ type = .code) ∧
      PairFree (remainingSlots target bp) ∧
      ((bp.peek i).icestatus = true → (bp.peek i).bpnum ≠ breakpoint2FirstData ∧
        (bp.peek i).bpnum ≠ breakpoint2DataMask) ∧
      (Visible bp (bp.peek r).maskPointer → (bp.peek r).maskPointer ≠ i →
        (bp.peek (bp.peek r).maskPointer).stable = false)

/-- The request is refused, or for a single breakpoint that leaves the ranges
their slots; and the end marker does not carry a request that was turned down. -/
def Undoable (target : Target) (added : List (UInt32 × BpType)) (bp : BreakpointTable)
    (address : UInt32) (type : BpType) (length : UInt32) : Prop :=
  (Matching bp address type length ∨ Refused bp address type length ∨
      ¬ IsRange type length ∧ KeepsRanges target bp address type) ∧
    ((address, type) ∈ added ∨ ¬ (bp.peek (endIndex bp)).IsFor address type)

/-! ## Ranges are not found again -/

/-- Neither an entry in use nor the end marker is for this breakpoint. -/
def Unnamed (bp : BreakpointTable) (address : UInt32) (type : BpType) : Prop :=
  ∀ j ≤ endIndex bp, ¬ (bp.peek j).IsFor address type

section Unnamed

variable {bp : BreakpointTable} {address : UInt32} {type : BpType}

theorem Unnamed.not_finds (unnamed : Unnamed bp address type) : ¬ Finds bp address type := by
  rcases searchEntry_spec bp address type with ⟨atEnd, _⟩ | ⟨visible, _⟩
  · exact unnamed _ atEnd.le
  · exact unnamed _ visible.le

theorem Unnamed.of_sameNames {after : BreakpointTable} (same : SameNames bp after)
    (unnamed : Unnamed bp address type) : Unnamed after address type := by
  intro j upTo
  rw [same.endIndex] at upTo
  rw [Breakpoint2.IsFor, same.address, same.type]
  exact unnamed j upTo

theorem Unnamed.claim {i : Nat} {other : UInt32} {kind : BpType}
    (unnamed : Unnamed bp address type) (plain : BpType.plain type = true) (small : i < 31)
    (low : i ≤ endIndex bp) (apart : kind ≠ type) :
    Unnamed (claimEntry bp i other kind) address type := by
  intro j upTo isFor
  by_cases here : j = i
  · rw [here, claimEntry_peek_self small] at isFor
    exact apart isFor.2
  · rcases claimEntry_upTo small low upTo here with ⟨before, equal⟩ | blank
    · exact unnamed j before (equal ▸ isFor)
    · rw [← isFor.2, blank, BpType.plain_none] at plain
      cases plain

theorem Unnamed.finishAdd (unnamed : Unnamed bp address type) (target : Target) (i : Nat) :
    Unnamed (finishAdd target bp i).2 address type := by
  have flagged : SameNames bp (bp.modify i Breakpoint2.flagAdd) :=
    .of_modify fun entry => by
      rw [Breakpoint2.flagAdd_eq]
      exact ⟨rfl, rfl, rfl⟩
  exact (unnamed.of_sameNames flagged).of_sameNames
    (Fewer.of_adjusts (finishAdd_adjusts target bp i)).toSameNames

end Unnamed

section Requests

variable {target : Target} {added : List (UInt32 × BpType)} {bp : BreakpointTable}
  {address : UInt32} {type : BpType} {length : UInt32} (orderly : Orderly added bp)
  (plain : BpType.plain type = true) (room : occupied bp address type < 31)
include orderly

theorem Orderly.occupies (room : occupied bp address type < 31) :
    Occupies bp address type (occupied bp address type) :=
  ((occupied_spec orderly.toTerminated address type).resolve_left fun full => room.ne full.2).2

include plain room

theorem claimed_only {j : Nat} (upTo : j ≤ endIndex (claimed bp address type))
    (isFor : ((claimed bp address type).peek j).IsFor address type) :
    j = occupied bp address type := by
  by_contra different
  have occupies := orderly.occupies room
  rcases claimEntry_upTo room occupies.le_endIndex upTo different with ⟨before, equal⟩ | blank
  · have equal : (claimed bp address type).peek j = bp.peek j := equal
    rw [equal] at isFor
    rcases Nat.lt_or_eq_of_le before with inUse | rfl
    · cases occupies with
      | again visible sameAddress sameType =>
          exact different (orderly.named.unique j _ inUse visible
            (isFor.1.trans sameAddress.symm) (isFor.2.trans sameType.symm) (isFor.2 ▸ plain))
      | append _ absent => exact absent j inUse isFor
      | reuse _ _ _ absent => exact absent j inUse isFor
    · cases occupies with
      | again visible sameAddress sameType =>
          exact orderly.named.marker (isFor.2 ▸ plain) _ visible
            ⟨sameAddress.trans isFor.1.symm, sameType.trans isFor.2.symm⟩
      | append atEnd => exact different atEnd.symm
      | reuse visible _ _ absent =>
          rw [← isFor.2, full_of_reused orderly.toTerminated visible absent, orderly.unused,
            BpType.plain_none] at plain
          cases plain
  · have blank : ((claimed bp address type).peek j).type = .none := blank
    rw [← isFor.2, blank, BpType.plain_none] at plain
    cases plain

theorem claimedRange_unnamed : Unnamed (claimedRange bp address type) address type := by
  have visible := (orderly.claimed room (orderly.occupies room)).2.2
  intro j upTo isFor
  have range : claimedRange bp address type = (claimed bp address type).modify
      (occupied bp address type) (Breakpoint2.setType (type ||| .hasMask)) := rfl
  rw [range, modify_peek_eq visible] at isFor
  have same : endIndex (claimedRange bp address type) = endIndex (claimed bp address type) := by
    rw [range]
    refine endIndex_congr fun k => ?_
    rw [modify_peek_eq visible]
    split <;> rfl
  rw [same] at upTo
  split at isFor
  · rw [← isFor.2, Breakpoint2.setType_type,
      BpType.not_plain_of_masked (BpType.masked_hasMask type)] at plain
    cases plain
  next different => exact different (claimed_only orderly plain room upTo isFor)

theorem linked_unnamed (reaches : ReachesSearchMask bp address type length) :
    Unnamed (linked target bp address type length) address type := by
  obtain ⟨ordered, _⟩ := orderly.claimedRange room (orderly.occupies room)
  obtain ⟨roomMask, occupies⟩ := (occupied_spec ordered.toTerminated (~~~(length - 1))
    .dataMask).resolve_left fun full => reaches.2.2.2.2.2 full.2
  have noMask : BpType.dataMask ≠ type := by
    rintro rfl
    exact Bool.false_ne_true (BpType.plain_dataMask.symm.trans plain)
  have masked : Unnamed (claimed (claimedRange bp address type) (~~~(length - 1)) .dataMask)
      address type :=
    (claimedRange_unnamed orderly plain room).claim plain roomMask occupies.le_endIndex noMask
  have withMask : Unnamed (withMask target bp address type length) address type :=
    masked.finishAdd target _
  unfold linked
  generalize Mk2.withMask target bp address type length = table at withMask
  exact withMask.of_sameNames (.of_modify fun _ => ⟨rfl, rfl, rfl⟩)

end Requests

/-! ## Single breakpoints -/

def singleRequest (bp : BreakpointTable) (address : UInt32) (type : BpType) : BreakpointTable :=
  (claimed bp address type).modify (occupied bp address type) Breakpoint2.flagAdd

section Single

variable {target : Target} {added : List (UInt32 × BpType)} {bp : BreakpointTable}
  {address : UInt32} {type : BpType} {length : UInt32} (orderly : Orderly added bp)
  (plain : BpType.plain type = true) (room : occupied bp address type < 31)
include orderly

theorem singleRequest_peek (room : occupied bp address type < 31) :
    (singleRequest bp address type).peek (occupied bp address type) =
      { bp.peek (occupied bp address type) with
        last := false, enabled := true, address, type
        toadd := !(bp.peek (occupied bp address type)).icestatus, toremove := false } := by
  have visible := (orderly.claimed room (orderly.occupies room)).2.2
  rw [singleRequest, CArray.peek_modify_same _ _ (lt_of_visible visible), claimed,
    claimEntry_peek_self room, Breakpoint2.flagAdd_eq]
  rfl

omit orderly in
theorem singleRequest_peek_ne {j : Nat} (visible : Visible bp j)
    (different : j ≠ occupied bp address type) :
    (singleRequest bp address type).peek j = bp.peek j := by
  rw [singleRequest, CArray.peek_modify_ne _ _ different.symm]
  exact claimEntry_peek_ne visible different

theorem singleRequest_visible (room : occupied bp address type < 31) (j : Nat) :
    Visible (singleRequest bp address type) j ↔ Visible bp j ∨ j = occupied bp address type := by
  rw [singleRequest, visible_modify (by rw [Breakpoint2.flagAdd_eq])]
  exact claimEntry_visible room (orderly.occupies room).le_endIndex j

include room

theorem not_enabled_of_not_matching (unmatched : ¬ Matching bp address type length) :
    ¬ EnabledAt bp (occupied bp address type) := by
  rintro ⟨inUse, enabled⟩
  cases orderly.occupies room with
  | again _ sameAddress sameType =>
      exact unmatched ⟨_, ⟨inUse, enabled⟩, .inl ⟨sameAddress, sameType⟩⟩
  | append atEnd => exact inUse.ne atEnd
  | reuse _ disabled => exact Bool.false_ne_true (disabled.symm.trans enabled)

theorem singleRequest_freeSlots (off : ¬ EnabledAt bp (occupied bp address type)) {slot : Nat} :
    slot ∈ freeSlots target (singleRequest bp address type) ↔
      slot ∈ freeSlots target bp ∧ ((bp.peek (occupied bp address type)).icestatus = true →
        (bp.peek (occupied bp address type)).bpnum ≠ slot) := by
  have here := singleRequest_peek orderly room
  have visible := singleRequest_visible orderly room
  rw [mem_freeSlots, mem_freeSlots]
  constructor
  · rintro ⟨inside, wired, unused⟩
    refine ⟨⟨inside, wired, fun j inUse stable => ?_⟩, fun there => ?_⟩
    · have different : j ≠ occupied bp address type := by
        rintro rfl
        exact off ⟨inUse, Breakpoint2.enabled_of_stable stable⟩
      have same := singleRequest_peek_ne inUse different
      rw [← same] at stable ⊢
      exact unused j ((visible j).mpr (.inl inUse)) stable
    · have stable := unused _ ((visible _).mpr (.inr rfl))
      rw [here] at stable
      exact stable (by simp [Breakpoint2.stable, there])
  · rintro ⟨⟨inside, wired, unused⟩, own⟩
    refine ⟨inside, wired, fun j inUse stable => ?_⟩
    by_cases different : j = occupied bp address type
    · rw [different, here] at stable ⊢
      exact own (by simpa [Breakpoint2.stable] using stable)
    · have before := ((visible j).mp inUse).resolve_right different
      have same := singleRequest_peek_ne before different
      rw [same] at stable ⊢
      exact unused j before stable

theorem singleRequest_pairFree (off : ¬ EnabledAt bp (occupied bp address type)) :
    PairFree (remainingSlots target (singleRequest bp address type)) ↔
      PairFree (remainingSlots target bp) ∧
        ((bp.peek (occupied bp address type)).icestatus = true →
          (bp.peek (occupied bp address type)).bpnum ≠ breakpoint2FirstData ∧
            (bp.peek (occupied bp address type)).bpnum ≠ breakpoint2DataMask) := by
  have free := @singleRequest_freeSlots target _ _ _ _ orderly room off
  rw [pairFree_iff, pairFree_iff, free, free]
  constructor
  · rintro ⟨⟨first, notFirst⟩, ⟨mask, notMask⟩⟩
    exact ⟨⟨first, mask⟩, fun there => ⟨notFirst there, notMask there⟩⟩
  · rintro ⟨⟨first, mask⟩, own⟩
    exact ⟨⟨first, fun there => (own there).1⟩, ⟨mask, fun there => (own there).2⟩⟩

theorem singleRequest_stable (m : Nat) :
    (Visible bp m → m ≠ occupied bp address type → (bp.peek m).stable = false) ↔
      (Visible (singleRequest bp address type) m → m ≠ occupied bp address type →
        ((singleRequest bp address type).peek m).stable = false) := by
  have visible := singleRequest_visible orderly room m
  constructor
  · intro spares inUse different
    have before := (visible.mp inUse).resolve_right different
    rw [singleRequest_peek_ne before different]
    exact spares before different
  · intro spares before different
    rw [← singleRequest_peek_ne before different]
    exact spares (visible.mpr (.inl before)) different

include plain

theorem singleRequest_entered : Entered (claimed bp address type) (occupied bp address type)
    (singleRequest bp address type) := by
  obtain ⟨ordered, alone, visible⟩ := orderly.claimed room (orderly.occupies room)
  refine ⟨rfl, visible, ?_, (ordered.flagAdd room visible).fresh, alone.modify visible ?_⟩
  · rw [claimed, claimEntry_peek_self room]
    exact BpType.not_masked_of_plain plain
  · rw [Breakpoint2.flagAdd_eq]

theorem singleRequest_waitsForData :
    ((singleRequest bp address type).peek (occupied bp address type)).waitsForData = true ↔
      (bp.peek (occupied bp address type)).icestatus = false ∧ type ≠ .code := by
  rw [singleRequest_peek orderly room]
  by_cases isCode : type = .code
  · simp [Breakpoint2.waitsForData, isCode, show BpType.watchesData .code = false by decide]
  · simp [Breakpoint2.waitsForData, isCode, BpType.data_of_plain plain isCode]

theorem singleRequest_ranges (off : ¬ EnabledAt bp (occupied bp address type)) {r : Nat} :
    Visible bp r ∧ (bp.peek r).waitsForPair = true ↔
      Visible (singleRequest bp address type) r ∧
        ((singleRequest bp address type).peek r).waitsForPair = true := by
  have visible := singleRequest_visible orderly room r
  constructor
  · rintro ⟨inUse, pair⟩
    have different : r ≠ occupied bp address type := by
      rintro rfl
      have waits := Breakpoint2.waitsForData_of_pair pair
      simp only [Breakpoint2.waitsForData, Bool.and_eq_true] at waits
      exact off ⟨inUse, waits.1.1⟩
    rw [singleRequest_peek_ne inUse different]
    exact ⟨visible.mpr (.inl inUse), pair⟩
  · rintro ⟨inUse, pair⟩
    have different := (singleRequest_entered orderly plain room).range_ne pair
    have before := (visible.mp inUse).resolve_right different
    rw [singleRequest_peek_ne before different] at pair
    exact ⟨before, pair⟩

theorem keepsRanges_iff (off : ¬ EnabledAt bp (occupied bp address type)) :
    KeepsRanges target bp address type ↔
      SparesRanges target (singleRequest bp address type) (occupied bp address type) := by
  have entered := singleRequest_entered orderly plain room
  have ranges := @singleRequest_ranges _ _ _ _ orderly plain room off
  have slots := @singleRequest_pairFree target _ _ _ _ orderly room off
  have pointers := singleRequest_stable orderly room
  have behind : ∀ r, (occupied bp address type < r →
        (bp.peek (occupied bp address type)).icestatus = true ∨ type = .code) ↔
      ¬ (occupied bp address type < r ∧
        ((singleRequest bp address type).peek (occupied bp address type)).waitsForData = true) := by
    intro r
    rw [singleRequest_waitsForData orderly plain room, not_and, not_and_or, Bool.not_eq_false,
      not_not]
  unfold KeepsRanges SparesRanges
  dsimp only
  refine forall_congr' fun r => ?_
  constructor
  · intro keeps inUse pair
    obtain ⟨before, waits⟩ := ranges.mpr ⟨inUse, pair⟩
    obtain ⟨inFront, free, own, pointer⟩ := keeps before waits
    rw [singleRequest_peek_ne before (entered.range_ne pair)]
    exact ⟨(behind r).mp inFront, slots.mpr ⟨free, own⟩, (pointers _).mp pointer⟩
  · intro spares before waits
    obtain ⟨inUse, pair⟩ := ranges.mp ⟨before, waits⟩
    obtain ⟨inFront, free, pointer⟩ := spares inUse pair
    rw [singleRequest_peek_ne before (entered.range_ne pair)] at pointer
    exact ⟨(behind r).mpr inFront, (slots.mp free).1, (slots.mp free).2, (pointers _).mpr pointer⟩

theorem delete_single :
    deleteBreakpoint target
        (finishAdd target (claimed bp address type) (occupied bp address type)).2
        address type length =
      (true, (layoutBreakpoints target
        (withdrawn target (claimed bp address type) (occupied bp address type))).2) := by
  obtain ⟨ordered, _, visible⟩ := orderly.claimed room (orderly.occupies room)
  have finished := ordered.finishAdd target room visible
  have fewer := Fewer.of_adjusts
    (finishAdd_adjusts target (claimed bp address type) (occupied bp address type))
  have here := singleRequest_peek orderly room
  have inUse : Visible (finishAdd target (claimed bp address type) (occupied bp address type)).2
      (occupied bp address type) :=
    fewer.visible.mpr ((singleRequest_visible orderly room _).mpr (.inr rfl))
  have isFor : ((finishAdd target (claimed bp address type) (occupied bp address type)).2.peek
      (occupied bp address type)).IsFor address type := by
    rw [Breakpoint2.IsFor, fewer.address, fewer.type]
    change ((singleRequest bp address type).peek _).address = address ∧
      ((singleRequest bp address type).peek _).type = type
    rw [here]
    exact ⟨rfl, rfl⟩
  unfold withdrawn
  generalize (finishAdd target (claimed bp address type) (occupied bp address type)).2 = after
    at finished inUse isFor
  rw [deleteBreakpoint_eq finished.toTerminated]
  rcases searchEntry_spec after address type with ⟨_, absent⟩ | ⟨found, sameAddress, sameType⟩
  · exact absurd isFor (absent _ inUse)
  · have same := finished.named.unique _ _ found inUse (sameAddress.trans isFor.1.symm)
      (sameType.trans isFor.2.symm) (by rw [sameType]; exact plain)
    rw [if_pos ⟨sameAddress, sameType⟩, same]

theorem sameEnabled_iff (off : ¬ EnabledAt bp (occupied bp address type)) :
    SameEnabled bp (layoutBreakpoints target
        (withdrawn target (claimed bp address type) (occupied bp address type))).2 ↔
      KeepsRanges target bp address type := by
  have entered := singleRequest_entered orderly plain room
  have fewer := (@Entered.fewer target _ _ _ entered).trans (fewer_layout target _)
  have visible := singleRequest_visible orderly room
  have withdrawnOff : ((layoutBreakpoints target (withdrawn target (claimed bp address type)
      (occupied bp address type))).2.peek (occupied bp address type)).enabled = false :=
    (layout_adjusts target _ _).disabled (withdrawn_off entered.visible)
  rw [keepsRanges_iff orderly plain room off, ← entered.keeps_iff]
  generalize (layoutBreakpoints target
    (withdrawn target (claimed bp address type) (occupied bp address type))).2 = after
    at fewer withdrawnOff
  constructor
  · intro same j different inUse enabled
    have before := ((visible j).mp inUse).resolve_right different
    rw [singleRequest_peek_ne before different] at enabled
    exact ((same.enabled j).mpr ⟨before, enabled⟩).2
  · intro kept
    have others : ∀ {j}, EnabledAt bp j → j ≠ occupied bp address type := by
      rintro j enabledAt rfl
      exact off enabledAt
    refine ⟨fun j => ⟨fun enabledAt => ?_, fun enabledAt => ?_⟩, fun j enabledAt => ?_⟩
    · obtain ⟨inUse, enabled⟩ := enabledAt
      have different : j ≠ occupied bp address type := by
        rintro rfl
        exact Bool.false_ne_true (withdrawnOff.symm.trans enabled)
      have before := ((visible j).mp (fewer.visible.mp inUse)).resolve_right different
      have same := singleRequest_peek_ne before different
      exact ⟨before, same ▸ fewer.enabled j enabled⟩
    · have different := others enabledAt
      obtain ⟨before, enabled⟩ := enabledAt
      have inUse := (visible j).mpr (.inl before)
      rw [← singleRequest_peek_ne before different] at enabled
      exact ⟨fewer.visible.mpr inUse, kept j different inUse enabled⟩
    · rw [Breakpoint2.IsFor, fewer.address, fewer.type,
        singleRequest_peek_ne enabledAt.1 (others enabledAt)]
      exact ⟨rfl, rfl⟩

end Single

section Requests

variable {target : Target} {added : List (UInt32 × BpType)} {bp : BreakpointTable}
  {address : UInt32} {type : BpType} {length : UInt32} (orderly : Orderly added bp)
  (plain : BpType.plain type = true)
include orderly plain

theorem undone_iff (unmatched : ¬ Matching bp address type length) :
    ((addBreakpoint target bp address type length).1 = true →
      (deleteBreakpoint target (addBreakpoint target bp address type length).2 address type
        length).1 = true ∧
      SameEnabled bp (deleteBreakpoint target (addBreakpoint target bp address type length).2
        address type length).2) ↔
      Refused bp address type length ∨
        ¬ IsRange type length ∧ KeepsRanges target bp address type := by
  have answer := @addBreakpoint_fst target bp orderly.toTerminated address type length
  have outcome := @addBreakpoint_outcome target bp orderly.toTerminated address type length
  generalize addBreakpoint target bp address type length = result at answer outcome
  rw [answer, ← or_iff_not_imp_left]
  cases outcome with
  | full full => exact ⟨fun _ => .inl (.inl full), fun _ => .inl (.inl full)⟩
  | rejected _ range turnedDown =>
      exact ⟨fun _ => .inl (.inr ⟨range, turnedDown⟩), fun _ => .inl (.inr ⟨range, turnedDown⟩)⟩
  | single room single =>
      have off := not_enabled_of_not_matching orderly room unmatched
      rw [delete_single orderly plain room, sameEnabled_iff orderly plain room off]
      simp [single]
  | range room range reaches =>
      obtain ⟨ordered, _, visible, _⟩ :=
        @Orderly.linked target _ _ _ _ _ orderly room (orderly.occupies room) reaches
      have unnamed := @linked_unnamed target _ _ _ _ _ orderly plain room reaches
      generalize linked target bp address type length = table at ordered visible unnamed
      rw [deleteBreakpoint_eq (ordered.finishAdd target room visible).toTerminated,
        if_neg (unnamed.finishAdd target _).not_finds]
      simp [range]

theorem not_deleted_iff (notAdded : (address, type) ∉ added) :
    (deleteBreakpoint target bp address type length).1 = false ↔
      ¬ (bp.peek (endIndex bp)).IsFor address type := by
  rw [deleteBreakpoint_eq orderly.toTerminated]
  rcases searchEntry_spec bp address type with ⟨atEnd, _⟩ | ⟨visible, sameAddress, sameType⟩
  · have finds : Finds bp address type ↔ (bp.peek (endIndex bp)).IsFor address type := by
      unfold Finds Breakpoint2.IsFor
      rw [atEnd]
    by_cases found : Finds bp address type
    · rw [if_pos found]
      exact ⟨fun answer => Bool.noConfusion answer, fun missing => absurd (finds.mp found) missing⟩
    · rw [if_neg found]
      exact ⟨fun _ => found ∘ finds.mpr, fun _ => rfl⟩
  · have recorded := orderly.named.recorded _ visible (by rw [sameType]; exact plain)
    rw [sameAddress, sameType] at recorded
    exact absurd recorded notAdded

end Requests

/-- `deleteBreakpoint` undoes `addBreakpoint` for single breakpoints that leave
the ranges that wait their slots, and finds nothing that was not added unless
the end marker carries it. -/
theorem delete_undoes_iff {target : Target} {added : List (UInt32 × BpType)}
    {bp : BreakpointTable} (reached : Reached target added bp) (address : UInt32) {type : BpType}
    (plain : BpType.plain type = true) (length : UInt32) :
    DeleteUndoes target added bp address type length ↔
      Undoable target added bp address type length := by
  have undone := @undone_iff target _ _ address _ length reached.orderly plain
  have notDeleted := @not_deleted_iff target _ _ address _ length reached.orderly plain
  constructor
  · intro undoes
    constructor
    · rw [or_iff_not_imp_left]
      exact fun unmatched => (undone unmatched).mp (undoes.undone unmatched)
    · rw [or_iff_not_imp_left]
      exact fun notAdded => (notDeleted notAdded).mp (undoes.unmatched notAdded)
  · rintro ⟨accepted, missing⟩
    exact {
      undone := fun unmatched => (undone unmatched).mpr (accepted.resolve_left unmatched)
      unmatched := fun notAdded => (notDeleted notAdded).mpr (missing.resolve_left notAdded) }

theorem delete_undoes_watchpoint :
    DeleteUndoes ⟨false, 0⟩ [] constructedTable 0x800100 .writeData 1 := by
  have single : ¬ IsRange .writeData 1 := by decide
  have empty : endIndex constructedTable = 0 := by decide +kernel
  refine (delete_undoes_iff .constructed 0x800100 rfl 1).mpr
    ⟨.inr (.inr ⟨single, fun r visible => ?_⟩), .inr ?_⟩
  · rw [Visible, empty] at visible
    exact absurd visible (Nat.not_lt_zero r)
  · decide +kernel

/-- A range that has been added is not found again. -/
theorem delete_undoes_range :
    (addBreakpoint ⟨false, 0⟩ constructedTable 0x800100 .writeData 2).1 = true ∧
      (deleteBreakpoint ⟨false, 0⟩
        (addBreakpoint ⟨false, 0⟩ constructedTable 0x800100 .writeData 2).2
        0x800100 .writeData 2).1 = false ∧
      ¬ DeleteUndoes ⟨false, 0⟩ [] constructedTable 0x800100 .writeData 2 := by
  have added : (addBreakpoint ⟨false, 0⟩ constructedTable 0x800100 .writeData 2).1 = true := by
    decide +kernel
  have missed : (deleteBreakpoint ⟨false, 0⟩
      (addBreakpoint ⟨false, 0⟩ constructedTable 0x800100 .writeData 2).2
      0x800100 .writeData 2).1 = false := by
    decide +kernel
  have empty : endIndex constructedTable = 0 := by decide +kernel
  have unmatched : ¬ Matching constructedTable 0x800100 .writeData 2 := by
    rintro ⟨j, ⟨visible, _⟩, _⟩
    rw [Visible, empty] at visible
    exact absurd visible (Nat.not_lt_zero j)
  exact ⟨added, missed, fun undoes =>
    Bool.false_ne_true (missed.symm.trans (undoes.undone unmatched added).1)⟩

end Avarice.Mk2

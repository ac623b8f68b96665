import Avarice.Mk2.Breakpoint.PairLayout

/-!
# The layout is sound and complete

An assignment gives every waiting breakpoint a slot of a kind it can use, beside
the slots of the stable ones.  The layout finds one whenever there is one: the
data watchpoints, which come first, can use two slots only, and for the code
breakpoints one slot is as good as another.
-/

namespace Avarice.Mk2

open Scan

/-- The breakpoints that hold a slot: the stable ones, and the waiting ones with
the masks of their ranges. -/
def HoldsSlot (bp : BreakpointTable) (i : Nat) : Prop :=
  Visible bp i ∧ ((bp.peek i).stable = true ∨ (bp.peek i).waitsForCode = true) ∨
    i ∈ slotUsersBefore bp (endIndex bp)

structure Assignment (target : Target) (bp : BreakpointTable) (slot : Nat → Nat) : Prop where
  kept : ∀ i, Visible bp i → (bp.peek i).stable = true → slot i = (bp.peek i).bpnum
  code : ∀ i, Visible bp i → (bp.peek i).waitsForCode = true →
    slot i ∈ Finset.Icc 1 3 ∨ slot i = 0 ∧ softwarebps target = true
  data : ∀ i, Visible bp i → (bp.peek i).waitsForData = true →
    BpType.masked (bp.peek i).type = false →
      slot i = breakpoint2FirstData ∨ slot i = breakpoint2DataMask
  range : ∀ i, Visible bp i → (bp.peek i).waitsForPair = true →
    slot i = breakpoint2FirstData ∧ slot (bp.peek i).maskPointer = breakpoint2DataMask
  distinct : ∀ i j, HoldsSlot bp i → HoldsSlot bp j → slot i = slot j → i = j ∨ slot i = 0
  debugWire : target.useDebugWire = true → ∀ i, HoldsSlot bp i →
    (bp.peek i).stable = false → slot i = 0

structure LayoutInput (bp : BreakpointTable) : Prop where
  /-- Stable breakpoints do not share hardware slots. -/
  distinct : ∀ i j, Visible bp i → Visible bp j → (bp.peek i).stable = true →
    (bp.peek j).stable = true → (bp.peek i).bpnum = (bp.peek j).bpnum →
      i = j ∨ (bp.peek i).bpnum = 0
  /-- No breakpoint is to be added that is in the ICE. -/
  fresh : ∀ i, Visible bp i → (bp.peek i).enabled = true → (bp.peek i).toadd = true →
    (bp.peek i).icestatus = false
  masks : OwnMasks bp

section Holders

variable {target : Target} {bp : BreakpointTable} {i : Nat}

theorem toadd_of_data (waits : (bp.peek i).waitsForData = true) :
    (bp.peek i).toadd = true := by
  simp only [Breakpoint2.waitsForData, Bool.and_eq_true] at waits
  exact waits.1.2

theorem toadd_of_code (waits : (bp.peek i).waitsForCode = true) :
    (bp.peek i).toadd = true := by
  simp only [Breakpoint2.waitsForCode, Bool.and_eq_true] at waits
  exact waits.1.2

variable (input : LayoutInput bp)
include input

theorem LayoutInput.toadd_of_user (user : i ∈ slotUsersBefore bp (endIndex bp)) :
    Visible bp i ∧ (bp.peek i).toadd = true := by
  obtain ⟨j, visible, member⟩ := mem_slotUsersBefore.mp user
  obtain ⟨data, rfl | ⟨pair, rfl⟩⟩ := mem_slotUsers.mp member
  · exact ⟨visible, toadd_of_data data⟩
  · obtain ⟨visibleMask, _, toadd⟩ := input.masks.mask j visible pair
    exact ⟨visibleMask, toadd⟩

theorem LayoutInput.not_stable (visible : Visible bp i) (toadd : (bp.peek i).toadd = true) :
    (bp.peek i).stable = false := by
  cases enabled : (bp.peek i).enabled with
  | false => simp [Breakpoint2.stable, enabled]
  | true => simp [Breakpoint2.stable, input.fresh i visible enabled toadd]

theorem LayoutInput.not_code_of_user (user : i ∈ slotUsersBefore bp (endIndex bp)) :
    (bp.peek i).waitsForCode = false := by
  obtain ⟨j, visible, member⟩ := mem_slotUsersBefore.mp user
  obtain ⟨data, rfl | ⟨pair, rfl⟩⟩ := mem_slotUsers.mp member
  · exact Breakpoint2.not_code_of_data data
  · rw [Breakpoint2.waitsForCode, (input.masks.mask j visible pair).2.1]
    exact Bool.and_false _

theorem Assignment.free {slot : Nat → Nat} (assignment : Assignment target bp slot)
    (holds : HoldsSlot bp i) (visible : Visible bp i) (toadd : (bp.peek i).toadd = true)
    (hardware : slot i ∈ Finset.Icc 1 3) : slot i ∈ freeSlots target bp := by
  have positive : slot i ≠ 0 := (Nat.lt_of_succ_le (Finset.mem_Icc.mp hardware).1).ne'
  have unstable := input.not_stable visible toadd
  refine Finset.mem_filter.mpr ⟨hardware, ?_, fun j visibleJ stable same => ?_⟩
  · refine Bool.eq_false_iff.mpr fun wired => positive ?_
    exact assignment.debugWire wired i holds unstable
  · have held := assignment.kept j visibleJ stable
    rcases assignment.distinct j i (.inl ⟨visibleJ, .inl stable⟩) holds (held.trans same) with
      rfl | zero
    · rw [unstable] at stable
      cases stable
    · exact positive (same.symm.trans (held.symm.trans zero))

theorem Assignment.user_free {slot : Nat → Nat} (assignment : Assignment target bp slot)
    (user : i ∈ slotUsersBefore bp (endIndex bp)) :
    slot i ∈ (freeSlots target bp).filter (breakpoint2FirstData ≤ ·) := by
  obtain ⟨visible, toadd⟩ := input.toadd_of_user user
  have either : slot i = breakpoint2FirstData ∨ slot i = breakpoint2DataMask := by
    obtain ⟨j, visibleJ, member⟩ := mem_slotUsersBefore.mp user
    obtain ⟨data, same⟩ := mem_slotUsers.mp member
    cases masked : BpType.masked (bp.peek j).type with
    | false =>
        rcases same with rfl | ⟨pair, _⟩
        · exact assignment.data i visible data masked
        · rw [(Breakpoint2.waitsForPair_iff.mp pair).2] at masked
          cases masked
    | true =>
        have pair := Breakpoint2.waitsForPair_iff.mpr ⟨data, masked⟩
        rcases same with rfl | ⟨_, rfl⟩
        · exact .inl (assignment.range i visible pair).1
        · exact .inr (assignment.range j visibleJ pair).2
  refine Finset.mem_filter.mpr ⟨assignment.free input (.inr user) visible toadd ?_, ?_⟩
  · rcases either with same | same <;> rw [same] <;> decide
  · rcases either with same | same <;> rw [same]
    decide

theorem Assignment.card_users {slot : Nat → Nat} (assignment : Assignment target bp slot) :
    (slotUsersBefore bp (endIndex bp)).card ≤
      (freeFrom (remainingSlots target bp) breakpoint2FirstData).card := by
  rw [freeFrom_remainingSlots]
  refine Finset.card_le_card_of_injOn slot (fun u user => assignment.user_free input user) ?_
  intro u user v user' same
  refine (assignment.distinct u v (.inr user) (.inr user') same).resolve_right fun zero => ?_
  have free := (Finset.mem_filter.mp (assignment.user_free input user)).2
  rw [zero] at free
  exact absurd free (by decide)

theorem Assignment.card_all {slot : Nat → Nat} (assignment : Assignment target bp slot)
    (hard : softwarebps target = false) :
    (slotUsersBefore bp (endIndex bp)).card + (waiting Breakpoint2.waitsForCode bp).card ≤
      (freeSlots target bp).card := by
  have apart : Disjoint (slotUsersBefore bp (endIndex bp))
      (waiting Breakpoint2.waitsForCode bp) := by
    refine Finset.disjoint_left.mpr fun u user waits => ?_
    have noCode := input.not_code_of_user user
    rw [(mem_waiting.mp waits).2] at noCode
    cases noCode
  have holds : ∀ u ∈ slotUsersBefore bp (endIndex bp) ∪ waiting Breakpoint2.waitsForCode bp,
      HoldsSlot bp u ∧ slot u ∈ freeSlots target bp := by
    intro u either
    rcases Finset.mem_union.mp either with user | waits
    · exact ⟨.inr user, Finset.mem_of_mem_filter _ (assignment.user_free input user)⟩
    · obtain ⟨visible, code⟩ := mem_waiting.mp waits
      have holds : HoldsSlot bp u := .inl ⟨visible, .inr code⟩
      refine ⟨holds, assignment.free input holds visible (toadd_of_code code) ?_⟩
      refine (assignment.code u visible code).resolve_right fun software => ?_
      rw [hard] at software
      exact Bool.false_ne_true software.2
  rw [← Finset.card_union_of_disjoint apart]
  refine Finset.card_le_card_of_injOn slot (fun u either => (holds u either).2) ?_
  intro u either v either' same
  refine (assignment.distinct u v (holds u either).1 (holds v either').1 same).resolve_right
    fun zero => ?_
  have free := (Finset.mem_filter.mp (holds u either).2).1
  rw [zero] at free
  exact absurd free (by decide)

end Holders

/-! ## Tables without waiting ranges -/

section Single

variable {bp : BreakpointTable} (single : NoRangesWaiting bp)
include single

theorem noPairs {i : Nat} (visible : Visible bp i) : (bp.peek i).waitsForPair = false := by
  refine Bool.eq_false_iff.mpr fun pair => ?_
  obtain ⟨data, masked⟩ := Breakpoint2.waitsForPair_iff.mp pair
  rw [single i visible data] at masked
  cases masked

theorem ownMasks_of_single : OwnMasks bp where
  mask _ visible pair := absurd (pair.symm.trans (noPairs single visible)) Bool.noConfusion
  own _ _ visible _ pair := absurd (pair.symm.trans (noPairs single visible)) Bool.noConfusion

theorem holdsSlot_iff_of_single {i : Nat} :
    HoldsSlot bp i ↔ Visible bp i ∧ ((bp.peek i).stable = true ∨ (bp.peek i).waits = true) := by
  constructor
  · rintro (⟨visible, stable | code⟩ | user)
    · exact ⟨visible, .inl stable⟩
    · exact ⟨visible, .inr (Bool.or_eq_true_iff.mpr (.inr code))⟩
    · obtain ⟨j, visible, member⟩ := mem_slotUsersBefore.mp user
      obtain ⟨data, rfl | ⟨pair, _⟩⟩ := mem_slotUsers.mp member
      · exact ⟨visible, .inr (Bool.or_eq_true_iff.mpr (.inl data))⟩
      · exact absurd (pair.symm.trans (noPairs single visible)) Bool.noConfusion
  · rintro ⟨visible, stable | waits⟩
    · exact .inl ⟨visible, .inl stable⟩
    · rcases Bool.or_eq_true_iff.mp waits with data | code
      · exact .inr (mem_slotUsersBefore.mpr ⟨i, visible, mem_slotUsers.mpr ⟨data, .inl rfl⟩⟩)
      · exact .inl ⟨visible, .inr code⟩

end Single

/-! ## The layout -/

section Layout

variable {target : Target} {bp : BreakpointTable} (input : LayoutInput bp)
include input

theorem LayoutInput.afterData_settled {s : LayoutState} {i : Nat} {stopped : Nat}
    (within : stopped ≤ endIndex bp)
    (untouched : ∀ u ∉ slotUsersBefore bp stopped, s.bp.peek u = bp.peek u)
    (settled : (bp.peek i).toadd = false) :
    s.bp.peek i = bp.peek i := by
  refine untouched i fun user => ?_
  obtain ⟨j, less, member⟩ := mem_slotUsersBefore.mp user
  have later := mem_slotUsersBefore.mpr ⟨j, Nat.lt_of_lt_of_le less within, member⟩
  rw [(input.toadd_of_user later).2] at settled
  cases settled

theorem LayoutInput.layout_stable (target : Target) {i : Nat} (visible : Visible bp i)
    (stable : (bp.peek i).stable = true) :
    (layoutBreakpoints target bp).2.peek i = bp.peek i := by
  have settled : (bp.peek i).toadd = false := by
    refine Bool.eq_false_iff.mpr fun toadd => ?_
    rw [input.not_stable visible toadd] at stable
    cases stable
  have first : (layoutData (startLayout target bp)).bp.peek i = bp.peek i := by
    rcases layoutData_spec target input.masks with placing | ⟨stopped, short⟩
    · exact input.afterData_settled (le_refl _) placing.untouched settled
    · exact input.afterData_settled short.reached short.untouched settled
  refine Eq.trans ((layoutCode_spec target bp).1.untouched i fun waits => ?_) first
  have code := (mem_waiting.mp waits).2
  rw [first] at code
  rw [toadd_of_code code] at settled
  cases settled

theorem LayoutInput.layout_complete {slot : Nat → Nat}
    (assignment : Assignment target bp slot) : (layoutBreakpoints target bp).1 = true := by
  have users := assignment.card_users input
  rcases layoutData_spec target input.masks with placing | ⟨stopped, short⟩
  · rcases (layoutCode_spec target bp).2 with all | ⟨_, hard, few⟩
    · exact all.hadroom.trans placing.hadroom
    · have total := assignment.card_all input hard
      have count := placing.card (Nat.zero_le _)
      have same := @SameButSlots.waiting bp _ placing.same _ Breakpoint2.waitsForCode_setBpnum
      rw [freeFrom_remainingSlots_zero] at count
      rw [same] at few
      omega
  · exact absurd short.short (Nat.not_lt.mpr users)

/-- The slots that both loops have given, when there has been room. -/
structure SlotsGiven (target : Target) (bp after : BreakpointTable) : Prop where
  stable : ∀ i, Visible bp i → (bp.peek i).stable = true → after.peek i = bp.peek i
  users : ∀ u ∈ slotUsersBefore bp (endIndex bp),
    (after.peek u).bpnum ∈ (freeSlots target bp).filter (breakpoint2FirstData ≤ ·)
  pairs : ∀ i, Visible bp i → (bp.peek i).waitsForPair = true →
    (after.peek i).bpnum = breakpoint2FirstData ∧
      (after.peek (bp.peek i).maskPointer).bpnum = breakpoint2DataMask
  usersDistinct : ∀ u ∈ slotUsersBefore bp (endIndex bp), ∀ v ∈ slotUsersBefore bp (endIndex bp),
    (after.peek u).bpnum = (after.peek v).bpnum → u = v
  codes : ∀ i, Visible bp i → (bp.peek i).waitsForCode = true →
    (after.peek i).bpnum = 0 ∧ softwarebps target = true ∨
      (after.peek i).bpnum ∈ freeSlots target bp ∧
        ∀ u ∈ slotUsersBefore bp (endIndex bp), (after.peek u).bpnum ≠ (after.peek i).bpnum
  codesDistinct : ∀ i j, Visible bp i → Visible bp j → (bp.peek i).waitsForCode = true →
    (bp.peek j).waitsForCode = true → (after.peek i).bpnum = (after.peek j).bpnum →
      i = j ∨ (after.peek i).bpnum = 0

theorem LayoutInput.slotsGiven (hadroom : (layoutBreakpoints target bp).1 = true) :
    SlotsGiven target bp (layoutBreakpoints target bp).2 := by
  obtain ⟨placedCode, codeCase⟩ := layoutCode_spec target bp
  have between : (layoutData (startLayout target bp)).hadroom = true := placedCode.hadroom hadroom
  rcases layoutData_spec target input.masks with placing | ⟨_, short⟩
  swap
  · exact absurd (between.symm.trans short.hadroom) Bool.noConfusion
  rcases codeCase with onCode | ⟨failed, _⟩
  swap
  · exact absurd (hadroom.symm.trans failed) Bool.noConfusion
  have same := placing.same
  have stillCode : ∀ j, ((layoutData (startLayout target bp)).bp.peek j).waitsForCode =
      (bp.peek j).waitsForCode := by
    intro j
    obtain ⟨slot, equal⟩ := same j
    rw [equal, Breakpoint2.waitsForCode_setBpnum]
  have kept : ∀ {u}, u ∈ slotUsersBefore bp (endIndex bp) →
      (layoutBreakpoints target bp).2.peek u =
        (layoutData (startLayout target bp)).bp.peek u := by
    intro u user
    refine placedCode.untouched u fun waits => ?_
    have code := (mem_waiting.mp waits).2
    rw [stillCode, input.not_code_of_user user] at code
    cases code
  constructor
  case stable => exact fun i visible stable => input.layout_stable target visible stable
  case users =>
    intro u user
    rw [kept user, ← freeFrom_remainingSlots]
    exact placing.placed u user
  case pairs =>
    intro i visible pair
    have data := Breakpoint2.waitsForData_of_pair pair
    have range : i ∈ slotUsersBefore bp (endIndex bp) :=
      mem_slotUsersBefore.mpr ⟨i, visible, mem_slotUsers.mpr ⟨data, .inl rfl⟩⟩
    have mask : (bp.peek i).maskPointer ∈ slotUsersBefore bp (endIndex bp) :=
      mem_slotUsersBefore.mpr ⟨i, visible, mem_slotUsers.mpr ⟨data, .inr ⟨pair, rfl⟩⟩⟩
    rw [kept range, kept mask]
    exact placing.pairs i visible pair
  case usersDistinct =>
    intro u user v user' equal
    rw [kept user, kept user'] at equal
    exact placing.distinct u user v user' equal
  case codes =>
    intro i visible code
    rcases onCode.placed i (same.visible.mpr visible) ((stillCode i).trans code) with free | falls
    · right
      obtain ⟨initially, clear⟩ := (placing.remaining _).mp (mem_freeFrom.mp free).2.2
      refine ⟨(remainingSlots_peek target bp _).mp initially, fun u user => ?_⟩
      rw [kept user]
      exact clear u user
    · left
      split at falls
      next soft => exact ⟨(Option.some.inj falls).symm, soft⟩
      next => cases falls
  case codesDistinct =>
    intro i j visible visible' code code' equal
    refine (onCode.distinct i (same.visible.mpr visible) j (same.visible.mpr visible')
      ((stillCode i).trans code) ((stillCode j).trans code') equal).imp id fun falls => ?_
    split at falls
    · exact (Option.some.inj falls).symm
    · cases falls

omit input in
theorem stable_apart {i slot : Nat} (visible : Visible bp i) (stable : (bp.peek i).stable = true)
    (free : slot ∈ freeSlots target bp) : (bp.peek i).bpnum ≠ slot :=
  (Finset.mem_filter.mp free).2.2 i visible stable

theorem SlotsGiven.distinct {after : BreakpointTable} (given : SlotsGiven target bp after)
    {i j : Nat} (holdsI : HoldsSlot bp i) (holdsJ : HoldsSlot bp j)
    (equal : (after.peek i).bpnum = (after.peek j).bpnum) :
    i = j ∨ (after.peek i).bpnum = 0 := by
  have user : ∀ {u}, u ∈ slotUsersBefore bp (endIndex bp) →
      (after.peek u).bpnum ∈ freeSlots target bp :=
    fun member => Finset.mem_of_mem_filter _ (given.users _ member)
  rcases holdsI with ⟨visibleI, stableI | codeI⟩ | userI <;>
    rcases holdsJ with ⟨visibleJ, stableJ | codeJ⟩ | userJ
  · rw [given.stable i visibleI stableI, given.stable j visibleJ stableJ] at equal
    rw [given.stable i visibleI stableI]
    exact input.distinct i j visibleI visibleJ stableI stableJ equal
  · rcases given.codes j visibleJ codeJ with ⟨zero, _⟩ | ⟨free, _⟩
    · exact .inr (equal.trans zero)
    · rw [given.stable i visibleI stableI] at equal
      exact absurd equal (stable_apart visibleI stableI free)
  · rw [given.stable i visibleI stableI] at equal
    exact absurd equal (stable_apart visibleI stableI (user userJ))
  · rcases given.codes i visibleI codeI with ⟨zero, _⟩ | ⟨free, _⟩
    · exact .inr zero
    · rw [given.stable j visibleJ stableJ] at equal
      exact absurd equal.symm (stable_apart visibleJ stableJ free)
  · exact given.codesDistinct i j visibleI visibleJ codeI codeJ equal
  · rcases given.codes i visibleI codeI with ⟨zero, _⟩ | ⟨_, clear⟩
    · exact .inr zero
    · exact absurd equal.symm (clear j userJ)
  · rw [given.stable j visibleJ stableJ] at equal
    exact absurd equal.symm (stable_apart visibleJ stableJ (user userI))
  · rcases given.codes j visibleJ codeJ with ⟨zero, _⟩ | ⟨_, clear⟩
    · exact .inr (equal.trans zero)
    · exact absurd equal (clear i userI)
  · exact .inl (given.usersDistinct i userI j userJ equal)

theorem LayoutInput.layout_sound (hadroom : (layoutBreakpoints target bp).1 = true) :
    Assignment target bp fun i => ((layoutBreakpoints target bp).2.peek i).bpnum := by
  have given := input.slotsGiven hadroom
  constructor
  case kept => exact fun i visible stable => congrArg _ (given.stable i visible stable)
  case code =>
    intro i visible code
    exact (given.codes i visible code).symm.imp (fun free => (Finset.mem_filter.mp free.1).1) id
  case data =>
    intro i visible data _
    have free := given.users i
      (mem_slotUsersBefore.mpr ⟨i, visible, mem_slotUsers.mpr ⟨data, .inl rfl⟩⟩)
    rw [← freeFrom_remainingSlots] at free
    exact freeFrom_le_three free
  case range => exact given.pairs
  case distinct => exact fun i j holdsI holdsJ equal => given.distinct input holdsI holdsJ equal
  case debugWire =>
    intro wired i holds unstable
    have none : ∀ {slot}, slot ∉ freeSlots target bp := by
      intro slot free
      rw [(Finset.mem_filter.mp free).2.1] at wired
      cases wired
    rcases holds with ⟨visible, stable | code⟩ | user
    · rw [unstable] at stable
      cases stable
    · exact ((given.codes i visible code).resolve_right fun free => none free.1).1
    · exact absurd (Finset.mem_of_mem_filter _ (given.users i user)) none

end Layout

/-- The layout keeps the stable slots, the slots it gives when it succeeds are an
assignment, and it fails only if there is none. -/
theorem layout_sound_complete (target : Target) {bp : BreakpointTable} (input : LayoutInput bp) :
    (∀ i, Visible bp i → (bp.peek i).stable = true →
      ((layoutBreakpoints target bp).2.peek i).bpnum = (bp.peek i).bpnum) ∧
    ((layoutBreakpoints target bp).1 = true →
      Assignment target bp fun i => ((layoutBreakpoints target bp).2.peek i).bpnum) ∧
    ((layoutBreakpoints target bp).1 = false → ¬ ∃ slot, Assignment target bp slot) := by
  refine ⟨fun i visible stable => congrArg _ (input.layout_stable target visible stable),
    input.layout_sound, fun failed => ?_⟩
  rintro ⟨slot, assignment⟩
  exact absurd ((input.layout_complete assignment).symm.trans failed) Bool.noConfusion

/-- A code breakpoint in the ICE, a range breakpoint with its mask, and another
code breakpoint, the last three waiting. -/
def rangeAndCode : BreakpointTable :=
  #v[{ defaultBp with
        address := 0x100, type := .code, enabled := true, last := false, icestatus := true
        bpnum := 1 },
      { defaultBp with
        address := 0x800200, maskPointer := 2, type := .writeData ||| .hasMask, enabled := true
        last := false, toadd := true },
      { defaultBp with
        address := 0xfffffffe, type := .dataMask, enabled := true, last := false, toadd := true },
      { defaultBp with
        address := 0x200, type := .code, enabled := true, last := false, toadd := true }] ++
    Vector.replicate 28 defaultBp

theorem layout_sound_complete_range :
    Assignment ⟨false, 0⟩ rangeAndCode
      fun i => ((layoutBreakpoints ⟨false, 0⟩ rangeAndCode).2.peek i).bpnum := by
  have distinct : ∀ i < endIndex rangeAndCode, ∀ j < endIndex rangeAndCode,
      (rangeAndCode.peek i).stable = true → (rangeAndCode.peek j).stable = true → i = j := by
    decide +kernel
  have own : ∀ i < endIndex rangeAndCode, ∀ j < endIndex rangeAndCode,
      (rangeAndCode.peek i).waitsForPair = true → (rangeAndCode.peek j).waitsForPair = true →
        i = j := by
    decide +kernel
  have fresh : ∀ i < endIndex rangeAndCode, (rangeAndCode.peek i).enabled = true →
      (rangeAndCode.peek i).toadd = true → (rangeAndCode.peek i).icestatus = false := by
    decide +kernel
  have mask : ∀ i < endIndex rangeAndCode, (rangeAndCode.peek i).waitsForPair = true →
      Visible rangeAndCode (rangeAndCode.peek i).maskPointer ∧
        (rangeAndCode.peek (rangeAndCode.peek i).maskPointer).type = .dataMask ∧
          (rangeAndCode.peek (rangeAndCode.peek i).maskPointer).toadd = true := by
    decide +kernel
  have input : LayoutInput rangeAndCode :=
    { distinct := fun i j hereI hereJ one two _ => .inl (distinct i hereI j hereJ one two)
      fresh
      masks := ⟨mask, fun i j hereI hereJ one two _ => own i hereI j hereJ one two⟩ }
  exact (layout_sound_complete ⟨false, 0⟩ input).2.1 (by decide +kernel)

end Avarice.Mk2

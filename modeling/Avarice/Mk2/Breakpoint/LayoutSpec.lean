import Avarice.Mk2.Breakpoint.Room

/-!
# What the layout does

For a table in which no range breakpoint waits: the layout changes only the
slot numbers of waiting entries, it succeeds exactly when there is room, and
when it succeeds the slots it gave are admissible, free and pairwise distinct.
-/

namespace Avarice.Mk2

open Scan

/-- Two tables that differ in slot numbers only. -/
def SameButSlots (before after : BreakpointTable) : Prop :=
  ∀ j, ∃ slot, after.peek j = (before.peek j).setBpnum slot

theorem SameButSlots.refl (bp : BreakpointTable) : SameButSlots bp bp :=
  fun j => ⟨(bp.peek j).bpnum, rfl⟩

theorem SameButSlots.trans {first second third : BreakpointTable}
    (one : SameButSlots first second) (two : SameButSlots second third) :
    SameButSlots first third := by
  intro j
  obtain ⟨slot, same⟩ := one j
  obtain ⟨slot', same'⟩ := two j
  exact ⟨slot', by rw [same', same, Breakpoint2.setBpnum_setBpnum]⟩

theorem SameButSlots.modify {before after : BreakpointTable} (same : SameButSlots before after)
    (i slot : Nat) : SameButSlots before (after.modify i (Breakpoint2.setBpnum slot)) := by
  intro j
  rw [CArray.peek_modify]
  split
  · obtain ⟨old, equal⟩ := same j
    exact ⟨slot, by rw [equal, Breakpoint2.setBpnum_setBpnum]⟩
  · exact same j

theorem SameButSlots.endIndex {before after : BreakpointTable}
    (same : SameButSlots before after) : endIndex after = endIndex before :=
  endIndex_of_entries same

theorem SameButSlots.visible {before after : BreakpointTable}
    (same : SameButSlots before after) {j : Nat} : Visible after j ↔ Visible before j := by
  unfold Visible
  rw [same.endIndex]

theorem SameButSlots.waiting {before after : BreakpointTable} (same : SameButSlots before after)
    {wants : Breakpoint2 → Bool}
    (blind : ∀ slot entry, wants (Breakpoint2.setBpnum slot entry) = wants entry) :
    waiting wants after = waiting wants before := by
  ext j
  obtain ⟨slot, equal⟩ := same j
  rw [mem_waiting, mem_waiting, same.visible, equal, blind]

theorem placeEntry_sameButSlots {wants : Breakpoint2 → Bool} {first : Nat}
    {fallback : Option Nat} {before : BreakpointTable} {i : Nat} {s : LayoutState}
    (same : SameButSlots before s.bp) :
    SameButSlots before (placeEntry wants first fallback i s).state.bp := by
  unfold placeEntry
  split
  · split
    · exact same
    · exact same.modify i _
  · exact same

/-- Without ranges the loop over the data watchpoints is a placement loop. -/
theorem layoutData_eq {s : LayoutState} (single : NoRangesWaiting s.bp) :
    layoutData s = placeAll Breakpoint2.waitsForData breakpoint2FirstData none s := by
  unfold layoutData placeAll
  congr 1
  refine scan_congr (fun i t => i ≤ endIndex s.bp ∧ SameButSlots s.bp t.bp)
    ?kept ?same maxTotalBreakpoints2 ⟨Nat.zero_le _, SameButSlots.refl _⟩
  case kept =>
    rintro i t ⟨reached, same⟩ goes
    have visible : i < endIndex s.bp := by
      refine lt_of_le_of_ne reached ?_
      rintro rfl
      rw [← same.endIndex] at goes
      exact absurd (last_at_endIndex t.bp) (by simpa [atLast] using goes)
    have kept : SameButSlots s.bp
        (placeEntry Breakpoint2.waitsForData breakpoint2FirstData none i t).state.bp :=
      placeEntry_sameButSlots same
    cases outcome : placeEntry Breakpoint2.waitsForData breakpoint2FirstData none i t with
    | next after =>
        rw [outcome] at kept
        exact ⟨visible, kept⟩
    | leave after => trivial
  case same =>
    rintro i t ⟨reached, same⟩ goes
    have visible : Visible s.bp i := by
      refine lt_of_le_of_ne reached ?_
      rintro rfl
      rw [← same.endIndex] at goes
      exact absurd (last_at_endIndex t.bp) (by simpa [atLast] using goes)
    apply placeData_eq
    obtain ⟨slot, equal⟩ := same i
    rw [equal]
    exact single i visible

theorem layoutCode_eq (soft : Bool) (s : LayoutState) :
    layoutCode soft s =
      placeAll Breakpoint2.waitsForCode 0 (if soft then some 0 else none) s := by
  unfold layoutCode placeAll
  congr 3
  funext i t
  exact placeCode_eq soft i t

def startLayout (target : Target) (bp : BreakpointTable) : LayoutState :=
  { bp, remainingBps := remainingSlots target bp, hadroom := true }

theorem layoutBreakpoints_eq {target : Target} {bp : BreakpointTable}
    (single : NoRangesWaiting bp) :
    layoutBreakpoints target bp =
      let s := placeAll Breakpoint2.waitsForCode 0
        (if softwarebps target then some 0 else none)
        (placeAll Breakpoint2.waitsForData breakpoint2FirstData none (startLayout target bp))
      (s.hadroom, s.bp) := by
  unfold layoutBreakpoints
  simp only [← layoutCode_eq]
  have data : layoutData (startLayout target bp) = _ := layoutData_eq single
  rw [← data]
  rfl

section Loops

variable {target : Target} {bp : BreakpointTable}

abbrev afterData (target : Target) (bp : BreakpointTable) : LayoutState :=
  placeAll Breakpoint2.waitsForData breakpoint2FirstData none (startLayout target bp)

abbrev afterCode (target : Target) (bp : BreakpointTable) : LayoutState :=
  placeAll Breakpoint2.waitsForCode 0 (if softwarebps target then some 0 else none)
    (afterData target bp)

theorem afterData_spec (target : Target) (bp : BreakpointTable) :
    Placed Breakpoint2.waitsForData (startLayout target bp) (afterData target bp) ∧
      (Placing Breakpoint2.waitsForData breakpoint2FirstData none (startLayout target bp)
          (endIndex bp) (afterData target bp) ∨
        (afterData target bp).hadroom = false ∧
          ((freeSlots target bp).filter (breakpoint2FirstData ≤ ·)).card <
            (waiting Breakpoint2.waitsForData bp).card) := by
  have spec : Placed Breakpoint2.waitsForData (startLayout target bp) (afterData target bp) ∧ _ :=
    placeAll_spec (startLayout target bp) (by decide)
  rw [← freeFrom_remainingSlots]
  exact ⟨spec.1, spec.2.imp id fun failed => ⟨failed.1, failed.2.2⟩⟩

theorem afterCode_spec (target : Target) (bp : BreakpointTable) :
    Placed Breakpoint2.waitsForCode (afterData target bp) (afterCode target bp) ∧
      (Placing Breakpoint2.waitsForCode 0 (if softwarebps target then some 0 else none)
          (afterData target bp) (endIndex bp) (afterCode target bp) ∨
        (afterCode target bp).hadroom = false ∧ softwarebps target = false ∧
          (freeFrom (afterData target bp).remainingBps 0).card <
            (waiting Breakpoint2.waitsForCode bp).card) := by
  have data := (afterData_spec target bp).1
  have same : SameButSlots bp (afterData target bp).bp := data.entries
  have spec : Placed Breakpoint2.waitsForCode (afterData target bp) (afterCode target bp) ∧ _ :=
    placeAll_spec (afterData target bp) (Nat.zero_le _)
  rw [same.endIndex, same.waiting Breakpoint2.waitsForCode_setBpnum] at spec
  refine ⟨spec.1, spec.2.imp id fun failed => ⟨failed.1, ?_, failed.2.2⟩⟩
  simpa using failed.2.1

theorem afterData_hadroom (placing : Placing Breakpoint2.waitsForData breakpoint2FirstData none
      (startLayout target bp) (endIndex bp) (afterData target bp)) (least : Nat)
    (low : least ≤ breakpoint2FirstData) :
    (freeFrom (afterData target bp).remainingBps least).card +
        (waiting Breakpoint2.waitsForData bp).card =
      ((freeSlots target bp).filter (least ≤ ·)).card := by
  have count := placing.consumed rfl least low
  rw [show (startLayout target bp).bp = bp from rfl, count_eq_card_waiting] at count
  rw [count, ← freeFrom_remainingSlots]
  rfl

theorem afterCode_hadroom_iff (target : Target) (bp : BreakpointTable) :
    (afterCode target bp).hadroom = true ↔ HasRoom target bp := by
  obtain ⟨placedData, dataCase⟩ := afterData_spec target bp
  obtain ⟨placedCode, codeCase⟩ := afterCode_spec target bp
  rcases dataCase with placing | ⟨noRoom, short⟩
  · have hadroom := placing.hadroom
    have dataCount := afterData_hadroom placing breakpoint2FirstData (le_refl _)
    have totalCount := afterData_hadroom placing 0 (Nat.zero_le _)
    rw [Finset.filter_true_of_mem fun _ _ => Nat.zero_le _] at totalCount
    rcases codeCase with placing' | ⟨noRoom, hard, short⟩
    · refine ⟨fun _ => ⟨by omega, ?_⟩, fun _ => placing'.hadroom.trans hadroom⟩
      cases soft : softwarebps target with
      | true => exact .inl rfl
      | false =>
          right
          have count := placing'.consumed (by simp [soft]) 0 (le_refl _)
          have same : SameButSlots bp (afterData target bp).bp := placedData.entries
          rw [← same.endIndex, count_eq_card_waiting,
            same.waiting Breakpoint2.waitsForCode_setBpnum] at count
          omega
    · refine ⟨fun room => absurd room (by simp [noRoom]), fun room => ?_⟩
      rcases room.2 with soft | enough
      · rw [hard] at soft
        cases soft
      · omega
  · have failed : (afterCode target bp).hadroom = false := by
      by_contra room
      have before := placedCode.hadroom (by simpa using room)
      rw [noRoom] at before
      cases before
    exact ⟨fun room => absurd room (by simp [failed]), fun room => absurd room.1 (by omega)⟩

end Loops

def Breakpoint2.waits (entry : Breakpoint2) : Bool :=
  entry.waitsForData || entry.waitsForCode

@[simp]
theorem Breakpoint2.waits_setBpnum (slot : Nat) (entry : Breakpoint2) :
    (entry.setBpnum slot).waits = entry.waits := rfl

theorem Breakpoint2.not_code_of_data {entry : Breakpoint2}
    (data : entry.waitsForData = true) : entry.waitsForCode = false := by
  by_cases isCode : entry.type = .code
  · rw [waitsForData, isCode, show BpType.watchesData .code = false by decide] at data
    simp at data
  · simp [waitsForCode, isCode]

/-- The outcome of a layout that found room for everything. -/
structure LaidOut (target : Target) (before after : BreakpointTable) : Prop where
  data : ∀ j, Visible before j → (before.peek j).waitsForData = true →
    (after.peek j).bpnum ∈ freeSlots target before
  code : ∀ j, Visible before j → (before.peek j).waitsForCode = true →
    (after.peek j).bpnum ∈ freeSlots target before ∨ (after.peek j).bpnum = 0
  distinct : ∀ j k, Visible before j → Visible before k → (before.peek j).waits = true →
    (before.peek k).waits = true → (after.peek j).bpnum = (after.peek k).bpnum →
      j = k ∨ (after.peek j).bpnum = 0

section Spec

variable (target : Target) {bp : BreakpointTable} (single : NoRangesWaiting bp)
include single

theorem layout_hadroom_iff :
    (layoutBreakpoints target bp).1 = true ↔ HasRoom target bp := by
  rw [layoutBreakpoints_eq single]
  exact afterCode_hadroom_iff target bp

theorem layout_sameButSlots : SameButSlots bp (layoutBreakpoints target bp).2 := by
  rw [layoutBreakpoints_eq single]
  have data : SameButSlots bp (afterData target bp).bp := (afterData_spec target bp).1.entries
  exact data.trans (afterCode_spec target bp).1.entries

theorem layout_untouched {j : Nat}
    (settled : ¬ (Visible bp j ∧ (bp.peek j).waits = true)) :
    (layoutBreakpoints target bp).2.peek j = bp.peek j := by
  rw [layoutBreakpoints_eq single]
  have data := (afterData_spec target bp).1
  have same : SameButSlots bp (afterData target bp).bp := data.entries
  have first : (afterData target bp).bp.peek j = bp.peek j := by
    refine data.untouched j fun waits => settled ?_
    obtain ⟨visible, wanted⟩ := mem_waiting.mp waits
    exact ⟨visible, Bool.or_eq_true_iff.mpr (.inl wanted)⟩
  refine Eq.trans ((afterCode_spec target bp).1.untouched j fun waits => settled ?_) first
  obtain ⟨visible, wanted⟩ := mem_waiting.mp waits
  rw [first] at wanted
  exact ⟨same.visible.mp visible, Bool.or_eq_true_iff.mpr (.inr wanted)⟩

theorem layout_laidOut (room : HasRoom target bp) :
    LaidOut target bp (layoutBreakpoints target bp).2 := by
  rw [layoutBreakpoints_eq single]
  obtain ⟨placedData, dataCase⟩ := afterData_spec target bp
  obtain ⟨placedCode, codeCase⟩ := afterCode_spec target bp
  have hadroom := (afterCode_hadroom_iff target bp).mpr room
  have same : SameButSlots bp (afterData target bp).bp := placedData.entries
  rcases dataCase with onData | failed
  swap
  · exact absurd (placedCode.hadroom hadroom) (by simp [failed.1])
  rcases codeCase with onCode | failed
  swap
  · exact absurd hadroom (by simp [failed.1])
  have stillCode : ∀ {j}, ((afterData target bp).bp.peek j).waitsForCode =
      (bp.peek j).waitsForCode := by
    intro j
    obtain ⟨slot, equal⟩ := same j
    rw [equal, Breakpoint2.waitsForCode_setBpnum]
  have kept : ∀ {j}, (bp.peek j).waitsForData = true →
      (afterCode target bp).bp.peek j = (afterData target bp).bp.peek j := by
    intro j data
    refine onCode.untouched j fun both => ?_
    rw [stillCode, Breakpoint2.not_code_of_data data] at both
    exact absurd both.2 Bool.false_ne_true
  have dataSlot : ∀ {j}, Visible bp j → (bp.peek j).waitsForData = true →
      ((afterCode target bp).bp.peek j).bpnum ∈
        (freeSlots target bp).filter (breakpoint2FirstData ≤ ·) := by
    intro j visible data
    rw [kept data, ← freeFrom_remainingSlots]
    exact (onData.placed j visible data).resolve_right (by simp)
  have codeSlot : ∀ {j}, Visible bp j → (bp.peek j).waitsForCode = true →
      ((afterCode target bp).bp.peek j).bpnum ∈ freeFrom (afterData target bp).remainingBps 0 ∨
        ((afterCode target bp).bp.peek j).bpnum = 0 := by
    intro j visible code
    refine (onCode.placed j visible (stillCode.trans code)).imp id fun falls => ?_
    split at falls
    · exact (Option.some.inj falls).symm
    · cases falls
  have apart : ∀ {j k}, Visible bp j → Visible bp k → (bp.peek j).waitsForData = true →
      (bp.peek k).waitsForCode = true →
      ((afterCode target bp).bp.peek j).bpnum ≠ ((afterCode target bp).bp.peek k).bpnum := by
    intro j k visibleJ visibleK data code equal
    have low := (Finset.mem_filter.mp (dataSlot visibleJ data)).2
    rcases codeSlot visibleK code with free | zero
    · have available := (mem_freeFrom.mp free).2.2
      rw [← equal, kept data] at available
      exact ((onData.remaining _).mp available).2 j visibleJ data rfl
    · rw [equal, zero] at low
      exact absurd low (by decide)
  constructor
  · exact fun j visible data => (Finset.mem_filter.mp (dataSlot visible data)).1
  · intro j visible code
    refine (codeSlot visible code).imp (fun free => ?_) id
    rw [← remainingSlots_peek]
    exact placedData.available _ (mem_freeFrom.mp free).2.2
  · intro j k visibleJ visibleK waitsJ waitsK equal
    rcases Bool.or_eq_true_iff.mp waitsJ with dataJ | codeJ <;>
      rcases Bool.or_eq_true_iff.mp waitsK with dataK | codeK
    · left
      rw [kept dataJ, kept dataK] at equal
      simpa using onData.distinct j visibleJ k visibleK dataJ dataK equal
    · exact absurd equal (apart visibleJ visibleK dataJ codeK)
    · exact absurd equal.symm (apart visibleK visibleJ dataK codeJ)
    · refine (onCode.distinct j visibleJ k visibleK (stillCode.trans codeJ)
        (stillCode.trans codeK) equal).imp id fun falls => ?_
      split at falls
      · exact (Option.some.inj falls).symm
      · cases falls

end Spec

end Avarice.Mk2

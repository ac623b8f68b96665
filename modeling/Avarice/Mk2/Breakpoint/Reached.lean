import Avarice.Mk2.Breakpoint.Outcome
import Avarice.Mk2.Breakpoint.RangeLayout

/-!
# The tables that calls lead to

Any calls, about any type of breakpoint, with any device behind the updates.
What all these tables have in common: no breakpoint of a plain type is in use
twice, one that is in use has been added, the end marker may carry a rejected
request but none that is in use, and a range that waits is alone.
-/

namespace Avarice.Mk2

open Scan

/-- Calls lead to this table, and `addBreakpoint` has returned true for these
breakpoints on the way. -/
inductive Reached (target : Target) : List (UInt32 × BpType) → BreakpointTable → Prop where
  | constructed : Reached target [] constructedTable
  | addBreakpoint {added : List (UInt32 × BpType)} {bp : BreakpointTable} (address : UInt32)
      (type : BpType) (length : UInt32) (before : Reached target added bp) :
      Reached target
        (if (addBreakpoint target bp address type length).1 then (address, type) :: added
          else added)
        (addBreakpoint target bp address type length).2
  | deleteBreakpoint {added : List (UInt32 × BpType)} {bp : BreakpointTable} (address : UInt32)
      (type : BpType) (length : UInt32) (before : Reached target added bp) :
      Reached target added (deleteBreakpoint target bp address type length).2
  | deleteAllBreakpoints {added : List (UInt32 × BpType)} {bp : BreakpointTable}
      (before : Reached target added bp) : Reached target added (deleteAllBreakpoints bp)
  | updateBreakpoints {added : List (UInt32 × BpType)} {bp : BreakpointTable} {Ice : Type}
      (doJtagCommand : BreakCommand → Ice → Bool × Ice) (ice : Ice)
      (before : Reached target added bp) :
      Reached target added (updateBreakpoints doJtagCommand target bp ice).bp

/-- Which breakpoints a table names. -/
structure Named (added : List (UInt32 × BpType)) (bp : BreakpointTable) : Prop where
  unique : ∀ i j, Visible bp i → Visible bp j → (bp.peek i).address = (bp.peek j).address →
    (bp.peek i).type = (bp.peek j).type → BpType.plain (bp.peek i).type = true → i = j
  recorded : ∀ i, Visible bp i → BpType.plain (bp.peek i).type = true →
    ((bp.peek i).address, (bp.peek i).type) ∈ added
  marker : BpType.plain (bp.peek (endIndex bp)).type = true →
    Absent bp (bp.peek (endIndex bp)).address (bp.peek (endIndex bp)).type

/-- What is to be added is not in the ICE yet. -/
def Fresh (bp : BreakpointTable) : Prop :=
  ∀ j, (bp.peek j).toadd = true → (bp.peek j).icestatus = false

/-- A table in order, except perhaps for its waiting ranges. -/
structure Ordered (added : List (UInt32 × BpType)) (bp : BreakpointTable) : Prop
    extends Terminated bp where
  spare : (bp.peek 31).icestatus = false
  fresh : Fresh bp
  named : Named added bp

structure Orderly (added : List (UInt32 × BpType)) (bp : BreakpointTable) : Prop
    extends Ordered added bp where
  alone : RangesAlone bp

theorem Fresh.modify {bp : BreakpointTable} (fresh : Fresh bp) {i : Nat}
    {change : Breakpoint2 → Breakpoint2}
    (keeps : ∀ entry : Breakpoint2, (entry.toadd = true → entry.icestatus = false) →
      (change entry).toadd = true → (change entry).icestatus = false) :
    Fresh (bp.modify i change) := by
  intro j
  rw [CArray.peek_modify]
  split
  · exact keeps _ (fresh j)
  · exact fresh j

theorem Fresh.claimEntry {bp : BreakpointTable} (fresh : Fresh bp) (address : UInt32)
    (type : BpType) (i : Nat) : Fresh (claimEntry bp i address type) := by
  have marked : Fresh (if (bp.peek i).last then bp.modify (i + 1) Breakpoint2.mark else bp) := by
    split
    · exact fresh.modify fun entry kept => kept
    · exact fresh
  unfold Mk2.claimEntry
  generalize (if (bp.peek i).last then bp.modify (i + 1) Breakpoint2.mark else bp) = table at marked
  exact marked.modify fun entry kept => kept

/-! ## Changes that add nothing -/

structure SameNames (before after : BreakpointTable) : Prop where
  last : ∀ j, (after.peek j).last = (before.peek j).last
  address : ∀ j, (after.peek j).address = (before.peek j).address
  type : ∀ j, (after.peek j).type = (before.peek j).type

namespace SameNames

variable {before after : BreakpointTable} (same : SameNames before after)
include same

theorem endIndex : endIndex after = endIndex before := endIndex_congr same.last

theorem visible {j : Nat} : Visible after j ↔ Visible before j := by
  rw [Visible, same.endIndex, Visible]

theorem named {added : List (UInt32 × BpType)} (named : Named added before) :
    Named added after where
  unique i j visibleI visibleJ address type plain := by
    simp only [same.address, same.type] at address type plain
    exact named.unique i j (same.visible.mp visibleI) (same.visible.mp visibleJ) address type plain
  recorded i visible plain := by
    simp only [same.address, same.type] at plain ⊢
    exact named.recorded i (same.visible.mp visible) plain
  marker plain := by
    simp only [same.endIndex, same.address, same.type] at plain ⊢
    intro j visible
    rw [same.address, same.type]
    exact named.marker plain j (same.visible.mp visible)

end SameNames

theorem SameNames.of_modify {bp : BreakpointTable} {i : Nat} {change : Breakpoint2 → Breakpoint2}
    (frame : ∀ entry, (change entry).last = entry.last ∧ (change entry).address = entry.address ∧
      (change entry).type = entry.type) : SameNames bp (bp.modify i change) := by
  have fields : ∀ j, ((bp.modify i change).peek j).last = (bp.peek j).last ∧
      ((bp.modify i change).peek j).address = (bp.peek j).address ∧
        ((bp.modify i change).peek j).type = (bp.peek j).type := by
    intro j
    rw [CArray.peek_modify]
    split
    · exact frame _
    · exact ⟨rfl, rfl, rfl⟩
  exact ⟨fun j => (fields j).1, fun j => (fields j).2.1, fun j => (fields j).2.2⟩

structure Fewer (before after : BreakpointTable) : Prop extends SameNames before after where
  enabled : ∀ j, (after.peek j).enabled = true → (before.peek j).enabled = true
  toadd : ∀ j, (after.peek j).toadd = true → (before.peek j).toadd = true ∧
    ((after.peek j).icestatus = true → (before.peek j).icestatus = true)
  idle : (before.peek 31).icestatus = false → (before.peek 31).toremove = false →
    (after.peek 31).icestatus = false ∧ (after.peek 31).toremove = false

namespace Fewer

variable {before after : BreakpointTable}

theorem refl (bp : BreakpointTable) : Fewer bp bp where
  last _ := rfl
  address _ := rfl
  type _ := rfl
  enabled _ := id
  toadd _ toadd := ⟨toadd, id⟩
  idle there flagged := ⟨there, flagged⟩

theorem trans {middle : BreakpointTable} (one : Fewer before middle) (two : Fewer middle after) :
    Fewer before after where
  last j := (two.last j).trans (one.last j)
  address j := (two.address j).trans (one.address j)
  type j := (two.type j).trans (one.type j)
  enabled j := one.enabled j ∘ two.enabled j
  toadd j toadd :=
    have later := two.toadd j toadd
    have earlier := one.toadd j later.1
    ⟨earlier.1, earlier.2 ∘ later.2⟩
  idle there flagged :=
    have kept := one.idle there flagged
    two.idle kept.1 kept.2

theorem of_adjusts (adjusts : Adjusts before after) : Fewer before after where
  last j := (adjusts j).last
  address j := (adjusts j).address
  type j := (adjusts j).type
  enabled j := by
    obtain ⟨slot, equal | equal⟩ := adjusts j <;> rw [equal]
    · exact id
    · exact nofun
  toadd j := by
    obtain ⟨slot, equal | equal⟩ := adjusts j <;> rw [equal]
    · exact fun toadd => ⟨toadd, id⟩
    · exact nofun
  idle there flagged :=
    ⟨(adjusts 31).icestatus.trans there, (adjusts 31).toremove.trans flagged⟩

variable (fewer : Fewer before after)
include fewer

theorem waitsForData {j : Nat} (waits : (after.peek j).waitsForData = true) :
    (before.peek j).waitsForData = true := by
  simp only [Breakpoint2.waitsForData, Bool.and_eq_true] at waits ⊢
  obtain ⟨⟨enabled, toadd⟩, data⟩ := waits
  exact ⟨⟨fewer.enabled j enabled, (fewer.toadd j toadd).1⟩, fewer.type j ▸ data⟩

theorem waitsForPair {j : Nat} (waits : (after.peek j).waitsForPair = true) :
    (before.peek j).waitsForPair = true := by
  obtain ⟨data, masked⟩ := Breakpoint2.waitsForPair_iff.mp waits
  exact Breakpoint2.waitsForPair_iff.mpr ⟨fewer.waitsForData data, fewer.type j ▸ masked⟩

theorem terminated (terminated : Terminated before)
    (spare : (before.peek 31).icestatus = false) : Terminated after where
  markers j marked := by
    rw [fewer.last] at marked
    have off := terminated.markers j marked
    exact Bool.eq_false_iff.mpr fun enabled =>
      Bool.false_ne_true (off.symm.trans (fewer.enabled j enabled))
  sentinel := (fewer.last 31).trans terminated.sentinel
  idle := (fewer.idle spare terminated.idle).2
  unused := (fewer.type 31).trans terminated.unused

theorem ordered {added : List (UInt32 × BpType)} (ordered : Ordered added before) :
    Ordered added after :=
  ⟨fewer.terminated ordered.toTerminated ordered.spare,
    (fewer.idle ordered.spare ordered.idle).1, fun j toadd => by
      obtain ⟨before, there⟩ := fewer.toadd j toadd
      have absent := ordered.fresh j before
      exact Bool.eq_false_iff.mpr fun installed =>
        Bool.false_ne_true (absent.symm.trans (there installed)),
    fewer.named ordered.named⟩

theorem alone (alone : RangesAlone before) : RangesAlone after :=
  fun r j visibleR visibleJ pair waits =>
    alone r j (fewer.visible.mp visibleR) (fewer.visible.mp visibleJ) (fewer.waitsForPair pair)
      (fewer.waitsForData waits)

theorem orderly {added : List (UInt32 × BpType)} (orderly : Orderly added before) :
    Orderly added after :=
  ⟨fewer.ordered orderly.toOrdered, fewer.alone orderly.alone⟩

theorem modify {i : Nat} {change : Breakpoint2 → Breakpoint2}
    (frame : ∀ entry, (change entry).last = entry.last ∧ (change entry).address = entry.address ∧
      (change entry).type = entry.type ∧ ((change entry).enabled = true → entry.enabled = true) ∧
      ((change entry).toadd = true → entry.toadd = true ∧
        ((change entry).icestatus = true → entry.icestatus = true)))
    (idle : i = 31 → (after.peek 31).icestatus = false →
      (change (after.peek 31)).icestatus = false ∧ (change (after.peek 31)).toremove = false) :
    Fewer before (after.modify i change) := by
  have entries : ∀ j, (after.modify i change).peek j =
      if i = j ∧ i < maxTotalBreakpoints2 then change (after.peek j) else after.peek j :=
    fun j => CArray.peek_modify after i j change
  have same : SameNames after (after.modify i change) :=
    .of_modify fun entry => ⟨(frame entry).1, (frame entry).2.1, (frame entry).2.2.1⟩
  refine fewer.trans ⟨same, fun j => ?_, fun j => ?_, fun there flagged => ?_⟩
  · rw [entries]
    split
    · exact (frame _).2.2.2.1
    · exact id
  · rw [entries]
    split
    · exact (frame _).2.2.2.2
    · exact fun toadd => ⟨toadd, id⟩
  · rw [entries]
    split
    next here => exact idle here.1 there
    next => exact ⟨there, flagged⟩

end Fewer

theorem fewer_layout (target : Target) (bp : BreakpointTable) :
    Fewer bp (layoutBreakpoints target bp).2 :=
  .of_adjusts (layout_adjusts target bp)

theorem fewer_withdraw (bp : BreakpointTable) (i : Nat) :
    Fewer bp (bp.modify i Breakpoint2.withdraw) :=
  (Fewer.refl bp).modify (fun _ => ⟨rfl, rfl, rfl, nofun, nofun⟩) fun _ there => ⟨there, there⟩

theorem fewer_deleteAllBreakpoints {bp : BreakpointTable} (terminated : Terminated bp) :
    Fewer bp (deleteAllBreakpoints bp) := by
  have frame : ∀ entry : Breakpoint2, (disableEntry entry).enabled = false ∧
      (disableEntry entry).last = entry.last ∧ (disableEntry entry).address = entry.address ∧
        (disableEntry entry).type = entry.type ∧ (disableEntry entry).toadd = entry.toadd ∧
          (disableEntry entry).icestatus = entry.icestatus := by
    intro entry
    unfold disableEntry
    split <;> exact ⟨rfl, rfl, rfl, rfl, rfl, rfl⟩
  have entries : ∀ j, (deleteAllBreakpoints bp).peek j = _ := deleteAllBreakpoints_peek bp
  refine ⟨⟨?last, ?address, ?type⟩, ?enabled, ?toadd, ?idle⟩
  case last =>
    intro j
    rw [entries]
    split
    · exact (frame _).2.1
    · rfl
  case address =>
    intro j
    rw [entries]
    split
    · exact (frame _).2.2.1
    · rfl
  case type =>
    intro j
    rw [entries]
    split
    · exact (frame _).2.2.2.1
    · rfl
  case enabled =>
    intro j
    rw [entries]
    split
    · exact fun enabled => absurd (enabled.symm.trans (frame _).1) Bool.noConfusion
    · exact id
  case toadd =>
    intro j
    rw [entries]
    split
    · exact fun toadd => ⟨(frame _).2.2.2.2.1.symm.trans toadd,
        fun there => (frame _).2.2.2.2.2.symm.trans there⟩
    · exact fun toadd => ⟨toadd, id⟩
  case idle =>
    intro there flagged
    have outside : ¬ Visible bp 31 := Nat.not_lt.mpr (endIndex_le_of_last terminated.sentinel)
    rw [entries, if_neg outside]
    exact ⟨there, flagged⟩

section Update

variable {Ice : Type} (doJtagCommand : BreakCommand → Ice → Bool × Ice)

theorem fewer_scan {s : UpdateState Ice} (terminated : Terminated s.bp)
    {body : Nat → UpdateState Ice → Turn (UpdateState Ice)}
    (turned : ∀ i t, i ≠ 31 → Fewer s.bp t.bp →
      (body i t).Meets (fun t => Fewer s.bp t.bp) fun t => Fewer s.bp t.bp) :
    Fewer s.bp (scan (fun i s => atLast i s.bp) body maxTotalBreakpoints2 s).2.bp := by
  refine visit_rule UpdateState.bp (fun _ _ => rfl) (fun _ t => Fewer s.bp t.bp)
    (fun t => Fewer s.bp t.bp) ?sameEnd ?turned ?finished (.refl s.bp)
  case sameEnd => exact fun _ _ here => here.endIndex
  case turned =>
    intro i t visible here
    have sentinel := endIndex_le_of_last terminated.sentinel
    exact turned i t (Nat.lt_of_lt_of_le visible sentinel).ne here
  case finished => exact fun _ => id

theorem fewer_removeAll {s : UpdateState Ice} (terminated : Terminated s.bp) :
    Fewer s.bp (removeAll doJtagCommand s).bp := by
  refine fewer_scan terminated fun i t small here => Turn.meets_of_state ?_
  apply removeEntry_keeps here
  exact here.modify (fun _ => ⟨rfl, rfl, rfl, id, fun toadd => ⟨toadd, nofun⟩⟩)
    fun atEnd => absurd atEnd small

theorem fewer_downloadAll {s : UpdateState Ice} (terminated : Terminated s.bp) :
    Fewer s.bp (downloadAll doJtagCommand s).bp := by
  refine fewer_scan terminated fun i t small here => Turn.meets_of_state ?_
  apply downloadEntry_keeps here
  exact here.modify (fun _ => ⟨rfl, rfl, rfl, id, nofun⟩) fun atEnd => absurd atEnd small

theorem fewer_updateBreakpoints (target : Target) {added : List (UInt32 × BpType)}
    {bp : BreakpointTable} (ordered : Ordered added bp) (ice : Ice) :
    Fewer bp (updateBreakpoints doJtagCommand target bp ice).bp := by
  have laid := fewer_layout target bp
  have removed := laid.trans (@fewer_removeAll _ doJtagCommand
    ⟨(layoutBreakpoints target bp).2, ice, false⟩ (laid.ordered ordered).toTerminated)
  unfold updateBreakpoints
  dsimp only
  split
  · exact removed
  · exact removed.trans (fewer_downloadAll doJtagCommand (removed.ordered ordered).toTerminated)

end Update

/-! ## Claiming entries -/

theorem BpType.plain_none : BpType.plain .none = false := by decide

theorem BpType.plain_dataMask : BpType.plain .dataMask = false := by decide

theorem BpType.not_plain_of_masked {type : BpType} (masked : BpType.masked type = true) :
    BpType.plain type = false := by
  refine Bool.eq_false_iff.mpr fun plain => ?_
  rw [BpType.not_masked_of_plain plain] at masked
  cases masked

section Claims

variable {bp : BreakpointTable} {address : UInt32} {type : BpType} {i : Nat}

theorem full_of_reused (terminated : Terminated bp)
    (visible : Visible bp (occupied bp address type)) (absent : Absent bp address type) :
    endIndex bp = 31 := by
  rcases searchEntry_spec bp address type with ⟨atEnd, _⟩ | ⟨inUse, sameAddress, sameType⟩
  · by_contra notFull
    have small := Nat.lt_of_le_of_ne (endIndex_le_of_last terminated.sentinel) notFull
    rw [occupied, chooseEntry, atEnd, not_atMax small, if_neg Bool.false_ne_true] at visible
    exact lt_irrefl _ visible
  · exact absurd ⟨sameAddress, sameType⟩ (absent _ inUse)

variable {added added' : List (UInt32 × BpType)} (ordered : Ordered added bp)
include ordered

theorem Ordered.claim (small : i < 31) (occupies : Occupies bp address type i)
    (full : Visible bp i → Absent bp address type → endIndex bp = 31)
    (more : ∀ breakpoint ∈ added, breakpoint ∈ added')
    (recorded : BpType.plain type = true → (address, type) ∈ added') :
    Ordered added' (claimEntry bp i address type) := by
  have visible := fun j => @claimEntry_visible bp address type i small occupies.le_endIndex j
  have here : (claimEntry bp i address type).peek i = (bp.peek i).occupy address type :=
    claimEntry_peek_self small
  have others : ∀ {j}, Visible bp j → j ≠ i →
      (claimEntry bp i address type).peek j = bp.peek j := claimEntry_peek_ne
  have only : BpType.plain type = true → ∀ j, Visible bp j → (bp.peek j).address = address →
      (bp.peek j).type = type → j = i := by
    intro plain j visibleJ sameAddress sameType
    cases occupies with
    | again visibleI addressI typeI =>
        exact ordered.named.unique j i visibleJ visibleI (sameAddress.trans addressI.symm)
          (sameType.trans typeI.symm) (sameType ▸ plain)
    | append _ absent => exact absurd ⟨sameAddress, sameType⟩ (absent j visibleJ)
    | reuse _ _ _ absent => exact absurd ⟨sameAddress, sameType⟩ (absent j visibleJ)
  refine ⟨ordered.toTerminated.claimEntry address type small, ?_, ?_, ?_⟩
  · rw [claimEntry, CArray.peek_modify_ne _ _ small.ne]
    split
    · rw [CArray.peek_modify]
      split <;> exact ordered.spare
    · exact ordered.spare
  · exact ordered.fresh.claimEntry address type i
  constructor
  case unique =>
    intro j k visibleJ visibleK sameAddress sameType plain
    by_cases hereJ : j = i <;> by_cases hereK : k = i
    · exact hereJ.trans hereK.symm
    · have inUse := ((visible k).mp visibleK).resolve_right hereK
      rw [hereJ, here, others inUse hereK] at sameAddress sameType
      rw [hereJ, here] at plain
      exact hereJ.trans (only plain k inUse sameAddress.symm sameType.symm).symm
    · have inUse := ((visible j).mp visibleJ).resolve_right hereJ
      rw [hereK, here, others inUse hereJ] at sameAddress sameType
      rw [others inUse hereJ, sameType] at plain
      exact (only plain j inUse sameAddress sameType).trans hereK.symm
    · have inUseJ := ((visible j).mp visibleJ).resolve_right hereJ
      have inUseK := ((visible k).mp visibleK).resolve_right hereK
      rw [others inUseJ hereJ, others inUseK hereK] at sameAddress sameType
      rw [others inUseJ hereJ] at plain
      exact ordered.named.unique j k inUseJ inUseK sameAddress sameType plain
  case recorded =>
    intro j visibleJ plain
    by_cases hereJ : j = i
    · rw [hereJ, here] at plain ⊢
      exact recorded plain
    · have inUse := ((visible j).mp visibleJ).resolve_right hereJ
      rw [others inUse hereJ] at plain ⊢
      exact more _ (ordered.named.recorded j inUse plain)
  case marker =>
    intro plain
    have stays : Visible bp i → (claimEntry bp i address type).peek
        (endIndex (claimEntry bp i address type)) = bp.peek (endIndex bp) := by
      intro inUse
      rw [claimEntry_endIndex inUse, claimEntry_peek_inUse inUse inUse.ne']
    cases occupies with
    | again inUse sameAddress sameType =>
        rw [stays inUse] at plain ⊢
        intro j visibleJ
        by_cases hereJ : j = i
        · rw [hereJ, here]
          have absent := ordered.named.marker plain i inUse
          rw [sameAddress, sameType] at absent
          exact absent
        · have inUseJ := ((visible j).mp visibleJ).resolve_right hereJ
          rw [others inUseJ hereJ]
          exact ordered.named.marker plain j inUseJ
    | append atEnd =>
        obtain ⟨marker, blank⟩ := @claimEntry_marker bp address type i small atEnd
        rw [marker, blank] at plain
        exact absurd plain (by simp [BpType.plain_none])
    | reuse inUse _ _ absent =>
        rw [stays inUse, full inUse absent, ordered.unused, BpType.plain_none] at plain
        cases plain

theorem Ordered.setType (small : i < 31) (visible : Visible bp i)
    (masked : BpType.masked type = true) :
    Ordered added (bp.modify i (Breakpoint2.setType type)) := by
  have inUse := not_last_of_visible visible
  have entries : ∀ j, (bp.modify i (Breakpoint2.setType type)).peek j =
      if j = i then (bp.peek j).setType type else bp.peek j := modify_peek_eq visible
  have frame : ∀ j, ((bp.modify i (Breakpoint2.setType type)).peek j).last = (bp.peek j).last ∧
      ((bp.modify i (Breakpoint2.setType type)).peek j).address = (bp.peek j).address := by
    intro j
    rw [entries]
    split <;> exact ⟨rfl, rfl⟩
  have same : endIndex (bp.modify i (Breakpoint2.setType type)) = endIndex bp :=
    endIndex_congr fun j => (frame j).1
  have visible' : ∀ j, Visible (bp.modify i (Breakpoint2.setType type)) j ↔ Visible bp j :=
    fun j => by rw [Visible, same, Visible]
  have unchanged : ∀ {j},
      BpType.plain ((bp.modify i (Breakpoint2.setType type)).peek j).type = true →
        (bp.modify i (Breakpoint2.setType type)).peek j = bp.peek j := by
    intro j plain
    rw [entries] at plain ⊢
    split at plain
    · exact absurd ((BpType.not_plain_of_masked masked).symm.trans plain) Bool.noConfusion
    next different => exact if_neg different
  refine ⟨ordered.toTerminated.modify (fun atEnd => absurd atEnd small.ne) fun marked => ?_, ?_,
    ordered.fresh.modify fun _ => id, ?_⟩
  · exact absurd (marked.symm.trans inUse) Bool.noConfusion
  · rw [entries, if_neg small.ne']
    exact ordered.spare
  constructor
  case unique =>
    intro j k visibleJ visibleK sameAddress sameType plain
    have plainK := plain
    rw [sameType] at plainK
    rw [unchanged plain, unchanged plainK] at sameAddress sameType
    rw [unchanged plain] at plain
    exact ordered.named.unique j k ((visible' j).mp visibleJ) ((visible' k).mp visibleK) sameAddress
      sameType plain
  case recorded =>
    intro j visibleJ plain
    have same := unchanged plain
    rw [same] at plain ⊢
    exact ordered.named.recorded j ((visible' j).mp visibleJ) plain
  case marker =>
    intro plain j visibleJ
    have absent := ordered.named.marker
    rw [← same, ← unchanged plain] at absent
    rw [(frame j).2]
    by_cases here : j = i
    · rintro ⟨_, sameType⟩
      rw [entries j, if_pos here] at sameType
      rw [← sameType, Breakpoint2.setType_type, BpType.not_plain_of_masked masked] at plain
      cases plain
    · rw [entries j, if_neg here]
      exact absent plain j ((visible' j).mp visibleJ)

theorem Ordered.flagAdd (small : i < 31) (visible : Visible bp i) :
    Ordered added (bp.modify i Breakpoint2.flagAdd) := by
  have inUse := not_last_of_visible visible
  have frame : ∀ entry : Breakpoint2, entry.flagAdd.last = entry.last ∧
      entry.flagAdd.address = entry.address ∧ entry.flagAdd.type = entry.type := fun entry => by
    rw [Breakpoint2.flagAdd_eq]
    exact ⟨rfl, rfl, rfl⟩
  refine ⟨ordered.toTerminated.modify (fun atEnd => absurd atEnd small.ne) fun marked => ?_, ?_,
    ordered.fresh.modify fun entry _ => ?_, (SameNames.of_modify frame).named ordered.named⟩
  · rw [(frame _).1, inUse] at marked
    cases marked
  · rw [CArray.peek_modify_ne _ _ small.ne]
    exact ordered.spare
  · rw [Breakpoint2.flagAdd_eq]
    intro toadd
    simpa using toadd

theorem Ordered.finishAdd (target : Target) (small : i < 31) (visible : Visible bp i) :
    Ordered added (finishAdd target bp i).2 :=
  (Fewer.of_adjusts (finishAdd_adjusts target bp i)).ordered (ordered.flagAdd small visible)

theorem Ordered.setMaskPointer (index : Nat) (small : i < 31) :
    Ordered added (bp.modify i (Breakpoint2.setMaskPointer index)) :=
  have fewer : Fewer bp (bp.modify i (Breakpoint2.setMaskPointer index)) :=
    (Fewer.refl bp).modify (fun _ => ⟨rfl, rfl, rfl, id, fun toadd => ⟨toadd, id⟩⟩)
      fun atEnd => absurd atEnd small.ne
  fewer.ordered ordered

theorem Ordered.reject {table : BreakpointTable} (small : i < 31)
    (occupies : Occupies bp address type i) (terminated : Terminated table)
    (spare : (table.peek 31).icestatus = false) (fresh : Fresh table)
    (before : ∀ j < i, table.peek j = bp.peek j) (here : (table.peek i).address = address ∧
      ((table.peek i).type = type ∨ BpType.masked (table.peek i).type = true)) :
    endIndex (table.modify i Breakpoint2.reject) = i ∧
      Ordered added (table.modify i Breakpoint2.reject) := by
  have inside := Nat.lt_succ_of_lt small
  have rejected : (table.modify i Breakpoint2.reject).peek i = (table.peek i).reject :=
    CArray.peek_modify_same _ _ inside
  have kept : ∀ j < i, (table.modify i Breakpoint2.reject).peek j = bp.peek j := by
    intro j less
    rw [CArray.peek_modify_ne _ _ less.ne', before j less]
  have inUse : ∀ j < i, Visible bp j := fun j less =>
    Nat.lt_of_lt_of_le less occupies.le_endIndex
  have marker : endIndex (table.modify i Breakpoint2.reject) = i := by
    refine endIndex_eq ?_ inside.le fun j less => ?_
    · rw [rejected]
      rfl
    · rw [kept j less]
      exact not_last_of_visible (inUse j less)
  have visible : ∀ {j}, Visible (table.modify i Breakpoint2.reject) j → j < i := fun there => by
    rwa [Visible, marker] at there
  refine ⟨marker, terminated.modify (fun atEnd => absurd atEnd small.ne) fun _ => rfl, ?_,
    fresh.modify fun _ => id, ?_⟩
  · rw [CArray.peek_modify_ne _ _ small.ne]
    exact spare
  constructor
  case unique =>
    intro j k visibleJ visibleK
    rw [kept j (visible visibleJ), kept k (visible visibleK)]
    exact ordered.named.unique j k (inUse j (visible visibleJ)) (inUse k (visible visibleK))
  case recorded =>
    intro j visibleJ
    rw [kept j (visible visibleJ)]
    exact ordered.named.recorded j (inUse j (visible visibleJ))
  case marker =>
    rw [marker, rejected, Breakpoint2.reject_address, Breakpoint2.reject_type]
    intro plain j visibleJ
    have less := visible visibleJ
    have isType := here.2.resolve_right fun masked =>
      absurd ((BpType.not_plain_of_masked masked).symm.trans plain) Bool.noConfusion
    rw [kept j less, here.1, isType]
    rintro ⟨sameAddress, sameType⟩
    cases occupies with
    | again visibleI addressI typeI =>
        have same := ordered.named.unique j i (inUse j less) visibleI
          (sameAddress.trans addressI.symm) (sameType.trans typeI.symm)
          (by rw [sameType, ← isType]; exact plain)
        exact less.ne same
    | append _ absent => exact absent j (inUse j less) ⟨sameAddress, sameType⟩
    | reuse _ _ _ absent => exact absent j (inUse j less) ⟨sameAddress, sameType⟩

end Claims

/-! ## Adding -/

/-- Ranges that wait are alone, entry `i` aside. -/
def RangesAloneBut (i : Nat) (bp : BreakpointTable) : Prop :=
  ∀ r j, r ≠ i → j ≠ i → Visible bp r → Visible bp j → (bp.peek r).waitsForPair = true →
    (bp.peek j).waitsForData = true → j = r

section Alone

variable {bp : BreakpointTable} {address : UInt32} {type : BpType} {i : Nat}

theorem RangesAloneBut.mono {before after : BreakpointTable} (alone : RangesAloneBut i before)
    (kept : ∀ j ≠ i, Visible after j → (after.peek j).waitsForData = true →
      Visible before j ∧ (before.peek j).waitsForData = true ∧
        (after.peek j).type = (before.peek j).type) : RangesAloneBut i after := by
  intro r j notR notJ visibleR visibleJ pair waits
  obtain ⟨data, masked⟩ := Breakpoint2.waitsForPair_iff.mp pair
  obtain ⟨beforeR, dataR, type⟩ := kept r notR visibleR data
  obtain ⟨beforeJ, dataJ, _⟩ := kept j notJ visibleJ waits
  rw [type] at masked
  exact alone r j notR notJ beforeR beforeJ (Breakpoint2.waitsForPair_iff.mpr ⟨dataR, masked⟩) dataJ

theorem RangesAlone.claim (alone : RangesAlone bp) (small : i < 31) (low : i ≤ endIndex bp) :
    RangesAloneBut i (claimEntry bp i address type) := by
  have visible := fun j => @claimEntry_visible bp address type i small low j
  intro r j notR notJ visibleR visibleJ pair waits
  have inUseR := ((visible r).mp visibleR).resolve_right notR
  have inUseJ := ((visible j).mp visibleJ).resolve_right notJ
  rw [claimEntry_peek_ne inUseR notR] at pair
  rw [claimEntry_peek_ne inUseJ notJ] at waits
  exact alone r j inUseR inUseJ pair waits

theorem RangesAloneBut.modify (alone : RangesAloneBut i bp) (visible : Visible bp i)
    {change : Breakpoint2 → Breakpoint2} (last : (change (bp.peek i)).last = (bp.peek i).last) :
    RangesAloneBut i (bp.modify i change) := by
  refine alone.mono fun j different visibleJ waits => ?_
  rw [modify_peek_eq visible, if_neg different] at waits ⊢
  exact ⟨(visible_modify last j).mp visibleJ, waits, rfl⟩

theorem ranges_alone_of_room {target : Target} (hadroom : (layoutBreakpoints target bp).1 = true) :
    RangesAlone bp :=
  (layoutData_room ((layoutCode_spec target bp).1.hadroom hadroom)).2.1

theorem RangesAloneBut.finishAdd (alone : RangesAloneBut i bp) (target : Target)
    (visible : Visible bp i) : RangesAlone (finishAdd target bp i).2 := by
  have keepsLast : (bp.peek i).flagAdd.last = (bp.peek i).last := by rw [Breakpoint2.flagAdd_eq]
  have fewer := Fewer.of_adjusts (finishAdd_adjusts target bp i)
  cases hadroom : (layoutBreakpoints target (bp.modify i Breakpoint2.flagAdd)).1 with
  | true =>
      have laid := (fewer_layout target _).alone (ranges_alone_of_room hadroom)
      rw [finishAdd_eq]
      simpa only [hadroom, if_true] using laid
  | false =>
      have off := finishAdd_given_up visible hadroom
      have others : ∀ {j}, ((Mk2.finishAdd target bp i).2.peek j).waitsForData = true → j ≠ i := by
        rintro j waits rfl
        simp [Breakpoint2.waitsForData, off] at waits
      intro r j visibleR visibleJ pair waits
      exact (alone.modify visible keepsLast) r j (others (Breakpoint2.waitsForData_of_pair pair))
        (others waits) (fewer.visible.mp visibleR) (fewer.visible.mp visibleJ)
        (fewer.waitsForPair pair) (fewer.waitsForData waits)

end Alone

theorem Ordered.claimMask {added : List (UInt32 × BpType)} {range : BreakpointTable}
    (ordered : Ordered added range) {mask : UInt32} (room : occupied range mask .dataMask < 31)
    (occupies : Occupies range mask .dataMask (occupied range mask .dataMask)) :
    Ordered added (claimed range mask .dataMask) ∧
      Visible (claimed range mask .dataMask) (occupied range mask .dataMask) :=
  ⟨ordered.claim room occupies
      (fun visible absent => full_of_reused ordered.toTerminated visible absent) (fun _ => id)
      fun plain => absurd (BpType.plain_dataMask.symm.trans plain) Bool.noConfusion,
    (claimEntry_visible room occupies.le_endIndex _).mpr (.inr rfl)⟩

theorem Ordered.addMask {added : List (UInt32 × BpType)} {range : BreakpointTable} {i : Nat}
    (ordered : Ordered added range) (target : Target) (alone : RangesAloneBut i range)
    (visible : Visible range i) {mask : UInt32} (room : occupied range mask .dataMask < 31)
    (occupies : Occupies range mask .dataMask (occupied range mask .dataMask)) :
    let after :=
      (Mk2.finishAdd target (claimed range mask .dataMask) (occupied range mask .dataMask)).2
    Ordered added after ∧ RangesAloneBut i after ∧ Visible after i ∧
      ∀ j, Visible range j → j ≠ occupied range mask .dataMask →
        (after.peek j).address = (range.peek j).address ∧
          (after.peek j).type = (range.peek j).type := by
  intro after
  obtain ⟨claimedMask, visibleMask⟩ := ordered.claimMask room occupies
  have inUse : ∀ j, Visible (claimed range mask .dataMask) j ↔
      Visible range j ∨ j = occupied range mask .dataMask :=
    claimEntry_visible room occupies.le_endIndex
  have fewer : Fewer _ after := .of_adjusts (finishAdd_adjusts target _ _)
  have keepsLast : ∀ entry : Breakpoint2, entry.flagAdd.last = entry.last := fun entry => by
    rw [Breakpoint2.flagAdd_eq]
  have kept : ∀ j, Visible after j ↔ Visible (claimed range mask .dataMask) j :=
    fun j => fewer.visible.trans (visible_modify (keepsLast _) j)
  refine ⟨claimedMask.finishAdd target room visibleMask,
    alone.mono fun j different visibleJ waits => ?_,
    (kept i).mpr ((inUse i).mpr (.inl visible)), fun j before different => ?_⟩
  swap
  · rw [fewer.address, fewer.type, modify_peek_eq visibleMask, if_neg different]
    have equal : (claimed range mask .dataMask).peek j = range.peek j :=
      claimEntry_peek_ne before different
    rw [equal]
    exact ⟨rfl, rfl⟩
  have flagged := fewer.waitsForData waits
  have sameType := fewer.type j
  rw [modify_peek_eq visibleMask] at flagged sameType
  split at flagged
  next here =>
    have isMask : ((claimed range mask .dataMask).peek j).flagAdd.type = .dataMask := by
      rw [here, Breakpoint2.flagAdd_eq, claimed, claimEntry_peek_self room]
      rfl
    have watches := Breakpoint2.type_of_waitsForData flagged
    rw [isMask] at watches
    exact absurd watches (by decide)
  next elsewhere =>
    have before := ((inUse j).mp ((kept j).mp visibleJ)).resolve_right elsewhere
    have equal : (claimed range mask .dataMask).peek j = range.peek j :=
      claimEntry_peek_ne before elsewhere
    rw [if_neg elsewhere] at sameType
    rw [equal] at flagged sameType
    exact ⟨before, flagged, sameType⟩

section Requests

variable {target : Target} {added : List (UInt32 × BpType)} {bp : BreakpointTable}
  {address : UInt32} {type : BpType} {length : UInt32} (orderly : Orderly added bp)
include orderly

theorem Orderly.claimed (room : occupied bp address type < 31)
    (occupies : Occupies bp address type (occupied bp address type)) :
    Ordered ((address, type) :: added) (claimed bp address type) ∧
      RangesAloneBut (occupied bp address type) (Mk2.claimed bp address type) ∧
        Visible (Mk2.claimed bp address type) (occupied bp address type) :=
  ⟨orderly.toOrdered.claim room occupies
      (fun visible absent => full_of_reused orderly.toTerminated visible absent)
      (fun _ => List.mem_cons_of_mem _) fun _ => List.mem_cons_self,
    orderly.alone.claim room occupies.le_endIndex,
    (claimEntry_visible room occupies.le_endIndex _).mpr (.inr rfl)⟩

theorem Orderly.claimedRange (room : occupied bp address type < 31)
    (occupies : Occupies bp address type (occupied bp address type)) :
    Ordered ((address, type) :: added) (claimedRange bp address type) ∧
      RangesAloneBut (occupied bp address type) (Mk2.claimedRange bp address type) ∧
        Visible (Mk2.claimedRange bp address type) (occupied bp address type) := by
  obtain ⟨ordered, alone, visible⟩ := orderly.claimed room occupies
  exact ⟨ordered.setType room visible (BpType.masked_hasMask type), alone.modify visible rfl,
    (visible_modify rfl _).mpr visible⟩

theorem Orderly.linked (room : occupied bp address type < 31)
    (occupies : Occupies bp address type (occupied bp address type))
    (reaches : ReachesSearchMask bp address type length) :
    Ordered ((address, type) :: added) (linked target bp address type length) ∧
      RangesAloneBut (occupied bp address type) (Mk2.linked target bp address type length) ∧
        Visible (Mk2.linked target bp address type length) (occupied bp address type) ∧
          ((Mk2.linked target bp address type length).peek (occupied bp address type)).address =
              address ∧
            ((Mk2.linked target bp address type length).peek (occupied bp address type)).type =
              type ||| .hasMask := by
  obtain ⟨ordered, alone, visible⟩ := orderly.claimedRange room occupies
  obtain ⟨roomMask, occupiesMask⟩ := (occupied_spec ordered.toTerminated (~~~(length - 1))
    .dataMask).resolve_left fun full => reaches.2.2.2.2.2 full.2
  obtain ⟨ordered', alone', visible', names⟩ :=
    ordered.addMask target alone visible roomMask occupiesMask
  obtain ⟨sameAddress, sameType⟩ :=
    names _ visible (claimedRange_apart room occupies occupiesMask)
  rw [claimedRange_peek room] at sameAddress sameType
  unfold Mk2.linked
  rw [CArray.peek_modify_same _ _ (Nat.lt_succ_of_lt room), Breakpoint2.setMaskPointer_address,
    Breakpoint2.setMaskPointer_type]
  refine ⟨ordered'.setMaskPointer _ room, alone'.modify visible' ?_,
    (visible_modify ?_ _).mpr visible', sameAddress, sameType⟩
  · exact Breakpoint2.setMaskPointer_last _ _
  · exact Breakpoint2.setMaskPointer_last _ _

theorem Orderly.rejected (room : occupied bp address type < 31)
    (occupies : Occupies bp address type (occupied bp address type)) {table : BreakpointTable}
    (which : table = Mk2.claimed bp address type ∨ table = Mk2.claimedRange bp address type) :
    endIndex (table.modify (occupied bp address type) Breakpoint2.reject) =
        occupied bp address type ∧
      (∀ j < occupied bp address type, table.peek j = bp.peek j) ∧
        Orderly added (table.modify (occupied bp address type) Breakpoint2.reject) := by
  have inUse : ∀ j < occupied bp address type, Visible bp j := fun j less =>
    Nat.lt_of_lt_of_le less occupies.le_endIndex
  have before : ∀ j < occupied bp address type, table.peek j = bp.peek j := by
    intro j less
    rcases which with rfl | rfl
    · exact claimEntry_peek_ne (inUse j less) less.ne
    · exact claimedRange_peek_ne (inUse j less) less.ne
  have here : (table.peek (occupied bp address type)).address = address ∧
      ((table.peek (occupied bp address type)).type = type ∨
        BpType.masked (table.peek (occupied bp address type)).type = true) := by
    rcases which with rfl | rfl
    · rw [Mk2.claimed, claimEntry_peek_self room]
      exact ⟨rfl, .inl rfl⟩
    · rw [claimedRange_peek room]
      exact ⟨rfl, .inr (BpType.masked_hasMask type)⟩
  have sound : Ordered ((address, type) :: added) table := by
    rcases which with rfl | rfl
    · exact (orderly.claimed room occupies).1
    · exact (orderly.claimedRange room occupies).1
  obtain ⟨marker, ordered⟩ :=
    orderly.toOrdered.reject room occupies sound.toTerminated sound.spare sound.fresh before here
  refine ⟨marker, before, ordered, fun r j visibleR visibleJ => ?_⟩
  rw [Visible, marker] at visibleR visibleJ
  rw [CArray.peek_modify_ne _ _ visibleR.ne', CArray.peek_modify_ne _ _ visibleJ.ne',
    before r visibleR, before j visibleJ]
  exact orderly.alone r j (inUse r visibleR) (inUse j visibleJ)

theorem Orderly.addBreakpoint : Orderly
    (if (addBreakpoint target bp address type length).1 then (address, type) :: added else added)
    (Mk2.addBreakpoint target bp address type length).2 := by
  have occupies : occupied bp address type < 31 →
      Occupies bp address type (occupied bp address type) := fun room =>
    ((occupied_spec orderly.toTerminated address type).resolve_left fun full => room.ne full.2).2
  have outcome := @addBreakpoint_outcome target bp orderly.toTerminated address type length
  generalize Mk2.addBreakpoint target bp address type length = result at outcome
  cases outcome with
  | full => exact orderly
  | rejected room _ _ table which => exact (orderly.rejected room (occupies room) which).2.2
  | single room =>
      obtain ⟨ordered, alone, visible⟩ := orderly.claimed room (occupies room)
      rw [if_pos (finishAdd_accepts target _ _)]
      exact ⟨ordered.finishAdd target room visible, alone.finishAdd target visible⟩
  | range room _ reaches =>
      obtain ⟨ordered, alone, visible, _⟩ :=
        @Orderly.linked target _ _ _ _ _ orderly room (occupies room) reaches
      rw [if_pos (finishAdd_accepts target _ _)]
      exact ⟨ordered.finishAdd target room visible, alone.finishAdd target visible⟩

theorem Orderly.deleteBreakpoint :
    Orderly added (deleteBreakpoint target bp address type length).2 := by
  rw [deleteBreakpoint_eq orderly.toTerminated]
  split
  · exact ((fewer_withdraw bp _).trans (fewer_layout target _)).orderly orderly
  · exact orderly

end Requests

theorem Orderly.constructed : Orderly [] constructedTable := by
  have entries : ∀ i, constructedTable.peek i = defaultBp := by
    intro i
    rw [constructedTable, CArray.peek_fill]
    split <;> rfl
  have empty : ∀ i, ¬ Visible constructedTable i := by
    intro i visible
    have inUse := not_last_of_visible visible
    rw [entries] at inUse
    cases inUse
  refine ⟨⟨Consistent.constructed.terminated, ?_, fun j toadd => ?_, ?_⟩,
    fun r _ visible => absurd visible (empty r)⟩
  · rw [entries]
    rfl
  · rw [entries] at toadd
    cases toadd
  · refine ⟨fun i _ visible => absurd visible (empty i), fun i visible => absurd visible (empty i),
      fun plain => ?_⟩
    rw [entries] at plain
    exact absurd plain (by decide)

theorem Reached.orderly {target : Target} {added : List (UInt32 × BpType)} {bp : BreakpointTable}
    (reached : Reached target added bp) : Orderly added bp := by
  induction reached with
  | constructed => exact .constructed
  | addBreakpoint address type length _ inductionHypothesis =>
      exact inductionHypothesis.addBreakpoint
  | deleteBreakpoint address type length _ inductionHypothesis =>
      exact inductionHypothesis.deleteBreakpoint
  | deleteAllBreakpoints _ inductionHypothesis =>
      exact (fewer_deleteAllBreakpoints inductionHypothesis.toTerminated).orderly
        inductionHypothesis
  | updateBreakpoints doJtagCommand ice _ inductionHypothesis =>
      exact (fewer_updateBreakpoints doJtagCommand target inductionHypothesis.toOrdered ice).orderly
        inductionHypothesis

end Avarice.Mk2

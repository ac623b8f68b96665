import Avarice.Mk2.Breakpoint.FailedAdd
import Avarice.Mk2.Breakpoint.RangeSlots

/-!
# The table with a range and its mask entered

`addBreakpoint` lays the table out once for the mask and again for the range.
If there is room the first time, the second layout sees the entries of the
request beside those that were there, with their slots in the ICE.
-/

namespace Avarice.Mk2

/-- The table with a range and its mask in it, the mask flagged for download. -/
def maskEntered (bp : BreakpointTable) (address : UInt32) (type : BpType) (length : UInt32) :
    BreakpointTable :=
  let range := claimedRange bp address type
  let mask := ~~~(length - 1)
  (claimed range mask .dataMask).modify (occupied range mask .dataMask) Breakpoint2.flagAdd

/-- A range that waits has the slot for masks given to the entry that its mask
pointer names. -/
def masksPlaced (bp : BreakpointTable) : BreakpointTable :=
  let r := bp.firstIndex fun entry => entry.last || entry.waitsForPair
  if (bp.peek r).last then bp
  else bp.modify (bp.peek r).maskPointer (Breakpoint2.setBpnum breakpoint2DataMask)

/-- The table with a range and its mask in it, both flagged for download. -/
def rangeEntered (bp : BreakpointTable) (address : UInt32) (type : BpType) (length : UInt32) :
    BreakpointTable :=
  let table := masksPlaced (maskEntered bp address type length)
  let i := occupied bp address type
  (table.modify i (Breakpoint2.setMaskPointer (searchMask table i (~~~(length - 1))))).modify i
    Breakpoint2.flagAdd

/-- The same entries but for the slots of those the ICE does not have. -/
def SameInIce (before after : BreakpointTable) : Prop :=
  ∀ j, ∃ slot, after.peek j = (before.peek j).setBpnum slot ∧
    ((before.peek j).icestatus = true → slot = (before.peek j).bpnum)

namespace SameInIce

theorem of_peek {before after : BreakpointTable} (same : SameButSlots before after)
    (installed : ∀ j, (before.peek j).icestatus = true → after.peek j = before.peek j) :
    SameInIce before after := by
  intro j
  obtain ⟨slot, equal⟩ := same j
  refine ⟨slot, equal, fun there => ?_⟩
  have bpnum := congrArg Breakpoint2.bpnum (equal.symm.trans (installed j there))
  exact bpnum

theorem modify {before after : BreakpointTable} (same : SameInIce before after) (i : Nat)
    {change : Breakpoint2 → Breakpoint2}
    (blind : ∀ entry slot, change (entry.setBpnum slot) = (change entry).setBpnum slot)
    (keeps : ∀ entry, (change entry).icestatus = entry.icestatus ∧
      (change entry).bpnum = entry.bpnum) :
    SameInIce (before.modify i change) (after.modify i change) := by
  intro j
  obtain ⟨slot, equal, there⟩ := same j
  rw [CArray.peek_modify, CArray.peek_modify]
  split
  · refine ⟨slot, by rw [equal, blind], fun installed => ?_⟩
    rw [(keeps _).1] at installed
    rw [(keeps _).2]
    exact there installed
  · exact ⟨slot, equal, there⟩

variable {before after : BreakpointTable} (same : SameInIce before after)
include same

theorem sameButSlots : SameButSlots before after := fun j =>
  have ⟨slot, equal, _⟩ := same j
  ⟨slot, equal⟩

theorem freeSlots (target : Target) : freeSlots target after = Mk2.freeSlots target before := by
  have stable : ∀ j slot, ((after.peek j).stable = true → (after.peek j).bpnum ≠ slot) ↔
      ((before.peek j).stable = true → (before.peek j).bpnum ≠ slot) := by
    intro j slot
    obtain ⟨given, equal, there⟩ := same j
    rw [equal, Breakpoint2.stable_setBpnum]
    refine imp_congr_right fun stable => ?_
    simp only [Breakpoint2.stable, Bool.and_eq_true] at stable
    rw [Breakpoint2.setBpnum_bpnum, there stable.2]
  simp only [Mk2.freeSlots, same.sameButSlots.endIndex, stable]

theorem noRangesWaiting : NoRangesWaiting after ↔ NoRangesWaiting before := by
  refine forall_congr' fun j => ?_
  obtain ⟨slot, equal, _⟩ := same j
  rw [same.sameButSlots.visible, equal]
  rfl

theorem symm : SameInIce after before := by
  intro j
  obtain ⟨slot, equal, there⟩ := same j
  refine ⟨(before.peek j).bpnum, by rw [equal]; rfl, fun installed => ?_⟩
  rw [equal] at installed ⊢
  exact (there installed).symm

theorem blind {Alpha : Type} (look : Breakpoint2 → Alpha)
    (slotless : ∀ entry slot, look (Breakpoint2.setBpnum slot entry) = look entry) (j : Nat) :
    look (after.peek j) = look (before.peek j) := by
  obtain ⟨slot, equal, _⟩ := same j
  rw [equal, slotless]

theorem searchMask (i : Nat) (mask : UInt32) :
    searchMask after i mask = Mk2.searchMask before i mask := by
  unfold Mk2.searchMask
  rw [same.blind Breakpoint2.address (fun _ _ => rfl) i]
  refine CArray.firstIndex_congr fun j _ => ?_
  rw [same.blind Breakpoint2.last (fun _ _ => rfl), same.blind Breakpoint2.type (fun _ _ => rfl)]

theorem rangeFits {target : Target} {r : Nat} (fits : RangeFits target before r) :
    RangeFits target after r where
  visible := same.sameButSlots.visible.mpr fits.visible
  waits := (same.blind Breakpoint2.waitsForPair (fun _ _ => rfl) r).trans fits.waits
  alone j visible waits := fits.alone j (same.sameButSlots.visible.mp visible)
    ((same.blind Breakpoint2.waitsForData (fun _ _ => rfl) j).symm.trans waits)
  first := same.freeSlots target ▸ fits.first
  mask := same.freeSlots target ▸ fits.mask

theorem fits {target : Target} : Fits target after ↔ Fits target before := by
  have data := same.sameButSlots.waiting Breakpoint2.waitsForData_setBpnum
  have code := same.sameButSlots.waiting Breakpoint2.waitsForCode_setBpnum
  have room : HasRoom target after ↔ HasRoom target before := by
    rw [HasRoom, HasRoom, same.freeSlots, data, code]
  have range : (∃ r, RangeFits target after r) ↔ ∃ r, RangeFits target before r :=
    exists_congr fun r => ⟨same.symm.rangeFits, same.rangeFits⟩
  rw [Fits, Fits, same.noRangesWaiting, room, range, same.freeSlots, code]

theorem leads {target : Target} {r : Nat} (leads : Leads target before r) :
    Leads target after r where
  first := same.freeSlots target ▸ leads.first
  mask := same.freeSlots target ▸ leads.mask
  before j less := (same.blind Breakpoint2.waitsForData (fun _ _ => rfl) j).trans (leads.before j less)

theorem starved {target : Target} {r : Nat} (starved : Starved target before r) :
    Starved target after r where
  visible := same.sameButSlots.visible.mpr starved.visible
  waits := (same.blind Breakpoint2.waitsForPair (fun _ _ => rfl) r).trans starved.waits
  behind leads := starved.behind (same.symm.leads leads)

theorem keepsSlots {target : Target} {j : Nat} (keeps : KeepsSlots target before j) :
    KeepsSlots target after j := by
  refine ⟨(same.blind Breakpoint2.enabled (fun _ _ => rfl) j).trans keeps.1, keeps.2.imp ?_ ?_⟩
  · exact fun ⟨waits, leads⟩ =>
      ⟨(same.blind Breakpoint2.waitsForPair (fun _ _ => rfl) j).trans waits, same.leads leads⟩
  · rintro ⟨stable, spared⟩
    refine ⟨(same.blind Breakpoint2.stable (fun _ _ => rfl) j).trans stable, fun r starved => ?_⟩
    rw [same.blind Breakpoint2.maskPointer (fun _ _ => rfl) r]
    exact spared r (same.symm.starved starved)

end SameInIce

section Layout

variable {target : Target} {bp : BreakpointTable}

theorem masksPlaced_of_none (none : NoRangesWaiting bp) : masksPlaced bp = bp := by
  have marked : (bp.peek (bp.firstIndex fun entry => entry.last || entry.waitsForPair)).last =
      true := by
    by_contra inUse
    obtain ⟨r, visible, waits⟩ := (found_before_last Breakpoint2.waitsForPair).mp
      (by simpa using inUse)
    obtain ⟨data, masked⟩ := Breakpoint2.waitsForPair_iff.mp waits
    exact absurd ((none r visible data).symm.trans masked) Bool.noConfusion
  unfold masksPlaced
  simp only [marked, if_true]

theorem masksPlaced_of_fits {r : Nat} (fits : RangeFits target bp r) :
    masksPlaced bp =
      bp.modify (bp.peek r).maskPointer (Breakpoint2.setBpnum breakpoint2DataMask) := by
  have here : (bp.firstIndex fun entry => entry.last || entry.waitsForPair) = r := by
    refine CArray.firstIndex_eq (lt_of_visible fits.visible).le (fun _ => ?_) fun j less => ?_
    · rw [fits.waits, Bool.or_true]
    · have visible : Visible bp j := less.trans fits.visible
      rw [not_last_of_visible visible, Bool.false_or]
      exact Bool.eq_false_iff.mpr fun waits =>
        less.ne (fits.alone j visible (Breakpoint2.waitsForData_of_pair waits))
  unfold masksPlaced
  simp only [here, not_last_of_visible fits.visible, Bool.false_eq_true, if_false]

/-- With room, a layout gives slots to entries the ICE does not have, and to the
mask of a range that waits. -/
theorem layout_sameInIce (fresh : Fresh bp) (fits : Fits target bp) :
    SameInIce (masksPlaced bp) (layoutBreakpoints target bp).2 := by
  have settled : ∀ {j}, (bp.peek j).icestatus = true → (bp.peek j).waits = false := by
    intro j installed
    cases toadd : (bp.peek j).toadd with
    | true => exact absurd ((fresh j toadd).symm.trans installed) Bool.noConfusion
    | false =>
        simp [Breakpoint2.waits, Breakpoint2.waitsForData, Breakpoint2.waitsForCode, toadd]
  rcases fits with ⟨none, _⟩ | ⟨⟨r, fits⟩, _⟩
  · rw [masksPlaced_of_none none]
    refine .of_peek (layout_sameButSlots target none) fun j installed => ?_
    refine layout_untouched target none fun both => ?_
    exact absurd ((settled installed).symm.trans both.2) Bool.noConfusion
  · obtain ⟨first, later⟩ := around_only fits.visible fits.alone
    obtain ⟨same, entries⟩ := layout_placed fits.visible fits.waits first later
      (pairFree_iff.mpr ⟨fits.first, fits.mask⟩)
    have unset : ∀ j, ((bp.modify (bp.peek r).maskPointer
        (Breakpoint2.setBpnum breakpoint2DataMask)).peek j).icestatus = (bp.peek j).icestatus := by
      intro j
      rw [CArray.peek_modify]
      split <;> rfl
    rw [masksPlaced_of_fits fits]
    refine .of_peek (fun j => ?_) fun j installed => ?_
    · obtain ⟨slot, equal⟩ := same j
      refine ⟨slot, ?_⟩
      rw [equal, CArray.peek_modify]
      split <;> rfl
    · rw [unset] at installed
      obtain ⟨notData, notCode⟩ := Bool.or_eq_false_iff.mp (settled installed)
      have notRange : r ≠ j := by
        rintro rfl
        exact absurd (notData.symm.trans (Breakpoint2.waitsForData_of_pair fits.waits))
          Bool.noConfusion
      rw [entries j notCode, placedRange, CArray.peek_modify_ne _ _ notRange]

theorem finishAdd_of_room {i : Nat}
    (hadroom : (layoutBreakpoints target (bp.modify i Breakpoint2.flagAdd)).1 = true) :
    finishAdd target bp i = layoutBreakpoints target (bp.modify i Breakpoint2.flagAdd) := by
  rw [finishAdd_eq]
  simp only [hadroom, if_true]
  rw [← hadroom]

end Layout

theorem Breakpoint2.setMaskPointer_setBpnum (index slot : Nat) (entry : Breakpoint2) :
    (entry.setBpnum slot).setMaskPointer index = (entry.setMaskPointer index).setBpnum slot := rfl

theorem Breakpoint2.flagAdd_setBpnum (slot : Nat) (entry : Breakpoint2) :
    (entry.setBpnum slot).flagAdd = entry.flagAdd.setBpnum slot := by
  rw [flagAdd_eq, flagAdd_eq]
  rfl

section Entered

variable {target : Target} {added : List (UInt32 × BpType)} {bp : BreakpointTable}
  {address : UInt32} {type : BpType} {length : UInt32}

theorem Orderly.fresh_maskEntered (orderly : Orderly added bp)
    (room : occupied bp address type < 31) (reaches : ReachesSearchMask bp address type length) :
    Fresh (maskEntered bp address type length) := by
  have occupies := ((occupied_spec orderly.toTerminated address type).resolve_left
    fun full => room.ne full.2).2
  obtain ⟨ordered, _, _⟩ := orderly.claimedRange room occupies
  obtain ⟨roomMask, occupiesMask⟩ := (occupied_spec ordered.toTerminated (~~~(length - 1))
    .dataMask).resolve_left fun full => reaches.2.2.2.2.2 full.2
  obtain ⟨orderedMask, visible⟩ := ordered.claimMask roomMask occupiesMask
  exact (orderedMask.flagAdd roomMask visible).fresh

theorem rangeEntered_sameInIce (orderly : Orderly added bp)
    (room : occupied bp address type < 31) (reaches : ReachesSearchMask bp address type length)
    (fits : Fits target (maskEntered bp address type length)) :
    SameInIce (rangeEntered bp address type length)
      ((linked target bp address type length).modify (occupied bp address type)
        Breakpoint2.flagAdd) := by
  have laid := layout_sameInIce (orderly.fresh_maskEntered room reaches) fits
  have same : withMask target bp address type length =
      (layoutBreakpoints target (maskEntered bp address type length)).2 :=
    congrArg Prod.snd (finishAdd_of_room (layout_hadroom_iff_fits.mpr fits))
  rw [← same] at laid
  unfold linked rangeEntered
  dsimp only
  rw [laid.searchMask]
  refine (laid.modify _ (fun _ _ => Breakpoint2.setMaskPointer_setBpnum _ _ _) fun _ => ?_).modify
    _ (fun _ _ => Breakpoint2.flagAdd_setBpnum _ _) fun _ => ?_
  · exact ⟨Breakpoint2.setMaskPointer_icestatus _ _, Breakpoint2.setMaskPointer_bpnum _ _⟩
  · rw [Breakpoint2.flagAdd_eq]
    exact ⟨rfl, rfl⟩

end Entered

end Avarice.Mk2

import Avarice.Mk2.Breakpoint.Requests
import Avarice.Mk2.Breakpoint.UpdateSpec

/-!
# Agreement between the table and the ICE

Runs of requests for single breakpoints and of updates.  In a run in which
every taken-back delete still fits, and every code breakpoint that is
downloaded is at the address of a flash location, the ICE holds after each
update exactly the enabled breakpoints.  Where a taken-back delete does not
fit, `addBreakpoint` has already cleared `toremove`, so the breakpoint stays in
the ICE while its slot is given away.
-/

namespace Avarice.Mk2

/-- Requests for code breakpoints and single data watchpoints. -/
def BreakpointOp.Single : BreakpointOp → Prop
  | .addBreakpoint _ type length => BpType.plain type = true ∧ length ≤ 1
  | .deleteBreakpoint _ type length => BpType.plain type = true ∧ length ≤ 1
  | .deleteAllBreakpoints => True
  | .updateBreakpoints => True

instance : DecidablePred BreakpointOp.Single
  | .addBreakpoint _ _ _ => inferInstanceAs (Decidable (_ ∧ _))
  | .deleteBreakpoint _ _ _ => inferInstanceAs (Decidable (_ ∧ _))
  | .deleteAllBreakpoints => .isTrue trivial
  | .updateBreakpoints => .isTrue trivial

/-- What a call must find for the table and the ICE to stay together. -/
def BreakpointOp.Tracked (target : Target) (s : Session) : BreakpointOp → Prop
  | .addBreakpoint address type _ => ReaddFits target s.bp address type
  | .deleteBreakpoint _ _ _ => True
  | .deleteAllBreakpoints => True
  | .updateBreakpoints => EvenCode s.bp

instance (target : Target) (s : Session) : DecidablePred (BreakpointOp.Tracked target s)
  | .addBreakpoint _ _ _ => inferInstanceAs (Decidable (ReaddFits _ _ _ _))
  | .deleteBreakpoint _ _ _ => .isTrue trivial
  | .deleteAllBreakpoints => .isTrue trivial
  | .updateBreakpoints => inferInstanceAs (Decidable (EvenCode _))

/-- The breakpoints in the ICE are the enabled entries, and `icestatus` says
which entries are there. -/
structure Session.Agrees (s : Session) : Prop where
  installed : ∀ type address, s.ice.Holds type address ↔
    ∃ i, Visible s.bp i ∧ (s.bp.peek i).enabled = true ∧
      (s.bp.peek i).type = type ∧ (s.bp.peek i).address = address
  icestatus : ∀ i, Visible s.bp i → ((s.bp.peek i).icestatus = true ↔
    s.ice.Holds (s.bp.peek i).type (s.bp.peek i).address)

/-- What holds between two calls. -/
structure Session.Consistent (target : Target) (s : Session) : Prop where
  table : Mk2.Consistent s.bp
  room : HasRoom target s.bp
  mirrors : Mirrors s.bp s.ice

theorem Session.consistent_start (target : Target) : Session.start.Consistent target := by
  refine ⟨.constructed, hasRoom_of_none_waiting fun i visible _ => ?_, .start⟩
  have blank : constructedTable.peek i = defaultBp := by
    rw [constructedTable, CArray.peek_fill, if_pos (lt_of_visible visible)]
  show (constructedTable.peek i).toadd = false
  rw [blank]
  rfl

theorem Mirrors.of_sameInstalled {before after : BreakpointTable} {ice : Mk2Ice}
    (mirrors : Mirrors before ice) (same : SameInstalled before after) :
    Mirrors after ice := by
  refine mirrors.congr (fun j => (same j).1) fun j there => ?_
  obtain ⟨bpnum, address, type⟩ := (same j).2 there
  exact ⟨bpnum, address, by simp only [setBreak, address, type]⟩

section Holds

variable {bp : BreakpointTable} {ice : Mk2Ice}

theorem Mirrors.holds_iff (mirrors : Mirrors bp ice) (consistent : Mk2.Consistent bp)
    (type : BpType) (address : UInt32) :
    ice.Holds type address ↔ ∃ i, (bp.peek i).icestatus = true ∧
      (bp.peek i).type = type ∧ (bp.peek i).address = address := by
  have content : ∀ {i}, (bp.peek i).icestatus = true → ∃ content,
      setBreak (bp.peek i) = some content ∧ content.hostType = (bp.peek i).type ∧
        content.hostAddress = (bp.peek i).address := by
    intro i there
    have visible := consistent.visible_of_icestatus there
    obtain ⟨content, chosen, hostType, code, data⟩ := setBreak_plain (consistent.plain i visible)
    refine ⟨content, chosen, hostType, ?_⟩
    by_cases isCode : (bp.peek i).type = .code
    · rw [(code isCode).2]
      exact (consistent.flags i).even there isCode
    · exact data isCode
  constructor
  · rintro (⟨slot, held, _, occupied, rfl, rfl⟩ | ⟨rfl, word, installed, rfl⟩)
    · obtain ⟨_, i, there, _, chosen⟩ := (mirrors.slots slot held).mp occupied
      obtain ⟨content, chosen', hostType, hostAddress⟩ := content there
      obtain rfl := Option.some.inj (chosen.symm.trans chosen')
      exact ⟨i, there, hostType.symm, hostAddress.symm⟩
    · obtain ⟨i, there, software, rfl⟩ := (mirrors.soft word).mp installed
      have isCode := (consistent.flags i).software there software
      exact ⟨i, there, isCode, ((consistent.flags i).even there isCode).symm⟩
  · rintro ⟨i, there, rfl, rfl⟩
    by_cases software : (bp.peek i).bpnum = 0
    · right
      have isCode := (consistent.flags i).software there software
      exact ⟨isCode, _, (mirrors.soft _).mpr ⟨i, there, software, rfl⟩,
        (consistent.flags i).even there isCode⟩
    · left
      obtain ⟨content, chosen, hostType, hostAddress⟩ := content there
      exact ⟨_, content, software, (mirrors.slots _ _).mpr ⟨software, i, there, rfl, chosen⟩,
        hostType, hostAddress⟩

theorem Mk2Ice.Holds.even_of_code {address : UInt32} (holds : ice.Holds .code address) :
    ∃ word, 2 * word = address := by
  rcases holds with ⟨_, content, _, _, isCode, rfl⟩ | ⟨_, word, _, same⟩
  · have code : content.type = 0x01 := by
      by_contra other
      rw [IceBreakpoint.hostType, if_neg other] at isCode
      split at isCode
      · exact absurd isCode (by decide)
      split at isCode
      · exact absurd isCode (by decide)
      split at isCode <;> exact absurd isCode (by decide)
    exact ⟨content.address, by rw [IceBreakpoint.hostAddress, if_pos code]⟩
  · exact ⟨word, same⟩

theorem agrees_of_mirrors (mirrors : Mirrors bp ice) (consistent : Mk2.Consistent bp)
    (downloaded : ∀ j, (bp.peek j).icestatus = (bp.peek j).enabled) :
    Session.Agrees ⟨bp, ice⟩ := by
  constructor
  · intro type address
    rw [mirrors.holds_iff consistent]
    refine exists_congr fun i => ?_
    rw [downloaded]
    constructor
    · rintro ⟨enabled, sameType, sameAddress⟩
      exact ⟨consistent.visible_of_icestatus ((downloaded i).trans enabled), enabled, sameType,
        sameAddress⟩
    · exact And.right
  · intro i visible
    rw [mirrors.holds_iff consistent]
    constructor
    · exact fun there => ⟨i, there, rfl, rfl⟩
    · rintro ⟨j, there, sameType, sameAddress⟩
      have same := consistent.unique j i (consistent.visible_of_icestatus there) visible
        sameAddress sameType
      rwa [← same]

end Holds

section Runs

variable {target : Target}

theorem Session.Consistent.apply {s : Session} (consistent : s.Consistent target)
    {op : BreakpointOp} (single : op.Single) (tracked : op.Tracked target s) :
    (s.apply target op).Consistent target := by
  obtain ⟨table, room, mirrors⟩ := consistent
  cases op with
  | addBreakpoint address type length =>
      obtain ⟨after, roomAfter⟩ :=
        addBreakpoint_kept table room single.1 (.inl single.2) tracked
      exact ⟨after, roomAfter, mirrors.of_sameInstalled
        (addBreakpoint_sameInstalled table single.1 (.inl single.2))⟩
  | deleteBreakpoint address type length =>
      obtain ⟨after, roomAfter, same⟩ := deleteBreakpoint_kept table room single.1
      exact ⟨after, roomAfter, mirrors.of_sameInstalled same⟩
  | deleteAllBreakpoints =>
      obtain ⟨after, roomAfter, same⟩ := @deleteAllBreakpoints_kept target _ table
      exact ⟨after, roomAfter, mirrors.of_sameInstalled same⟩
  | updateBreakpoints =>
      obtain ⟨updating, downloaded⟩ := updateBreakpoints_spec table room mirrors tracked
      refine ⟨updating.consistent, hasRoom_of_none_waiting fun j _ enabled => ?_,
        updating.mirrors⟩
      have there := (downloaded j).trans enabled
      refine Bool.eq_false_iff.mpr fun flagged => ?_
      rw [(updating.consistent.flags j).fresh flagged] at there
      cases there

theorem Session.consistent_run {ops : List BreakpointOp} (single : ∀ op ∈ ops, op.Single)
    (tracked : Transition.Along (Session.apply target)
      (fun s op => op.Tracked target s) .start ops) :
    (Session.run target .start ops).Consistent target :=
  Transition.invariant_of_along
    (fun _ _ consistent allowed => consistent.apply allowed.1 allowed.2)
    (Session.consistent_start target) (tracked.and_of_forall single)

/-- After each update of a run the ICE holds exactly the enabled breakpoints,
if every taken-back delete fits and code addresses are even. -/
theorem update_agrees (target : Target) (ops : List BreakpointOp)
    (single : ∀ op ∈ ops, op.Single)
    (tracked : Transition.Along (Session.apply target) (fun s op => op.Tracked target s)
      .start (ops ++ [.updateBreakpoints])) :
    (Session.run target .start (ops ++ [.updateBreakpoints])).Agrees := by
  obtain ⟨before, last⟩ := (Transition.along_append _ _ _ _ _).mp tracked
  obtain ⟨table, room, mirrors⟩ := Session.consistent_run single before
  obtain ⟨updating, downloaded⟩ := updateBreakpoints_spec table room mirrors last.1
  rw [Session.run, Transition.run_append]
  exact agrees_of_mirrors updating.mirrors updating.consistent downloaded

def jtagTarget : Target where
  useDebugWire := false
  deviceFlags := 0

theorem update_agrees_taken_back :
    (Session.run jtagTarget .start
      ([.addBreakpoint 0x800100 .writeData 1, .addBreakpoint 0x200 .code 1, .updateBreakpoints,
        .deleteBreakpoint 0x800100 .writeData 1, .addBreakpoint 0x800102 .readData 1,
        .addBreakpoint 0x800100 .writeData 1] ++ [.updateBreakpoints])).Agrees :=
  update_agrees jtagTarget _ (by decide) (by decide +kernel)

/-- A delete that is taken back after its slot has been promised to another
watchpoint: the breakpoint stays in the ICE's table entry, disabled. -/
def lostDelete : List BreakpointOp :=
  [.addBreakpoint 0x800100 .writeData 1, .addBreakpoint 0x800101 .writeData 1,
    .updateBreakpoints, .deleteBreakpoint 0x800100 .writeData 1,
    .addBreakpoint 0x800102 .writeData 1, .addBreakpoint 0x800100 .writeData 1]

/-- A code breakpoint in the middle of a flash location. -/
def oddCode : List BreakpointOp :=
  [.addBreakpoint 0x101 .code 1]

theorem update_disagrees :
    (∀ op ∈ lostDelete ++ oddCode, op.Single) ∧
      ¬ (Session.run jtagTarget .start (lostDelete ++ [.updateBreakpoints])).Agrees ∧
      ¬ (Session.run jtagTarget .start (oddCode ++ [.updateBreakpoints])).Agrees := by
  refine ⟨by decide, fun agrees => ?_, fun agrees => ?_⟩
  swap
  · have entry : let bp := (Session.run jtagTarget .start (oddCode ++ [.updateBreakpoints])).bp
        Visible bp 0 ∧ (bp.peek 0).enabled = true ∧ (bp.peek 0).type = .code ∧
          (bp.peek 0).address = 0x101 := by
      decide +kernel
    obtain ⟨word, even⟩ := ((agrees.installed .code 0x101).mpr ⟨0, entry⟩).even_of_code
    have halves := congrArg UInt32.toNat even
    rw [UInt32.toNat_mul] at halves
    change 2 * word.toNat % 2 ^ 32 = 257 at halves
    omega
  have facts : let bp := (Session.run jtagTarget .start (lostDelete ++ [.updateBreakpoints])).bp
      Visible bp 0 ∧ (bp.peek 0).icestatus = true ∧ ∀ j < endIndex bp,
        ¬ ((bp.peek j).enabled = true ∧ (bp.peek j).type = (bp.peek 0).type ∧
          (bp.peek j).address = (bp.peek 0).address) := by
    decide +kernel
  obtain ⟨visible, there, none⟩ := facts
  obtain ⟨i, visibleI, found⟩ :=
    (agrees.installed _ _).mp ((agrees.icestatus 0 visible).mp there)
  exact none i visibleI found

end Runs

end Avarice.Mk2

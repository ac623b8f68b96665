import Avarice.Library.Transition
import Avarice.Mk2.Breakpoint.RangeEntry

/-!
# Range breakpoints and their masks

The search for the mask of a range compares the address of the range with the
mask.  A range whose address is its mask finds the first mask of the table, and
every other range is linked to the end marker.  The pairs are in order in runs
whose ranges find their own mask, or are turned down with no breakpoint behind
their entry.
-/

namespace Avarice.Mk2

open Scan

/-! ## Runs -/

/-- The table, the ICE with the commands sent to it, and for each entry the
length it was last claimed with. -/
structure RangeSession (Ice : Type) where
  bp : BreakpointTable
  ice : Ice
  sent : List BreakCommand
  length : Nat → UInt32

section Session

variable {Ice : Type} (doJtagCommand : BreakCommand → Ice → Bool × Ice) (target : Target)

/-- Note each breakpoint command that is sent. -/
def recorded (command : BreakCommand) (ice : Ice × List BreakCommand) :
    Bool × Ice × List BreakCommand :=
  let (accepted, after) := doJtagCommand command ice.1
  (accepted, after, ice.2 ++ [command])

def RangeSession.start (ice : Ice) : RangeSession Ice where
  bp := constructedTable
  ice
  sent := []
  length _ := 0

def RangeSession.apply (s : RangeSession Ice) : BreakpointOp → RangeSession Ice
  | .addBreakpoint address type length =>
      { s with
        bp := (addBreakpoint target s.bp address type length).2
        length := fun i =>
          if i = occupied s.bp address type then length else s.length i }
  | .deleteBreakpoint address type length =>
      { s with bp := (deleteBreakpoint target s.bp address type length).2 }
  | .deleteAllBreakpoints => { s with bp := deleteAllBreakpoints s.bp }
  | .updateBreakpoints =>
      let after := updateBreakpoints (recorded doJtagCommand) target s.bp (s.ice, s.sent)
      { s with bp := after.bp, ice := after.ice.1, sent := after.ice.2 }

def EnabledRange (bp : BreakpointTable) (i : Nat) : Prop :=
  Visible bp i ∧ (bp.peek i).enabled = true ∧ BpType.masked (bp.peek i).type = true

/-- The breakpoint has been sent to this slot. -/
def SentTo (sent : List BreakCommand) (slot : Nat) (entry : Breakpoint2) : Prop :=
  ∃ content, setBreak entry = some content ∧ .setBreak slot content ∈ sent

/-- Every enabled range breakpoint has a mask of its own. -/
def RangeSession.Paired (s : RangeSession Ice) : Prop :=
  ∀ e, EnabledRange s.bp e →
    let m := (s.bp.peek e).maskPointer
    Visible s.bp m ∧ (s.bp.peek m).enabled = true ∧
      (s.bp.peek m).IsFor (~~~(s.length e - 1)) .dataMask ∧
      ∀ other, EnabledRange s.bp other → (s.bp.peek other).maskPointer = m → other = e

/-- A range breakpoint that has been downloaded went to the first data slot,
its mask to the slot for masks. -/
def RangeSession.Downloaded (s : RangeSession Ice) : Prop :=
  ∀ e, EnabledRange s.bp e →
    (s.bp.peek e).icestatus = true → (s.bp.peek (s.bp.peek e).maskPointer).icestatus = true →
      SentTo s.sent breakpoint2FirstData (s.bp.peek e) ∧
        SentTo s.sent breakpoint2DataMask (s.bp.peek (s.bp.peek e).maskPointer)

/-- The call adds a range, or names the address and type of one that is
enabled. -/
def BreakpointOp.AboutRange (bp : BreakpointTable) : BreakpointOp → Prop
  | .addBreakpoint _ type length => IsRange type length
  | .deleteBreakpoint address type _ =>
      ∃ e, EnabledRange bp e ∧ (bp.peek e).IsFor address (type ||| .hasMask)
  | .deleteAllBreakpoints => False
  | .updateBreakpoints => False

def BreakpointOp.Concerns (bp : BreakpointTable) (j : Nat) : BreakpointOp → Prop
  | .addBreakpoint address type length =>
      (bp.peek j).IsFor address (type ||| .hasMask) ∨
        (bp.peek j).IsFor (~~~(length - 1)) .dataMask
  | .deleteBreakpoint address type _ =>
      (bp.peek j).IsFor address (type ||| .hasMask) ∨
        ∃ e, EnabledRange bp e ∧ (bp.peek e).IsFor address (type ||| .hasMask) ∧
          (bp.peek e).maskPointer = j
  | .deleteAllBreakpoints => False
  | .updateBreakpoints => False

/-- A call about a range leaves every other breakpoint in use in its entry. -/
def RangeSession.Spares (s : RangeSession Ice) (op : BreakpointOp) : Prop :=
  op.AboutRange s.bp → ∀ j, Visible s.bp j → (s.bp.peek j).enabled = true →
    ¬ op.Concerns s.bp j →
      let after := (s.apply doJtagCommand target op).bp
      Visible after j ∧ (after.peek j).enabled = true ∧
        (after.peek j).IsFor (s.bp.peek j).address (s.bp.peek j).type

end Session

/-! ## The condition on a step -/

/-- The search for the mask of a range finds the entry its mask has been given.
No other range is enabled, neither entry has a breakpoint that is in the ICE or
on its way there, and the mask finds room. -/
structure FindsMask (target : Target) (bp : BreakpointTable) (address : UInt32) (type : BpType)
    (length : UInt32) : Prop where
  isMask : address = ~~~(length - 1)
  none : ∀ e, ¬ EnabledRange bp e
  off : (bp.peek (occupied bp address type)).enabled = false
  settled : (bp.peek (occupied bp address type)).toadd = false
  absent : (bp.peek (occupied bp address type)).icestatus = false
  absentMask : ((claimedRange bp address type).peek
    (occupied (claimedRange bp address type) (~~~(length - 1)) .dataMask)).icestatus = false
  first : searchMask (maskEntered bp address type length) (occupied bp address type)
    (~~~(length - 1)) = occupied (claimedRange bp address type) (~~~(length - 1)) .dataMask
  room : Fits target (maskEntered bp address type length)

/-- A range that gets as far as the search for its mask finds it, and one that
does not has no enabled breakpoint at or behind its entry.  A range is not
deleted in place of a single breakpoint. -/
def BreakpointOp.KeepsPairs (target : Target) (bp : BreakpointTable) : BreakpointOp → Prop
  | .addBreakpoint address type length =>
      IsRange type length →
        if ReachesSearchMask bp address type length then FindsMask target bp address type length
        else ∀ j, Visible bp j → occupied bp address type ≤ j → (bp.peek j).enabled = false
  | .deleteBreakpoint address type length =>
      (BreakpointOp.deleteBreakpoint address type length).AboutRange bp →
        ∀ j, Visible bp j → (bp.peek j).IsFor address type → (bp.peek j).enabled = false
  | .deleteAllBreakpoints => True
  | .updateBreakpoints => True

/-- Requests of the types GDB asks for, of any length. -/
def BreakpointOp.Plain : BreakpointOp → Prop
  | .addBreakpoint _ type _ => BpType.plain type = true
  | .deleteBreakpoint _ type _ => BpType.plain type = true
  | .deleteAllBreakpoints => True
  | .updateBreakpoints => True

instance : DecidablePred BreakpointOp.Plain
  | .addBreakpoint _ _ _ => inferInstanceAs (Decidable (_ = true))
  | .deleteBreakpoint _ _ _ => inferInstanceAs (Decidable (_ = true))
  | .deleteAllBreakpoints => .isTrue trivial
  | .updateBreakpoints => .isTrue trivial

/-! ## Pairs -/

/-- At most one range is enabled.  It has its mask, both have their slots, and
what the ICE has of them has been sent there. -/
structure Pairs (length : Nat → UInt32) (sent : List BreakCommand) (bp : BreakpointTable) :
    Prop where
  one : ∀ e other, EnabledRange bp e → EnabledRange bp other → other = e
  known : ∀ e, EnabledRange bp e → BpType.watchesData (bp.peek e).type = true ∧
    (bp.peek e).toremove = false ∧ ((bp.peek e).toadd = true ∨ (bp.peek e).icestatus = true)
  mask : ∀ e, EnabledRange bp e → Visible bp (bp.peek e).maskPointer ∧
    (bp.peek (bp.peek e).maskPointer).enabled = true ∧
      (bp.peek (bp.peek e).maskPointer).IsFor (~~~(length e - 1)) .dataMask
  slots : ∀ e, EnabledRange bp e → (bp.peek e).bpnum = breakpoint2FirstData ∧
    (bp.peek (bp.peek e).maskPointer).bpnum = breakpoint2DataMask
  sentRange : ∀ e, EnabledRange bp e → (bp.peek e).icestatus = true →
    SentTo sent breakpoint2FirstData (bp.peek e)
  sentMask : ∀ e, EnabledRange bp e → (bp.peek (bp.peek e).maskPointer).icestatus = true →
    SentTo sent breakpoint2DataMask (bp.peek (bp.peek e).maskPointer)

namespace Pairs

variable {length : Nat → UInt32} {sent : List BreakCommand} {bp : BreakpointTable}

theorem of_none (none : ∀ e, ¬ EnabledRange bp e) : Pairs length sent bp :=
  ⟨fun e _ enabled => absurd enabled (none e), fun e enabled => absurd enabled (none e),
    fun e enabled => absurd enabled (none e), fun e enabled => absurd enabled (none e),
    fun e enabled => absurd enabled (none e), fun e enabled => absurd enabled (none e)⟩

variable (pairs : Pairs length sent bp)
include pairs

theorem frame {after : BreakpointTable} {length' : Nat → UInt32}
    (kept : ∀ e, EnabledRange after e → EnabledRange bp e ∧ length' e = length e ∧
      after.peek e = bp.peek e ∧ Visible after (bp.peek e).maskPointer ∧
        after.peek (bp.peek e).maskPointer = bp.peek (bp.peek e).maskPointer) :
    Pairs length' sent after where
  one e other enabled enabled' := pairs.one e other (kept e enabled).1 (kept other enabled').1
  known e enabled := by
    obtain ⟨before, _, same, _⟩ := kept e enabled
    rw [same]
    exact pairs.known e before
  mask e enabled := by
    obtain ⟨before, sameLength, same, visible, sameMask⟩ := kept e enabled
    rw [same, sameMask, sameLength]
    exact ⟨visible, (pairs.mask e before).2⟩
  slots e enabled := by
    obtain ⟨before, _, same, _, sameMask⟩ := kept e enabled
    rw [same, sameMask]
    exact pairs.slots e before
  sentRange e enabled := by
    obtain ⟨before, _, same, _⟩ := kept e enabled
    rw [same]
    exact pairs.sentRange e before
  sentMask e enabled := by
    obtain ⟨before, _, same, _, sameMask⟩ := kept e enabled
    rw [same, sameMask]
    exact pairs.sentMask e before

theorem layoutData {target : Target} {e : Nat} (enabled : EnabledRange bp e) :
    ((layoutData (startLayout target bp)).bp.peek e).enabled = false ∨
      SameButSlots bp (Mk2.layoutData (startLayout target bp)).bp ∧
        (Mk2.layoutData (startLayout target bp)).bp.peek e = bp.peek e ∧
        (Mk2.layoutData (startLayout target bp)).bp.peek (bp.peek e).maskPointer =
          bp.peek (bp.peek e).maskPointer := by
  obtain ⟨visibleMask, _, _, isMask⟩ := pairs.mask e enabled
  obtain ⟨slotRange, slotMask⟩ := pairs.slots e enabled
  have apart : (bp.peek e).maskPointer ≠ e := by
    intro same
    have masked := enabled.2.2
    rw [← same, isMask] at masked
    exact absurd masked (by decide)
  refine visit_rule LayoutState.bp (fun _ _ => rfl)
    (fun _ s => Adjusts bp s.bp ∧ ((s.bp.peek e).enabled = false ∨ SameButSlots bp s.bp ∧
      s.bp.peek e = bp.peek e ∧
        s.bp.peek (bp.peek e).maskPointer = bp.peek (bp.peek e).maskPointer))
    (fun s => (s.bp.peek e).enabled = false ∨ SameButSlots bp s.bp ∧ s.bp.peek e = bp.peek e ∧
      s.bp.peek (bp.peek e).maskPointer = bp.peek (bp.peek e).maskPointer)
    ?sameEnd ?turned ?finished ⟨.refl bp, .inr ⟨.refl bp, rfl, rfl⟩⟩
  case sameEnd => exact fun _ _ here => here.1.endIndex
  case finished => exact fun _ here => here.2
  case turned =>
    rintro k s visible ⟨adjusts, off | ⟨same, sameE, sameMask⟩⟩
    · have turn := placeData_turn k s
      generalize placeData k s = taken at turn
      have off' := turn.stays_disabled off
      have adjusts' := turn.adjusts adjusts
      cases taken with
      | next => exact ⟨adjusts', .inl off'⟩
      | leave => exact .inl off'
    have range : (s.bp.peek k).waitsForPair = true → k = e := by
      intro waits
      have pair := (adjusts k).waitsForPair waits
      have data := Breakpoint2.waitsForData_of_pair pair
      simp only [Breakpoint2.waitsForData, Bool.and_eq_true] at data
      exact pairs.one e k enabled ⟨visible, data.1.1, (Breakpoint2.waitsForPair_iff.mp pair).2⟩
    have turn := placeData_turn k s
    generalize placeData k s = taken at turn
    have adjusts' := turn.adjusts adjusts
    cases turn with
    | pass => exact ⟨adjusts', .inr ⟨same, sameE, sameMask⟩⟩
    | drop waits =>
        obtain rfl := range waits
        refine ⟨adjusts', .inl ?_⟩
        rw [CArray.peek_modify_same _ _ (lt_of_visible visible)]
        rfl
    | pair waits =>
        obtain rfl := range waits
        refine ⟨adjusts', .inr ⟨(same.modify _ _).modify _ _, ?_, ?_⟩⟩
        · rw [CArray.peek_modify_same _ _ (lt_of_visible visible), sameE,
            CArray.peek_modify_ne _ _ apart, sameE, ← slotRange]
          rfl
        · rw [CArray.peek_modify_ne _ _ apart.symm, sameE,
            CArray.peek_modify_same _ _ (lt_of_visible visibleMask), sameMask, ← slotMask]
          rfl
    | single waits unmasked =>
        have notRange : k ≠ e := by
          rintro rfl
          rw [sameE] at unmasked
          exact absurd (unmasked.symm.trans enabled.2.2) Bool.noConfusion
        have notMask : k ≠ (bp.peek e).maskPointer := by
          rintro rfl
          rw [sameMask] at waits
          have watches := Breakpoint2.type_of_waitsForData waits
          rw [isMask] at watches
          exact absurd watches (by decide)
        refine ⟨adjusts', .inr ⟨same.modify _ _, ?_, ?_⟩⟩
        · rw [CArray.peek_modify_ne _ _ notRange, sameE]
        · rw [CArray.peek_modify_ne _ _ notMask, sameMask]
    | starve => exact .inr ⟨same, sameE, sameMask⟩

theorem layout (target : Target) : Pairs length sent (layoutBreakpoints target bp).2 := by
  have adjusts := layout_adjusts target bp
  refine pairs.frame fun e enabled => ?_
  have before : EnabledRange bp e := by
    obtain ⟨visible, on, masked⟩ := enabled
    obtain ⟨slot, equal⟩ := (adjusts e).of_enabled on
    rw [equal] at on masked
    exact ⟨adjusts.visible.mp visible, on, masked⟩
  obtain ⟨visibleMask, _, _, isMask⟩ := pairs.mask e before
  have keptRange : (layoutBreakpoints target bp).2.peek e =
      (Mk2.layoutData (startLayout target bp)).bp.peek e :=
    layout_peek_of_settled (Breakpoint2.not_code_of_masked before.2.2)
  have notCode : (bp.peek (bp.peek e).maskPointer).waitsForCode = false := by
    rw [Breakpoint2.waitsForCode, isMask]
    exact Bool.and_false _
  rcases @Pairs.layoutData _ _ _ pairs target e before with off | ⟨_, sameE, sameMask⟩
  · exact absurd ((layout_disabled off).symm.trans enabled.2.1) Bool.noConfusion
  · exact ⟨before, rfl, keptRange.trans sameE, adjusts.visible.mpr visibleMask,
      (layout_peek_of_settled notCode).trans sameMask⟩

theorem paired {Ice : Type} {ice : Ice} : RangeSession.Paired ⟨bp, ice, sent, length⟩ := by
  intro e enabled
  obtain ⟨visible, enabledMask, isFor⟩ := pairs.mask e enabled
  exact ⟨visible, enabledMask, isFor, fun other enabled' _ => pairs.one e other enabled enabled'⟩

theorem downloaded {Ice : Type} {ice : Ice} : RangeSession.Downloaded ⟨bp, ice, sent, length⟩ :=
  fun e enabled there thereMask =>
    ⟨pairs.sentRange e enabled there, pairs.sentMask e enabled thereMask⟩

end Pairs

/-! ## Updates -/

/-- An update on its way through a table: the entries keep their contents and
slots, and what the ICE has of them it had before or has been sent. -/
structure Sending (bp : BreakpointTable) (sent : List BreakCommand) (after : BreakpointTable)
    (sent' : List BreakCommand) : Prop where
  entries : ∀ j, (after.peek j).last = (bp.peek j).last ∧
    (after.peek j).IsFor (bp.peek j).address (bp.peek j).type ∧
      (after.peek j).enabled = (bp.peek j).enabled ∧
        (after.peek j).maskPointer = (bp.peek j).maskPointer ∧
          (after.peek j).bpnum = (bp.peek j).bpnum
  toremove : ∀ j, (after.peek j).toremove = true → (bp.peek j).toremove = true
  pending : ∀ j, (bp.peek j).toremove = false →
    (bp.peek j).toadd = true ∨ (bp.peek j).icestatus = true →
      (after.peek j).toadd = true ∨ (after.peek j).icestatus = true
  installed : ∀ j, (after.peek j).icestatus = true →
    (bp.peek j).icestatus = true ∨ SentTo sent' (bp.peek j).bpnum (bp.peek j)
  grows : ∀ command ∈ sent, command ∈ sent'

theorem SentTo.mono {sent sent' : List BreakCommand} {slot : Nat} {entry : Breakpoint2}
    (sentTo : SentTo sent slot entry) (grows : ∀ command ∈ sent, command ∈ sent') :
    SentTo sent' slot entry := by
  obtain ⟨content, equal, sentBefore⟩ := sentTo
  exact ⟨content, equal, grows _ sentBefore⟩

theorem setBreak_congr {entry other : Breakpoint2} (same : other.IsFor entry.address entry.type) :
    setBreak other = setBreak entry := by
  rw [setBreak, setBreak, same.1, same.2]

namespace Sending

variable {bp after : BreakpointTable} {sent sent' : List BreakCommand}

theorem refl (bp : BreakpointTable) (sent : List BreakCommand) : Sending bp sent bp sent :=
  ⟨fun _ => ⟨rfl, ⟨rfl, rfl⟩, rfl, rfl, rfl⟩, fun _ => id, fun _ _ => id, fun _ => .inl,
    fun _ => id⟩

variable (sending : Sending bp sent after sent')
include sending

theorem command (more : BreakCommand) : Sending bp sent after (sent' ++ [more]) :=
  ⟨sending.entries, sending.toremove, sending.pending,
    fun j there => (sending.installed j there).imp id fun sentTo =>
      sentTo.mono fun _ => List.mem_append_left _,
    fun other before => List.mem_append_left _ (sending.grows other before)⟩

theorem markRemoved {i : Nat} (flagged : (after.peek i).toremove = true) :
    Sending bp sent (after.modify i Breakpoint2.markRemoved) sent' where
  entries j := by
    rw [CArray.peek_modify]
    split <;> exact sending.entries j
  toremove j := by
    rw [CArray.peek_modify]
    split
    · exact fun flagged => absurd flagged Bool.false_ne_true
    · exact sending.toremove j
  pending j stays := by
    rw [CArray.peek_modify]
    split
    next here =>
      rw [here.1] at flagged
      exact absurd (stays.symm.trans (sending.toremove j flagged)) Bool.noConfusion
    next => exact sending.pending j stays
  installed j := by
    rw [CArray.peek_modify]
    split
    · exact fun there => absurd there Bool.false_ne_true
    · exact sending.installed j
  grows := sending.grows

theorem markAdded {i : Nat}
    (sentTo : SentTo sent' (after.peek i).bpnum (after.peek i)) :
    Sending bp sent (after.modify i Breakpoint2.markAdded) sent' where
  entries j := by
    rw [CArray.peek_modify]
    split <;> exact sending.entries j
  toremove j := by
    rw [CArray.peek_modify]
    split <;> exact sending.toremove j
  pending j stays waits := by
    rw [CArray.peek_modify]
    split
    · exact .inr rfl
    · exact sending.pending j stays waits
  installed j := by
    rw [CArray.peek_modify]
    split
    next here =>
      intro _
      obtain ⟨_, isFor, _, _, slot⟩ := sending.entries j
      rw [here.1, slot, SentTo, setBreak_congr isFor] at sentTo
      exact .inr sentTo
    next => exact sending.installed j
  grows := sending.grows

end Sending

theorem Pairs.sending {length : Nat → UInt32} {sent sent' : List BreakCommand}
    {bp after : BreakpointTable} (pairs : Pairs length sent bp)
    (sending : Sending bp sent after sent') : Pairs length sent' after := by
  have same := sending.entries
  have visible : ∀ j, Visible after j ↔ Visible bp j := fun j => by
    rw [Visible, endIndex_congr fun k => (same k).1, Visible]
  have before : ∀ {e}, EnabledRange after e → EnabledRange bp e := by
    rintro e ⟨inUse, enabled, masked⟩
    obtain ⟨_, isFor, sameEnabled, _⟩ := same e
    rw [sameEnabled] at enabled
    rw [isFor.2] at masked
    exact ⟨(visible e).mp inUse, enabled, masked⟩
  have pointer : ∀ j, (after.peek j).maskPointer = (bp.peek j).maskPointer := fun j =>
    (same j).2.2.2.1
  have sentTo : ∀ {j slot}, (bp.peek j).bpnum = slot →
      ((bp.peek j).icestatus = true → SentTo sent slot (bp.peek j)) →
        (after.peek j).icestatus = true → SentTo sent' slot (after.peek j) := by
    intro j slot here earlier there
    rw [SentTo, setBreak_congr (same j).2.1]
    rcases sending.installed j there with installed | now
    · exact (earlier installed).mono sending.grows
    · exact here ▸ now
  constructor
  case one =>
    exact fun e other enabled enabled' => pairs.one e other (before enabled) (before enabled')
  case known =>
    intro e enabled
    obtain ⟨watches, stays, waits⟩ := pairs.known e (before enabled)
    rw [(same e).2.1.2]
    refine ⟨watches, ?_, sending.pending e stays waits⟩
    exact Bool.eq_false_iff.mpr fun flagged =>
      absurd (stays.symm.trans (sending.toremove e flagged)) Bool.noConfusion
  case mask =>
    intro e enabled
    obtain ⟨inUse, enabledMask, isFor⟩ := pairs.mask e (before enabled)
    obtain ⟨_, isForAfter, sameEnabled, _⟩ := same (bp.peek e).maskPointer
    rw [pointer, sameEnabled, Breakpoint2.IsFor, isForAfter.1, isForAfter.2]
    exact ⟨(visible _).mpr inUse, enabledMask, isFor⟩
  case slots =>
    intro e enabled
    rw [pointer, (same e).2.2.2.2, (same _).2.2.2.2]
    exact pairs.slots e (before enabled)
  case sentRange =>
    exact fun e enabled => sentTo (pairs.slots e (before enabled)).1
      (pairs.sentRange e (before enabled))
  case sentMask =>
    intro e enabled
    rw [pointer]
    exact sentTo (pairs.slots e (before enabled)).2 (pairs.sentMask e (before enabled))

section Update

variable {Ice : Type} (doJtagCommand : BreakCommand → Ice → Bool × Ice)
  {bp : BreakpointTable} {sent : List BreakCommand}

theorem removeEntry_sending {i : Nat} {s : UpdateState (Ice × List BreakCommand)}
    (sending : Sending bp sent s.bp s.ice.2) :
    Sending bp sent (removeEntry (recorded doJtagCommand) i s).state.bp
      (removeEntry (recorded doJtagCommand) i s).state.ice.2 := by
  unfold removeEntry recorded
  dsimp only
  split
  next flagged =>
    have noted := sending.command (clearCommand (s.bp.peek i))
    cases doJtagCommand (clearCommand (s.bp.peek i)) s.ice.1 with
    | mk accepted ice =>
        cases accepted with
        | false => exact noted
        | true => exact noted.markRemoved flagged
  next => exact sending

theorem downloadEntry_sending {i : Nat} {s : UpdateState (Ice × List BreakCommand)}
    (sending : Sending bp sent s.bp s.ice.2) :
    Sending bp sent (downloadEntry (recorded doJtagCommand) i s).state.bp
      (downloadEntry (recorded doJtagCommand) i s).state.ice.2 := by
  unfold downloadEntry recorded
  dsimp only
  split
  next =>
    split
    · exact sending
    next content equal =>
      have noted := sending.command (.setBreak (s.bp.peek i).bpnum content)
      cases doJtagCommand (.setBreak (s.bp.peek i).bpnum content) s.ice.1 with
      | mk accepted ice =>
          cases accepted with
          | false => exact noted
          | true =>
              exact noted.markAdded ⟨content, equal, List.mem_append_right _ List.mem_cons_self⟩
  next => exact sending

theorem updateBreakpoints_sending (target : Target) (ice : Ice) :
    let after := updateBreakpoints (recorded doJtagCommand) target bp (ice, sent)
    Sending (layoutBreakpoints target bp).2 sent after.bp after.ice.2 := by
  have removed : ∀ {s : UpdateState (Ice × List BreakCommand)},
      Sending (layoutBreakpoints target bp).2 sent s.bp s.ice.2 →
        Sending (layoutBreakpoints target bp).2 sent
          (removeAll (recorded doJtagCommand) s).bp
          (removeAll (recorded doJtagCommand) s).ice.2 :=
    fun start => @scan_state _ _ _
      (fun s : UpdateState (Ice × List BreakCommand) => Sending _ sent s.bp s.ice.2)
      (fun _ _ => removeEntry_sending doJtagCommand) _ _ start
  have downloaded : ∀ {s : UpdateState (Ice × List BreakCommand)},
      Sending (layoutBreakpoints target bp).2 sent s.bp s.ice.2 →
        Sending (layoutBreakpoints target bp).2 sent
          (downloadAll (recorded doJtagCommand) s).bp
          (downloadAll (recorded doJtagCommand) s).ice.2 :=
    fun start => @scan_state _ _ _
      (fun s : UpdateState (Ice × List BreakCommand) => Sending _ sent s.bp s.ice.2)
      (fun _ _ => downloadEntry_sending doJtagCommand) _ _ start
  intro after
  have start := removed (s := ⟨(layoutBreakpoints target bp).2, (ice, sent), false⟩)
    (.refl _ sent)
  show Sending _ _ (updateBreakpoints (recorded doJtagCommand) target bp (ice, sent)).bp
    (updateBreakpoints (recorded doJtagCommand) target bp (ice, sent)).ice.2
  unfold updateBreakpoints
  dsimp only
  split
  · exact start
  · exact downloaded start

end Update

/-! ## Calls -/

section Calls

variable {target : Target} {added : List (UInt32 × BpType)} {length length' : Nat → UInt32}
  {sent : List BreakCommand} {bp : BreakpointTable} {address : UInt32} {type : BpType}
  {bytes : UInt32}

theorem deleteAllBreakpoints_pairs (terminated : Terminated bp) :
    Pairs length sent (deleteAllBreakpoints bp) := by
  have fewer := fewer_deleteAllBreakpoints terminated
  refine .of_none fun e enabled => ?_
  obtain ⟨visible, on, _⟩ := enabled
  rw [deleteAllBreakpoints_peek, if_pos (fewer.visible.mp visible)] at on
  unfold disableEntry at on
  split at on <;> cases on

variable (pairs : Pairs length sent bp)
include pairs

theorem Pairs.change {i : Nat} {change : Breakpoint2 → Breakpoint2}
    (last : (change (bp.peek i)).last = (bp.peek i).last)
    (plain : BpType.plain (change (bp.peek i)).type = true)
    (notMask : (bp.peek i).enabled = true → (bp.peek i).type ≠ .dataMask) :
    Pairs length sent (bp.modify i change) := by
  have visible := visible_modify last
  refine pairs.frame fun e enabled => ?_
  have notRange : ∀ {inside : i < maxTotalBreakpoints2}, i ≠ e := by
    rintro inside rfl
    have masked := enabled.2.2
    rw [CArray.peek_modify_same _ _ inside] at masked
    exact absurd ((BpType.not_masked_of_plain plain).symm.trans masked) Bool.noConfusion
  have sameRange : (bp.modify i change).peek e = bp.peek e := by
    rw [CArray.peek_modify, if_neg fun both => @notRange both.2 both.1]
  have before : EnabledRange bp e := by
    obtain ⟨inUse, on, masked⟩ := enabled
    rw [sameRange] at on masked
    exact ⟨(visible e).mp inUse, on, masked⟩
  obtain ⟨inUse, on, _, isMask⟩ := pairs.mask e before
  have apart : i ≠ (bp.peek e).maskPointer := by
    rintro rfl
    exact notMask on isMask
  exact ⟨before, rfl, sameRange, (visible _).mpr inUse, CArray.peek_modify_ne _ _ apart⟩

theorem Pairs.deleteBreakpoint (terminated : Terminated bp) (plain : BpType.plain type = true) :
    Pairs length sent (deleteBreakpoint target bp address type bytes).2 := by
  rw [deleteBreakpoint_eq terminated]
  split
  next found =>
    refine (pairs.change rfl ?_ fun _ => ?_).layout target
    · rw [← found.2] at plain
      exact plain
    · intro isMask
      rw [← found.2, isMask] at plain
      exact absurd plain (by decide)
  next => exact pairs

theorem Pairs.claimed (room : occupied bp address type < 31)
    (occupies : Occupies bp address type (occupied bp address type))
    (plain : BpType.plain type = true)
    (lengths : ∀ e ≠ occupied bp address type, length' e = length e) :
    Pairs length' sent (claimed bp address type) := by
  have visible := fun j => @claimEntry_visible bp address type _ room occupies.le_endIndex j
  have others : ∀ {j}, Visible bp j → (bp.peek j).enabled = true → (bp.peek j).type ≠ type →
      j ≠ occupied bp address type := by
    rintro j inUse on different rfl
    cases occupies with
    | again _ _ sameType => exact different sameType
    | append atEnd => exact absurd inUse (Nat.not_lt.mpr atEnd.ge)
    | reuse _ disabled => exact absurd (disabled.symm.trans on) Bool.noConfusion
  refine pairs.frame fun e enabled => ?_
  have notRange : e ≠ occupied bp address type := by
    rintro rfl
    have masked := enabled.2.2
    rw [Mk2.claimed, claimEntry_peek_self room, Breakpoint2.occupy_type,
      BpType.not_masked_of_plain plain] at masked
    cases masked
  have inUse := ((visible e).mp enabled.1).resolve_right notRange
  have sameRange : (Mk2.claimed bp address type).peek e = bp.peek e :=
    claimEntry_peek_ne inUse notRange
  have before : EnabledRange bp e := by
    obtain ⟨_, on, masked⟩ := enabled
    rw [sameRange] at on masked
    exact ⟨inUse, on, masked⟩
  obtain ⟨inUseMask, on, _, isMask⟩ := pairs.mask e before
  have notMask : (bp.peek e).maskPointer ≠ occupied bp address type := by
    refine others inUseMask on fun same => ?_
    rw [← same, isMask] at plain
    exact absurd plain (by decide)
  exact ⟨before, lengths e notRange, sameRange, (visible _).mpr (.inl inUseMask),
    claimEntry_peek_ne inUseMask notMask⟩

theorem Pairs.finishAdd {i : Nat} (visible : Visible bp i)
    (plain : BpType.plain (bp.peek i).type = true) :
    Pairs length sent (finishAdd target bp i).2 := by
  have notMask : (bp.peek i).type ≠ .dataMask := by
    intro isMask
    rw [isMask] at plain
    exact absurd plain (by decide)
  have flagged : Pairs length sent (bp.modify i Breakpoint2.flagAdd) := by
    refine pairs.change ?_ ?_ fun _ => notMask
    · rw [Breakpoint2.flagAdd_eq]
    · rw [Breakpoint2.flagAdd_eq]
      exact plain
  have laid := flagged.layout target
  have type : ((layoutBreakpoints target (bp.modify i Breakpoint2.flagAdd)).2.peek i).type =
      (bp.peek i).type := by
    rw [(layout_adjusts target (bp.modify i Breakpoint2.flagAdd) i).type, modify_peek_eq visible,
      if_pos rfl, Breakpoint2.flagAdd_eq]
  have single : BpType.masked (((layoutBreakpoints target
      (bp.modify i Breakpoint2.flagAdd)).2.modify i Breakpoint2.disable).peek i).type = false := by
    rw [CArray.peek_modify_same _ _ (lt_of_visible visible), Breakpoint2.disable_type, type]
    exact BpType.not_masked_of_plain plain
  rw [finishAdd_eq]
  simp only [single, Bool.false_eq_true, if_false]
  split
  · exact laid
  · refine laid.change rfl ?_ fun _ => type ▸ notMask
    rw [Breakpoint2.disable_type, type]
    exact plain

theorem Pairs.rejected (orderly : Orderly added bp) (room : occupied bp address type < 31)
    (occupies : Occupies bp address type (occupied bp address type)) {table : BreakpointTable}
    (which : table = Mk2.claimed bp address type ∨ table = claimedRange bp address type)
    (lengths : ∀ e ≠ occupied bp address type, length' e = length e)
    (last : ∀ j, Visible bp j → occupied bp address type ≤ j → (bp.peek j).enabled = false) :
    Pairs length' sent (table.modify (occupied bp address type) Breakpoint2.reject) := by
  obtain ⟨marker, entries, _⟩ := orderly.rejected room occupies which
  have same : ∀ {j}, j < occupied bp address type →
      (table.modify (occupied bp address type) Breakpoint2.reject).peek j = bp.peek j := by
    intro j less
    rw [CArray.peek_modify_ne _ _ less.ne', entries j less]
  refine pairs.frame fun e enabled => ?_
  have less : e < occupied bp address type := marker ▸ enabled.1
  have before : EnabledRange bp e := by
    obtain ⟨_, on, masked⟩ := enabled
    rw [same less] at on masked
    exact ⟨less.trans_le occupies.le_endIndex, on, masked⟩
  obtain ⟨inUse, on, _⟩ := pairs.mask e before
  have lessMask : (bp.peek e).maskPointer < occupied bp address type := by
    by_contra behind
    exact absurd ((last _ inUse (Nat.le_of_not_lt behind)).symm.trans on) Bool.noConfusion
  exact ⟨before, lengths e less.ne, same less, by rwa [Visible, marker], same lessMask⟩

end Calls

/-! ## A range that finds its mask -/

section Finds

variable {target : Target} {added : List (UInt32 × BpType)} {bp : BreakpointTable}
  {address : UInt32} {type : BpType} {bytes : UInt32}

/-- The entries of a table in which a range and its mask have been entered. -/
structure MaskEntered (bp : BreakpointTable) (address : UInt32) (type : BpType) (mask : UInt32)
    (i m : Nat) (after : BreakpointTable) : Prop where
  apart : i ≠ m
  visible : ∀ j, Visible after j ↔ Visible bp j ∨ j = i ∨ j = m
  atRange : after.peek i = ((bp.peek i).occupy address type).setType (type ||| .hasMask)
  atMask : after.peek m =
    (((claimedRange bp address type).peek m).occupy mask .dataMask).flagAdd
  others : ∀ j, Visible bp j → j ≠ i → j ≠ m → after.peek j = bp.peek j
  usedRange : Visible bp i → (bp.peek i).enabled = true → (bp.peek i).IsFor address type
  usedMask : Visible bp m → (bp.peek m).enabled = true → (bp.peek m).IsFor mask .dataMask

theorem Occupies.used {i : Nat} (occupies : Occupies bp address type i) (visible : Visible bp i)
    (enabled : (bp.peek i).enabled = true) : (bp.peek i).IsFor address type := by
  cases occupies with
  | again _ sameAddress sameType => exact ⟨sameAddress, sameType⟩
  | append atEnd => exact absurd visible (Nat.not_lt.mpr atEnd.ge)
  | reuse _ disabled => exact absurd (disabled.symm.trans enabled) Bool.noConfusion

theorem maskEntered_entries (orderly : Orderly added bp) (room : occupied bp address type < 31)
    (reaches : ReachesSearchMask bp address type bytes) :
    MaskEntered bp address type (~~~(bytes - 1)) (occupied bp address type)
      (occupied (claimedRange bp address type) (~~~(bytes - 1)) .dataMask)
      (maskEntered bp address type bytes) := by
  have occupies := ((occupied_spec orderly.toTerminated address type).resolve_left
    fun full => room.ne full.2).2
  obtain ⟨ordered, _, _⟩ := orderly.claimedRange room occupies
  obtain ⟨roomMask, occupiesMask⟩ := (occupied_spec ordered.toTerminated (~~~(bytes - 1))
    .dataMask).resolve_left fun full => reaches.2.2.2.2.2 full.2
  obtain ⟨_, visibleMask⟩ := ordered.claimMask roomMask occupiesMask
  have apart := claimedRange_apart room occupies occupiesMask
  have visibleRange := claimedRange_visible room occupies
  have keepsLast : ∀ entry : Breakpoint2, entry.flagAdd.last = entry.last := fun entry => by
    rw [Breakpoint2.flagAdd_eq]
  have inRange : ∀ j, Visible (claimedRange bp address type) j ↔
      Visible bp j ∨ j = occupied bp address type := fun j =>
    (visible_modify rfl j).trans (claimEntry_visible room occupies.le_endIndex j)
  refine ⟨apart, fun j => ?_, ?_, ?_, fun j visible notRange notMask => ?_, occupies.used, ?_⟩
  · rw [← or_assoc, ← inRange]
    exact (visible_modify (keepsLast _) j).trans
      (claimEntry_visible roomMask occupiesMask.le_endIndex j)
  · unfold maskEntered
    dsimp only
    rw [CArray.peek_modify_ne _ _ apart.symm, claimed, claimEntry_peek_ne visibleRange apart,
      claimedRange_peek room]
  · unfold maskEntered
    dsimp only
    rw [CArray.peek_modify_same _ _ (lt_of_visible visibleMask), claimed,
      claimEntry_peek_self roomMask]
  · unfold maskEntered
    dsimp only
    rw [CArray.peek_modify_ne _ _ notMask.symm, claimed,
      claimEntry_peek_ne ((inRange j).mpr (.inl visible)) notMask,
      claimedRange_peek_ne visible notRange]
  · intro visible enabled
    have same := claimedRange_peek_ne visible apart.symm
    rw [← same] at enabled ⊢
    exact occupiesMask.used ((inRange _).mpr (.inl visible)) enabled

/-- The table in which a range has been linked to its own mask. -/
structure PairEntered (bp : BreakpointTable) (address : UInt32) (type : BpType) (mask : UInt32)
    (i m : Nat) (after : BreakpointTable) : Prop where
  apart : i ≠ m
  visible : ∀ j, Visible after j ↔ Visible bp j ∨ j = i ∨ j = m
  isRange : (after.peek i).IsFor address (type ||| .hasMask)
  waits : (after.peek i).enabled = true ∧ (after.peek i).toadd = true ∧
    (after.peek i).toremove = false ∧ (after.peek i).icestatus = false
  linked : (after.peek i).maskPointer = m
  isMask : (after.peek m).IsFor mask .dataMask
  enabledMask : (after.peek m).enabled = true ∧ (after.peek m).icestatus = false
  others : ∀ j, Visible bp j → j ≠ i → j ≠ m → ∃ slot, after.peek j = (bp.peek j).setBpnum slot

variable (orderly : Orderly added bp) (room : occupied bp address type < 31)
  (reaches : ReachesSearchMask bp address type bytes)
  (finds : FindsMask target bp address type bytes)
include orderly room reaches finds

theorem FindsMask.noRangesWaiting : NoRangesWaiting (maskEntered bp address type bytes) := by
  have entered := maskEntered_entries orderly room reaches
  intro j visible waits
  refine Bool.eq_false_iff.mpr fun masked => ?_
  obtain ⟨enabled, toadd⟩ : ((maskEntered bp address type bytes).peek j).enabled = true ∧
      ((maskEntered bp address type bytes).peek j).toadd = true := by
    simp only [Breakpoint2.waitsForData, Bool.and_eq_true] at waits
    exact waits.1
  by_cases isRange : j = occupied bp address type
  · rw [isRange, entered.atRange] at toadd
    exact absurd (finds.settled.symm.trans toadd) Bool.noConfusion
  by_cases isMask : j = occupied (claimedRange bp address type) (~~~(bytes - 1)) .dataMask
  · rw [isMask, entered.atMask, Breakpoint2.flagAdd_eq] at masked
    exact absurd (show BpType.masked .dataMask = true from masked) (by decide)
  · have inUse := ((entered.visible j).mp visible).resolve_right fun either =>
      either.elim isRange isMask
    rw [entered.others j inUse isRange isMask] at enabled masked
    exact finds.none j ⟨inUse, enabled, masked⟩

theorem FindsMask.pairEntered :
    PairEntered bp address type (~~~(bytes - 1)) (occupied bp address type)
      (occupied (claimedRange bp address type) (~~~(bytes - 1)) .dataMask)
      ((linked target bp address type bytes).modify (occupied bp address type)
        Breakpoint2.flagAdd) := by
  have entered := maskEntered_entries orderly room reaches
  have same := rangeEntered_sameInIce orderly room reaches finds.room
  generalize (linked target bp address type bytes).modify (occupied bp address type)
    Breakpoint2.flagAdd = flagged at same ⊢
  have entries : rangeEntered bp address type bytes =
      ((maskEntered bp address type bytes).modify (occupied bp address type)
        (Breakpoint2.setMaskPointer (occupied (claimedRange bp address type) (~~~(bytes - 1))
          .dataMask))).modify (occupied bp address type) Breakpoint2.flagAdd := by
    unfold rangeEntered
    dsimp only
    rw [masksPlaced_of_none (finds.noRangesWaiting orderly room reaches), finds.first]
  rw [entries] at same
  have absent := finds.absent
  have absentMask := finds.absentMask
  generalize occupied (claimedRange bp address type) (~~~(bytes - 1)) .dataMask = m
    at entered same absentMask ⊢
  generalize maskEntered bp address type bytes = table at entered same
  generalize occupied bp address type = i at entered same absent ⊢
  have inUse : Visible table i := (entered.visible i).mpr (.inr (.inl rfl))
  have linked : ∀ j, ∃ slot, flagged.peek j = Breakpoint2.setBpnum slot (if j = i
      then ((table.peek j).setMaskPointer m).flagAdd else table.peek j) := by
    intro j
    obtain ⟨slot, equal⟩ := same.sameButSlots j
    refine ⟨slot, ?_⟩
    rw [equal, modify_peek_eq ((visible_modify (Breakpoint2.setMaskPointer_last _ _) i).mpr inUse),
      modify_peek_eq inUse]
    split <;> rfl
  obtain ⟨slotRange, atRange⟩ := linked i
  obtain ⟨slotMask, atMask⟩ := linked m
  rw [if_pos rfl, entered.atRange, Breakpoint2.flagAdd_eq] at atRange
  rw [if_neg entered.apart.symm, entered.atMask, Breakpoint2.flagAdd_eq] at atMask
  refine ⟨entered.apart, fun j => ?_, ?_, ?_, ?_, ?_, ?_, fun j visible notRange notMask => ?_⟩
  · refine (same.sameButSlots.visible.trans ((visible_modify ?_ j).trans
      (visible_modify (Breakpoint2.setMaskPointer_last _ _) j))).trans (entered.visible j)
    rw [Breakpoint2.flagAdd_eq]
  · rw [atRange]
    exact ⟨rfl, rfl⟩
  · rw [atRange]
    refine ⟨rfl, ?_, rfl, absent⟩
    show (!(bp.peek i).icestatus) = true
    rw [absent]
    rfl
  · rw [atRange]
    rfl
  · rw [atMask]
    exact ⟨rfl, rfl⟩
  · rw [atMask]
    exact ⟨rfl, absentMask⟩
  · obtain ⟨slot, equal⟩ := linked j
    rw [if_neg notRange, entered.others j visible notRange notMask] at equal
    exact ⟨slot, equal⟩

end Finds

section Finish

variable {target : Target} {bp table : BreakpointTable} {address : UInt32} {type : BpType}
  {mask : UInt32} {i m : Nat} {sent : List BreakCommand} (noCode : type ≠ .code)
  (plain : BpType.plain type = true) (none : ∀ e, ¬ EnabledRange bp e)
  (entered : PairEntered bp address type mask i m (table.modify i Breakpoint2.flagAdd))
include none entered

theorem PairEntered.only {e : Nat}
    (enabled : EnabledRange (table.modify i Breakpoint2.flagAdd) e) : e = i := by
  by_contra notRange
  obtain ⟨visible, on, masked⟩ := enabled
  by_cases isMask : e = m
  · rw [isMask, entered.isMask.2] at masked
    exact absurd masked (by decide)
  have inUse := ((entered.visible e).mp visible).resolve_right fun either =>
    either.elim notRange isMask
  obtain ⟨slot, equal⟩ := entered.others e inUse notRange isMask
  rw [equal] at on masked
  exact none e ⟨inUse, on, masked⟩

theorem PairEntered.only_waits (r : Nat) (notRange : r ≠ i)
    (visible : Visible (table.modify i Breakpoint2.flagAdd) r) :
    ((table.modify i Breakpoint2.flagAdd).peek r).waitsForPair = false := by
  refine Bool.eq_false_iff.mpr fun waits => notRange (entered.only none ?_)
  obtain ⟨data, masked⟩ := Breakpoint2.waitsForPair_iff.mp waits
  simp only [Breakpoint2.waitsForData, Bool.and_eq_true] at data
  exact ⟨visible, data.1.1, masked⟩

theorem PairEntered.given_up
    (full : (layoutBreakpoints target (table.modify i Breakpoint2.flagAdd)).1 = false) :
    (∀ e, ¬ EnabledRange (finishAdd target table i).2 e) ∧
      ∀ j, j ≠ i → j ≠ m → ∃ slot, (finishAdd target table i).2.peek j =
        ((table.modify i Breakpoint2.flagAdd).peek j).setBpnum slot := by
  have adjusts := finishAdd_adjusts target table i
  have inUse : Visible (table.modify i Breakpoint2.flagAdd) i :=
    (entered.visible i).mpr (.inr (.inl rfl))
  have inside := lt_of_visible inUse
  have off : ((finishAdd target table i).2.peek i).enabled = false :=
    finishAdd_given_up ((visible_modify (by rw [Breakpoint2.flagAdd_eq]) i).mp inUse) full
  refine ⟨fun e enabled => ?_, fun j notRange notMask => ?_⟩
  · obtain ⟨slot, equal⟩ := (adjusts e).of_enabled enabled.2.1
    have before : EnabledRange (table.modify i Breakpoint2.flagAdd) e := by
      obtain ⟨visible, on, masked⟩ := enabled
      rw [equal] at on masked
      exact ⟨adjusts.visible.mp visible, on, masked⟩
    obtain rfl := entered.only none before
    exact absurd (off.symm.trans enabled.2.1) Bool.noConfusion
  · have laid := layout_adjusts target (table.modify i Breakpoint2.flagAdd) i
    obtain ⟨slot, equal⟩ : ∃ slot,
        (layoutBreakpoints target (table.modify i Breakpoint2.flagAdd)).2.peek j =
          ((table.modify i Breakpoint2.flagAdd).peek j).setBpnum slot := by
      obtain ⟨data, equal⟩ := @layoutData_keeps target _ i (entered.only_waits none) j notRange
        (entered.linked ▸ notMask)
      obtain ⟨slot, equal'⟩ := (layoutCode_spec target _).1.entries j
      exact ⟨slot, equal'.trans (by rw [equal]; rfl)⟩
    refine ⟨slot, ?_⟩
    rw [finishAdd_eq]
    simp only [full, Bool.false_eq_true, if_false]
    split
    · rw [CArray.peek_modify_same _ _ inside, Breakpoint2.disable_maskPointer, laid.maskPointer,
        entered.linked, CArray.peek_modify_ne _ _ notMask.symm,
        CArray.peek_modify_ne _ _ notRange.symm, equal]
    · rw [CArray.peek_modify_ne _ _ notRange.symm, equal]

include noCode plain

theorem PairEntered.armed
    (hadroom : (layoutBreakpoints target (table.modify i Breakpoint2.flagAdd)).1 = true)
    {length : Nat → UInt32} (masks : mask = ~~~(length i - 1)) :
    Pairs length sent (finishAdd target table i).2 ∧
      SameButSlots (table.modify i Breakpoint2.flagAdd) (finishAdd target table i).2 := by
  rw [finishAdd_of_room hadroom]
  have only := fun e => @PairEntered.only _ _ _ _ _ _ _ none entered e
  have onlyWaits := entered.only_waits none
  generalize table.modify i Breakpoint2.flagAdd = flagged at entered only onlyWaits hadroom ⊢
  have inUse : Visible flagged i := (entered.visible i).mpr (.inr (.inl rfl))
  have inUseMask : Visible flagged m := (entered.visible m).mpr (.inr (.inr rfl))
  have watches : BpType.watchesData (flagged.peek i).type = true := by
    rw [entered.isRange.2]
    exact BpType.watchesData_masked plain noCode
  have masked : BpType.masked (flagged.peek i).type = true := by
    rw [entered.isRange.2]
    exact BpType.masked_hasMask type
  obtain ⟨enabled, toadd, stays, absent⟩ := entered.waits
  have pair : (flagged.peek i).waitsForPair = true := by
    rw [Breakpoint2.waitsForPair_iff]
    exact ⟨by simp [Breakpoint2.waitsForData, enabled, toadd, watches], masked⟩
  have fits : RangeFits target flagged i := by
    rcases layout_hadroom_iff_fits.mp hadroom with ⟨single, _⟩ | ⟨⟨r, fits⟩, _⟩
    · exact absurd ((single i inUse (Breakpoint2.waitsForData_of_pair pair)).symm.trans masked)
        Bool.noConfusion
    · by_cases here : r = i
      · exact here ▸ fits
      · exact absurd ((onlyWaits r here fits.visible).symm.trans fits.waits) Bool.noConfusion
  obtain ⟨first, later⟩ := around_only fits.visible fits.alone
  obtain ⟨same, entries⟩ := layout_placed inUse pair first later
    (pairFree_iff.mpr ⟨fits.first, fits.mask⟩)
  have atRange : (layoutBreakpoints target flagged).2.peek i =
      (flagged.peek i).setBpnum breakpoint2FirstData := by
    rw [entries i (Breakpoint2.not_code_of_masked masked), placedRange, entered.linked,
      CArray.peek_modify_same _ _ (lt_of_visible inUse), CArray.peek_modify_ne _ _ entered.apart.symm]
  have atMask : (layoutBreakpoints target flagged).2.peek m =
      (flagged.peek m).setBpnum breakpoint2DataMask := by
    have notCode : (flagged.peek m).waitsForCode = false := by
      rw [Breakpoint2.waitsForCode, entered.isMask.2]
      exact Bool.and_false _
    rw [entries m notCode, placedRange, entered.linked, CArray.peek_modify_ne _ _ entered.apart,
      CArray.peek_modify_same _ _ (lt_of_visible inUseMask)]
  have here : ∀ {e}, EnabledRange (layoutBreakpoints target flagged).2 e → e = i := by
    rintro e ⟨visible, on, isRange⟩
    obtain ⟨slot, equal⟩ := same e
    rw [equal] at on isRange
    exact only e ⟨same.visible.mp visible, on, isRange⟩
  have pointer : ((layoutBreakpoints target flagged).2.peek i).maskPointer = m := by
    rw [atRange]
    exact entered.linked
  refine ⟨⟨fun e other enabledE enabledO => ?_, fun e enabledE => ?_, fun e enabledE => ?_,
    fun e enabledE => ?_, fun e enabledE there => ?_, fun e enabledE there => ?_⟩, same⟩
  · rw [here enabledE, here enabledO]
  all_goals obtain rfl := here enabledE
  · rw [atRange]
    exact ⟨watches, stays, .inl toadd⟩
  · rw [pointer, atMask]
    exact ⟨same.visible.mpr inUseMask, entered.enabledMask.1, masks ▸ entered.isMask⟩
  · rw [pointer, atMask, atRange]
    exact ⟨rfl, rfl⟩
  · rw [atRange] at there
    exact absurd (absent.symm.trans there) Bool.noConfusion
  · rw [pointer, atMask] at there
    exact absurd (entered.enabledMask.2.symm.trans there) Bool.noConfusion

end Finish

theorem FindsMask.added {target : Target} {added : List (UInt32 × BpType)} {bp : BreakpointTable}
    {address : UInt32} {type : BpType} {bytes : UInt32} {sent : List BreakCommand}
    {length : Nat → UInt32} (orderly : Orderly added bp) (plain : BpType.plain type = true)
    (room : occupied bp address type < 31) (reaches : ReachesSearchMask bp address type bytes)
    (finds : FindsMask target bp address type bytes)
    (lengths : length (occupied bp address type) = bytes) :
    let after :=
      (finishAdd target (linked target bp address type bytes) (occupied bp address type)).2
    Pairs length sent after ∧
      ∀ j, Visible bp j → (bp.peek j).enabled = true →
        ¬ (bp.peek j).IsFor (~~~(bytes - 1)) .dataMask →
          Visible after j ∧ ∃ slot, after.peek j = (bp.peek j).setBpnum slot := by
  intro after
  have unused := maskEntered_entries orderly room reaches
  have entered := finds.pairEntered orderly room reaches
  have adjusts : Adjusts _ after := finishAdd_adjusts target _ _
  have kept : (∀ j, j ≠ occupied bp address type →
        j ≠ occupied (claimedRange bp address type) (~~~(bytes - 1)) .dataMask →
          ∃ slot, after.peek j = (((linked target bp address type bytes).modify
            (occupied bp address type) Breakpoint2.flagAdd).peek j).setBpnum slot) →
      ∀ j, Visible bp j → (bp.peek j).enabled = true →
        ¬ (bp.peek j).IsFor (~~~(bytes - 1)) .dataMask →
          Visible after j ∧ ∃ slot, after.peek j = (bp.peek j).setBpnum slot := by
    intro same j visible enabled notMask
    have notRange : j ≠ occupied bp address type := by
      rintro rfl
      exact absurd (finds.off.symm.trans enabled) Bool.noConfusion
    have otherMask : j ≠ occupied (claimedRange bp address type) (~~~(bytes - 1)) .dataMask := by
      rintro rfl
      exact notMask (unused.usedMask visible enabled)
    obtain ⟨first, equal⟩ := entered.others j visible notRange otherMask
    obtain ⟨slot, equal'⟩ := same j notRange otherMask
    refine ⟨adjusts.visible.mpr ((entered.visible j).mpr (.inl visible)), slot, ?_⟩
    rw [equal', equal]
    rfl
  cases hadroom : (layoutBreakpoints target ((linked target bp address type bytes).modify
      (occupied bp address type) Breakpoint2.flagAdd)).1 with
  | true =>
      obtain ⟨pairs, same⟩ := entered.armed reaches.1 plain finds.none hadroom
        (congrArg (fun bytes => ~~~(bytes - 1)) lengths.symm)
      exact ⟨pairs, kept fun j _ _ => same j⟩
  | false =>
      obtain ⟨none, same⟩ := entered.given_up finds.none hadroom
      exact ⟨.of_none none, kept same⟩

/-! ## Runs that keep the pairs -/

section Runs

variable {Ice : Type} (doJtagCommand : BreakCommand → Ice → Bool × Ice) (target : Target)
  {s : RangeSession Ice} {added : List (UInt32 × BpType)}

theorem RangeSession.add_keeps (orderly : Orderly added s.bp)
    (pairs : Pairs s.length s.sent s.bp) {address : UInt32} {type : BpType} {bytes : UInt32}
    (plain : BpType.plain type = true)
    (keeps : (BreakpointOp.addBreakpoint address type bytes).KeepsPairs target s.bp) :
    Pairs (fun i => if i = occupied s.bp address type then bytes else s.length i) s.sent
        (addBreakpoint target s.bp address type bytes).2 ∧
      s.Spares doJtagCommand target (.addBreakpoint address type bytes) := by
  have lengths : ∀ e ≠ occupied s.bp address type,
      (if e = occupied s.bp address type then bytes else s.length e) = s.length e :=
    fun e different => if_neg different
  have occupies : occupied s.bp address type < 31 →
      Occupies s.bp address type (occupied s.bp address type) := fun room =>
    ((occupied_spec orderly.toTerminated address type).resolve_left fun full => room.ne full.2).2
  have outcome := @addBreakpoint_outcome target s.bp orderly.toTerminated address type bytes
  unfold RangeSession.Spares RangeSession.apply
  dsimp only
  generalize addBreakpoint target s.bp address type bytes = result at outcome
  cases outcome with
  | full full =>
      refine ⟨pairs.frame fun e enabled => ⟨enabled, lengths e ?_, rfl, (pairs.mask e enabled).1,
        rfl⟩, fun _ j visible enabled _ => ⟨visible, enabled, rfl, rfl⟩⟩
      rw [full]
      exact (enabled.1.trans_le (endIndex_le_of_last orderly.sentinel)).ne
  | rejected room range turnedDown table which =>
      have last := keeps range
      rw [if_neg turnedDown] at last
      obtain ⟨marker, entries, _⟩ := orderly.rejected room (occupies room) which
      refine ⟨pairs.rejected orderly room (occupies room) which lengths last,
        fun _ j visible enabled _ => ?_⟩
      have less : j < occupied s.bp address type := by
        by_contra behind
        exact absurd ((last j visible (Nat.le_of_not_lt behind)).symm.trans enabled)
          Bool.noConfusion
      rw [Visible, marker, CArray.peek_modify_ne _ _ less.ne', entries j less]
      exact ⟨less, enabled, rfl, rfl⟩
  | single room single =>
      have claimed := pairs.claimed room (occupies room) plain lengths
      refine ⟨claimed.finishAdd ?_ ?_, fun about => absurd about single⟩
      · exact (orderly.claimed room (occupies room)).2.2
      · rw [Mk2.claimed, claimEntry_peek_self room]
        exact plain
  | range room range reaches =>
      have finds := keeps range
      rw [if_pos reaches] at finds
      obtain ⟨after, kept⟩ := @FindsMask.added target added s.bp address type bytes s.sent
        (fun i => if i = occupied s.bp address type then bytes else s.length i) orderly plain room
        reaches finds (if_pos rfl)
      refine ⟨after, fun _ j visible enabled other => ?_⟩
      obtain ⟨inUse, slot, equal⟩ := kept j visible enabled fun isMask => other (.inr isMask)
      rw [equal]
      exact ⟨inUse, enabled, rfl, rfl⟩

theorem RangeSession.delete_spares (orderly : Orderly added s.bp)
    (pairs : Pairs s.length s.sent s.bp) {address : UInt32} {type : BpType} {bytes : UInt32}
    (keeps : (BreakpointOp.deleteBreakpoint address type bytes).KeepsPairs target s.bp) :
    s.Spares doJtagCommand target (.deleteBreakpoint address type bytes) := by
  intro about j visible enabled other
  obtain ⟨e, enabledE, isFor⟩ := about
  have none := keeps ⟨e, enabledE, isFor⟩
  show Visible (deleteBreakpoint target s.bp address type bytes).2 j ∧
    ((deleteBreakpoint target s.bp address type bytes).2.peek j).enabled = true ∧
      ((deleteBreakpoint target s.bp address type bytes).2.peek j).IsFor _ _
  rw [deleteBreakpoint_eq orderly.toTerminated]
  split
  swap
  · exact ⟨visible, enabled, rfl, rfl⟩
  next found =>
    have off : (s.bp.peek (searchEntry s.bp address type)).enabled = false := by
      rcases searchEntry_spec s.bp address type with ⟨atEnd, _⟩ | ⟨inUse, named⟩
      · exact orderly.markers _ (atEnd ▸ last_at_endIndex s.bp)
      · exact none _ inUse named
    generalize searchEntry s.bp address type = k at off
    have entries : ∀ j, (s.bp.peek j).enabled = true →
        (s.bp.modify k Breakpoint2.withdraw).peek j = s.bp.peek j := by
      intro j on
      refine CArray.peek_modify_ne _ _ ?_
      rintro rfl
      exact absurd (off.symm.trans on) Bool.noConfusion
    have visible' : ∀ j, Visible (s.bp.modify k Breakpoint2.withdraw) j ↔ Visible s.bp j :=
      visible_modify rfl
    have only : ∀ r ≠ e, Visible (s.bp.modify k Breakpoint2.withdraw) r →
        ((s.bp.modify k Breakpoint2.withdraw).peek r).waitsForPair = false := by
      intro r notRange inUse
      refine Bool.eq_false_iff.mpr fun waits => notRange ?_
      obtain ⟨data, masked⟩ := Breakpoint2.waitsForPair_iff.mp waits
      simp only [Breakpoint2.waitsForData, Bool.and_eq_true] at data
      have on := (fewer_withdraw s.bp k).enabled r data.1.1
      rw [entries r on] at masked
      exact pairs.one e r enabledE ⟨(visible' r).mp inUse, on, masked⟩
    have notRange : j ≠ e := by
      rintro rfl
      exact other (.inl isFor)
    have notMask : j ≠ ((s.bp.modify k Breakpoint2.withdraw).peek e).maskPointer := by
      rw [entries e enabledE.2.1]
      exact fun same => other (.inr ⟨e, enabledE, isFor, same.symm⟩)
    obtain ⟨_, data⟩ := @layoutData_keeps target _ e only j notRange notMask
    obtain ⟨slot, code⟩ := (layoutCode_spec target (s.bp.modify k Breakpoint2.withdraw)).1.entries j
    have equal : (layoutBreakpoints target (s.bp.modify k Breakpoint2.withdraw)).2.peek j =
        (s.bp.peek j).setBpnum slot := by
      refine code.trans ?_
      rw [data, entries j enabled]
      rfl
    rw [equal, (layout_adjusts target _).visible, visible']
    exact ⟨visible, enabled, rfl, rfl⟩

theorem RangeSession.apply_keeps (orderly : Orderly added s.bp)
    (pairs : Pairs s.length s.sent s.bp) {op : BreakpointOp} (plain : op.Plain)
    (keeps : op.KeepsPairs target s.bp) :
    Pairs (s.apply doJtagCommand target op).length (s.apply doJtagCommand target op).sent
        (s.apply doJtagCommand target op).bp ∧ s.Spares doJtagCommand target op := by
  cases op with
  | addBreakpoint address type bytes =>
      exact RangeSession.add_keeps doJtagCommand target orderly pairs plain keeps
  | deleteBreakpoint address type bytes =>
      exact ⟨pairs.deleteBreakpoint orderly.toTerminated plain,
        RangeSession.delete_spares doJtagCommand target orderly pairs keeps⟩
  | deleteAllBreakpoints =>
      exact ⟨deleteAllBreakpoints_pairs orderly.toTerminated, fun about => about.elim⟩
  | updateBreakpoints =>
      exact ⟨(pairs.layout target).sending (updateBreakpoints_sending doJtagCommand target s.ice),
        fun about => about.elim⟩

/-- A range that reaches the search for its mask is linked to the end marker,
unless its address happens to be the mask. -/
theorem addBreakpoint_misses_mask {bp : BreakpointTable} (orderly : Orderly added bp)
    {address : UInt32} {type : BpType} {bytes : UInt32}
    (reaches : ReachesSearchMask bp address type bytes) (other : address ≠ ~~~(bytes - 1)) :
    ∃ e, ((addBreakpoint target bp address type bytes).2.peek e).IsFor address
        (type ||| .hasMask) ∧
      ¬ Visible (addBreakpoint target bp address type bytes).2
        ((addBreakpoint target bp address type bytes).2.peek e).maskPointer := by
  obtain ⟨room, occupies⟩ := (occupied_spec orderly.toTerminated address type).resolve_left
    fun full => reaches.2.2.2.2.1 full.2
  obtain ⟨_, _, visible, sameAddress, sameType⟩ :=
    @Orderly.linked target _ _ _ _ _ orderly room occupies reaches
  have adjusts := finishAdd_adjusts target (linked target bp address type bytes)
    (occupied bp address type)
  rw [addBreakpoint_linked orderly.toTerminated room reaches]
  refine ⟨occupied bp address type, ?_, ?_⟩
  · rw [Breakpoint2.IsFor, (adjusts _).address, (adjusts _).type, modify_peek_eq visible,
      if_pos rfl, Breakpoint2.flagAdd_eq]
    exact ⟨sameAddress, sameType⟩
  · rw [(adjusts _).maskPointer, modify_peek_eq visible, if_pos rfl, Breakpoint2.flagAdd_eq,
      adjusts.visible, visible_modify (by rw [Breakpoint2.flagAdd_eq])]
    clear adjusts
    unfold linked at sameAddress ⊢
    dsimp only at sameAddress ⊢
    generalize withMask target bp address type bytes = table at sameAddress ⊢
    rw [CArray.peek_modify_same _ _ (Nat.lt_succ_of_lt room)] at sameAddress ⊢
    rw [Breakpoint2.setMaskPointer_address] at sameAddress
    rw [Breakpoint2.setMaskPointer_maskPointer,
      searchMask_eq_endIndex fun same => other (sameAddress.symm.trans same),
      visible_modify (Breakpoint2.setMaskPointer_last _ _)]
    exact lt_irrefl _

end Runs

end Avarice.Mk2

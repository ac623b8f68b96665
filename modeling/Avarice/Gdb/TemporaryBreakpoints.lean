import Avarice.Gdb.Interrupt
import Avarice.Mk1.Agreement
import Avarice.Mk2.Breakpoint.SingleBytes

/-!
# Temporary breakpoints of both protocols

The tables of the mkI and of the mkII keep what `handleInterrupt` relies on, so
it leaves the breakpoints of the user alone.
-/

namespace Avarice.Gdb.Interrupt

open Throwing

/-- What the program and the reads of its memory do.  Nothing stands for a
throw. -/
structure Behaviour (Ice : Type) where
  jtagContinue : Ice → Option Bool × Ice
  jtagRead : UInt64 → Nat → Ice → Option (Option (List UInt8)) × Ice

structure Session (Table Ice : Type) where
  table : Table
  ice : Ice

variable {Ice : Type} (behaviour : Behaviour Ice)

/-- The class `jtag1`.  Its table is not looked at when the program goes on. -/
def mk1 : Jtag (Session Mk1.BreakpointTable Ice) where
  codeBreakpointAt s := Mk1.codeBreakpointAt s.table
  addBreakpoint s address type length :=
    let (added, table) := Mk1.addBreakpoint s.table address type length
    (added, { s with table })
  deleteBreakpoint s address type length :=
    let (deleted, table) := Mk1.deleteBreakpoint s.table address type length
    (deleted, { s with table })
  jtagContinue s :=
    let (result, ice) := behaviour.jtagContinue s.ice
    ⟨result, { s with ice }⟩
  jtagRead s addr count :=
    let (mem, ice) := behaviour.jtagRead addr count s.ice
    ⟨mem, { s with ice }⟩

/-- The class `jtag2`.  It downloads the breakpoints before the program goes on. -/
def mk2 (target : Mk2.Target) (doJtagCommand : Mk2.BreakCommand → Ice → Bool × Ice) :
    Jtag (Session Mk2.BreakpointTable Ice) where
  codeBreakpointAt s := Mk2.codeBreakpointAt s.table
  addBreakpoint s address type length :=
    let (added, table) := Mk2.addBreakpoint target s.table address type length
    (added, { s with table })
  deleteBreakpoint s address type length :=
    let (deleted, table) := Mk2.deleteBreakpoint target s.table address type length
    (deleted, { s with table })
  jtagContinue s :=
    let after := Mk2.updateBreakpoints doJtagCommand target s.table s.ice
    if after.thrown then ⟨none, ⟨after.bp, after.ice⟩⟩
    else
      let (result, ice) := behaviour.jtagContinue after.ice
      ⟨result, ⟨after.bp, ice⟩⟩
  jtagRead s addr count :=
    let (mem, ice) := behaviour.jtagRead addr count s.ice
    ⟨mem, { s with ice }⟩

/-! ## The mkI -/

section Mk1

open Mk1

variable {t after : Mk1.BreakpointTable} {address : UInt32}

def Appended (address : UInt32) (before after : Mk1.BreakpointTable) : Prop :=
  before.numBreakpointsCode < maxBreakpointsCode ∧
    Mk1.codeBreakpointAt before address = false ∧
    after = { before with
      bpCode := before.bpCode.poke before.numBreakpointsCode ⟨address / 2, .code⟩
      numBreakpointsCode := before.numBreakpointsCode + 1 }

theorem mk1_add_code (t : Mk1.BreakpointTable) (address : UInt32) :
    (t.numBreakpointsCode ≠ maxBreakpointsCode ∧ Mk1.addBreakpoint t address .code 0 =
        (true, { t with
          bpCode := t.bpCode.poke t.numBreakpointsCode ⟨address / 2, .code⟩
          numBreakpointsCode := t.numBreakpointsCode + 1 })) ∨
      Mk1.addBreakpoint t address .code 0 = (false, t) := by
  unfold Mk1.addBreakpoint
  split
  · exact .inr rfl
  · rw [if_pos (by rfl)]
    split
    · exact .inr rfl
    · rename_i room
      exact .inl ⟨fun full => room (beq_iff_eq.mpr full), rfl⟩

theorem squash_appended (appended : Appended address t after) :
    squash after.bpCode after.numBreakpointsCode (address / 2) .code =
      some (t.numBreakpointsCode, after.bpCode.moveDown t.numBreakpointsCode 0) := by
  obtain ⟨room, free, rfl⟩ := appended
  have others (i : Nat) (before : i < t.numBreakpointsCode) :
      ((t.bpCode.poke t.numBreakpointsCode ⟨address / 2, .code⟩).peek i ==
        (⟨address / 2, .code⟩ : Breakpoint)) = false := by
    rw [CArray.peek_poke_ne _ _ before.ne']
    refine beq_false_of_ne fun same => ?_
    have here := List.any_eq_false.mp free i (List.mem_range.mpr before)
    rw [same] at here
    simp at here
  have none : (List.range t.numBreakpointsCode).find? (fun i =>
      (t.bpCode.poke t.numBreakpointsCode ⟨address / 2, .code⟩).peek i ==
        (⟨address / 2, .code⟩ : Breakpoint)) = none :=
    List.find?_eq_none.mpr fun i member => by simp [others i (List.mem_range.mp member)]
  rw [squash, List.range_succ, List.find?_append, none]
  simp [CArray.peek_poke, room]

theorem mk1_delete_appended (appended : Appended address t after) (other : UInt32) :
    (Mk1.deleteBreakpoint after address .code 0).2.numBreakpointsCode = t.numBreakpointsCode ∧
      Mk1.codeBreakpointAt (Mk1.deleteBreakpoint after address .code 0).2 other =
        Mk1.codeBreakpointAt t other := by
  have squashed := squash_appended appended
  obtain ⟨room, free, rfl⟩ := appended
  unfold Mk1.deleteBreakpoint
  rw [if_pos (by rfl), squashed, CArray.moveDown_zero]
  refine ⟨rfl, ?_⟩
  rw [Bool.eq_iff_iff, Mk1.codeBreakpointAt, Mk1.codeBreakpointAt, List.any_eq_true,
    List.any_eq_true]
  refine exists_congr fun i => and_congr_right fun member => ?_
  have before : i < t.numBreakpointsCode := List.mem_range.mp member
  rw [CArray.peek_poke_ne _ _ before.ne']

theorem mk1_temporary : Temporary (mk1 behaviour)
    (fun s => s.table.numBreakpointsCode ≤ maxBreakpointsCode)
    fun address before s => Appended address before.table s.table where
  read s addr count sound := ⟨sound, fun _ => rfl⟩
  resumed s sound := ⟨sound, fun _ => rfl⟩
  refused s address sound refused := by
    rcases mk1_add_code s.table address with ⟨_, added⟩ | full
    · simp [mk1, added] at refused
    · intro other
      simp [mk1, full]
  added s address sound free added := by
    rcases mk1_add_code s.table address with ⟨room, appended⟩ | full
    · refine ⟨Nat.lt_of_le_of_ne sound room, free, ?_⟩
      simp [mk1, appended]
    · simp [mk1, full] at added
  resumedArmed before s address armed := armed
  deleted before s address armed := by
    have deleted := mk1_delete_appended armed
    refine ⟨(deleted 0).1.trans_le armed.1.le, fun other => (deleted other).2⟩

end Mk1

/-! ## The mkII -/

section Mk2

open Mk2

variable (target : Mk2.Target) (doJtagCommand : Mk2.BreakCommand → Ice → Bool × Ice)

/-- A code breakpoint may have been added, and the others are as they were. -/
structure AddedTo (address : UInt32) (before after : Mk2.BreakpointTable) : Prop where
  reached : SingleReached target after
  free : Mk2.codeBreakpointAt before address = false
  others : ∀ other ≠ address, Mk2.codeBreakpointAt after other = Mk2.codeBreakpointAt before other

theorem codeBreakpointAt_update {bp : Mk2.BreakpointTable} (single : SingleReached target bp)
    (ice : Ice) (address : UInt32) :
    Mk2.codeBreakpointAt (updateBreakpoints doJtagCommand target bp ice).bp address =
      Mk2.codeBreakpointAt bp address :=
  codeBreakpointAt_congr fun j =>
    (update_sameRequests doJtagCommand single.unmasked ice).stopsAt address j

theorem mk2_jtagContinue_table (s : Session Mk2.BreakpointTable Ice) :
    ((mk2 behaviour target doJtagCommand).jtagContinue s).state.table =
      (updateBreakpoints doJtagCommand target s.table s.ice).bp := by
  simp only [mk2]
  split <;> rfl

theorem mk2_temporary : Temporary (mk2 behaviour target doJtagCommand)
    (fun s => SingleReached target s.table)
    fun address before s => AddedTo target address before.table s.table where
  read s addr count sound := ⟨sound, fun _ => rfl⟩
  resumed s sound := by
    have table := mk2_jtagContinue_table behaviour target doJtagCommand s
    refine ⟨?_, fun address => ?_⟩
    · rw [table]
      exact .updateBreakpoints doJtagCommand s.ice sound
    · show Mk2.codeBreakpointAt _ address = Mk2.codeBreakpointAt _ address
      rw [table]
      exact codeBreakpointAt_update target doJtagCommand sound s.ice address
  refused s address sound refused := by
    obtain ⟨added, reached⟩ := sound.reached
    have unchanged :=
      @add_code_refused target s.table reached.orderly.toTerminated address 0 refused
    intro other
    show Mk2.codeBreakpointAt (addBreakpoint target s.table address .code 0).2 other = _
    rw [unchanged]
    rfl
  added s address sound free _ := by
    obtain ⟨added, reached⟩ := sound.reached
    refine ⟨.addBreakpoint address .code 0 (by decide) (.inl rfl) sound, free, ?_⟩
    intro other elsewhere
    exact add_code_elsewhere reached.orderly.toTerminated sound.unmasked elsewhere 0
  resumedArmed before s address armed := by
    rw [mk2_jtagContinue_table]
    refine ⟨.updateBreakpoints doJtagCommand s.ice armed.reached, armed.free, ?_⟩
    intro other elsewhere
    rw [codeBreakpointAt_update target doJtagCommand armed.reached]
    exact armed.others other elsewhere
  deleted before s address armed := by
    obtain ⟨added, reached⟩ := armed.reached.reached
    refine ⟨.deleteBreakpoint address .code 0 armed.reached, fun other => ?_⟩
    have deleted := @delete_code target s.table added reached.orderly armed.reached.unmasked
      address 0 other
    show Mk2.codeBreakpointAt (deleteBreakpoint target s.table address .code 0).2 other =
      Mk2.codeBreakpointAt before.table other
    rw [Bool.eq_iff_iff, deleted]
    by_cases here : other = address
    · subst here
      simp [armed.free]
    · rw [armed.others other here]
      exact and_iff_right here

end Mk2

/-! ## Both classes -/

def LeavesNoTrace {State : Type} (jtag : Jtag State) (s : State) : Prop :=
  ∀ rounds result, (handleInterrupt jtag rounds s).value = some (some result) →
    SameBreakpoints jtag s (handleInterrupt jtag rounds s).state

theorem Temporary.leavesNoTrace {State : Type} {jtag : Jtag State} {Sound : State → Prop}
    {Armed : UInt32 → State → State → Prop} (temporary : Temporary jtag Sound Armed) {s : State}
    (sound : Sound s) : LeavesNoTrace jtag s := by
  intro rounds result returned
  exact (temporary.handleInterrupt sound rounds).returned (some result) returned

/-- Stepping over an interrupt leaves the breakpoints of the user as they were,
for the mkI on every table that calls lead to, and for the mkII on every one
without ranges. -/
theorem handleInterrupt_leavesNoTrace (ice : Ice) :
    (∀ (programmingEnabled : Bool) (ops : List Mk1.BreakpointOp),
      LeavesNoTrace (mk1 behaviour)
        ⟨(Transition.run (Mk1.Session.apply programmingEnabled) .start ops).table, ice⟩) ∧
    ∀ (target : Mk2.Target) (doJtagCommand : Mk2.BreakCommand → Ice → Bool × Ice)
      (bp : Mk2.BreakpointTable), Mk2.SingleReached target bp →
        LeavesNoTrace (mk2 behaviour target doJtagCommand) ⟨bp, ice⟩ := by
  constructor
  · intro programmingEnabled ops
    have bounded := Mk1.Session.bounded_run programmingEnabled ops
    exact (mk1_temporary behaviour).leavesNoTrace bounded.sound.numCode
  · intro target doJtagCommand bp single
    exact (mk2_temporary behaviour target doJtagCommand).leavesNoTrace single

/-- A program that runs to the return address with the stack as it was before. -/
def returning : Behaviour Nat where
  jtagContinue calls := (some true, calls + 1)
  jtagRead addr _ calls :=
    (some (some (if addr = 0x80005d then [UInt8.ofNat (0xf0 + calls), 0] else [0, 0x80])), calls)

def userTable : Mk2.BreakpointTable :=
  (Mk2.addBreakpoint ⟨false, 0⟩ Mk2.constructedTable 0x100 .code 0).2

/-- One interrupt is stepped over, in one round, and the user's breakpoint stays. -/
theorem handleInterrupt_leavesNoTrace_constructed :
    let jtag := mk2 returning ⟨false, 0⟩ fun _ calls => (true, calls)
    (handleInterrupt jtag 1 ⟨userTable, 0⟩).value = some (some true) ∧
      Mk2.codeBreakpointAt userTable 0x100 = true ∧
        SameBreakpoints jtag ⟨userTable, 0⟩ (handleInterrupt jtag 1 ⟨userTable, 0⟩).state := by
  have returned : (handleInterrupt (mk2 returning ⟨false, 0⟩ fun _ calls => (true, calls)) 1
      ⟨userTable, 0⟩).value = some (some true) := by decide +kernel
  exact ⟨returned, by decide +kernel, (handleInterrupt_leavesNoTrace returning 0).2 ⟨false, 0⟩ _
    userTable (.addBreakpoint 0x100 .code 0 (by decide) (.inl rfl) .constructed) 1 true returned⟩

end Avarice.Gdb.Interrupt

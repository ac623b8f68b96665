import Avarice.AddressSpace
import Avarice.Constants
import Avarice.Library.Throwing

/-!
# Stepping over an interrupt

`handleInterrupt` of `remote.cc`, over what it uses of the classes for the two
protocols, and what these have to promise so that the temporary breakpoint at
the return address leaves no trace.
-/

namespace Avarice.Gdb.Interrupt

open Throwing

/-- The operations of an ICE that are used.  Those that talk to it may throw. -/
structure Jtag (State : Type) where
  codeBreakpointAt : State → UInt32 → Bool
  addBreakpoint : State → UInt32 → BpType → UInt32 → Bool × State
  deleteBreakpoint : State → UInt32 → BpType → UInt32 → Bool × State
  jtagContinue : State → Called State Bool
  jtagRead : State → (addr : UInt64) → (count : Nat) → Called State (Option (List UInt8))

section Program

variable {State : Type} (jtag : Jtag State)

def readWord (word : List UInt8 → UInt32) (s : State) (address : UInt32) : Called State UInt32 :=
  (jtag.jtagRead s (dataSpaceAddrOffset + address.toUInt64) 2).andThen fun mem s =>
    ⟨some (mem.elim 0 word), s⟩

/-- Little-endian word read. -/
def readLWord : State → UInt32 → Called State UInt32 :=
  readWord jtag fun mem => (mem.getD 0 0).toUInt32 ||| (mem.getD 1 0).toUInt32 <<< 8

/-- Big-endian word read. -/
def readBWord : State → UInt32 → Called State UInt32 :=
  readWord jtag fun mem => (mem.getD 0 0).toUInt32 <<< 8 ||| (mem.getD 1 0).toUInt32

def readSP (s : State) : Called State UInt32 := readLWord jtag s 0x5d

/-- The loop.  It yields nothing when it is not over after so many rounds. -/
def stepOver (intrSP retPC : UInt32) (needBP : Bool) :
    (rounds : Nat) → State → Called State (Option Bool)
  | 0, s => ⟨some none, s⟩
  | rounds + 1, s =>
      let (added, s) := if needBP then jtag.addBreakpoint s retPC .code 0 else (true, s)
      if !added then ⟨some (some false), s⟩
      else
        (jtag.jtagContinue s).andThen fun result s =>
        let s := if needBP then (jtag.deleteBreakpoint s retPC .code 0).2 else s
        -- user interrupt or hit user BP at retPC
        if !result || !needBP then ⟨some (some result), s⟩
        else
          (readSP jtag s).andThen fun sp s =>
          -- otherwise this is just an unrelated excursion to retPC
          if sp > intrSP then ⟨some (some result), s⟩
          else stepOver intrSP retPC needBP rounds s

def handleInterrupt (rounds : Nat) (s : State) : Called State (Option Bool) :=
  (readSP jtag s).andThen fun intrSP s =>
  (readBWord jtag s (intrSP + 1)).andThen fun word s =>
  let retPC := word <<< 1
  let needBP := !jtag.codeBreakpointAt s retPC
  stepOver jtag intrSP retPC needBP rounds s

end Program

/-! ## Temporary breakpoints -/

section Contract

variable {State : Type} {jtag : Jtag State}

def SameBreakpoints (jtag : Jtag State) (before after : State) : Prop :=
  ∀ address, jtag.codeBreakpointAt after address = jtag.codeBreakpointAt before address

theorem SameBreakpoints.refl (s : State) : SameBreakpoints jtag s s := fun _ => rfl

theorem SameBreakpoints.trans {first second third : State}
    (one : SameBreakpoints jtag first second) (two : SameBreakpoints jtag second third) :
    SameBreakpoints jtag first third :=
  fun address => (two address).trans (one address)

/-- A breakpoint can be added for a while: some states are sound, and `Armed`
relates one of them to those with a breakpoint that has been added to it. -/
structure Temporary (jtag : Jtag State) (Sound : State → Prop)
    (Armed : UInt32 → State → State → Prop) : Prop where
  read : ∀ s addr count, Sound s → Sound (jtag.jtagRead s addr count).state ∧
    SameBreakpoints jtag s (jtag.jtagRead s addr count).state
  resumed : ∀ s, Sound s → Sound (jtag.jtagContinue s).state ∧
    SameBreakpoints jtag s (jtag.jtagContinue s).state
  refused : ∀ s address, Sound s → (jtag.addBreakpoint s address .code 0).1 = false →
    SameBreakpoints jtag s (jtag.addBreakpoint s address .code 0).2
  added : ∀ s address, Sound s → jtag.codeBreakpointAt s address = false →
    (jtag.addBreakpoint s address .code 0).1 = true →
      Armed address s (jtag.addBreakpoint s address .code 0).2
  resumedArmed : ∀ before s address, Armed address before s →
    Armed address before (jtag.jtagContinue s).state
  deleted : ∀ before s address, Armed address before s →
    Sound (jtag.deleteBreakpoint s address .code 0).2 ∧
      SameBreakpoints jtag before (jtag.deleteBreakpoint s address .code 0).2

variable {Sound : State → Prop} {Armed : UInt32 → State → State → Prop}
  (temporary : Temporary jtag Sound Armed)
include temporary

theorem Temporary.readWord {before s : State} (sound : Sound s)
    (same : SameBreakpoints jtag before s) (word : List UInt8 → UInt32) (address : UInt32) :
    Called.Ends (fun _ after => Sound after ∧ SameBreakpoints jtag before after) (fun _ => True)
      (readWord jtag word s address) := by
  have state : (Interrupt.readWord jtag word s address).state = (jtag.jtagRead s _ 2).state :=
    Called.andThen_return_state _
  obtain ⟨sound', unread⟩ := temporary.read s (dataSpaceAddrOffset + address.toUInt64) 2 sound
  refine Called.ends_of_state ?_
  rw [state]
  exact ⟨sound', same.trans unread⟩

/-- Without a temporary breakpoint the program runs once. -/
theorem Temporary.stepOver_user {s : State} (sound : Sound s) (intrSP retPC : UInt32)
    (rounds : Nat) : SameBreakpoints jtag s (stepOver jtag intrSP retPC false rounds s).state := by
  have resumed := (temporary.resumed s sound).2
  cases rounds with
  | zero => exact .refl s
  | succ rounds =>
      simp only [stepOver, Bool.false_eq_true, if_false, Bool.not_true, Bool.not_false,
        Bool.or_true, if_true, Called.andThen]
      split <;> exact resumed

/-- Each round adds the breakpoint and deletes it again, unless the run is cut
short. -/
theorem Temporary.stepOver_temporary {before s : State} (sound : Sound s)
    (same : SameBreakpoints jtag before s) (intrSP retPC : UInt32)
    (free : jtag.codeBreakpointAt before retPC = false) (rounds : Nat) :
    Called.Ends (fun _ after => SameBreakpoints jtag before after) (fun _ => True)
      (stepOver jtag intrSP retPC true rounds s) := by
  induction rounds generalizing s with
  | zero => exact Called.ends_return same
  | succ rounds inductionHypothesis =>
      have refused := temporary.refused s retPC sound
      have added := temporary.added s retPC sound ((same retPC).trans free)
      simp only [stepOver, if_true]
      generalize jtag.addBreakpoint s retPC .code 0 = outcome at refused added
      obtain ⟨success, armed⟩ := outcome
      cases success with
      | false => exact Called.ends_return (same.trans (refused rfl))
      | true =>
          have resumed := temporary.resumedArmed s armed retPC (added rfl)
          have run : Called.Ends (fun _ => Armed retPC s) (fun _ => True)
              (jtag.jtagContinue armed) :=
            Called.ends_of_state resumed
          simp only [Bool.not_true, Bool.false_eq_true, if_false]
          refine run.andThen fun result hit reached => ?_
          obtain ⟨sound, unchanged⟩ := temporary.deleted s hit retPC reached
          have kept := same.trans unchanged
          cases result with
          | false => exact Called.ends_return kept
          | true =>
              simp only [Bool.not_true, Bool.or_self, Bool.false_eq_true, if_false]
              refine (temporary.readWord sound kept _ 0x5d).andThen fun sp after holds => ?_
              split
              · exact Called.ends_return holds.2
              · exact inductionHypothesis holds.1 holds.2

theorem Temporary.stepOver {before s : State} (sound : Sound s)
    (same : SameBreakpoints jtag before s) (intrSP retPC : UInt32) (rounds : Nat) :
    Called.Ends (fun _ after => SameBreakpoints jtag before after) (fun _ => True)
      (stepOver jtag intrSP retPC (!jtag.codeBreakpointAt s retPC) rounds s) := by
  cases user : jtag.codeBreakpointAt s retPC with
  | false =>
      have free := (same retPC).symm.trans user
      exact temporary.stepOver_temporary sound same intrSP retPC free rounds
  | true =>
      exact Called.ends_of_state (same.trans (temporary.stepOver_user sound intrSP retPC rounds))

theorem Temporary.handleInterrupt {s : State} (sound : Sound s) (rounds : Nat) :
    Called.Ends (fun _ after => SameBreakpoints jtag s after) (fun _ => True)
      (handleInterrupt jtag rounds s) := by
  refine (temporary.readWord sound (.refl s) _ 0x5d).andThen fun intrSP after holds => ?_
  refine (temporary.readWord holds.1 holds.2 _ (intrSP + 1)).andThen fun word ready reached => ?_
  exact temporary.stepOver reached.1 reached.2 intrSP (word <<< 1) rounds

end Contract

end Avarice.Gdb.Interrupt

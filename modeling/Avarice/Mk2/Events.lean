import Avarice.Library.CArray
import Avarice.Library.Transition
import Avarice.Mk2.Exchange

/-!
# Events

How `pollDevice` classifies the events of the ICE, and the loop in which
`jtagContinue` waits for one.  The loop has no way out, and `pollDevice` names
its two arguments in another order than class `jtag` does.
-/

namespace Avarice.Mk2

abbrev evtBreak : UInt8 := 0xE0
abbrev evtRun : UInt8 := 0xE1
abbrev evtExtReset : UInt8 := 0xE7
abbrev evtNone : UInt8 := 0xEF
abbrev evtProgramBreak : UInt8 := 0xF1
abbrev evtPdsbBreak : UInt8 := 0xF2
abbrev evtPdsmbBreak : UInt8 := 0xF3

/-- `nonbreaking_events`, from `EVT_BREAK` to `EVT_MAX`. -/
abbrev EventMask := CArray Bool 32

/-- Whether an event is masked.  A code below `EVT_BREAK` is outside the
table. -/
def EventMask.masks (nonbreakingEvents : EventMask) (event : UInt8) : Bool :=
  nonbreakingEvents.peek (event - evtBreak).toNat

def isBreak (event : UInt8) : Bool :=
  event == evtBreak || event == evtExtReset || event == evtPdsbBreak ||
    event == evtPdsmbBreak || event == evtProgramBreak

def isContinue (event : UInt8) : Bool :=
  event == evtNone || event == evtRun

/-- The event frame, if it is one. -/
def Reception.eventFrame? : Reception → Option Frame
  | .nothing => none
  | .frame f => if f.seqno = eventSeqno then some f else none

/-- The event that `pollDevice` handles, if it is one. -/
def Reception.event? (r : Reception) : Option UInt8 :=
  r.eventFrame?.bind (·.payload.head?)

/-- `jtag2::pollDevice`: the contents of `*breakpoint` and `*gdbInterrupt`, in
the order of its arguments.  What is read is nothing when no data came in
time. -/
def pollDevice (nonbreakingEvents : EventMask) (read : Option Reception)
    (breakpoint gdbInterrupt : Bool) : Bool × Bool :=
  match read.bind Reception.event? with
  | none => (breakpoint, gdbInterrupt)
  | some event =>
      if nonbreakingEvents.masks event then (breakpoint, gdbInterrupt)
      else if isBreak event then (true, gdbInterrupt)
      else if isContinue event then (breakpoint, gdbInterrupt)
      -- all other events pretend a user break
      else (breakpoint, true)

/-- What the callers of class `jtag` pass and get back. -/
structure PollFlags where
  gdbInterrupt : Bool
  breakpoint : Bool
  deriving DecidableEq, Repr

def PollFlags.poll (flags : PollFlags) (nonbreakingEvents : EventMask)
    (read : Option Reception) : PollFlags :=
  let (first, second) := pollDevice nonbreakingEvents read flags.gdbInterrupt flags.breakpoint
  { gdbInterrupt := first, breakpoint := second }

/-- The variables of `eventLoop` and what is still to be read, poll by poll. -/
structure Waiting where
  flags : PollFlags
  reads : List (Option Reception)
  deriving DecidableEq, Repr

def Waiting.round (nonbreakingEvents : EventMask) (w : Waiting) : Transition.Control Waiting :=
  .again
    { flags := w.flags.poll nonbreakingEvents (w.reads.head?.join)
      reads := w.reads.tail }

/-- `eventLoop`: its result, if it returns within a number of rounds. -/
def eventLoop (nonbreakingEvents : EventMask) (rounds : Nat) (reads : List (Option Reception)) :
    Option Bool := do
  let w ← Transition.loop (Waiting.round nonbreakingEvents) rounds ⟨⟨false, false⟩, reads⟩
  -- we give priority to user interrupts
  if w.flags.gdbInterrupt then some false
  else if w.flags.breakpoint then some true
  else none

/-- `jtagContinue` without a hidden breakpoint, from the answer to `CMND_GO`
on. -/
def jtagContinue (nonbreakingEvents : EventMask) (rounds : Nat)
    (reads : List (Option Reception)) : Option Bool :=
  eventLoop nonbreakingEvents rounds reads

/-! ## What waiting should do -/

def ending? (nonbreakingEvents : EventMask) (read : Option Reception) : Option UInt8 :=
  (read.bind Reception.event?).filter fun event =>
    !nonbreakingEvents.masks event && !isContinue event

/-- Waiting ends with the first event that is to end it and tells a break from
anything else, nothing else changes the flags, and each flag is set for its own
events only. -/
structure WaitsForBreak (nonbreakingEvents : EventMask) (reads : List (Option Reception)) :
    Prop where
  returns : ∀ event, reads.findSome? (ending? nonbreakingEvents) = some event →
    ∃ rounds, eventLoop nonbreakingEvents rounds reads = some (isBreak event)
  continues : ∀ event, reads.findSome? (ending? nonbreakingEvents) = some event →
    ∃ rounds, jtagContinue nonbreakingEvents rounds reads = some (isBreak event)
  unchanged : ∀ read ∈ reads, ending? nonbreakingEvents read = none →
    ∀ flags : PollFlags, flags.poll nonbreakingEvents read = flags
  interrupts : ∀ read ∈ reads,
    (PollFlags.poll ⟨false, false⟩ nonbreakingEvents read).gdbInterrupt = true →
      ∃ event, ending? nonbreakingEvents read = some event ∧ isBreak event = false
  breaks : ∀ read ∈ reads,
    (PollFlags.poll ⟨false, false⟩ nonbreakingEvents read).breakpoint = true →
      ∃ event, ending? nonbreakingEvents read = some event ∧ isBreak event = true

theorem eventLoop_eq_none (nonbreakingEvents : EventMask) (rounds : Nat)
    (reads : List (Option Reception)) : eventLoop nonbreakingEvents rounds reads = none := by
  have endless : Transition.loop (Waiting.round nonbreakingEvents) rounds
      ⟨⟨false, false⟩, reads⟩ = none :=
    Transition.loop_eq_none (fun _ => ⟨_, rfl⟩) rounds _
  unfold eventLoop
  rw [endless]
  rfl

theorem isContinue_of_isBreak {event : UInt8} (breaks : isBreak event = true) :
    isContinue event = false := by
  unfold isBreak at breaks
  unfold isContinue
  simp only [Bool.or_eq_true, beq_iff_eq] at breaks
  rcases breaks with (((rfl | rfl) | rfl) | rfl) | rfl <;> rfl

theorem poll_eq (flags : PollFlags) (nonbreakingEvents : EventMask) (read : Option Reception) :
    flags.poll nonbreakingEvents read =
      match ending? nonbreakingEvents read with
      | none => flags
      | some event =>
          if isBreak event then { flags with gdbInterrupt := true }
          else { flags with breakpoint := true } := by
  unfold PollFlags.poll pollDevice ending?
  cases read.bind Reception.event? with
  | none => rfl
  | some event =>
      rw [Option.filter_some]
      cases masked : nonbreakingEvents.masks event with
      | true => simp [masked]
      | false =>
          cases breaks : isBreak event with
          | true => simp [masked, breaks, isContinue_of_isBreak breaks]
          | false => cases continues : isContinue event <;> simp [masked, breaks, continues]

/-- Waiting is right only as long as nothing comes that is to end it. -/
theorem waitsForBreak_iff (nonbreakingEvents : EventMask) (reads : List (Option Reception)) :
    WaitsForBreak nonbreakingEvents reads ↔
      ∀ read ∈ reads, ending? nonbreakingEvents read = none := by
  constructor
  · intro waits
    apply List.findSome?_eq_none_iff.mp
    cases first : reads.findSome? (ending? nonbreakingEvents) with
    | none => rfl
    | some event =>
        obtain ⟨rounds, returned⟩ := waits.returns event first
        rw [eventLoop_eq_none] at returned
        cases returned
  · intro quiet
    have nothing : reads.findSome? (ending? nonbreakingEvents) = none :=
      List.findSome?_eq_none_iff.mpr quiet
    have unchanged (read : Option Reception) (membership : read ∈ reads) (flags : PollFlags) :
        flags.poll nonbreakingEvents read = flags := by
      rw [poll_eq, quiet read membership]
    refine
      { returns := fun event first => ?_
        continues := fun event first => ?_
        unchanged := fun read membership _ flags => unchanged read membership flags
        interrupts := fun read membership set => ?_
        breaks := fun read membership set => ?_ }
    · cases nothing.symm.trans first
    · cases nothing.symm.trans first
    · rw [unchanged read membership] at set
      cases set
    · rw [unchanged read membership] at set
      cases set

/-- A break does not end the wait, and is reported as an interrupt. -/
theorem break_not_waited_for :
    ¬ WaitsForBreak (CArray.fill 32 false) [some (.frame ⟨eventSeqno, [evtBreak]⟩)] := by
  intro waits
  obtain ⟨rounds, returned⟩ := waits.returns evtBreak (by decide)
  rw [eventLoop_eq_none] at returned
  cases returned

end Avarice.Mk2

import Avarice.Library.StopAndWait
import Avarice.Library.Transition
import Avarice.Mk2.Exchange

/-!
# The protocol between host and ICE

Two channels deliver in order and may lose frames.  The ICE answers every
command it receives and emits events; the host runs one call of
`doJtagCommand` after another and sends a command again after a timeout.
-/

namespace Avarice.Mk2

/-- A command on its way, with the number of the call that has sent it. -/
structure CommandInFlight where
  frame : Frame
  number : Nat
  deriving DecidableEq, Repr

/-- A frame from the ICE, with the number of the call it answers unless it is
an event. -/
structure AnswerInFlight where
  frame : Frame
  answers : Option Nat
  deriving DecidableEq, Repr

/-- Both parties and what is in flight, the oldest first.  The record of the
finished calls says what the accepted frames answer. -/
structure System where
  host : Host
  toIce : List CommandInFlight
  toHost : List AnswerInFlight
  finished : Nat
  accepted : List (Nat × Option Nat)
  deriving DecidableEq, Repr

def System.start : System where
  host := ⟨0, .idle⟩
  toIce := []
  toHost := []
  finished := 0
  accepted := []

inductive Action where
  | call (command : List UInt8) (retryOnTimeout : Bool)
  | timeout
  | arrive (intact : Bool)
  | loseCommand (i : Nat)
  | loseAnswer (i : Nat)
  | answer (payload : List UInt8)
  | event (payload : List UInt8)
  deriving DecidableEq, Repr

def System.receive (s : System) (r : Reception) (answers : Option Nat)
    (toHost : List AnswerInFlight) : Option System :=
  match s.host.receive r with
  | .receiving => some { s with toHost }
  | .resent host f => some { s with host, toHost, toIce := s.toIce ++ [⟨f, s.finished⟩] }
  | .returned host _ _ =>
      some { s with
        host
        toHost
        finished := s.finished + 1
        accepted := s.accepted ++ [(s.finished, answers)] }
  | .abandoned => none

def System.step (s : System) : Action → Option System
  | .call command retryOnTimeout =>
      if s.host.activity = .idle then
        let (host, f) := s.host.call command retryOnTimeout
        some { s with host, toIce := s.toIce ++ [⟨f, s.finished⟩] }
      else none
  | .timeout => s.receive .nothing none s.toHost
  | .arrive intact =>
      match s.toHost with
      | [] => none
      | a :: toHost => s.receive (if intact then .frame a.frame else .nothing) a.answers toHost
  | .loseCommand i => some { s with toIce := s.toIce.eraseIdx i }
  | .loseAnswer i => some { s with toHost := s.toHost.eraseIdx i }
  | .answer payload =>
      match s.toIce with
      | [] => none
      | c :: toIce =>
          let f : Frame := ⟨c.frame.seqno, payload⟩
          if f.Fits then some { s with toIce, toHost := s.toHost ++ [⟨f, some c.number⟩] }
          else none
  | .event payload =>
      let f : Frame := ⟨eventSeqno, payload⟩
      if f.Fits then some { s with toHost := s.toHost ++ [⟨f, none⟩] } else none

/-! ## Sequence numbers -/

def sequenceOf (number : Nat) : UInt16 := UInt16.ofNat (number % 65535)

theorem toNat_sequenceOf (number : Nat) : (sequenceOf number).toNat = number % 65535 := by
  have bound := Nat.mod_lt number (show 65535 > 0 by decide)
  exact UInt16.toNat_ofNat_of_lt' (show number % 65535 < 2 ^ 16 by omega)

theorem sequenceOf_ne_event (number : Nat) : sequenceOf number ≠ eventSeqno := by
  intro same
  have value := toNat_sequenceOf number
  rw [same] at value
  have bound := Nat.mod_lt number (show 65535 > 0 by decide)
  rw [← value] at bound
  exact absurd bound (by decide)

theorem nextSequence_sequenceOf (number : Nat) :
    nextSequence (sequenceOf number) = sequenceOf (number + 1) := by
  have bound := Nat.mod_lt number (show 65535 > 0 by decide)
  have value := toNat_sequenceOf number
  have next : (sequenceOf number + 1).toNat = number % 65535 + 1 := by
    rw [UInt16.toNat_add, value]
    show (number % 65535 + 1) % 2 ^ 16 = _
    omega
  rw [← UInt16.toNat_inj, toNat_sequenceOf, nextSequence]
  split
  next wraps =>
    rw [wraps] at next
    have last : (0xffff : UInt16).toNat = 65535 := rfl
    rw [last] at next
    show 0 = _
    omega
  next goes =>
    have notLast : number % 65535 + 1 ≠ 65535 := by
      intro last
      apply goes
      rw [← UInt16.toNat_inj, next, last]
      rfl
    rw [next]
    omega

theorem sequenceOf_ne_succ (number : Nat) : sequenceOf number ≠ sequenceOf (number + 1) := by
  intro same
  have values := congrArg UInt16.toNat same
  rw [toNat_sequenceOf, toNat_sequenceOf] at values
  omega

/-! ## What is in flight -/

def System.inFlight (s : System) : List Nat :=
  s.toHost.filterMap (·.answers) ++ s.toIce.map (·.number)

/-- The sequence number of an answer is that of its call, and events have their
own. -/
def AnswerInFlight.Marked (a : AnswerInFlight) : Prop :=
  a.frame.seqno = match a.answers with
    | none => eventSeqno
    | some number => sequenceOf number

/-- The invariant of the protocol. -/
structure System.Matched (s : System) : Prop where
  sequence : s.host.commandSequence = sequenceOf s.finished
  commands : ∀ c ∈ s.toIce, c.frame.seqno = sequenceOf c.number
  answers : ∀ a ∈ s.toHost, a.Marked
  pending : StopAndWait.Pending s.finished s.inFlight
  settled : s.host.activity = .idle → StopAndWait.Settled s.finished s.inFlight
  accepted : s.accepted = (List.range s.finished).map fun number => (number, some number)

theorem matched_start : System.start.Matched where
  sequence := rfl
  commands := nofun
  answers := nofun
  pending := ⟨.nil, nofun⟩
  settled _ := nofun
  accepted := rfl

namespace System.Matched

variable {s : System} (matched : s.Matched)

include matched

theorem send {activity : Activity} {command : List UInt8} (calling : activity ≠ .idle) :
    System.Matched { s with
      host := { s.host with activity }
      toIce := s.toIce ++ [⟨⟨s.host.commandSequence, command⟩, s.finished⟩] } where
  sequence := matched.sequence
  commands c membership := by
    rcases List.mem_append.mp membership with earlier | last
    · exact matched.commands c earlier
    · rw [List.mem_singleton.mp last]
      exact matched.sequence
  answers := matched.answers
  pending := by
    have sent := matched.pending.send
    simpa [System.inFlight] using sent
  settled idle := absurd idle calling
  accepted := matched.accepted

theorem lose {toIce : List CommandInFlight} {toHost : List AnswerInFlight}
    (commandsLost : toIce.Sublist s.toIce) (answersLost : toHost.Sublist s.toHost) :
    System.Matched { s with toIce, toHost } := by
  have lost : (System.inFlight { s with toIce, toHost }).Sublist s.inFlight :=
    (answersLost.filterMap _).append (commandsLost.map _)
  exact
    { sequence := matched.sequence
      commands := fun c membership => matched.commands c (commandsLost.subset membership)
      answers := fun a membership => matched.answers a (answersLost.subset membership)
      pending := matched.pending.sublist lost
      settled := fun idle => (matched.settled idle).sublist lost
      accepted := matched.accepted }

theorem deliver {toIce : List CommandInFlight} {a : AnswerInFlight}
    (fewer : ∀ c ∈ toIce, c ∈ s.toIce) (marked : a.Marked)
    (same : System.inFlight { s with toIce, toHost := s.toHost ++ [a] } = s.inFlight) :
    System.Matched { s with toIce, toHost := s.toHost ++ [a] } where
  sequence := matched.sequence
  commands c membership := matched.commands c (fewer c membership)
  answers other membership := by
    rcases List.mem_append.mp membership with earlier | last
    · exact matched.answers other earlier
    · rw [List.mem_singleton.mp last]
      exact marked
  pending := same ▸ matched.pending
  settled idle := same ▸ matched.settled idle
  accepted := matched.accepted

theorem answer {c : CommandInFlight} {toIce : List CommandInFlight} (oldest : s.toIce = c :: toIce)
    (payload : List UInt8) :
    System.Matched { s with
      toIce
      toHost := s.toHost ++ [⟨⟨c.frame.seqno, payload⟩, some c.number⟩] } := by
  refine matched.deliver (fun other membership => oldest ▸ List.mem_cons_of_mem c membership)
    (matched.commands c (oldest ▸ List.mem_cons_self)) ?_
  simp [System.inFlight, oldest]

theorem event (payload : List UInt8) :
    System.Matched { s with toHost := s.toHost ++ [⟨⟨eventSeqno, payload⟩, none⟩] } := by
  refine matched.deliver (fun _ => id) rfl ?_
  simp [System.inFlight]

theorem answers_of_seqno {a : AnswerInFlight} {toHost : List AnswerInFlight}
    (oldest : s.toHost = a :: toHost) (matching : a.frame.seqno = s.host.commandSequence) :
    a.answers = some s.finished := by
  have marked := matched.answers a (oldest ▸ List.mem_cons_self)
  rw [AnswerInFlight.Marked, matching, matched.sequence] at marked
  cases source : a.answers with
  | none =>
      rw [source] at marked
      exact absurd marked (sequenceOf_ne_event s.finished)
  | some number =>
      rw [source] at marked
      have flying : number ∈ s.inFlight := by
        simp [System.inFlight, oldest, source]
      rcases matched.pending.near number flying with current | before
      · rw [current]
      · rw [← before] at marked
        exact absurd marked.symm (sequenceOf_ne_succ number)

theorem accept {a : AnswerInFlight} {toHost : List AnswerInFlight}
    (oldest : s.toHost = a :: toHost) (matching : a.frame.seqno = s.host.commandSequence) :
    System.Matched { s with
      host := ⟨nextSequence s.host.commandSequence, .idle⟩
      toHost
      finished := s.finished + 1
      accepted := s.accepted ++ [(s.finished, a.answers)] } := by
  have source := matched.answers_of_seqno oldest matching
  have inFlight : s.inFlight =
      s.finished :: (toHost.filterMap (·.answers) ++ s.toIce.map (·.number)) := by
    simp [System.inFlight, oldest, source]
  have settled := StopAndWait.Pending.answered (inFlight ▸ matched.pending)
  exact
    { sequence := by rw [matched.sequence, nextSequence_sequenceOf]
      commands := matched.commands
      answers := fun other membership =>
        matched.answers other (oldest ▸ List.mem_cons_of_mem a membership)
      pending := settled.pending
      settled := fun _ => settled
      accepted := by rw [matched.accepted, source, List.range_succ, List.map_append]; rfl }

end System.Matched

theorem receive_cases {h : Host} {r : Reception} {outcome : Outcome}
    (handled : h.receive r = outcome) (going : outcome ≠ .abandoned) :
    outcome = .receiving ∨
      (∃ activity command, activity ≠ .idle ∧
        outcome = .resent { h with activity } ⟨h.commandSequence, command⟩) ∨
      ∃ f, r = .frame f ∧ f.seqno = h.commandSequence ∧
        outcome = .returned ⟨nextSequence h.commandSequence, .idle⟩ f.payload
          (isPositive f.payload) := by
  unfold Host.receive at handled
  cases activity : h.activity with
  | idle =>
      rw [activity] at handled
      exact absurd handled.symm going
  | receiving command retryOnTimeout tries =>
      rw [activity] at handled
      cases r with
      | nothing =>
          simp only [recvRound] at handled
          split at handled
          · refine .inr (.inl ⟨.receiving command retryOnTimeout (tries + 1), command, ?_,
              handled.symm⟩)
            exact Activity.noConfusion
          · exact absurd handled.symm going
      | frame f =>
          by_cases matching : f.seqno = h.commandSequence
          · simp only [recvRound, if_pos matching] at handled
            exact .inr (.inr ⟨f, rfl, matching, handled.symm⟩)
          · simp only [recvRound, if_neg matching] at handled
            exact .inl handled.symm

theorem matched_receive {s s' : System} (matched : s.Matched) {r : Reception}
    {answers : Option Nat} {toHost : List AnswerInFlight} (lost : toHost.Sublist s.toHost)
    (arrived : ∀ f, r = .frame f → ∃ a, s.toHost = a :: toHost ∧ a.frame = f ∧ a.answers = answers)
    (taken : s.receive r answers toHost = some s') : s'.Matched := by
  unfold System.receive at taken
  cases handled : s.host.receive r with
  | abandoned =>
      rw [handled] at taken
      cases taken
  | receiving =>
      rw [handled] at taken
      cases taken
      exact matched.lose (List.Sublist.refl _) lost
  | resent host f =>
      rw [handled] at taken
      cases taken
      obtain again | ⟨activity, command, calling, again⟩ | ⟨_, _, _, again⟩ :=
        receive_cases handled nofun
      · cases again
      · cases again
        exact (matched.lose (List.Sublist.refl _) lost).send calling
      · cases again
  | returned host response result =>
      rw [handled] at taken
      cases taken
      obtain reply | ⟨_, _, _, reply⟩ | ⟨f, received, matching, reply⟩ :=
        receive_cases handled nofun
      · cases reply
      · cases reply
      · cases reply
        obtain ⟨a, oldest, rfl, rfl⟩ := arrived f received
        exact matched.accept oldest matching

theorem matched_step {s s' : System} {action : Action} (matched : s.Matched)
    (taken : s.step action = some s') : s'.Matched := by
  cases action with
  | call command retryOnTimeout =>
      simp only [System.step] at taken
      split at taken
      · cases taken
        exact matched.send nofun
      · cases taken
  | timeout =>
      exact matched_receive matched (List.Sublist.refl _) (fun _ => Reception.noConfusion) taken
  | arrive intact =>
      simp only [System.step] at taken
      split at taken
      · cases taken
      next a toHost oldest =>
        refine matched_receive matched (oldest ▸ List.sublist_cons_self a toHost) ?_ taken
        intro f received
        refine ⟨a, oldest, ?_, rfl⟩
        split at received
        · exact Reception.frame.inj received
        · cases received
  | loseCommand i =>
      cases taken
      exact matched.lose (List.eraseIdx_sublist _ i) (List.Sublist.refl _)
  | loseAnswer i =>
      cases taken
      exact matched.lose (List.Sublist.refl _) (List.eraseIdx_sublist _ i)
  | answer payload =>
      simp only [System.step] at taken
      split at taken
      · cases taken
      next c toIce oldest =>
        split at taken
        · cases taken
          exact matched.answer oldest payload
        · cases taken
  | event payload =>
      simp only [System.step] at taken
      split at taken
      · cases taken
        exact matched.event payload
      · cases taken

/-- In every reachable state each finished call has accepted a frame that
answers this call, and no command carries the sequence number of events. -/
theorem accepted_answer_call {actions : List Action} {s : System}
    (reached : Transition.attempt System.step .start actions = some s) :
    s.accepted = (List.range s.finished).map (fun number => (number, some number)) ∧
      s.host.commandSequence ≠ eventSeqno ∧
        ∀ c ∈ s.toIce, c.frame.seqno ≠ eventSeqno := by
  have matched : s.Matched :=
    Transition.invariant_of_attempt (fun _ _ _ => matched_step) reached matched_start
  refine ⟨matched.accepted, ?_, fun c membership => ?_⟩
  · rw [matched.sequence]
    exact sequenceOf_ne_event s.finished
  · rw [matched.commands c membership]
    exact sequenceOf_ne_event c.number

/-- A run with a command that is sent twice, whose second answer arrives during
the next call. -/
theorem accepted_answer_call_resent :
    let s : System := ⟨⟨2, .idle⟩, [], [], 2, [(0, some 0), (1, some 1)]⟩
    Transition.attempt System.step .start
        [.call [0x05] true, .timeout, .answer [0x80], .event [0xe0], .answer [0x80], .arrive true,
          .call [0x07] true, .arrive true, .arrive true, .answer [0x80], .arrive true] = some s ∧
      s.accepted = (List.range s.finished).map (fun number => (number, some number)) ∧
        s.host.commandSequence ≠ eventSeqno ∧ ∀ c ∈ s.toIce, c.frame.seqno ≠ eventSeqno := by
  have reached : Transition.attempt System.step .start
      [.call [0x05] true, .timeout, .answer [0x80], .event [0xe0], .answer [0x80], .arrive true,
        .call [0x07] true, .arrive true, .arrive true, .answer [0x80], .arrive true] =
      some ⟨⟨2, .idle⟩, [], [], 2, [(0, some 0), (1, some 1)]⟩ := by decide
  exact ⟨reached, accepted_answer_call reached⟩

end Avarice.Mk2

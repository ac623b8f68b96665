import Avarice.Mk2.Access
import Avarice.Mk2.CommandEffects

/-!
# The mkII behind a lossy line

Commands that are sent to an ICE over a line that loses and delays frames in both
directions, or damages them so that their CRC is wrong, one attempt after another.  What
the line and the ICE do is explained by a run of the protocol.
-/

namespace Avarice.Mk2

open Repetition Retry Throwing

/-- What happens on the line and behind it while the host waits for a response. -/
inductive Happening where
  /-- The ICE executes the oldest command and answers. -/
  | execute
  | event (payload : List UInt8)
  | loseCommand (i : Nat)
  | loseAnswer (i : Nat)
  /-- The oldest frame arrives with a wrong CRC. -/
  | damaged
  | arrive
  deriving DecidableEq, Repr

/-- The frames on their way, the oldest first, and the ICE behind them. -/
structure Line (Ice : Type) where
  commandSequence : UInt16
  toIce : List Frame
  toHost : List Frame
  ice : Ice
  attempts : Nat

def Line.start {Ice : Type} (ice : Ice) : Line Ice := ⟨0, [], [], ice, 0⟩

section Program

variable {Ice : Type}

def Line.send (l : Line Ice) (command : List UInt8) : Line Ice :=
  { l with toIce := l.toIce ++ [⟨l.commandSequence, command⟩], attempts := l.attempts + 1 }

def Line.emit (l : Line Ice) (f : Frame) : Line Ice :=
  if f.Fits then { l with toHost := l.toHost ++ [f] } else l

variable (execute : Ice → List UInt8 → List UInt8 × Ice)

def Line.recv : List Happening → Line Ice → Attempt × Line Ice
  | [], l => (.timeout, l)
  | .execute :: later, l =>
      match l.toIce with
      | [] => recv later l
      | f :: toIce =>
          let (response, ice) := execute l.ice f.payload
          recv later ({ l with toIce, ice }.emit ⟨f.seqno, response⟩)
  | .event payload :: later, l => recv later (l.emit ⟨eventSeqno, payload⟩)
  | .loseCommand i :: later, l => recv later { l with toIce := l.toIce.eraseIdx i }
  | .loseAnswer i :: later, l => recv later { l with toHost := l.toHost.eraseIdx i }
  | .damaged :: later, l =>
      match l.toHost with
      | [] => recv later l
      | _ :: toHost => (.crcError, { l with toHost })
  | .arrive :: later, l =>
      match l.toHost with
      | [] => recv later l
      | ⟨_, []⟩ :: toHost => (.timeout, { l with toHost })
      | ⟨seqno, code :: rest⟩ :: toHost =>
          match recvRound l.commandSequence (.frame ⟨seqno, code :: rest⟩) with
          | .reply _ commandSequence => (.response code rest, { l with commandSequence, toHost })
          | _ => recv later { l with toHost }

def lossyAttempt (fates : Nat → List Happening) (command : List UInt8) (l : Line Ice) :
    Attempt × Line Ice :=
  (l.send command).recv execute (fates l.attempts)

end Program

/-! ## A run of the protocol explains the line -/

section Explained

variable {Ice Held : Type} (execute : Ice → List UInt8 → List UInt8 × Ice) (held : Ice → Held)
  (effect : List UInt8 → Held → Held) (Allowed : List UInt8 → Prop) (start : Held)

/-- The protocol with the frames and the ICE of a line. -/
structure Follows (p : Plant Ice) (l : Line Ice) : Prop where
  sequential : p.Sequential execute held effect start
  allowed : ∀ c ∈ p.calls, Allowed c
  commandSequence : l.commandSequence = p.system.host.commandSequence
  toIce : l.toIce = p.system.toIce.map (·.frame)
  toHost : l.toHost = p.system.toHost.map (·.frame)
  ice : l.ice = p.ice

def Between (calls : List (List UInt8)) (l : Line Ice) : Prop :=
  ∃ p, Follows execute held effect Allowed start p l ∧ p.calls = calls ∧
    p.system.host.activity = .idle

def During (earlier : List (List UInt8)) (command : List UInt8) (l : Line Ice) : Prop :=
  ∃ p tries, Follows execute held effect Allowed start p l ∧ p.calls = earlier ++ [command] ∧
    p.system.host.activity = .receiving command true tries

end Explained

section Line

variable {Ice Held : Type} {execute : Ice → List UInt8 → List UInt8 × Ice} {held : Ice → Held}
  {effect : List UInt8 → Held → Held} {Allowed : List UInt8 → Prop} {start : Held}
  {earlier calls : List (List UInt8)} {command : List UInt8} {l : Line Ice} {p : Plant Ice}

theorem between_start (ice : Ice) :
    Between execute held effect Allowed (held ice) [] (Line.start ice) :=
  ⟨.start ice, ⟨sequential_start ice, nofun, rfl, rfl, rfl, rfl⟩, rfl, rfl⟩

theorem Between.carriedOut (between : Between execute held effect Allowed start calls l) :
    held l.ice = behind effect start calls := by
  obtain ⟨p, follows, rfl, idle⟩ := between
  have length := follows.sequential.idle idle
  rw [follows.ice]
  rcases follows.sequential.carriedOut with before | ⟨before, _⟩
  · rwa [List.take_of_length_le (Nat.le_of_eq length)] at before
  · rwa [List.take_of_length_le (by omega)] at before

theorem Follows.places (follows : Follows execute held effect Allowed start p l) {tries : Nat}
    (calls : p.calls = earlier ++ [command])
    (activity : p.system.host.activity = .receiving command true tries) :
    p.calls[p.system.finished]? = some command ∧
      behind effect start (p.calls.take p.system.finished) = behind effect start earlier ∧
        behind effect start (p.calls.take (p.system.finished + 1)) =
          effect command (behind effect start earlier) := by
  obtain ⟨length, found⟩ := follows.sequential.active _ _ _ activity
  have finished : p.system.finished = earlier.length := by
    rw [calls, List.length_append] at length
    exact (Nat.succ.inj length).symm
  have before : p.calls.take p.system.finished = earlier := by
    rw [calls, finished, List.take_left]
  refine ⟨found, congrArg _ before, ?_⟩
  rw [behind_take_succ effect start found, before]

theorem During.carriedOut (during : During execute held effect Allowed start earlier command l) :
    held l.ice = behind effect start earlier ∨
      held l.ice = effect command (behind effect start earlier) := by
  obtain ⟨p, tries, follows, calls, activity⟩ := during
  obtain ⟨_, before, after⟩ := follows.places calls activity
  rw [follows.ice, ← after, ← before]
  exact follows.sequential.carriedOut.imp_right And.left

theorem Between.send (between : Between execute held effect Allowed start earlier l)
    (allowed : Allowed command) :
    During execute held effect Allowed start earlier command (l.send command) := by
  obtain ⟨p, follows, rfl, idle⟩ := between
  refine ⟨_, 1, ⟨follows.sequential.call idle command true, ?_, follows.commandSequence, ?_,
    follows.toHost, follows.ice⟩, rfl, rfl⟩
  · intro c member
    rcases List.mem_append.mp member with before | last
    · exact follows.allowed c before
    · exact List.mem_singleton.mp last ▸ allowed
  · simp [Line.send, follows.toIce, follows.commandSequence]

theorem During.send (during : During execute held effect Allowed start earlier command l) :
    During execute held effect Allowed start earlier command (l.send command) := by
  obtain ⟨p, tries, follows, calls, activity⟩ := during
  refine ⟨_, tries + 1, ⟨follows.sequential.resend activity (tries + 1), follows.allowed,
    follows.commandSequence, ?_, follows.toHost, follows.ice⟩, calls, rfl⟩
  simp [Line.send, follows.toIce, follows.commandSequence]

/-! ### What happens during a call -/

theorem During.loseCommand (during : During execute held effect Allowed start earlier command l)
    (i : Nat) :
    During execute held effect Allowed start earlier command
      { l with toIce := l.toIce.eraseIdx i } := by
  obtain ⟨p, tries, follows, calls, activity⟩ := during
  have lost := follows.sequential.lose (List.eraseIdx_sublist _ i) (List.Sublist.refl _)
  refine ⟨_, tries, ⟨lost, follows.allowed, follows.commandSequence, ?_, follows.toHost,
    follows.ice⟩, calls, activity⟩
  simp only [follows.toIce, List.eraseIdx_map]

theorem During.loseAnswer (during : During execute held effect Allowed start earlier command l)
    (i : Nat) :
    During execute held effect Allowed start earlier command
      { l with toHost := l.toHost.eraseIdx i } := by
  obtain ⟨p, tries, follows, calls, activity⟩ := during
  have lost := follows.sequential.lose (List.Sublist.refl _) (List.eraseIdx_sublist _ i)
  refine ⟨_, tries, ⟨lost, follows.allowed, follows.commandSequence, follows.toIce, ?_,
    follows.ice⟩, calls, activity⟩
  simp only [follows.toHost, List.eraseIdx_map]

theorem During.event (during : During execute held effect Allowed start earlier command l)
    (payload : List UInt8) :
    During execute held effect Allowed start earlier command (l.emit ⟨eventSeqno, payload⟩) := by
  rw [Line.emit]
  split
  swap
  · exact during
  obtain ⟨p, tries, follows, calls, activity⟩ := during
  refine ⟨_, tries, ⟨follows.sequential.event payload, follows.allowed, follows.commandSequence,
    follows.toIce, ?_, follows.ice⟩, calls, activity⟩
  simp [follows.toHost]

theorem During.executeOldest (repeatable : AllRepeatable execute held effect Allowed)
    (during : During execute held effect Allowed start earlier command l) {f : Frame}
    {toIce : List Frame} (oldest : l.toIce = f :: toIce) :
    During execute held effect Allowed start earlier command
      (Line.emit { l with toIce, ice := (execute l.ice f.payload).2 }
        ⟨f.seqno, (execute l.ice f.payload).1⟩) := by
  obtain ⟨p, tries, follows, calls, activity⟩ := during
  have oldestOfAll := follows.toIce.symm.trans oldest
  obtain ⟨c, left, inFlight, rfl, rfl⟩ := List.map_eq_cons_iff.mp oldestOfAll
  have answered := follows.sequential.answer repeatable follows.allowed inFlight
  rw [Line.emit]
  split
  · refine ⟨_, tries, ⟨answered, follows.allowed, follows.commandSequence, rfl, ?_, ?_⟩, calls,
      activity⟩
    · simp [follows.toHost, follows.ice]
    · simp [follows.ice]
  · have lost := answered.lose (List.Sublist.refl _) (List.sublist_append_left _ _)
    refine ⟨_, tries, ⟨lost, follows.allowed, follows.commandSequence, rfl, follows.toHost, ?_⟩,
      calls, activity⟩
    simp [follows.ice]

theorem During.accept (during : During execute held effect Allowed start earlier command l)
    {f : Frame} {toHost : List Frame} (oldest : l.toHost = f :: toHost)
    (matching : f.seqno = l.commandSequence) :
    Between execute held effect Allowed start (earlier ++ [command])
        { l with commandSequence := nextSequence l.commandSequence, toHost } ∧
      ∃ ice, f.payload = (execute ice command).1 ∧
        (held ice = behind effect start earlier ∨
          held ice = effect command (behind effect start earlier)) := by
  obtain ⟨p, tries, follows, calls, activity⟩ := during
  have oldestOfAll := follows.toHost.symm.trans oldest
  obtain ⟨a, left, inFlight, rfl, rfl⟩ := List.map_eq_cons_iff.mp oldestOfAll
  have calling : p.system.host.activity ≠ .idle := fun idle => by
    rw [activity] at idle
    cases idle
  have own := matching.trans follows.commandSequence
  have accepted := follows.sequential.accept inFlight own calling
  refine ⟨⟨_, ⟨accepted, follows.allowed, ?_, follows.toIce, rfl, follows.ice⟩, calls, rfl⟩, ?_⟩
  · exact congrArg nextSequence follows.commandSequence
  · obtain ⟨found, before, after⟩ := follows.places calls activity
    have number := follows.sequential.matched.answers_of_seqno inFlight own
    obtain ⟨other, ice, same, given, carriedOut⟩ :=
      follows.sequential.answers a (inFlight ▸ List.mem_cons_self) _ number
    cases found.symm.trans same
    rw [before, after] at carriedOut
    exact ⟨ice, given, carriedOut⟩

def Waited (execute : Ice → List UInt8 → List UInt8 × Ice) (held : Ice → Held)
    (effect : List UInt8 → Held → Held) (Allowed : List UInt8 → Prop) (start : Held)
    (earlier : List (List UInt8)) (command : List UInt8) (answer : Attempt) (l : Line Ice) : Prop :=
  if answer.responded then
    Between execute held effect Allowed start (earlier ++ [command]) l ∧
      ∃ ice, answer.msg = (execute ice command).1 ∧
        (held ice = behind effect start earlier ∨
          held ice = effect command (behind effect start earlier))
  else During execute held effect Allowed start earlier command l

theorem During.recv (repeatable : AllRepeatable execute held effect Allowed)
    (during : During execute held effect Allowed start earlier command l)
    (happenings : List Happening) :
    Waited execute held effect Allowed start earlier command (l.recv execute happenings).1
      (l.recv execute happenings).2 := by
  induction happenings generalizing l with
  | nil => exact during
  | cons happening later inductionHypothesis =>
      cases happening with
      | execute =>
          cases oldest : l.toIce with
          | nil =>
              simp only [Line.recv, oldest]
              exact inductionHypothesis during
          | cons f toIce =>
              simp only [Line.recv, oldest]
              exact inductionHypothesis (during.executeOldest repeatable oldest)
      | event payload => exact inductionHypothesis (during.event payload)
      | loseCommand i => exact inductionHypothesis (during.loseCommand i)
      | loseAnswer i => exact inductionHypothesis (during.loseAnswer i)
      | damaged =>
          cases oldest : l.toHost with
          | nil =>
              simp only [Line.recv, oldest]
              exact inductionHypothesis during
          | cons f toHost =>
              have lost := during.loseAnswer 0
              simp only [Line.recv, oldest, List.eraseIdx_cons_zero] at lost ⊢
              exact lost
      | arrive =>
          cases oldest : l.toHost with
          | nil =>
              simp only [Line.recv, oldest]
              exact inductionHypothesis during
          | cons f toHost =>
              have lost := during.loseAnswer 0
              obtain ⟨seqno, payload⟩ := f
              rw [oldest, List.eraseIdx_cons_zero] at lost
              cases payload with
              | nil =>
                  simp only [Line.recv, oldest]
                  exact lost
              | cons code rest =>
                  simp only [Line.recv, oldest, recvRound]
                  by_cases matching : seqno = l.commandSequence
                  · simp only [if_pos matching]
                    exact during.accept oldest matching
                  · simp only [if_neg matching]
                    exact inductionHypothesis lost

/-! ### Calls -/

theorem retry_waited (repeatable : AllRepeatable execute held effect Allowed)
    (allowed : Allowed command) (fates : Nat → List Happening) (attempts : Nat)
    (opened : Between execute held effect Allowed start earlier l ∨
      During execute held effect Allowed start earlier command l) :
    let call := retry (lossyAttempt execute fates command) (commandVerdict true) attempts l
    match call.result with
    | none =>
        Between execute held effect Allowed start earlier call.state ∨
          During execute held effect Allowed start earlier command call.state
    | some (positive, answer) =>
        positive = answer.positive ∧ answer.responded = true ∧
          Waited execute held effect Allowed start earlier command answer call.state := by
  induction attempts generalizing l with
  | zero => exact opened
  | succ attempts inductionHypothesis =>
      have during := opened.elim (·.send allowed) (·.send)
      have waited := during.recv repeatable (fates l.attempts)
      cases responded : (lossyAttempt execute fates command l).1.responded with
      | true =>
          have verdict : commandVerdict true (lossyAttempt execute fates command l).1 =
              some ((lossyAttempt execute fates command l).1.positive,
                (lossyAttempt execute fates command l).1) := by
            simp [commandVerdict, responded]
          rw [retry_settled verdict]
          exact ⟨rfl, responded, waited⟩
      | false =>
          have verdict : commandVerdict true (lossyAttempt execute fates command l).1 = none := by
            simp [commandVerdict, responded]
          rw [retry_unsettled verdict]
          have still : During execute held effect Allowed start earlier command
              (lossyAttempt execute fates command l).2 := by
            have silent : ¬((l.send command).recv execute (fates l.attempts)).1.responded = true :=
              Bool.eq_false_iff.mp responded
            rwa [Waited, if_neg silent] at waited
          exact inductionHypothesis (.inr still)

variable (execute held effect Allowed) in
def Line.Ready (l : Line Ice) : Prop :=
  ∃ start calls, Between execute held effect Allowed start calls l

/-- A command whose call returns has been carried out once, and the response is its
own; a command whose call throws has been carried out once or not at all. -/
theorem checkedCommand_ends (repeatable : AllRepeatable execute held effect Allowed)
    (allowed : Allowed command) (fates : Nat → List Happening)
    (ready : l.Ready execute held effect Allowed) :
    Called.Ends
      (fun response after => after.Ready execute held effect Allowed ∧
        held after.ice = effect command (held l.ice) ∧ isPositive response = true ∧
        ∃ ice, response = (execute ice command).1 ∧
          (held ice = held l.ice ∨ held ice = effect command (held l.ice)))
      (fun after => held after.ice = held l.ice ∨ held after.ice = effect command (held l.ice))
      (Access.checkedCommand (lossyAttempt execute fates) command l) := by
  obtain ⟨start, calls, between⟩ := ready
  have retried := retry_waited repeatable allowed fates maxJtagCommAttemps (.inl between)
  have before := between.carriedOut
  simp only [Access.checkedCommand, doJtagCommand_eq]
  generalize retry (lossyAttempt execute fates command) (commandVerdict true) maxJtagCommAttemps
    l = call at retried
  cases outcome : call.result with
  | none =>
      simp only [outcome] at retried
      refine ⟨fun _ impossible => ?_, fun _ => ?_⟩
      · cases impossible
      rw [before]
      exact retried.elim (fun between => .inl between.carriedOut) During.carriedOut
  | some result =>
      obtain ⟨positive, answer⟩ := result
      simp only [outcome] at retried
      obtain ⟨sign, responded, waited⟩ := retried
      rw [Waited, if_pos responded] at waited
      obtain ⟨after, ice, given, carriedOut⟩ := waited
      have whole : behind effect start (calls ++ [command]) =
          effect command (behind effect start calls) := List.foldl_append
      have done := after.carriedOut
      rw [whole] at done
      rw [before]
      constructor
      · intro response returned
        cases accepted : positive with
        | false => simp [accepted] at returned
        | true =>
            have same : answer.msg = response := by simpa [accepted] using returned
            refine ⟨⟨start, _, after⟩, done, ?_, ice, same ▸ given, carriedOut⟩
            rw [← same]
            exact sign.symm.trans accepted
      · exact fun _ => .inr done

theorem effect_of_begun (repeatable : AllRepeatable execute held effect Allowed)
    (allowed : Allowed command) {value begun : Held}
    (carriedOut : value = begun ∨ value = effect command begun) :
    effect command value = effect command begun := by
  rcases carriedOut with rfl | rfl
  · rfl
  · exact repeatable.again _ _ allowed

theorem retry_simple (repeatable : AllRepeatable execute held effect Allowed) {code : UInt8}
    (allowed : Allowed [code]) (fates : Nat → List Happening) {begun : Held} (attempts : Nat)
    {earlier : List (List UInt8)}
    (carriedOut : behind effect start earlier = begun ∨
      behind effect start earlier = effect [code] begun)
    (opened : Between execute held effect Allowed start earlier l ∨
      During execute held effect Allowed start earlier [code] l) :
    let call := retry (lossyAttempt execute fates [code]) simpleVerdict attempts l
    (call.result = some true → call.state.Ready execute held effect Allowed ∧
      held call.state.ice = effect [code] begun ∧
        ∃ ice, isPositive (execute ice [code]).1 = true ∧
          (held ice = begun ∨ held ice = effect [code] begun)) ∧
      (held call.state.ice = begun ∨ held call.state.ice = effect [code] begun) := by
  induction attempts generalizing l earlier with
  | zero =>
      refine ⟨nofun, ?_⟩
      rcases opened with between | during
      · rw [retry, between.carriedOut]
        exact carriedOut
      · rw [retry]
        rcases during.carriedOut with not | done
        · rw [not]
          exact carriedOut
        · exact .inr (done.trans (effect_of_begun repeatable allowed carriedOut))
  | succ attempts inductionHypothesis =>
      have again := effect_of_begun repeatable allowed carriedOut
      have whole : behind effect start (earlier ++ [[code]]) = effect [code] begun :=
        List.foldl_append.trans again
      have during := opened.elim (·.send allowed) (·.send)
      have waited := during.recv repeatable (fates l.attempts)
      change Waited execute held effect Allowed start earlier [code]
        (lossyAttempt execute fates [code] l).1 (lossyAttempt execute fates [code] l).2 at waited
      rw [Waited] at waited
      cases positive : (lossyAttempt execute fates [code] l).1.positive with
      | true =>
          rw [if_pos (Attempt.responded_of_positive positive)] at waited
          obtain ⟨after, ice, given, before⟩ := waited
          have verdict : simpleVerdict (lossyAttempt execute fates [code] l).1 = some _ :=
            if_pos positive
          rw [retry_settled verdict]
          have done := after.carriedOut.trans whole
          refine ⟨fun _ => ⟨⟨start, _, after⟩, done, ice, given ▸ positive, ?_⟩, .inr done⟩
          rw [again] at before
          rcases before with same | same
          · rw [same]
            exact carriedOut
          · exact .inr same
      | false =>
          have verdict : simpleVerdict (lossyAttempt execute fates [code] l).1 = none := by
            simp [simpleVerdict, positive]
          rw [retry_unsettled verdict]
          split at waited
          · exact inductionHypothesis (.inr whole) (.inl waited.1)
          · exact inductionHypothesis carriedOut (.inr waited)

theorem ready_start (ice : Ice) : (Line.start ice).Ready execute held effect Allowed :=
  ⟨_, [], between_start ice⟩

end Line

end Avarice.Mk2

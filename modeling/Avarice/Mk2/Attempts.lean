import Avarice.Library.Retry
import Avarice.Mk2.Exchange

/-!
# Attempts at a command

`sendJtagCommand`, `doJtagCommand` and `doSimpleJtagCommand` of the mkII, by
what comes of each frame they send.
-/

namespace Avarice.Mk2

open Retry

/-- What `recv` returns after a frame has been sent. -/
inductive Attempt where
  | timeout
  | crcError
  | response (code : UInt8) (rest : List UInt8)
  deriving DecidableEq, Repr

namespace Attempt

def msgsize : Attempt → Int
  | timeout => 0
  | crcError => -1
  | response _ rest => rest.length + 1

def msg : Attempt → List UInt8
  | response code rest => code :: rest
  | _ => []

/-- A valid response has come, of either sign. -/
def responded : Attempt → Bool
  | response .. => true
  | _ => false

def positive (answer : Attempt) : Bool := isPositive answer.msg

end Attempt

/-- `jtagCheck` and `unixCheck`: they throw if the status is negative. -/
def jtagCheck (status : Int) : Bool := !decide (status < 0)

variable {Ice : Type} (attempt : List UInt8 → Ice → Attempt × Ice)

/-- One attempt at a command, or nothing once there have been too many, and
what the function returns.  It throws where nothing is returned. -/
def sendJtagCommand (command : List UInt8) (verify : Bool) (tries : Nat) (ice : Ice) :
    Option Attempt × Option Bool × Ice :=
  if tries < maxJtagCommAttemps then
    let (answer, ice) := attempt command ice
    if verify && !jtagCheck (answer.msgsize - 1) then (some answer, none, ice)
    else if answer.msgsize < 1 then (some answer, some false, ice)
    else (some answer, some answer.positive, ice)
  else (none, none, ice)

/-- The loop of `doJtagCommand`, whose rounds end with the check of the number
of attempts.  Its result is what the function returns and the response. -/
def doJtagCommandFrom (command : List UInt8) (retryOnTimeout : Bool) :
    (rounds tries : Nat) → Ice → Tried Ice Attempt (Bool × Attempt)
  | 0, _, ice => ⟨[], none, ice⟩
  | rounds + 1, tries, ice =>
      match sendJtagCommand attempt command false tries ice with
      | (some answer, some true, ice) => ⟨[answer], some (true, answer), ice⟩
      | (some answer, some false, ice) =>
          if 0 < answer.msgsize || !retryOnTimeout then ⟨[answer], some (false, answer), ice⟩
          else
            let later := doJtagCommandFrom command retryOnTimeout rounds (tries + 1) ice
            { later with answers := answer :: later.answers }
      | (answer, _, ice) => ⟨answer.toList, none, ice⟩

def doJtagCommand (command : List UInt8) (retryOnTimeout : Bool) (ice : Ice) :
    Tried Ice Attempt (Bool × Attempt) :=
  doJtagCommandFrom attempt command retryOnTimeout (maxJtagCommAttemps + 1) 0 ice

/-- The loop of `doSimpleJtagCommand`.  Its result says whether the function
returns, or throws because of the response. -/
def doSimpleJtagCommandFrom (command : UInt8) :
    (rounds tries : Nat) → Ice → Tried Ice Attempt Bool
  | 0, _, ice => ⟨[], none, ice⟩
  | rounds + 1, tries, ice =>
      match sendJtagCommand attempt [command] false tries ice with
      | (some answer, some true, ice) => ⟨[answer], some (decide (answer.msg = [rspOk])), ice⟩
      | (some answer, some false, ice) =>
          -- the status is a truth value, so that the check never throws
          if jtagCheck (if answer.msgsize ≤ 0 then 1 else 0) then
            let later := doSimpleJtagCommandFrom command rounds (tries + 1) ice
            { later with answers := answer :: later.answers }
          else ⟨[answer], some false, ice⟩
      | (answer, _, ice) => ⟨answer.toList, none, ice⟩

def doSimpleJtagCommand (command : UInt8) (ice : Ice) : Tried Ice Attempt Bool :=
  doSimpleJtagCommandFrom attempt command (maxJtagCommAttemps + 1) 0 ice

/-! ## Both loops are retries -/

def commandVerdict (retryOnTimeout : Bool) (answer : Attempt) : Option (Bool × Attempt) :=
  if answer.responded || !retryOnTimeout then some (answer.positive, answer) else none

def simpleVerdict (answer : Attempt) : Option Bool :=
  if answer.positive then some (decide (answer.msg = [rspOk])) else none

section Loops

variable {attempt : List UInt8 → Ice → Attempt × Ice}

theorem Attempt.responded_of_positive {answer : Attempt} (positive : answer.positive = true) :
    answer.responded = true := by
  cases answer with
  | response => rfl
  | timeout => cases positive
  | crcError => cases positive

theorem Attempt.positive_of_not_responded {answer : Attempt} (silent : answer.responded = false) :
    answer.positive = false :=
  Bool.eq_false_iff.mpr fun positive =>
    Bool.false_ne_true (silent.symm.trans (responded_of_positive positive))

theorem Attempt.decide_msgsize (answer : Attempt) :
    decide (0 < answer.msgsize) = answer.responded := by
  cases answer with
  | timeout => rfl
  | crcError => rfl
  | response code rest =>
      have positive : (0 : Int) < rest.length + 1 := by omega
      exact decide_eq_true positive

theorem sendJtagCommand_of_lt {tries : Nat} (left : tries < maxJtagCommAttemps)
    (command : List UInt8) (ice : Ice) :
    sendJtagCommand attempt command false tries ice =
      (some (attempt command ice).1, some (attempt command ice).1.positive,
        (attempt command ice).2) := by
  have sized := (attempt command ice).1.decide_msgsize
  unfold sendJtagCommand
  rw [if_pos left]
  dsimp only
  rw [Bool.false_and, if_neg Bool.false_ne_true]
  cases responded : (attempt command ice).1.responded with
  | true =>
      have some := of_decide_eq_true (sized.trans responded)
      rw [if_neg (by omega)]
  | false =>
      have none := of_decide_eq_false (sized.trans responded)
      rw [if_pos (by omega), Attempt.positive_of_not_responded responded]

theorem sendJtagCommand_of_le {tries : Nat} (exhausted : maxJtagCommAttemps ≤ tries)
    (command : List UInt8) (verify : Bool) (ice : Ice) :
    sendJtagCommand attempt command verify tries ice = (none, none, ice) := by
  rw [sendJtagCommand, if_neg (Nat.not_lt.mpr exhausted)]

theorem doJtagCommandFrom_eq (command : List UInt8) (retryOnTimeout : Bool) {attempts tries : Nat}
    (left : tries + attempts = maxJtagCommAttemps) (ice : Ice) :
    doJtagCommandFrom attempt command retryOnTimeout (attempts + 1) tries ice =
      retry (attempt command) (commandVerdict retryOnTimeout) attempts ice := by
  induction attempts generalizing tries ice with
  | zero =>
      have exhausted : maxJtagCommAttemps ≤ tries := Nat.le_of_eq left.symm
      rw [doJtagCommandFrom, sendJtagCommand_of_le exhausted]
      rfl
  | succ attempts inductionHypothesis =>
      have more : tries < maxJtagCommAttemps := by omega
      have sized := (attempt command ice).1.decide_msgsize
      rw [doJtagCommandFrom, sendJtagCommand_of_lt more]
      by_cases ends : ((attempt command ice).1.responded || !retryOnTimeout) = true
      · have verdict : commandVerdict retryOnTimeout (attempt command ice).1 = some _ := if_pos ends
        rw [retry_settled verdict]
        cases (attempt command ice).1.positive with
        | true => rfl
        | false =>
            dsimp only
            rw [sized, if_pos ends]
      · have verdict : commandVerdict retryOnTimeout (attempt command ice).1 = none := if_neg ends
        have silent := (Bool.or_eq_false_iff.mp (Bool.eq_false_iff.mpr ends)).1
        rw [retry_unsettled verdict, Attempt.positive_of_not_responded silent]
        dsimp only
        rw [sized, if_neg ends, inductionHypothesis (by omega)]

theorem doSimpleJtagCommandFrom_eq (command : UInt8) {attempts tries : Nat}
    (left : tries + attempts = maxJtagCommAttemps) (ice : Ice) :
    doSimpleJtagCommandFrom attempt command (attempts + 1) tries ice =
      retry (attempt [command]) simpleVerdict attempts ice := by
  induction attempts generalizing tries ice with
  | zero =>
      have exhausted : maxJtagCommAttemps ≤ tries := Nat.le_of_eq left.symm
      rw [doSimpleJtagCommandFrom, sendJtagCommand_of_le exhausted]
      rfl
  | succ attempts inductionHypothesis =>
      have more : tries < maxJtagCommAttemps := by omega
      have passes : jtagCheck (if (attempt [command] ice).1.msgsize ≤ 0 then 1 else 0) = true := by
        split <;> rfl
      rw [doSimpleJtagCommandFrom, sendJtagCommand_of_lt more]
      cases positive : (attempt [command] ice).1.positive with
      | true =>
          have verdict : simpleVerdict (attempt [command] ice).1 = some _ := if_pos positive
          rw [retry_settled verdict]
      | false =>
          have verdict : simpleVerdict (attempt [command] ice).1 = none :=
            if_neg (Bool.eq_false_iff.mp positive)
          rw [retry_unsettled verdict]
          dsimp only
          rw [if_pos passes, inductionHypothesis (by omega)]

theorem doJtagCommand_eq (command : List UInt8) (retryOnTimeout : Bool) (ice : Ice) :
    doJtagCommand attempt command retryOnTimeout ice =
      retry (attempt command) (commandVerdict retryOnTimeout) maxJtagCommAttemps ice :=
  doJtagCommandFrom_eq command retryOnTimeout (Nat.zero_add _) ice

theorem doSimpleJtagCommand_eq (command : UInt8) (ice : Ice) :
    doSimpleJtagCommand attempt command ice =
      retry (attempt [command]) simpleVerdict maxJtagCommAttemps ice :=
  doSimpleJtagCommandFrom_eq command (Nat.zero_add _) ice

end Loops

/-! ## When a command is sent again -/

/-- The frames sent in one call: each of them gets the next outcome, all but the
last no valid response, and there are not too many of them. -/
structure ResentOnTimeout {Result : Type} (outcomes : Nat → Attempt)
    (call : Tried Nat Attempt Result) : Prop where
  inOrder : call.answers = (List.range call.answers.length).map outcomes
  silent : ∀ answer ∈ call.answers.dropLast, answer.responded = false
  atMost : call.answers.length ≤ maxJtagCommAttemps

/-- `doJtagCommand` reports the sign of the response.  Without one it fails, by
an exception after the last attempt, or at once if it is not to retry. -/
structure Reported (retryOnTimeout : Bool) (call : Tried Nat Attempt (Bool × Attempt)) : Prop where
  response : ∀ answer, call.answers.getLast? = some answer → answer.responded = true →
    call.result = some (answer.positive, answer)
  silence : ∀ answer, call.answers.getLast? = some answer → answer.responded = false →
    if retryOnTimeout then call.result = none ∧ call.answers.length = maxJtagCommAttemps
    else call.result = some (false, answer)

/-- `doSimpleJtagCommand` returns after a positive response only. -/
structure SimplyReported (call : Tried Nat Attempt Bool) : Prop where
  refusal : ∀ answer, call.answers.getLast? = some answer → answer.positive = false →
    call.result ≠ some true
  silence : ∀ answer, call.answers.getLast? = some answer → answer.responded = false →
    call.result = none ∧ call.answers.length = maxJtagCommAttemps

/-- Both functions resend on a timeout only, whatever comes of the attempts. -/
structure ResendsOnTimeout (outcomes : Nat → Attempt) : Prop where
  command : ∀ command retryOnTimeout,
    ResentOnTimeout outcomes (doJtagCommand (fun _ => next outcomes) command retryOnTimeout 0) ∧
      Reported retryOnTimeout (doJtagCommand (fun _ => next outcomes) command retryOnTimeout 0)
  simple : ∀ command,
    ResentOnTimeout outcomes (doSimpleJtagCommand (fun _ => next outcomes) command 0) ∧
      SimplyReported (doSimpleJtagCommand (fun _ => next outcomes) command 0)

def NotRefused (outcomes : Nat → Attempt) : Prop :=
  ∀ k, k + 1 < maxJtagCommAttemps → (∀ i < k, (outcomes i).responded = false) →
    (outcomes k).responded = true → (outcomes k).positive = true

section Claim

variable {outcomes : Nat → Attempt}

theorem resentOnTimeout_retry {Result : Type} {verdict : Attempt → Option Result}
    (silent : ∀ answer, verdict answer = none → answer.responded = false) :
    ResentOnTimeout outcomes (retry (next outcomes) verdict maxJtagCommAttemps 0) where
  inOrder := by
    rw [List.range_eq_range']
    exact retry_next_answers _ _
  silent answer membership := silent answer (retry_dropLast _ _ answer membership)
  atMost := retry_length_le _ _

theorem doJtagCommand_resends (command : List UInt8) (retryOnTimeout : Bool) :
    ResentOnTimeout outcomes (doJtagCommand (fun _ => next outcomes) command retryOnTimeout 0) ∧
      Reported retryOnTimeout
        (doJtagCommand (fun _ => next outcomes) command retryOnTimeout 0) := by
  rw [doJtagCommand_eq]
  refine ⟨resentOnTimeout_retry fun answer unsettled => ?_, ?_, ?_⟩
  · unfold commandVerdict at unsettled
    split at unsettled
    · cases unsettled
    next goesOn => exact (Bool.or_eq_false_iff.mp (Bool.eq_false_iff.mpr goesOn)).1
  · intro answer last responded
    rw [retry_result, last, Option.bind_some, commandVerdict, responded]
    rfl
  · intro answer last silent
    have result := @retry_result _ _ _ (next outcomes) (commandVerdict retryOnTimeout)
      maxJtagCommAttemps 0
    rw [last, Option.bind_some, commandVerdict, silent] at result
    cases retryOnTimeout with
    | true => exact ⟨result, retry_exhausted _ _ result⟩
    | false =>
        rw [Attempt.positive_of_not_responded silent] at result
        exact result

theorem simplyReported :
    ∀ command, SimplyReported (doSimpleJtagCommand (fun _ => next outcomes) command 0) := by
  intro command
  rw [doSimpleJtagCommand_eq]
  have decided : ∀ answer,
      (retry (next outcomes) simpleVerdict maxJtagCommAttemps 0).answers.getLast? = some answer →
        answer.positive = false →
          (retry (next outcomes) simpleVerdict maxJtagCommAttemps 0).result = none := by
    intro answer last negative
    rw [retry_result, last, Option.bind_some, simpleVerdict, negative]
    rfl
  constructor
  · intro answer last negative returned
    exact Option.some_ne_none true (returned.symm.trans (decided answer last negative))
  · intro answer last silent
    have result := decided answer last (Attempt.positive_of_not_responded silent)
    exact ⟨result, retry_exhausted _ _ result⟩

theorem forall_dropLast_iff {answers : List Attempt} {good : Attempt → Prop}
    (inOrder : answers = (List.range answers.length).map outcomes) :
    (∀ answer ∈ answers.dropLast, good answer) ↔
      ∀ k, k + 1 < answers.length → good (outcomes k) := by
  have shortened : answers.dropLast = (List.range (answers.length - 1)).map outcomes := by
    cases count : answers.length with
    | zero => simp [List.length_eq_zero_iff.mp count]
    | succ count' =>
        rw [inOrder, count, List.range_succ, List.map_append]
        exact List.dropLast_concat
  rw [shortened]
  constructor
  · intro every k inside
    exact every _ (List.mem_map_of_mem (List.mem_range.mpr (Nat.lt_sub_of_add_lt inside)))
  · intro every answer membership
    obtain ⟨k, inside, rfl⟩ := List.mem_map.mp membership
    exact every k (Nat.add_lt_of_lt_sub (List.mem_range.mp inside))

theorem resentOnTimeout_simple_iff (command : UInt8) :
    ResentOnTimeout outcomes (doSimpleJtagCommand (fun _ => next outcomes) command 0) ↔
      NotRefused outcomes := by
  rw [doSimpleJtagCommand_eq]
  have inOrder : (retry (next outcomes) simpleVerdict maxJtagCommAttemps 0).answers = _ :=
    retry_next_answers maxJtagCommAttemps 0
  rw [← List.range_eq_range'] at inOrder
  have bound := @retry_length_le _ _ _ (next outcomes) simpleVerdict maxJtagCommAttemps 0
  have unsettled := (forall_dropLast_iff inOrder).mp (retry_dropLast maxJtagCommAttemps 0)
  constructor
  · intro resent k inside before responded
    by_contra negative
    have silent := (forall_dropLast_iff inOrder).mp resent.silent k
    refine Bool.false_ne_true ((silent ?_).symm.trans responded)
    refine lt_retry_next_length inside fun i upTo => if_neg ?_
    rw [Nat.zero_add]
    rcases Nat.lt_or_eq_of_le (Nat.le_of_lt_succ upTo) with earlier | rfl
    · rw [Attempt.positive_of_not_responded (before i earlier)]
      exact Bool.false_ne_true
    · exact negative
  · intro notRefused
    refine ⟨inOrder, (forall_dropLast_iff inOrder).mpr fun k => ?_, bound⟩
    induction k using Nat.strong_induction_on with
    | _ k inductionHypothesis =>
        intro inside
        by_contra responded
        have positive := notRefused k (Nat.lt_of_lt_of_le inside bound)
          (fun i earlier => inductionHypothesis i earlier
            (Nat.lt_trans (Nat.succ_lt_succ earlier) inside))
          (Bool.eq_true_of_not_eq_false responded)
        exact Option.some_ne_none _ ((if_pos positive).symm.trans (unsettled k inside))

end Claim

/-- Commands are resent after a timeout only, unless `doSimpleJtagCommand` gets
a negative response before its last attempt. -/
theorem resends_on_timeout_iff (outcomes : Nat → Attempt) :
    ResendsOnTimeout outcomes ↔ NotRefused outcomes := by
  constructor
  · intro resends
    exact (resentOnTimeout_simple_iff 0).mp (resends.simple 0).1
  · intro notRefused
    exact ⟨doJtagCommand_resends, fun command =>
      ⟨(resentOnTimeout_simple_iff command).mpr notRefused, simplyReported command⟩⟩

/-- The ICE refuses a chip erase, and then accepts it. -/
def refusedOnce (k : Nat) : Attempt :=
  if k = 0 then .response rspFailed [] else .response rspOk []

/-- The refused command is sent again, and the call returns. -/
theorem refused_command_resent :
    (doSimpleJtagCommand (fun _ => next refusedOnce) 0x13 0).answers =
        [.response rspFailed [], .response rspOk []] ∧
      (doSimpleJtagCommand (fun _ => next refusedOnce) 0x13 0).result = some true ∧
      ¬ ResendsOnTimeout refusedOnce := by
  refine ⟨by decide, by decide, fun resends => ?_⟩
  have silent := (resends.simple 0x13).1.silent (.response rspFailed []) (by decide)
  cases silent

end Avarice.Mk2

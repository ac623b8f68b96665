import Mathlib.Data.List.Basic
import Mathlib.Logic.Function.Iterate

/-!
# Bounded retries

A request is made again until an answer settles it or no attempt is left.  The
answers are kept, one for each time the request was made.
-/

namespace Retry

variable {State Answer Result : Type}

/-- The answers in order, the result unless the attempts ran out, and the state
left behind. -/
structure Tried (State Answer Result : Type) where
  answers : List Answer
  result : Option Result
  state : State

def retry (attempt : State → Answer × State) (verdict : Answer → Option Result) :
    (attempts : Nat) → State → Tried State Answer Result
  | 0, state => ⟨[], none, state⟩
  | attempts + 1, state =>
      match verdict (attempt state).1 with
      | some result => ⟨[(attempt state).1], some result, (attempt state).2⟩
      | none =>
          let later := retry attempt verdict attempts (attempt state).2
          { later with answers := (attempt state).1 :: later.answers }

section Retry

variable {attempt : State → Answer × State} {verdict : Answer → Option Result}

theorem retry_settled {state : State} {result : Result}
    (settled : verdict (attempt state).1 = some result) (attempts : Nat) :
    retry attempt verdict (attempts + 1) state =
      ⟨[(attempt state).1], some result, (attempt state).2⟩ := by
  rw [retry, settled]

theorem retry_unsettled {state : State} (unsettled : verdict (attempt state).1 = none)
    (attempts : Nat) :
    retry attempt verdict (attempts + 1) state =
      { retry attempt verdict attempts (attempt state).2 with
        answers :=
          (attempt state).1 :: (retry attempt verdict attempts (attempt state).2).answers } := by
  rw [retry, unsettled]

theorem retry_length_le (attempts : Nat) (state : State) :
    (retry attempt verdict attempts state).answers.length ≤ attempts := by
  induction attempts generalizing state with
  | zero => exact Nat.le_refl 0
  | succ attempts inductionHypothesis =>
      cases verdictHere : verdict (attempt state).1 with
      | some result =>
          rw [retry_settled verdictHere]
          exact Nat.succ_le_succ (Nat.zero_le attempts)
      | none =>
          rw [retry_unsettled verdictHere]
          exact Nat.succ_le_succ (inductionHypothesis _)

theorem retry_dropLast (attempts : Nat) (state : State) :
    ∀ answer ∈ (retry attempt verdict attempts state).answers.dropLast, verdict answer = none := by
  induction attempts generalizing state with
  | zero => exact fun _ => List.not_mem_nil.elim
  | succ attempts inductionHypothesis =>
      cases verdictHere : verdict (attempt state).1 with
      | some result =>
          rw [retry_settled verdictHere]
          exact fun _ => List.not_mem_nil.elim
      | none =>
          intro answer membership
          rw [retry_unsettled verdictHere] at membership
          cases rest : (retry attempt verdict attempts (attempt state).2).answers with
          | nil =>
              rw [rest] at membership
              exact (List.not_mem_nil membership).elim
          | cons next later =>
              rw [rest, List.dropLast_cons_cons, ← rest] at membership
              rcases List.mem_cons.mp membership with here | behind
              · rw [here, verdictHere]
              · exact inductionHypothesis _ answer behind

theorem retry_result (attempts : Nat) (state : State) :
    (retry attempt verdict attempts state).result =
      (retry attempt verdict attempts state).answers.getLast?.bind verdict := by
  induction attempts generalizing state with
  | zero => rfl
  | succ attempts inductionHypothesis =>
      cases verdictHere : verdict (attempt state).1 with
      | some result =>
          rw [retry_settled verdictHere]
          exact verdictHere.symm
      | none =>
          rw [retry_unsettled verdictHere]
          have later := inductionHypothesis (attempt state).2
          cases rest : (retry attempt verdict attempts (attempt state).2).answers with
          | nil =>
              rw [rest] at later
              exact later.trans verdictHere.symm
          | cons next behind =>
              rw [rest] at later
              rw [List.getLast?_cons_cons]
              exact later

theorem retry_exhausted (attempts : Nat) (state : State)
    (none : (retry attempt verdict attempts state).result = none) :
    (retry attempt verdict attempts state).answers.length = attempts := by
  induction attempts generalizing state with
  | zero => rfl
  | succ attempts inductionHypothesis =>
      cases verdictHere : verdict (attempt state).1 with
      | some result =>
          rw [retry_settled verdictHere] at none
          cases none
      | none =>
          rw [retry_unsettled verdictHere] at none ⊢
          exact congrArg Nat.succ (inductionHypothesis _ none)

theorem retry_length_pos {attempts : Nat} (some : 0 < attempts) (state : State) :
    0 < (retry attempt verdict attempts state).answers.length := by
  cases attempts with
  | zero => exact absurd some (Nat.lt_irrefl 0)
  | succ attempts =>
      cases verdictHere : verdict (attempt state).1 with
      | some result => simp [retry_settled verdictHere]
      | none => simp [retry_unsettled verdictHere]

theorem retry_state (attempts : Nat) (state : State) :
    (retry attempt verdict attempts state).state =
      (fun state => (attempt state).2)^[(retry attempt verdict attempts state).answers.length]
        state := by
  induction attempts generalizing state with
  | zero => rfl
  | succ attempts inductionHypothesis =>
      cases verdictHere : verdict (attempt state).1 with
      | some result => simp [retry_settled verdictHere]
      | none => simp [retry_unsettled verdictHere, inductionHypothesis]

theorem retry_unchanged {Observed : Type} {observe : State → Observed}
    (unchanged : ∀ state, observe (attempt state).2 = observe state) (attempts : Nat)
    (state : State) : observe (retry attempt verdict attempts state).state = observe state := by
  rw [retry_state]
  exact Function.Iterate.rec (fun after => observe after = observe state) rfl
    (fun between same => (unchanged between).trans same) _

/-- A request that is settled has been so by its last attempt, before which there
is what attempts that settle nothing leave alone. -/
theorem retry_last {Observed : Type} {observe : State → Observed}
    (kept : ∀ state, verdict (attempt state).1 = none →
      observe (attempt state).2 = observe state)
    {attempts : Nat} {state : State} {result : Result}
    (settled : (retry attempt verdict attempts state).result = some result) :
    ∃ last, observe last = observe state ∧ verdict (attempt last).1 = some result ∧
      (retry attempt verdict attempts state).state = (attempt last).2 := by
  induction attempts generalizing state with
  | zero => cases settled
  | succ attempts inductionHypothesis =>
      cases verdictHere : verdict (attempt state).1 with
      | some here =>
          rw [retry_settled verdictHere] at settled ⊢
          exact ⟨state, rfl, verdictHere.trans settled, rfl⟩
      | none =>
          rw [retry_unsettled verdictHere] at settled ⊢
          obtain ⟨last, same, answered, left⟩ := inductionHypothesis settled
          exact ⟨last, same.trans (kept state verdictHere), answered, left⟩

end Retry

/-! ## A sequence of answers -/

section Sequence

variable {outcomes : Nat → Answer} {verdict : Answer → Option Result}

def next (outcomes : Nat → Answer) (index : Nat) : Answer × Nat := (outcomes index, index + 1)

theorem retry_next_answers (attempts start : Nat) :
    (retry (next outcomes) verdict attempts start).answers =
      (List.range' start
        (retry (next outcomes) verdict attempts start).answers.length).map outcomes := by
  induction attempts generalizing start with
  | zero => rfl
  | succ attempts inductionHypothesis =>
      cases verdictHere : verdict (next outcomes start).1 with
      | some result =>
          rw [retry_settled verdictHere]
          rfl
      | none =>
          rw [retry_unsettled verdictHere, List.length_cons, List.range'_succ, List.map_cons]
          exact congrArg (outcomes start :: ·) (inductionHypothesis (start + 1))

theorem lt_retry_next_length {attempts start count : Nat} (left : count < attempts)
    (unsettled : ∀ i < count, verdict (outcomes (start + i)) = none) :
    count < (retry (next outcomes) verdict attempts start).answers.length := by
  induction count generalizing attempts start with
  | zero =>
      obtain ⟨attempts, rfl⟩ := Nat.exists_eq_add_of_lt left
      rw [Nat.zero_add]
      cases verdictHere : verdict (next outcomes start).1 with
      | some result =>
          rw [retry_settled verdictHere]
          exact Nat.zero_lt_one
      | none =>
          rw [retry_unsettled verdictHere]
          exact Nat.succ_pos _
  | succ count inductionHypothesis =>
      obtain ⟨attempts, rfl⟩ : ∃ fewer, attempts = fewer + 1 :=
        Nat.exists_eq_succ_of_ne_zero (Nat.ne_zero_of_lt left)
      have verdictHere : verdict (next outcomes start).1 = none :=
        unsettled 0 (Nat.succ_pos count)
      rw [retry_unsettled verdictHere, List.length_cons]
      refine Nat.succ_lt_succ (inductionHypothesis (Nat.lt_of_succ_lt_succ left) fun i inside => ?_)
      have later := unsettled (i + 1) (Nat.succ_lt_succ inside)
      rwa [Nat.add_comm i 1, ← Nat.add_assoc] at later

end Sequence

end Retry

import Mathlib.Logic.Basic

/-!
# Scanning loops

The loop `i = 0; while (!stop(i)) { body; i++; }` whose body may leave the loop
early.  A scan makes at most `turns` turns, so it is total; the rule at the end
is the usual one for loops, with an invariant over the index and the state.
-/

universe u

namespace Scan

variable {State : Type u}

/-- What the body of a loop decides after one turn. -/
inductive Turn (State : Type u) where
  | next (state : State)
  | leave (state : State)

namespace Turn

def state : Turn State → State
  | .next state => state
  | .leave state => state

/-- The first condition when the loop goes on, the second when it is left. -/
def Meets (onNext onLeave : State → Prop) : Turn State → Prop
  | .next state => onNext state
  | .leave state => onLeave state

@[simp]
theorem meets_next (onNext onLeave : State → Prop) (state : State) :
    (Turn.next state).Meets onNext onLeave = onNext state := rfl

@[simp]
theorem meets_leave (onNext onLeave : State → Prop) (state : State) :
    (Turn.leave state).Meets onNext onLeave = onLeave state := rfl

theorem meets_of_state {holds : State → Prop} {turn : Turn State} (ends : holds turn.state) :
    turn.Meets holds holds := by
  cases turn with
  | next state => exact ends
  | leave state => exact ends

end Turn

def scanFrom (stop : Nat → State → Bool) (body : Nat → State → Turn State) :
    (turns : Nat) → (index : Nat) → State → Nat × State
  | 0, index, state => (index, state)
  | turns + 1, index, state =>
      if stop index state then (index, state)
      else
        match body index state with
        | .next state => scanFrom stop body turns (index + 1) state
        | .leave state => (index, state)

/-- Run the loop from index zero.  The result has the index it stopped at. -/
def scan (stop : Nat → State → Bool) (body : Nat → State → Turn State)
    (turns : Nat) (state : State) : Nat × State :=
  scanFrom stop body turns 0 state

variable {stop : Nat → State → Bool} {body : Nat → State → Turn State}

theorem scanFrom_rule (invariant result : Nat → State → Prop) {bound : Nat}
    (stopped : ∀ index state, invariant index state → stop index state = true →
      result index state)
    (atBound : ∀ state, invariant bound state → stop bound state = true)
    (turned : ∀ index state, index < bound → invariant index state →
      stop index state = false →
        (body index state).Meets (invariant (index + 1)) (result index))
    (turns index : Nat) (state : State) (room : index + turns = bound)
    (holds : invariant index state) :
    result (scanFrom stop body turns index state).1
      (scanFrom stop body turns index state).2 := by
  induction turns generalizing index state with
  | zero =>
      have atEnd : index = bound := by simpa using room
      subst atEnd
      exact stopped _ _ holds (atBound _ holds)
  | succ turns inductionHypothesis =>
      unfold scanFrom
      cases stops : stop index state with
      | true => simpa using stopped _ _ holds stops
      | false =>
          have turn := turned index state (by omega) holds stops
          cases outcome : body index state with
          | next after =>
              rw [outcome, Turn.meets_next] at turn
              simpa using inductionHypothesis (index + 1) after (by omega) turn
          | leave after =>
              rw [outcome, Turn.meets_leave] at turn
              simpa using turn

/-- The rule for loops: an invariant that each turn keeps, and that gives the
result wherever the loop ends. -/
theorem scan_rule (invariant result : Nat → State → Prop) {turns : Nat}
    (stopped : ∀ index state, invariant index state → stop index state = true →
      result index state)
    (atBound : ∀ state, invariant turns state → stop turns state = true)
    (turned : ∀ index state, index < turns → invariant index state →
      stop index state = false →
        (body index state).Meets (invariant (index + 1)) (result index))
    {state : State} (holds : invariant 0 state) :
    result (scan stop body turns state).1 (scan stop body turns state).2 :=
  scanFrom_rule invariant result stopped atBound turned turns 0 state (by simp) holds

theorem scanFrom_state {invariant : State → Prop}
    (kept : ∀ index state, invariant state → invariant (body index state).state)
    (turns index : Nat) (state : State) (holds : invariant state) :
    invariant (scanFrom stop body turns index state).2 := by
  induction turns generalizing index state with
  | zero => exact holds
  | succ turns inductionHypothesis =>
      unfold scanFrom
      cases stop index state with
      | true => exact holds
      | false =>
          have turn := kept index state holds
          cases outcome : body index state with
          | next after =>
              rw [outcome] at turn
              exact inductionHypothesis (index + 1) after turn
          | leave after =>
              rw [outcome] at turn
              exact turn

theorem scan_state {invariant : State → Prop}
    (kept : ∀ index state, invariant state → invariant (body index state).state)
    (turns : Nat) {state : State} (holds : invariant state) :
    invariant (scan stop body turns state).2 :=
  scanFrom_state kept turns 0 state holds

theorem scanFrom_congr {other : Nat → State → Turn State}
    (invariant : Nat → State → Prop)
    (kept : ∀ index state, invariant index state → stop index state = false →
      (body index state).Meets (invariant (index + 1)) fun _ => True)
    (same : ∀ index state, invariant index state → stop index state = false →
      other index state = body index state)
    (turns index : Nat) (state : State) (holds : invariant index state) :
    scanFrom stop other turns index state = scanFrom stop body turns index state := by
  induction turns generalizing index state with
  | zero => rfl
  | succ turns inductionHypothesis =>
      unfold scanFrom
      cases stops : stop index state with
      | true => rfl
      | false =>
          have turn := kept index state holds stops
          rw [same index state holds stops]
          cases outcome : body index state with
          | next after =>
              rw [outcome, Turn.meets_next] at turn
              simpa using inductionHypothesis (index + 1) after turn
          | leave after => rfl

theorem scan_congr {other : Nat → State → Turn State}
    (invariant : Nat → State → Prop)
    (kept : ∀ index state, invariant index state → stop index state = false →
      (body index state).Meets (invariant (index + 1)) fun _ => True)
    (same : ∀ index state, invariant index state → stop index state = false →
      other index state = body index state)
    (turns : Nat) {state : State} (holds : invariant 0 state) :
    scan stop other turns state = scan stop body turns state :=
  scanFrom_congr invariant kept same turns 0 state holds

end Scan

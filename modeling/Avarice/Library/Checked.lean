import Avarice.Library.CArray
import Avarice.Library.Scan

/-!
# Arrays and loops that are checked

The accesses of a program to an array once more, where one out of range yields
nothing, and loops that yield nothing when they do not stop in time.  Where a
checked program yields something, it yields what the unchecked one does.
-/

namespace CArray

section Access

variable {Elem : Type} {n : Nat}

def poke? (array : CArray Elem n) (index : Nat) (value : Elem) : Option (CArray Elem n) :=
  if index < n then some (array.poke index value) else none

theorem poke?_eq {array : CArray Elem n} {index : Nat} (value : Elem) (inside : index < n) :
    array.poke? index value = some (array.poke index value) := if_pos inside

variable [Inhabited Elem]

def peek? (array : CArray Elem n) (index : Nat) : Option Elem :=
  if index < n then some (array.peek index) else none

def modify? (array : CArray Elem n) (index : Nat) (change : Elem → Elem) :
    Option (CArray Elem n) :=
  if index < n then some (array.modify index change) else none

theorem peek?_eq {array : CArray Elem n} {index : Nat} (inside : index < n) :
    array.peek? index = some (array.peek index) := if_pos inside

theorem modify?_eq {array : CArray Elem n} {index : Nat} (change : Elem → Elem)
    (inside : index < n) : array.modify? index change = some (array.modify index change) :=
  if_pos inside

end Access

end CArray

namespace Scan

variable {State : Type}

/-- The loop of `scanFrom`, if it is over within so many turns and nothing in it
goes wrong. -/
def scanFrom? (stop : Nat → State → Option Bool) (body : Nat → State → Option (Turn State)) :
    (turns : Nat) → (index : Nat) → State → Option (Nat × State)
  | 0, _, _ => none
  | turns + 1, index, state => do
      if ← stop index state then return (index, state)
      else
        match ← body index state with
        | .next state => scanFrom? stop body turns (index + 1) state
        | .leave state => return (index, state)

def scan? (stop : Nat → State → Option Bool) (body : Nat → State → Option (Turn State))
    (turns : Nat) (state : State) : Option (Nat × State) :=
  scanFrom? stop body turns 0 state

variable {stop : Nat → State → Bool} {body : Nat → State → Turn State}
  {stop? : Nat → State → Option Bool} {body? : Nat → State → Option (Turn State)}

theorem scanFrom?_eq (invariant : Nat → State → Prop) {bound : Nat}
    (tested : ∀ index state, index ≤ bound → invariant index state →
      stop? index state = some (stop index state))
    (atBound : ∀ state, invariant bound state → stop bound state = true)
    (turned : ∀ index state, index < bound → invariant index state → stop index state = false →
      body? index state = some (body index state) ∧
        (body index state).Meets (invariant (index + 1)) fun _ => True)
    {turns turns' index : Nat} {state : State} (inside : index ≤ bound)
    (enough : bound ≤ index + turns) (enough' : bound < index + turns')
    (holds : invariant index state) :
    scanFrom? stop? body? turns' index state = some (scanFrom stop body turns index state) := by
  induction turns' generalizing turns index state with
  | zero => omega
  | succ turns' inductionHypothesis =>
      rw [scanFrom?, tested index state inside holds]
      cases stops : stop index state with
      | true =>
          cases turns with
          | zero => rfl
          | succ turns => simp [scanFrom, stops]
      | false =>
          have before : index < bound := by
            refine Nat.lt_of_le_of_ne inside ?_
            rintro rfl
            rw [atBound state holds] at stops
            cases stops
          obtain ⟨turns, rfl⟩ : ∃ more, turns = more + 1 :=
            Nat.exists_eq_succ_of_ne_zero (by omega)
          obtain ⟨same, kept⟩ := turned index state before holds stops
          rw [scanFrom, stops, same]
          cases outcome : body index state with
          | leave after => rfl
          | next after =>
              rw [outcome, Turn.meets_next] at kept
              exact inductionHypothesis before (by omega) (by omega) kept

theorem scan?_eq (invariant : State → Prop) {last : Nat}
    (tested : ∀ index state, index ≤ last → invariant state →
      stop? index state = some (stop index state))
    (atLast : ∀ state, invariant state → stop last state = true)
    (turned : ∀ index state, index < last → invariant state → stop index state = false →
      body? index state = some (body index state) ∧ invariant (body index state).state)
    {state : State} (holds : invariant state) :
    scan? stop? body? (last + 1) state = some (scan stop body (last + 1) state) := by
  refine scanFrom?_eq (fun _ => invariant) tested atLast ?_ (Nat.zero_le _) (by omega)
    (by omega) holds
  intro index state before holds goes
  obtain ⟨same, kept⟩ := turned index state before holds goes
  refine ⟨same, ?_⟩
  cases outcome : body index state with
  | leave after => trivial
  | next after =>
      rw [outcome] at kept
      exact kept

end Scan

namespace CArray

open Scan

variable {Elem : Type} {n : Nat} [Inhabited Elem]

/-- The loop that looks for an element, and reads every one before it. -/
def firstIndex? (found : Elem → Bool) (array : CArray Elem n) : Option Nat := do
  let (index, _) ← scan? (fun index _ => (array.peek? index).map found)
    (fun _ nothing => some (.next nothing)) n ()
  return index

theorem firstIndex?_eq {found : Elem → Bool} {array : CArray Elem n}
    (inside : array.firstIndex found < n) :
    array.firstIndex? found = some (array.firstIndex found) := by
  have search (turns index : Nat) (before : index ≤ array.firstIndex found)
      (enough : array.firstIndex found < index + turns) :
      scanFrom? (fun index _ => (array.peek? index).map found)
        (fun _ nothing => some (.next nothing)) turns index () =
          some (array.firstIndex found, ()) := by
    induction turns generalizing index with
    | zero => omega
    | succ turns inductionHypothesis =>
        rw [scanFrom?, peek?_eq (Nat.lt_of_le_of_lt before inside)]
        rcases Nat.eq_or_lt_of_le before with rfl | earlier
        · simp [found_at_firstIndex inside]
        · simpa [not_found_before_firstIndex earlier] using
            inductionHypothesis (index + 1) earlier (by omega)
  rw [firstIndex?, scan?, search n 0 (Nat.zero_le _) (by omega)]
  rfl

end CArray

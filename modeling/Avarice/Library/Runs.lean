import Mathlib.Data.List.Basic

/-!
# Runs of consecutive keys

A list of elements that may have a key, split where the key is not the one
behind that of the element before.  A run can be handled as a whole.
-/

universe u

namespace Runs

variable {Elem : Type u} (key : Elem → Option Nat)

/-- The number of first elements that have the keys from `next` on. -/
def runLength (next : Nat) : List Elem → Nat
  | [] => 0
  | element :: rest =>
      if key element = some next then runLength (next + 1) rest + 1 else 0

/-- The number of runs, not counting one that only goes on. -/
def runs : (next : Option Nat) → List Elem → Nat
  | _, [] => 0
  | next, element :: rest =>
      match key element with
      | none => runs none rest
      | some here =>
          runs (some (here + 1)) rest + if next = some here then 0 else 1

variable {key}

theorem runLength_cons {element : Elem} {next : Nat} (continues : key element = some next)
    (rest : List Elem) :
    runLength key next (element :: rest) = runLength key (next + 1) rest + 1 := by
  simp [runLength, continues]

theorem key_of_lt_runLength {elements : List Elem} {next index : Nat}
    (inside : index < runLength key next elements) :
    ∃ element, elements[index]? = some element ∧ key element = some (next + index) := by
  induction elements generalizing next index with
  | nil => exact absurd inside (Nat.not_lt_zero index)
  | cons element rest inductionHypothesis =>
      by_cases continues : key element = some next
      · rw [runLength_cons continues] at inside
        cases index with
        | zero => exact ⟨element, rfl, continues⟩
        | succ index =>
            obtain ⟨later, found, here⟩ := inductionHypothesis (Nat.lt_of_succ_lt_succ inside)
            refine ⟨later, found, ?_⟩
            rw [here, Nat.add_assoc, Nat.add_comm 1]
      · simp [runLength, continues] at inside

theorem runs_drop (next : Nat) (elements : List Elem) :
    runs key none (elements.drop (runLength key next elements)) =
      runs key (some next) elements := by
  induction elements generalizing next with
  | nil => rfl
  | cons element rest inductionHypothesis =>
      by_cases continues : key element = some next
      · rw [runLength_cons continues, List.drop_succ_cons, inductionHypothesis]
        simp [runs, continues]
      · cases here : key element with
        | none => simp [runLength, runs, here]
        | some other =>
            have differs : next ≠ other := by
              intro same
              exact continues (same ▸ here)
            simp [runLength, runs, here, differs, Ne.symm differs]

theorem runs_of_run {element : Elem} {here : Nat} (keyed : key element = some here)
    (rest : List Elem) :
    runs key none (element :: rest) =
      runs key none ((element :: rest).drop (runLength key here (element :: rest))) + 1 := by
  rw [runs_drop]
  simp [runs, keyed]

theorem runs_of_key_none {element : Elem} (unkeyed : key element = none) (next : Option Nat)
    (rest : List Elem) : runs key next (element :: rest) = runs key none rest := by
  simp [runs, unkeyed]

end Runs

import Mathlib.Data.List.Basic

/-!
# Blocks of a stream

A stream that is made of blocks, one behind the other, and a position in it:
the block that it lies in, split there.
-/

universe u

namespace Blocks

variable {Elem : Type u}

def locate : List (List Elem) → Nat → List Elem × List Elem
  | [], _ => ([], [])
  | block :: later, position =>
      if position < block.length then (block.take position, block.drop position)
      else locate later (position - block.length)

def missing (blocks : List (List Elem)) (position : Nat) : Nat :=
  if (locate blocks position).1 = [] then 0 else (locate blocks position).2.length

variable {block : List Elem} {blocks : List (List Elem)} {position count : Nat}

theorem locate_of_lt (inside : position < block.length) :
    locate (block :: blocks) position = (block.take position, block.drop position) := by
  simp [locate, inside]

theorem locate_of_le (behind : block.length ≤ position) :
    locate (block :: blocks) position = locate blocks (position - block.length) := by
  simp [locate, Nat.not_lt.mpr behind]

theorem locate_zero_fst (blocks : List (List Elem)) : (locate blocks 0).1 = [] := by
  induction blocks with
  | nil => rfl
  | cons block later inductionHypothesis =>
      cases block with
      | nil => simpa [locate] using inductionHypothesis
      | cons _ _ => simp [locate]

@[simp]
theorem missing_zero (blocks : List (List Elem)) : missing blocks 0 = 0 := by
  simp [missing, locate_zero_fst]

theorem locate_prefix (blocks : List (List Elem)) (position : Nat) :
    (locate blocks position).2 <+: blocks.flatten.drop position := by
  induction blocks generalizing position with
  | nil => simp [locate]
  | cons block later inductionHypothesis =>
      rcases Nat.lt_or_ge position block.length with inside | behind
      · rw [locate_of_lt inside, List.flatten_cons,
          List.drop_append_of_le_length (Nat.le_of_lt inside)]
        exact List.prefix_append _ _
      · rw [locate_of_le behind, List.flatten_cons, List.drop_append,
          List.drop_eq_nil_of_le behind, List.nil_append]
        exact inductionHypothesis _

theorem locate_snd_ne_nil (before : position < blocks.flatten.length) :
    (locate blocks position).2 ≠ [] := by
  induction blocks generalizing position with
  | nil => simp at before
  | cons block later inductionHypothesis =>
      rcases Nat.lt_or_ge position block.length with inside | behind
      · rw [locate_of_lt inside]
        simpa using inside
      · rw [locate_of_le behind]
        apply inductionHypothesis
        rw [List.flatten_cons, List.length_append] at before
        omega

theorem snd_ne_nil_of_fst (begun : (locate blocks position).1 ≠ []) :
    (locate blocks position).2 ≠ [] := by
  induction blocks generalizing position with
  | nil => simp [locate] at begun
  | cons block later inductionHypothesis =>
      rcases Nat.lt_or_ge position block.length with inside | behind
      · rw [locate_of_lt inside]
        simpa using inside
      · rw [locate_of_le behind] at begun ⊢
        exact inductionHypothesis begun

theorem mem_of_fst_nil (whole : (locate blocks position).1 = [])
    (more : (locate blocks position).2 ≠ []) : (locate blocks position).2 ∈ blocks := by
  induction blocks generalizing position with
  | nil => simp [locate] at more
  | cons block later inductionHypothesis =>
      rcases Nat.lt_or_ge position block.length with inside | behind
      · rw [locate_of_lt inside] at whole ⊢
        rcases List.take_eq_nil_iff.mp whole with first | empty
        · simp [first]
        · simp [empty] at inside
      · rw [locate_of_le behind] at whole more ⊢
        exact List.mem_cons_of_mem _ (inductionHypothesis whole more)

theorem locate_add_of_lt (within : count < (locate blocks position).2.length) :
    locate blocks (position + count) =
      ((locate blocks position).1 ++ (locate blocks position).2.take count,
        (locate blocks position).2.drop count) := by
  induction blocks generalizing position with
  | nil => simp [locate] at within
  | cons block later inductionHypothesis =>
      rcases Nat.lt_or_ge position block.length with inside | behind
      · rw [locate_of_lt inside] at within ⊢
        have still : position + count < block.length := by
          rw [List.length_drop] at within
          omega
        rw [locate_of_lt still, List.drop_drop, ← List.take_add]
      · rw [locate_of_le behind] at within ⊢
        rw [locate_of_le (Nat.le_add_right_of_le behind), Nat.sub_add_comm behind]
        exact inductionHypothesis within

theorem locate_add_length (more : (locate blocks position).2 ≠ []) :
    (locate blocks (position + (locate blocks position).2.length)).1 = [] := by
  induction blocks generalizing position with
  | nil => simp [locate] at more
  | cons block later inductionHypothesis =>
      rcases Nat.lt_or_ge position block.length with inside | behind
      · rw [locate_of_lt inside, List.length_drop, Nat.add_sub_cancel' (Nat.le_of_lt inside),
          locate_of_le (Nat.le_refl _), Nat.sub_self, locate_zero_fst]
      · rw [locate_of_le behind] at more ⊢
        rw [locate_of_le (Nat.le_add_right_of_le behind), Nat.sub_add_comm behind]
        exact inductionHypothesis more

theorem missing_of_fst (begun : (locate blocks position).1 ≠ []) :
    missing blocks position = (locate blocks position).2.length := by
  simp [missing, begun]

theorem fst_nil_of_missing (complete : missing blocks position = 0) :
    (locate blocks position).1 = [] := by
  by_contra begun
  have more := snd_ne_nil_of_fst begun
  rw [missing_of_fst begun, List.length_eq_zero_iff] at complete
  exact more complete

theorem fst_of_missing (begun : missing blocks position ≠ 0) :
    (locate blocks position).1 ≠ [] := by
  intro whole
  simp [missing, whole] at begun

theorem missing_add (some : count ≠ 0) (within : count ≤ (locate blocks position).2.length) :
    missing blocks (position + count) = (locate blocks position).2.length - count := by
  have more : (locate blocks position).2 ≠ [] := by
    intro none
    simp [none] at within
    exact some within
  rcases Nat.lt_or_eq_of_le within with inside | last
  · have split := locate_add_of_lt inside
    have begun : (locate blocks (position + count)).1 ≠ [] := by
      simp [split, some, more]
    rw [missing_of_fst begun, split, List.length_drop]
  · rw [missing, last, locate_add_length more]
    simp

end Blocks

import Mathlib.Data.List.Basic

/-!
# Terminated lines

A text is made of lines, each with a terminator behind it, and a rest.  It may
come in pieces: the rest of one piece is what the first line of the next one
begins with.
-/

universe u

namespace Lines

variable {Symbol : Type u} [DecidableEq Symbol] (terminator : Symbol)

/-- The lines of a text without their terminators, and the rest behind them.
The first line goes on from what has been kept. -/
def splitFrom : (kept : List Symbol) → List Symbol → List (List Symbol) × List Symbol
  | kept, [] => ([], kept)
  | kept, symbol :: text =>
      if symbol = terminator then
        (kept :: (splitFrom [] text).1, (splitFrom [] text).2)
      else splitFrom (kept ++ [symbol]) text

def split (text : List Symbol) : List (List Symbol) × List Symbol :=
  splitFrom terminator [] text

def findLast (symbol : Symbol) : List Symbol → Option Nat
  | [] => none
  | first :: text =>
      match findLast symbol text with
      | some index => some (index + 1)
      | none => if first = symbol then some 0 else none

variable {terminator} {kept text : List Symbol}

theorem splitFrom_append (kept text more : List Symbol) :
    splitFrom terminator kept (text ++ more) =
      ((splitFrom terminator kept text).1 ++
          (splitFrom terminator (splitFrom terminator kept text).2 more).1,
        (splitFrom terminator (splitFrom terminator kept text).2 more).2) := by
  induction text generalizing kept with
  | nil => simp [splitFrom]
  | cons symbol text inductionHypothesis =>
      by_cases ends : symbol = terminator
      · simp [splitFrom, ends, inductionHypothesis]
      · simp [splitFrom, ends, inductionHypothesis]

theorem splitFrom_of_not_mem (unterminated : terminator ∉ text) (kept : List Symbol) :
    splitFrom terminator kept text = ([], kept ++ text) := by
  induction text generalizing kept with
  | nil => simp [splitFrom]
  | cons symbol text inductionHypothesis =>
      obtain ⟨other, later⟩ := List.ne_and_not_mem_of_not_mem_cons unterminated
      simp [splitFrom, Ne.symm other, inductionHypothesis later]

theorem terminator_not_mem_rest (unterminated : terminator ∉ kept) :
    terminator ∉ (splitFrom terminator kept text).2 := by
  induction text generalizing kept with
  | nil => exact unterminated
  | cons symbol text inductionHypothesis =>
      by_cases ends : symbol = terminator
      · simpa [splitFrom, ends] using inductionHypothesis List.not_mem_nil
      · simp only [splitFrom, ends, if_false]
        apply inductionHypothesis
        simp [unterminated, Ne.symm ends]

theorem joined (kept text : List Symbol) :
    ((splitFrom terminator kept text).1.map (· ++ [terminator])).flatten ++
      (splitFrom terminator kept text).2 = kept ++ text := by
  induction text generalizing kept with
  | nil => simp [splitFrom]
  | cons symbol text inductionHypothesis =>
      by_cases ends : symbol = terminator
      · simp [splitFrom, ends, inductionHypothesis]
      · simp [splitFrom, ends, inductionHypothesis]

theorem findLast_eq_none {symbol : Symbol} (absent : symbol ∉ text) :
    findLast symbol text = none := by
  induction text with
  | nil => rfl
  | cons first text inductionHypothesis =>
      obtain ⟨other, later⟩ := List.ne_and_not_mem_of_not_mem_cons absent
      simp [findLast, inductionHypothesis later, Ne.symm other]

theorem findLast_of_mem {symbol : Symbol} (present : symbol ∈ text) :
    ∃ index, findLast symbol text = some index ∧ symbol ∈ text.drop index := by
  induction text with
  | nil => exact absurd present List.not_mem_nil
  | cons first text inductionHypothesis =>
      by_cases later : symbol ∈ text
      · obtain ⟨index, found, behind⟩ := inductionHypothesis later
        exact ⟨index + 1, by simp [findLast, found], behind⟩
      · have here : first = symbol := by
          rcases List.mem_cons.mp present with same | inText
          · exact same.symm
          · exact absurd inText later
        exact ⟨0, by simp [findLast, findLast_eq_none later, here], by simp [here]⟩

end Lines

import Mathlib.Data.List.Pairwise

/-!
# Source lines of program addresses

`getLineForPC` of a compilation unit and of a file, in `dwarf.js`.  A unit has
the lines that `dwarfDieLines` has given it, or none at all.
-/

namespace Avarice.Script

/-- How a script function ends. -/
inductive Completion (Value : Type) where
  | returned (value : Value)
  | threw (error : String)
  deriving DecidableEq, Repr

/-- A row of a line table, as `dwarfLine` makes it. -/
structure Row where
  filename : String
  pc : Nat
  lineno : Int
  column : Int
  beginStatement : Bool
  beginBlock : Bool
  endSequence : Bool
  deriving DecidableEq, Repr

structure DwarfCU where
  lines : Option (List Row)
  deriving DecidableEq, Repr

/-- The loop over the rows; it is left at the first one behind the address. -/
def scan (pc : Nat) : Option Row → List Row → Option Row
  | line, [] => line
  | line, row :: later => if pc < row.pc then line else scan pc (some row) later

def DwarfCU.getLineForPC (cu : DwarfCU) (pc : Nat) : Completion (Option Row) :=
  match cu.lines with
  | none => .threw "TypeError: this.lines is undefined"
  | some rows => .returned (scan pc none rows)

def eachLine (pc : Nat) : List DwarfCU → Completion Unit
  | [] => .returned ()
  | cu :: later =>
      match cu.getLineForPC pc with
      | .threw error => .threw error
      | .returned _ => eachLine pc later

/-- `getCus()` calls the global function of that name, not the method. -/
def getLineForPCWith (getCus : Option (List DwarfCU)) (pc : Nat) : Completion (Option Row) :=
  match getCus with
  | none => .threw "ReferenceError: getCus is not defined"
  | some cus =>
      match eachLine pc cus with
      | .threw error => .threw error
      | .returned _ => .returned none

structure Dwarf where
  filename : String
  cus : List DwarfCU
  deriving DecidableEq, Repr

/-- No script defines a global `getCus`. -/
def Dwarf.getLineForPC (_file : Dwarf) (pc : Nat) : Completion (Option Row) :=
  getLineForPCWith none pc

/-! ## The line of an address -/

/-- The range of a unit goes from its first row to its end-of-sequence row. -/
def DwarfCU.Covers (cu : DwarfCU) (pc : Nat) : Prop :=
  ∃ rows ∈ cu.lines, ∃ first ∈ rows.head?, ∃ last ∈ rows.getLast?, first.pc ≤ pc ∧ pc < last.pc

/-- A last row that is not above an address. -/
def IsGreatest (rows : List Row) (pc : Nat) (row : Row) : Prop :=
  row ∈ rows ∧ row.pc ≤ pc ∧ ∀ other ∈ rows, other.pc ≤ pc → other.pc ≤ row.pc

/-- The row that belongs to an address, which is undefined if no unit covers it. -/
def IsLineFor (cus : List DwarfCU) (pc : Nat) : Option Row → Prop
  | none => ∀ cu ∈ cus, ¬cu.Covers pc
  | some row => ∃ cu ∈ cus, cu.Covers pc ∧ ∃ rows ∈ cu.lines, IsGreatest rows pc row

/-- The file yields the line of an address, and so does the unit that covers it. -/
def Dwarf.Looks (file : Dwarf) (pc : Nat) : Prop :=
  ∃ line, file.getLineForPC pc = .returned line ∧ IsLineFor file.cus pc line ∧
    ∀ cu ∈ file.cus, cu.Covers pc → cu.getLineForPC pc = .returned line

/-! ## Units -/

section Units

variable {rows : List Row} {row : Row} {line : Option Row} {pc : Nat}

theorem scan_eq (sorted : rows.Pairwise (·.pc ≤ ·.pc)) (line : Option Row) :
    scan pc line rows = (rows.filter (·.pc ≤ pc)).getLast?.or line := by
  induction rows generalizing line with
  | nil => rfl
  | cons row later inductionHypothesis =>
      obtain ⟨first, rest⟩ := List.pairwise_cons.mp sorted
      rcases Nat.lt_or_ge pc row.pc with above | reached
      · have none : (row :: later).filter (·.pc ≤ pc) = [] := by
          apply List.filter_eq_nil_iff.mpr
          intro other membership
          rcases List.mem_cons.mp membership with rfl | behind
          · simpa using above
          · simpa using Nat.lt_of_lt_of_le above (first other behind)
        simp [scan, above, none]
      · rw [scan, if_neg (Nat.not_lt.mpr reached), inductionHypothesis rest,
          List.filter_cons_of_pos (by simpa using reached), List.getLast?_cons]
        cases (later.filter (·.pc ≤ pc)).getLast? <;> simp

theorem scan_isGreatest (sorted : rows.Pairwise (·.pc ≤ ·.pc))
    (found : scan pc none rows = some row) : IsGreatest rows pc row := by
  rw [scan_eq sorted, Option.or_none] at found
  have membership := List.mem_filter.mp (List.mem_of_getLast? found)
  refine ⟨membership.1, by simpa using membership.2, fun other inRows below => ?_⟩
  have reached : other ∈ rows.filter (·.pc ≤ pc) :=
    List.mem_filter.mpr ⟨inRows, by simpa using below⟩
  have last : (rows.filter (·.pc ≤ pc)).getLast (List.ne_nil_of_mem reached) = row := by
    rw [List.getLast?_eq_some_getLast (List.ne_nil_of_mem reached)] at found
    exact Option.some.inj found
  have order := (sorted.filter (·.pc ≤ pc)).rel_getLast_of_rel_getLast_getLast reached
    (Nat.le_refl _)
  exact last ▸ order

end Units

theorem getLineForPCWith_returned {getCus : Option (List DwarfCU)} {pc : Nat}
    {line : Option Row} (returned : getLineForPCWith getCus pc = .returned line) :
    line = none := by
  cases getCus with
  | none => cases returned
  | some cus =>
      simp only [getLineForPCWith] at returned
      cases all : eachLine pc cus with
      | threw error =>
          rw [all] at returned
          cases returned
      | returned value =>
          rw [all] at returned
          cases returned
          rfl

/-- The file does not yield the line of any address. -/
theorem looks_never (file : Dwarf) (pc : Nat) : ¬file.Looks pc := by
  rintro ⟨line, returned, -⟩
  cases returned

/-- A unit with one line, looked up at its first address. -/
theorem looks_fails :
    ¬∀ (file : Dwarf) (pc : Nat),
      (∀ cu ∈ file.cus, ∀ rows ∈ cu.lines, rows.Pairwise (·.pc ≤ ·.pc)) →
        (file.cus.Pairwise fun first second => ¬(first.Covers pc ∧ second.Covers pc)) →
          file.Looks pc := by
  intro looks
  obtain ⟨line, returned, -⟩ := looks
    { filename := "test.avr.elf"
      cus := [{ lines := some [⟨"main.c", 0, 1, 0, true, false, false⟩,
        ⟨"main.c", 2, 2, 0, true, false, true⟩] }] } 0 (by simp) (by simp)
  cases returned

end Avarice.Script

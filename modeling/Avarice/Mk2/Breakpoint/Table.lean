import Mathlib.Tactic.Simps.Basic
import Avarice.Constants
import Avarice.Library.CArray
import Avarice.Library.Scan

/-!
# The mkII breakpoint table

The table of `jtag2.h` and the operations of `jtag2bp.cc` that only read it or
clear it.  An entry is in use when it stands before the first one whose `last`
flag is set; the entries behind that end marker are not looked at.
-/

namespace Avarice.Mk2

open Scan

/-- One entry of the table (`struct breakpoint2`). -/
@[ext]
structure Breakpoint2 where
  address : UInt32
  maskPointer : Nat
  type : BpType
  enabled : Bool
  last : Bool
  /-- The breakpoint is enabled in the actual device. -/
  icestatus : Bool
  /-- Delete this entry in the ICE at the next update. -/
  toremove : Bool
  /-- Add this entry in the ICE at the next update. -/
  toadd : Bool
  /-- Breakpoint number in the ICE, zero for software. -/
  bpnum : Nat
  deriving DecidableEq, Repr

def defaultBp : Breakpoint2 where
  address := 0
  maskPointer := 0
  type := .none
  enabled := false
  last := true
  icestatus := false
  toremove := false
  toadd := false
  bpnum := 0

instance : Inhabited Breakpoint2 := ⟨defaultBp⟩

namespace Breakpoint2

@[simps]
def setBpnum (slot : Nat) (entry : Breakpoint2) : Breakpoint2 :=
  { entry with bpnum := slot }

@[simp]
theorem setBpnum_setBpnum (first second : Nat) (entry : Breakpoint2) :
    (entry.setBpnum first).setBpnum second = entry.setBpnum second := rfl

/-- Take an entry out of what is to be downloaded. -/
@[simps]
def disable (entry : Breakpoint2) : Breakpoint2 :=
  { entry with enabled := false, toadd := false }

end Breakpoint2

abbrev BreakpointTable := CArray Breakpoint2 maxTotalBreakpoints2

def constructedTable : BreakpointTable :=
  CArray.fill maxTotalBreakpoints2 defaultBp

/-- What the breakpoint code asks about the device and the connection. -/
structure Target where
  useDebugWire : Bool
  deviceFlags : UInt32

/-- The test that ends every loop over the table. -/
def atLast (index : Nat) (bp : BreakpointTable) : Bool :=
  (bp.peek index).last

def endIndex (bp : BreakpointTable) : Nat :=
  bp.firstIndex Breakpoint2.last

def codeBreakpointAt (bp : BreakpointTable) (address : UInt32) : Bool :=
  let i := bp.firstIndex fun entry =>
    entry.last || (entry.address == address && entry.type == .code && entry.enabled)
  !(bp.peek i).last

def codeBreakpointBetween (bp : BreakpointTable) (start stop : UInt32) : Bool :=
  let i := bp.firstIndex fun entry =>
    entry.last || (entry.address ≥ start && entry.address < stop &&
      entry.type == .code && entry.enabled)
  !(bp.peek i).last

/-- The body of the loop in `deleteAllBreakpoints`. -/
def disableEntry (entry : Breakpoint2) : Breakpoint2 :=
  let entry :=
    if entry.enabled && entry.icestatus then { entry with toremove := true } else entry
  { entry with enabled := false }

def deleteAllBreakpoints (bp : BreakpointTable) : BreakpointTable :=
  (scan atLast (fun i bp => .next (bp.modify i disableEntry))
    maxTotalBreakpoints2 bp).2

/-- An entry that the loops over the table reach. -/
def Visible (bp : BreakpointTable) (index : Nat) : Prop :=
  index < endIndex bp

instance (bp : BreakpointTable) (index : Nat) : Decidable (Visible bp index) :=
  inferInstanceAs (Decidable (index < endIndex bp))

theorem endIndex_le (bp : BreakpointTable) : endIndex bp ≤ maxTotalBreakpoints2 :=
  bp.firstIndex_le _

theorem last_of_le {bp : BreakpointTable} {index : Nat}
    (outside : maxTotalBreakpoints2 ≤ index) : (bp.peek index).last = true := by
  rw [CArray.peek_of_le outside]
  rfl

theorem lt_of_not_last {bp : BreakpointTable} {index : Nat}
    (inside : (bp.peek index).last = false) : index < maxTotalBreakpoints2 := by
  by_contra outside
  rw [last_of_le (Nat.le_of_not_lt outside)] at inside
  cases inside

theorem last_at_endIndex (bp : BreakpointTable) :
    (bp.peek (endIndex bp)).last = true := by
  by_cases inside : endIndex bp < maxTotalBreakpoints2
  · exact CArray.found_at_firstIndex inside
  · exact last_of_le (Nat.le_of_not_lt inside)

theorem not_last_of_visible {bp : BreakpointTable} {index : Nat}
    (visible : Visible bp index) : (bp.peek index).last = false :=
  CArray.not_found_before_firstIndex visible

theorem lt_of_visible {bp : BreakpointTable} {index : Nat}
    (visible : Visible bp index) : index < maxTotalBreakpoints2 :=
  lt_of_not_last (not_last_of_visible visible)

theorem endIndex_le_of_last {bp : BreakpointTable} {index : Nat}
    (marked : (bp.peek index).last = true) : endIndex bp ≤ index :=
  CArray.firstIndex_le_of_found marked

theorem endIndex_eq {bp : BreakpointTable} {index : Nat}
    (marked : (bp.peek index).last = true) (inside : index ≤ maxTotalBreakpoints2)
    (passed : ∀ other < index, (bp.peek other).last = false) :
    endIndex bp = index :=
  CArray.firstIndex_eq inside (fun _ => marked) passed

theorem endIndex_congr {first second : BreakpointTable}
    (agree : ∀ index, (first.peek index).last = (second.peek index).last) :
    endIndex first = endIndex second :=
  CArray.firstIndex_congr fun index _ => agree index

theorem visible_modify {bp : BreakpointTable} {i : Nat} {change : Breakpoint2 → Breakpoint2}
    (keeps : (change (bp.peek i)).last = (bp.peek i).last) (j : Nat) :
    Visible (bp.modify i change) j ↔ Visible bp j := by
  have same : endIndex (bp.modify i change) = endIndex bp := by
    apply endIndex_congr
    intro k
    rw [CArray.peek_modify]
    split
    next here => rw [← here.1, keeps]
    next elsewhere => rfl
  rw [Visible, Visible, same]

theorem modify_peek_eq {bp : BreakpointTable} {i : Nat} {change : Breakpoint2 → Breakpoint2}
    (visible : Visible bp i) (j : Nat) :
    (bp.modify i change).peek j = if j = i then change (bp.peek j) else bp.peek j := by
  by_cases here : j = i
  · rw [here, if_pos rfl, CArray.peek_modify_same _ _ (lt_of_visible visible)]
  · rw [if_neg here, CArray.peek_modify_ne _ _ (Ne.symm here)]

/-- Loops that look at each entry in use, and may be left early.  The invariant
is about the entries before the index. -/
theorem visit_rule {State : Type} {stop : Nat → State → Bool}
    {body : Nat → State → Turn State} (table : State → BreakpointTable)
    (stopsAtLast : ∀ i s, stop i s = atLast i (table s)) {start : State}
    (invariant : Nat → State → Prop) (result : State → Prop)
    (sameEnd : ∀ i s, invariant i s → endIndex (table s) = endIndex (table start))
    (turned : ∀ i s, Visible (table start) i → invariant i s →
      (body i s).Meets (invariant (i + 1)) result)
    (finished : ∀ s, invariant (endIndex (table start)) s → result s)
    (holds : invariant 0 start) : result (scan stop body maxTotalBreakpoints2 start).2 := by
  refine scan_rule (fun i s => i ≤ endIndex (table start) ∧ invariant i s) (fun _ => result)
    ?stopped ?atBound ?turned ⟨Nat.zero_le _, holds⟩
  case stopped =>
    rintro i s ⟨reached, here⟩ stops
    rw [stopsAtLast] at stops
    have marked := endIndex_le_of_last stops
    rw [sameEnd i s here] at marked
    obtain rfl := Nat.le_antisymm reached marked
    exact finished s here
  case atBound =>
    intro s _
    rw [stopsAtLast]
    exact last_of_le (le_refl _)
  case turned =>
    rintro i s _ ⟨reached, here⟩ goes
    have visible : Visible (table start) i := by
      refine lt_of_le_of_ne reached ?_
      rintro rfl
      rw [stopsAtLast, atLast, ← sameEnd _ s here, last_at_endIndex] at goes
      cases goes
    have turn := turned i s visible here
    cases outcome : body i s with
    | next after =>
        rw [outcome] at turn
        exact ⟨visible, turn⟩
    | leave after =>
        rw [outcome] at turn
        exact turn

theorem walk_rule {State : Type} {stop : Nat → State → Bool}
    {body : Nat → State → Turn State} (table : State → BreakpointTable)
    (stopsAtLast : ∀ i s, stop i s = atLast i (table s)) (start : State)
    (change : Breakpoint2 → Breakpoint2) (keepsLast : ∀ entry, (change entry).last = entry.last)
    (extra : State → Prop)
    (turned : ∀ i s, Visible (table s) i → extra s → (body i s).Meets
        (fun after => extra after ∧ ∀ j, (table after).peek j =
          if j = i then change ((table s).peek j) else (table s).peek j)
        fun _ => False)
    (holds : extra start) :
    extra (scan stop body maxTotalBreakpoints2 start).2 ∧
      ∀ j, (table (scan stop body maxTotalBreakpoints2 start).2).peek j =
        if Visible (table start) j then change ((table start).peek j)
        else (table start).peek j := by
  refine scan_rule
    (fun i s => (i ≤ endIndex (table start) ∧ extra s) ∧ ∀ j, (table s).peek j =
      if j < i then change ((table start).peek j) else (table start).peek j)
    (fun _ s => extra s ∧ ∀ j, (table s).peek j =
      if Visible (table start) j then change ((table start).peek j)
      else (table start).peek j)
    ?stopped ?atBound ?turned ⟨⟨Nat.zero_le _, holds⟩, fun j => by simp⟩
  case stopped =>
    rintro i s ⟨⟨reached, here⟩, entries⟩ stops
    rw [stopsAtLast, atLast, entries i, if_neg (lt_irrefl i)] at stops
    have atEnd : i = endIndex (table start) :=
      Nat.le_antisymm reached (endIndex_le_of_last stops)
    subst atEnd
    exact ⟨here, entries⟩
  case atBound =>
    intro s _
    rw [stopsAtLast]
    exact last_of_le (le_refl _)
  case turned =>
    rintro i s _ ⟨⟨reached, here⟩, entries⟩ goes
    have visible : Visible (table start) i := by
      refine lt_of_le_of_ne reached ?_
      rintro rfl
      rw [stopsAtLast, atLast, entries _, if_neg (lt_irrefl _), last_at_endIndex] at goes
      cases goes
    have sameEnd : endIndex (table s) = endIndex (table start) := by
      apply endIndex_congr
      intro j
      rw [entries j]
      split
      · exact keepsLast _
      · rfl
    have turn := turned i s (by rw [Visible, sameEnd]; exact visible) here
    cases outcome : body i s with
    | leave after =>
        rw [outcome] at turn
        exact turn.elim
    | next after =>
        rw [outcome, Turn.meets_next] at turn
        refine ⟨⟨visible, turn.1⟩, fun j => ?_⟩
        rw [turn.2 j, entries j]
        rcases Nat.lt_trichotomy j i with before | rfl | beyond
        · rw [if_neg before.ne, if_pos before, if_pos (Nat.lt_succ_of_lt before)]
        · rw [if_pos rfl, if_neg (lt_irrefl j), if_pos (Nat.lt_succ_self j)]
        · rw [if_neg beyond.ne', if_neg (Nat.not_lt.mpr beyond.le),
            if_neg (Nat.not_lt.mpr beyond)]

theorem deleteAllBreakpoints_peek (bp : BreakpointTable) (j : Nat) :
    (deleteAllBreakpoints bp).peek j =
      if Visible bp j then disableEntry (bp.peek j) else bp.peek j := by
  refine (walk_rule id (fun _ _ => rfl) bp disableEntry ?keepsLast (fun _ => True)
    ?turned trivial).2 j
  case keepsLast =>
    intro entry
    unfold disableEntry
    split <;> rfl
  case turned =>
    intro i s visible _
    refine ⟨trivial, fun j => ?_⟩
    show (CArray.modify s i disableEntry).peek j = _
    rw [CArray.peek_modify]
    by_cases here : j = i
    · subst here
      rw [if_pos ⟨rfl, lt_of_visible visible⟩, if_pos rfl]
      rfl
    · rw [if_neg fun both => here both.1.symm, if_neg here]
      rfl

end Avarice.Mk2

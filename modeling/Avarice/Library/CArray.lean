import Mathlib.Data.Nat.Count
import Mathlib.Data.Vector.Basic

/-!
# Fixed-size arrays

An array of a fixed length, as a program in C declares it.  Reading and
writing are total: a read past the end yields the default element and a write
past the end is dropped, so that loops over an array need no bound in their
types.  Statements that an index is in range are made about the index itself.
-/

universe u

abbrev CArray (Elem : Type u) (n : Nat) := Vector Elem n

namespace CArray

variable {Elem : Type u} {n : Nat}

section Access

variable [Inhabited Elem]

def peek (array : CArray Elem n) (index : Nat) : Elem :=
  array[index]?.getD default

def poke (array : CArray Elem n) (index : Nat) (value : Elem) : CArray Elem n :=
  array.setIfInBounds index value

def modify (array : CArray Elem n) (index : Nat) (change : Elem → Elem) :
    CArray Elem n :=
  array.poke index (change (array.peek index))

theorem peek_of_le {array : CArray Elem n} {index : Nat} (outside : n ≤ index) :
    array.peek index = default := by
  simp [peek, Vector.getElem?_eq_none outside]

theorem peek_poke (array : CArray Elem n) (index other : Nat) (value : Elem) :
    (array.poke index value).peek other =
      if index = other ∧ index < n then value else array.peek other := by
  unfold peek poke
  rw [Vector.getElem?_setIfInBounds]
  by_cases same : index = other
  · subst same
    by_cases inside : index < n
    · simp [inside]
    · simp [inside]
  · simp [same]

@[simp]
theorem peek_poke_ne (array : CArray Elem n) {index other : Nat} (value : Elem)
    (different : index ≠ other) :
    (array.poke index value).peek other = array.peek other := by
  simp [peek_poke, different]

theorem peek_modify (array : CArray Elem n) (index other : Nat)
    (change : Elem → Elem) :
    (array.modify index change).peek other =
      if index = other ∧ index < n then change (array.peek other)
      else array.peek other := by
  unfold modify
  rw [peek_poke]
  by_cases same : index = other <;> simp [same]

@[simp]
theorem peek_modify_ne (array : CArray Elem n) {index other : Nat}
    (change : Elem → Elem) (different : index ≠ other) :
    (array.modify index change).peek other = array.peek other := by
  simp [peek_modify, different]

theorem peek_modify_same (array : CArray Elem n) {index : Nat}
    (change : Elem → Elem) (inside : index < n) :
    (array.modify index change).peek index = change (array.peek index) := by
  simp [peek_modify, inside]

theorem ext_peek {first second : CArray Elem n}
    (agree : ∀ index < n, first.peek index = second.peek index) :
    first = second := by
  apply Vector.ext
  intro index inside
  have same := agree index inside
  simpa [peek, inside] using same

theorem modify_modify (array : CArray Elem n) (index : Nat) (change again : Elem → Elem) :
    (array.modify index change).modify index again = array.modify index (again ∘ change) := by
  apply ext_peek
  intro other inside
  simp only [peek_modify]
  split <;> rfl

theorem modify_eq_self {array : CArray Elem n} {index : Nat} {change : Elem → Elem}
    (same : change (array.peek index) = array.peek index) :
    array.modify index change = array := by
  apply ext_peek
  intro other inside
  rw [peek_modify]
  split
  next here => rw [← here.1, same]
  next elsewhere => rfl

/-- Overwrite elements from an index on, one after the other. -/
def pokeAll (array : CArray Elem n) (index : Nat) : List Elem → CArray Elem n
  | [] => array
  | value :: rest => pokeAll (array.poke index value) (index + 1) rest

theorem peek_pokeAll (array : CArray Elem n) (index : Nat) {values : List Elem}
    (inside : ∀ i < values.length, index + i < n) (other : Nat) :
    (array.pokeAll index values).peek other =
      if index ≤ other then (values[other - index]?).getD (array.peek other)
      else array.peek other := by
  induction values generalizing array index with
  | nil => simp [pokeAll]
  | cons value rest inductionHypothesis =>
      have first : index < n := inside 0 (Nat.zero_lt_succ _)
      have later : ∀ i < rest.length, index + 1 + i < n := by
        intro i within
        have bound := inside (i + 1) (Nat.succ_lt_succ within)
        omega
      rw [pokeAll, inductionHypothesis _ _ later, peek_poke]
      rcases Nat.lt_trichotomy index other with after | rfl | before
      · have position : other - index = (other - (index + 1)) + 1 := by omega
        rw [if_pos (Nat.succ_le_of_lt after), if_pos (Nat.le_of_lt after), position,
          List.getElem?_cons_succ, if_neg fun same => absurd same.1 (Nat.ne_of_lt after)]
      · simp [first]
      · have notYet : ¬ index ≤ other := Nat.not_le.mpr before
        have notNext : ¬ index + 1 ≤ other := by omega
        rw [if_neg notYet, if_neg notNext, if_neg fun same => absurd same.1 (Nat.ne_of_gt before)]

omit [Inhabited Elem] in
theorem pokeAll_concat (array : CArray Elem n) (index : Nat) (values : List Elem) (value : Elem) :
    array.pokeAll index (values ++ [value]) =
      (array.pokeAll index values).poke (index + values.length) value := by
  induction values generalizing array index with
  | nil => rfl
  | cons first rest inductionHypothesis =>
      simp only [List.cons_append, pokeAll, inductionHypothesis, List.length_cons,
        Nat.add_assoc, Nat.add_comm 1]

omit [Inhabited Elem] in
theorem foldl_poke (array : CArray Elem n) (index count : Nat) (value : Nat → Elem) :
    (List.range count).foldl (fun array i => array.poke (i + index) (value i)) array =
      array.pokeAll index ((List.range count).map value) := by
  induction count with
  | zero => rfl
  | succ count inductionHypothesis =>
      rw [List.range_succ, List.foldl_append, inductionHypothesis, List.map_append]
      simp [pokeAll_concat, Nat.add_comm]

/-- Move the `count` elements behind an index down by one. -/
def moveDown (array : CArray Elem n) (index count : Nat) : CArray Elem n :=
  Vector.ofFn fun other =>
    array.peek (if index ≤ other ∧ other < index + count then other + 1 else other)

theorem moveDown_zero (array : CArray Elem n) (index : Nat) : array.moveDown index 0 = array := by
  apply ext_peek
  intro other inside
  have outside : ¬ (index ≤ other ∧ other < index) := by omega
  simp only [moveDown, peek, Nat.add_zero, Vector.getElem?_ofFn, inside, dif_pos, if_neg outside,
    Option.getD_some]

theorem peek_moveDown (array : CArray Elem n) {index count other : Nat} (inside : other < n) :
    (array.moveDown index count).peek other =
      array.peek (if index ≤ other ∧ other < index + count then other + 1 else other) := by
  simp only [moveDown, peek, Vector.getElem?_ofFn, inside, dif_pos, Option.getD_some]

def front (array : CArray Elem n) (count : Nat) : List Elem := (List.range count).map array.peek

theorem front_length (array : CArray Elem n) (count : Nat) :
    (array.front count).length = count := by
  simp [front]

theorem getElem?_front (array : CArray Elem n) {count index : Nat} (inside : index < count) :
    (array.front count)[index]? = some (array.peek index) := by
  simp [front, inside]

theorem front_poke (array : CArray Elem n) {count : Nat} (room : count < n) (value : Elem) :
    (array.poke count value).front (count + 1) = array.front count ++ [value] := by
  have before : ∀ index ∈ List.range count, (array.poke count value).peek index =
      array.peek index := fun index member =>
    peek_poke_ne array value (Nat.ne_of_gt (List.mem_range.mp member))
  rw [front, List.range_succ, List.map_append, List.map_congr_left before, front]
  simp [peek_poke, room]

theorem front_moveDown (array : CArray Elem n) {count index : Nat} (inside : index < count)
    (within : count ≤ n) :
    (array.moveDown index (count - 1 - index)).front (count - 1) =
      (array.front count).eraseIdx index := by
  apply List.ext_getElem?
  intro other
  rw [List.getElem?_eraseIdx]
  rcases Nat.lt_or_ge other (count - 1) with below | beyond
  · rw [getElem?_front _ below, peek_moveDown array (by omega)]
    by_cases early : other < index
    · rw [if_neg (by omega), if_pos early, getElem?_front _ (by omega)]
    · rw [if_pos (by omega), if_neg early, getElem?_front _ (by omega)]
  · have none : ((array.moveDown index (count - 1 - index)).front (count - 1))[other]? = none :=
      List.getElem?_eq_none (by rwa [front_length])
    rw [none]
    split
    next early => omega
    next => exact (List.getElem?_eq_none (by rw [front_length]; omega)).symm

def fill (n : Nat) (value : Elem) : CArray Elem n :=
  Vector.replicate n value

@[simp]
theorem peek_fill (value : Elem) (index : Nat) :
    (fill n value).peek index = if index < n then value else default := by
  unfold peek fill
  by_cases inside : index < n
  · simp [inside]
  · simp [inside]

end Access

/-- Index of the first element with a property, or `n` when there is none. -/
def firstIndex (found : Elem → Bool) (array : CArray Elem n) : Nat :=
  array.toList.findIdx found

theorem firstIndex_le (found : Elem → Bool) (array : CArray Elem n) :
    array.firstIndex found ≤ n := by
  have bound : array.toList.findIdx found ≤ array.toList.length :=
    List.findIdx_le_length
  simpa [firstIndex] using bound

variable [Inhabited Elem]

theorem peek_eq_toList {array : CArray Elem n} {index : Nat}
    (inside : index < array.toList.length) :
    array.toList[index] = array.peek index := by
  have bound : index < n := by simpa using inside
  simp [peek, bound]

theorem found_at_firstIndex {found : Elem → Bool} {array : CArray Elem n}
    (inside : array.firstIndex found < n) :
    found (array.peek (array.firstIndex found)) = true := by
  have bound : array.toList.findIdx found < array.toList.length := by
    simpa [firstIndex] using inside
  have reached := List.findIdx_getElem (w := bound)
  rw [peek_eq_toList bound] at reached
  exact reached

theorem not_found_before_firstIndex {found : Elem → Bool} {array : CArray Elem n}
    {index : Nat} (before : index < array.firstIndex found) :
    found (array.peek index) = false := by
  have bound : index < array.toList.length := by
    have limit := array.firstIndex_le found
    simpa using Nat.lt_of_lt_of_le before limit
  have passed := List.not_of_lt_findIdx before
  rw [peek_eq_toList bound] at passed
  simpa using passed

theorem firstIndex_eq {found : Elem → Bool} {array : CArray Elem n} {index : Nat}
    (inside : index ≤ n)
    (reached : index < n → found (array.peek index) = true)
    (passed : ∀ other < index, found (array.peek other) = false) :
    array.firstIndex found = index := by
  rcases Nat.lt_trichotomy (array.firstIndex found) index with less | equal | more
  · have here := @found_at_firstIndex _ _ _ found array
      (Nat.lt_of_lt_of_le less inside)
    rw [passed _ less] at here
    cases here
  · exact equal
  · have bound := array.firstIndex_le found
    have missing := not_found_before_firstIndex more
    rw [reached (Nat.lt_of_lt_of_le more bound)] at missing
    cases missing

theorem firstIndex_le_of_found {found : Elem → Bool} {array : CArray Elem n}
    {index : Nat} (reached : found (array.peek index) = true) :
    array.firstIndex found ≤ index := by
  by_contra beyond
  have missing := not_found_before_firstIndex (Nat.lt_of_not_le beyond)
  rw [reached] at missing
  cases missing

theorem firstIndex_congr {found : Elem → Bool} {first second : CArray Elem n}
    (agree : ∀ index < n, found (first.peek index) = found (second.peek index)) :
    first.firstIndex found = second.firstIndex found := by
  apply firstIndex_eq (second.firstIndex_le found)
  · intro inside
    rw [agree _ inside]
    exact found_at_firstIndex inside
  · intro index before
    rw [agree _ (Nat.lt_of_lt_of_le before (second.firstIndex_le found))]
    exact not_found_before_firstIndex before

end CArray

import Mathlib.Data.List.Basic
import Mathlib.Tactic.Ring

/-!
# Memories in pages

A memory gives every address a byte.  Parts of it are read and written as
lists, pages are the parts of one size that start at its multiples, and a copy
of a page is coherent while it equals the page.
-/

universe u v

namespace PagedMemory

variable {Byte : Type u}

def slice (memory : Nat → Byte) (start count : Nat) : List Byte :=
  (List.range count).map fun i => memory (start + i)

def overwrite (memory : Nat → Byte) (start : Nat) (bytes : List Byte) : Nat → Byte :=
  fun address =>
    if start ≤ address then (bytes[address - start]?).getD (memory address) else memory address

variable {memory : Nat → Byte} {start count : Nat} {bytes : List Byte}

@[simp]
theorem slice_length : (slice memory start count).length = count := by
  simp [slice]

@[simp]
theorem slice_zero : slice memory start 0 = [] := rfl

theorem slice_add (first second : Nat) :
    slice memory start (first + second) =
      slice memory start first ++ slice memory (start + first) second := by
  simp [slice, List.range_add, Nat.add_assoc]

theorem slice_take (kept : Nat) (within : kept ≤ count) :
    (slice memory start count).take kept = slice memory start kept := by
  obtain ⟨rest, rfl⟩ := Nat.exists_eq_add_of_le within
  rw [slice_add, List.take_left' slice_length]

theorem slice_drop (skipped : Nat) (within : skipped ≤ count) :
    (slice memory start count).drop skipped = slice memory (start + skipped) (count - skipped) := by
  obtain ⟨rest, rfl⟩ := Nat.exists_eq_add_of_le within
  rw [slice_add, List.drop_left' slice_length, Nat.add_sub_cancel_left]

theorem slice_congr {other : Nat → Byte}
    (same : ∀ i < count, memory (start + i) = other (start + i)) :
    slice memory start count = slice other start count := by
  apply List.map_congr_left
  intro i membership
  exact same i (List.mem_range.mp membership)

theorem overwrite_of_lt {address : Nat} (before : address < start) :
    overwrite memory start bytes address = memory address :=
  if_neg (Nat.not_le.mpr before)

theorem overwrite_of_ge {address : Nat} (behind : start + bytes.length ≤ address) :
    overwrite memory start bytes address = memory address := by
  have outside : bytes.length ≤ address - start := by omega
  rw [overwrite, List.getElem?_eq_none outside]
  split <;> rfl

theorem overwrite_add {i : Nat} (within : i < bytes.length) :
    overwrite memory start bytes (start + i) = bytes[i] := by
  rw [overwrite, if_pos (Nat.le_add_right start i), Nat.add_sub_cancel_left,
    List.getElem?_eq_getElem within]
  rfl

theorem slice_overwrite (memory : Nat → Byte) (start : Nat) (bytes : List Byte) :
    slice (overwrite memory start bytes) start bytes.length = bytes := by
  apply List.ext_getElem slice_length
  intro i _ within
  simp [slice, overwrite_add within]

theorem slice_overwrite_within {other : Nat} (behind : start ≤ other)
    (within : other + count ≤ start + bytes.length) :
    slice (overwrite memory start bytes) other count = (bytes.drop (other - start)).take count := by
  have stored := slice_overwrite memory start bytes
  have dropped := @slice_drop _ (overwrite memory start bytes) start bytes.length (other - start)
    (by omega)
  rw [stored, Nat.add_sub_cancel' behind] at dropped
  rw [dropped, slice_take count (by omega)]

theorem slice_overwrite_of_disjoint {other : Nat}
    (apart : start + bytes.length ≤ other ∨ other + count ≤ start) :
    slice (overwrite memory start bytes) other count = slice memory other count := by
  apply slice_congr
  intro i within
  rcases apart with before | behind
  · exact overwrite_of_ge (by omega)
  · exact overwrite_of_lt (by omega)

def patch (bytes : List Byte) (start : Nat) (part : List Byte) : List Byte :=
  bytes.take start ++ part ++ bytes.drop (start + part.length)

theorem slice_overwrite_part {offset : Nat} (within : offset + bytes.length ≤ count) :
    slice (overwrite memory (start + offset) bytes) start count =
      patch (slice memory start count) offset bytes := by
  obtain ⟨behind, rfl⟩ := Nat.exists_eq_add_of_le within
  rw [slice_add, slice_add, slice_overwrite, slice_overwrite_of_disjoint (by omega),
    slice_overwrite_of_disjoint (by omega), patch, slice_take offset (by omega),
    slice_drop _ (by omega), Nat.add_sub_cancel_left]

theorem patch_append_left {part : List Byte} (behind : List Byte)
    (within : start + part.length ≤ bytes.length) :
    patch (bytes ++ behind) start part = patch bytes start part ++ behind := by
  rw [patch, patch, List.take_append_of_le_length (by omega), List.drop_append_of_le_length within,
    List.append_assoc, List.append_assoc, List.append_assoc]

theorem patch_append_right (front part : List Byte) (start : Nat) :
    patch (front ++ bytes) (front.length + start) part = front ++ patch bytes start part := by
  simp [patch, Nat.add_assoc, List.take_length_add_append, List.drop_length_add_append]

/-! ## Pages -/

def IsPage (pageSize size base : Nat) : Prop :=
  base % pageSize = 0 ∧ base + pageSize ≤ size

instance (pageSize size base : Nat) : Decidable (IsPage pageSize size base) :=
  inferInstanceAs (Decidable (_ ∧ _))

theorem pages_apart {pageSize base other : Nat} (page : base % pageSize = 0)
    (page' : other % pageSize = 0) (different : base ≠ other) :
    base + pageSize ≤ other ∨ other + pageSize ≤ base := by
  obtain ⟨i, rfl⟩ := Nat.dvd_of_mod_eq_zero page
  obtain ⟨j, rfl⟩ := Nat.dvd_of_mod_eq_zero page'
  rcases Nat.lt_trichotomy i j with before | rfl | behind
  · left
    calc pageSize * i + pageSize = pageSize * (i + 1) := by ring
      _ ≤ pageSize * j := Nat.mul_le_mul_left pageSize before
  · exact absurd rfl different
  · right
    calc pageSize * j + pageSize = pageSize * (j + 1) := by ring
      _ ≤ pageSize * i := Nat.mul_le_mul_left pageSize behind

theorem slice_overwrite_page_iff {pageSize base other : Nat} (page : base % pageSize = 0)
    (page' : other % pageSize = 0) (length : bytes.length = pageSize) :
    slice (overwrite memory base bytes) other pageSize = slice memory other pageSize ↔
      (base = other → bytes = slice memory other pageSize) := by
  by_cases same : base = other
  · subst same
    have stored := slice_overwrite memory base bytes
    rw [length] at stored
    rw [stored]
    exact ⟨fun unchanged _ => unchanged, fun unchanged => unchanged rfl⟩
  · have apart := pages_apart page page' same
    rw [← length] at apart
    constructor
    · exact fun _ equal => absurd equal same
    · exact fun _ => slice_overwrite_of_disjoint (length ▸ apart)

theorem slice_overwrite_replicate {size : Nat} (value : Byte) (within : start + count ≤ size) :
    slice (overwrite memory 0 (List.replicate size value)) start count =
      List.replicate count value := by
  apply List.ext_getElem (by simp)
  intro i inside _
  have small : start + i < (List.replicate size value).length := by
    rw [slice_length] at inside
    rw [List.length_replicate]
    omega
  have stored := @overwrite_add _ memory 0 _ _ small
  rw [Nat.zero_add] at stored
  simp [slice, stored]

/-! ## Loops over pages -/

section Walk

variable {State : Type u}

/-- A loop that goes up a page in each round, while the address is below an end. -/
def walk {pageSize : Nat} (positive : 0 < pageSize) (last : Nat) (body : Nat → State → State)
    (address : Nat) (state : State) : State :=
  if address < last then walk positive last body (address + pageSize) (body address state)
  else state
termination_by last - address

variable {pageSize : Nat} (positive : 0 < pageSize) {last : Nat} {body : Nat → State → State}

theorem walk_invariant {invariant : Nat → State → Prop}
    (round : ∀ address state, address < last → invariant address state →
      invariant (address + pageSize) (body address state))
    {address : Nat} {state : State} (start : invariant address state) :
    ∃ stop, last ≤ stop ∧ invariant stop (walk positive last body address state) := by
  induction address, state using walk.induct positive last body with
  | case1 address state below inductionHypothesis =>
      rw [walk, if_pos below]
      exact inductionHypothesis (round address state below start)
  | case2 address state reached =>
      rw [walk, if_neg reached]
      exact ⟨address, Nat.not_lt.mp reached, start⟩

theorem walk_related {Other : Type v} {other : Nat → Other → Other}
    {related : State → Other → Prop}
    (round : ∀ address < last, ∀ state state', related state state' →
      related (body address state) (other address state'))
    (address : Nat) {state : State} {state' : Other} (start : related state state') :
    related (walk positive last body address state) (walk positive last other address state') := by
  induction address, state using walk.induct positive last body generalizing state' with
  | case1 address state below inductionHypothesis =>
      rw [walk.eq_def positive last body, if_pos below, walk.eq_def positive last other,
        if_pos below]
      exact inductionHypothesis (round address below state state' start)
  | case2 address state reached =>
      rw [walk.eq_def positive last body, if_neg reached, walk.eq_def positive last other,
        if_neg reached]
      exact start

end Walk

/-! ## Copies of a page -/

section Copy

variable {Key Value : Type u} (valid : Key → Prop)

/-- The copy of what has a key equals it, if the key is one of a page. -/
def Coherent (contents : Key → Value) (key : Key) (copy : Value) : Prop :=
  valid key → copy = contents key

variable {valid} {contents after : Key → Value} {key : Key} {copy : Value}

theorem Coherent.change_iff (coherent : Coherent valid contents key copy) :
    Coherent valid after key copy ↔ (valid key → after key = contents key) := by
  constructor
  · intro still isKey
    rw [← still isKey, coherent isKey]
  · intro same isKey
    rw [same isKey, coherent isKey]

end Copy

end PagedMemory

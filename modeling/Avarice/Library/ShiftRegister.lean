import Mathlib.Data.List.Basic
import Mathlib.Logic.Function.Iterate

/-!
# Shift registers with feedback

A register of some width that takes one bit in each step.  It is shifted to the
right, and the polynomial is added where a bit has left it.  The step is linear,
and injective if the polynomial has its uppermost bit, so that a register that
has been changed by a burst of bits cannot become zero again.
-/

namespace ShiftRegister

variable {w : Nat} (poly : BitVec w)

/-- One step without input. -/
def step (x : BitVec w) : BitVec w :=
  (x >>> 1) ^^^ (if x.getLsbD 0 then poly else 0)

def bitWord (bit : Bool) : BitVec w :=
  if bit then BitVec.twoPow w 0 else 0

/-- The register after bits have been taken. -/
def serial (x : BitVec w) (bits : List Bool) : BitVec w :=
  bits.foldl (fun x bit => step poly (x ^^^ bitWord bit)) x

/-- The word whose bits are given, the lowest one first. -/
def word : List Bool → BitVec w
  | [] => 0
  | bit :: rest => bitWord bit ^^^ (word rest <<< 1)

/-! ## The step -/

@[simp]
theorem step_zero : step poly 0 = 0 := by
  simp [step]

theorem getLsbD_step (x : BitVec w) (i : Nat) :
    (step poly x).getLsbD i = xor (x.getLsbD (1 + i)) (x.getLsbD 0 && poly.getLsbD i) := by
  rw [step, BitVec.getLsbD_xor, BitVec.getLsbD_ushiftRight]
  cases x.getLsbD 0 <;> simp

theorem step_xor (x y : BitVec w) : step poly (x ^^^ y) = step poly x ^^^ step poly y := by
  apply BitVec.eq_of_getLsbD_eq
  intro i _
  simp only [getLsbD_step, BitVec.getLsbD_xor]
  cases x.getLsbD 0 <;> cases y.getLsbD 0 <;> cases x.getLsbD (1 + i) <;>
    cases y.getLsbD (1 + i) <;> cases poly.getLsbD i <;> rfl

theorem step_shiftLeft {x : BitVec w} (room : x.msb = false) : step poly (x <<< 1) = x := by
  apply BitVec.eq_of_getLsbD_eq
  intro i inside
  have lowest : (x <<< 1).getLsbD 0 = false := by simp
  rw [getLsbD_step, lowest, Bool.false_and, Bool.xor_false, BitVec.getLsbD_shiftLeft]
  rcases Nat.lt_or_ge (1 + i) w with small | large
  · simp [small]
  · have highest : x.getLsbD i = false := by
      rw [BitVec.msb_eq_getLsbD_last] at room
      rw [show i = w - 1 by omega]
      exact room
    simp [highest]

theorem iterate_step_shiftLeft {n : Nat} {x : BitVec w}
    (room : ∀ i, w ≤ i + n → x.getLsbD i = false) : (step poly)^[n] (x <<< n) = x := by
  induction n with
  | zero => exact BitVec.shiftLeft_zero x
  | succ n inductionHypothesis =>
      have highest : (x <<< n).msb = false := by
        rw [BitVec.msb_eq_getLsbD_last, BitVec.getLsbD_shiftLeft]
        rcases Nat.lt_or_ge (w - 1) n with low | high
        · simp [low]
        · rw [room (w - 1 - n) (by omega)]
          simp
      rw [Function.iterate_succ_apply, BitVec.shiftLeft_add, step_shiftLeft poly highest]
      exact inductionHypothesis fun i above => room i (by omega)

theorem step_eq_zero {poly : BitVec w} (monic : poly.msb = true) {x : BitVec w}
    (zero : step poly x = 0) : x = 0 := by
  have positive : 0 < w := by
    by_contra none
    rw [BitVec.msb_eq_getLsbD_last, BitVec.getLsbD_of_ge _ _ (by omega)] at monic
    cases monic
  cases lowest : x.getLsbD 0 with
  | true =>
      -- the uppermost bit is the polynomial's
      have highest := congrArg BitVec.msb zero
      rw [step, lowest, if_pos rfl, BitVec.msb_xor, monic] at highest
      simp [BitVec.msb_ushiftRight] at highest
  | false =>
      apply BitVec.eq_of_getLsbD_eq
      intro i inside
      cases i with
      | zero => simp [lowest]
      | succ i =>
          have bit := congrArg (fun x : BitVec w => x.getLsbD i) zero
          rw [getLsbD_step, lowest, Bool.false_and, Bool.xor_false, Nat.add_comm] at bit
          simpa using bit

theorem iterate_step_zero (n : Nat) : (step poly)^[n] 0 = 0 :=
  Function.iterate_fixed (step_zero poly) n

theorem iterate_step_xor (n : Nat) (x y : BitVec w) :
    (step poly)^[n] (x ^^^ y) = (step poly)^[n] x ^^^ (step poly)^[n] y := by
  induction n generalizing x y with
  | zero => rfl
  | succ n inductionHypothesis =>
      rw [Function.iterate_succ_apply, Function.iterate_succ_apply, Function.iterate_succ_apply,
        step_xor, inductionHypothesis]

theorem iterate_step_eq_zero {poly : BitVec w} (monic : poly.msb = true) {n : Nat}
    {x : BitVec w} (zero : (step poly)^[n] x = 0) : x = 0 := by
  induction n generalizing x with
  | zero => exact zero
  | succ n inductionHypothesis =>
      exact step_eq_zero monic (inductionHypothesis zero)

/-! ## Words and bits -/

theorem getLsbD_word (bits : List Bool) (i : Nat) :
    (word bits : BitVec w).getLsbD i = (decide (i < w) && (bits[i]?).getD false) := by
  induction bits generalizing i with
  | nil => simp [word]
  | cons bit rest inductionHypothesis =>
      rw [word, BitVec.getLsbD_xor, BitVec.getLsbD_shiftLeft]
      cases i with
      | zero =>
          cases bit <;> simp [bitWord, BitVec.getLsbD_twoPow]
      | succ i =>
          have lower : (bitWord bit : BitVec w).getLsbD (i + 1) = false := by
            cases bit <;> simp [bitWord, BitVec.getLsbD_twoPow]
          rw [lower, inductionHypothesis]
          rcases Nat.lt_or_ge (i + 1) w with small | large
          · have smaller : i < w := Nat.lt_of_succ_lt small
            simp [small, smaller]
          · simp [Nat.not_lt.mpr large]

theorem word_ne_zero {bits : List Bool} (short : bits.length ≤ w) {i : Nat}
    (set : bits[i]? = some true) : (word bits : BitVec w) ≠ 0 := by
  intro zero
  have inside := (List.getElem?_eq_some_iff.mp set).1
  have bit := getLsbD_word (w := w) bits i
  rw [zero, set] at bit
  simp [Nat.lt_of_lt_of_le inside short] at bit

/-- As many bits as the register has are taken as if the word had been added at
once. -/
theorem serial_eq_iterate (x : BitVec w) {bits : List Bool} (short : bits.length ≤ w) :
    serial poly x bits = (step poly)^[bits.length] (x ^^^ word bits) := by
  induction bits generalizing x with
  | nil => simp [serial, word]
  | cons bit rest inductionHypothesis =>
      rw [List.length_cons] at short
      have room : (word rest : BitVec w).msb = false := by
        rw [BitVec.msb_eq_getLsbD_last, getLsbD_word, List.getElem?_eq_none (by omega)]
        simp
      have unfolded : serial poly x (bit :: rest) =
          serial poly (step poly (x ^^^ bitWord bit)) rest := rfl
      rw [unfolded, inductionHypothesis _ (Nat.le_of_succ_le short), List.length_cons,
        Function.iterate_succ_apply, word, ← BitVec.xor_assoc,
        step_xor poly (x ^^^ bitWord bit) (word rest <<< 1), step_shiftLeft poly room]

theorem serial_append (x : BitVec w) (first second : List Bool) :
    serial poly x (first ++ second) = serial poly (serial poly x first) second := by
  simp [serial]

theorem serial_replicate_false (x : BitVec w) (n : Nat) :
    serial poly x (List.replicate n false) = (step poly)^[n] x := by
  induction n generalizing x with
  | zero => rfl
  | succ n inductionHypothesis =>
      have unfolded : serial poly x (List.replicate (n + 1) false) =
          serial poly (step poly (x ^^^ bitWord false)) (List.replicate n false) := rfl
      rw [unfolded, inductionHypothesis, Function.iterate_succ_apply]
      simp [bitWord]

theorem serial_xor {x y : BitVec w} {bits other : List Bool} (same : bits.length = other.length) :
    serial poly (x ^^^ y) (List.zipWith xor bits other) =
      serial poly x bits ^^^ serial poly y other := by
  induction bits generalizing x y other with
  | nil =>
      cases other with
      | nil => rfl
      | cons _ _ => cases same
  | cons bit rest inductionHypothesis =>
      cases other with
      | nil => cases same
      | cons bit' rest' =>
          have both : (bitWord (xor bit bit') : BitVec w) = bitWord bit ^^^ bitWord bit' := by
            cases bit <;> cases bit' <;> simp [bitWord]
          have regrouped : (x ^^^ y) ^^^ bitWord (xor bit bit') =
              (x ^^^ bitWord bit) ^^^ (y ^^^ bitWord bit') := by
            rw [both, BitVec.xor_assoc, BitVec.xor_assoc, ← BitVec.xor_assoc y,
              BitVec.xor_comm y, BitVec.xor_assoc]
          have stepped := step_xor poly (x ^^^ bitWord bit) (y ^^^ bitWord bit')
          have later := inductionHypothesis (x := step poly (x ^^^ bitWord bit))
            (y := step poly (y ^^^ bitWord bit')) (Nat.succ.inj same)
          show serial poly (step poly ((x ^^^ y) ^^^ bitWord (xor bit bit'))) _ = _
          rw [regrouped, stepped]
          exact later

/-! ## Bursts -/

/-- Bits are set, and only among as many neighbours as the register has bits. -/
structure IsBurst (w : Nat) (bits : List Bool) : Prop where
  set : ∃ i : Nat, bits[i]? = some true
  near : ∃ start, ∀ i : Nat, bits[i]? = some true → start ≤ i ∧ i < start + w

theorem eq_replicate_false {bits : List Bool} (clear : ∀ i : Nat, bits[i]? ≠ some true) :
    bits = List.replicate bits.length false := by
  rw [List.eq_replicate_iff]
  refine ⟨rfl, ?_⟩
  intro bit member
  obtain ⟨i, inside, rfl⟩ := List.getElem_of_mem member
  have notSet := clear i
  rw [List.getElem?_eq_getElem inside, ne_eq, Option.some_inj, Bool.not_eq_true] at notSet
  exact notSet

theorem serial_burst_ne_zero {poly : BitVec w} (monic : poly.msb = true) {bits : List Bool}
    (burst : IsBurst w bits) : serial poly 0 bits ≠ 0 := by
  obtain ⟨⟨at', set⟩, start, near⟩ := burst
  obtain ⟨from', before⟩ := near at' set
  have split : bits = bits.take start ++ ((bits.drop start).take w ++ bits.drop (start + w)) := by
    rw [← List.drop_drop, List.take_append_drop, List.take_append_drop]
  have leading : bits.take start = List.replicate (bits.take start).length false := by
    apply eq_replicate_false
    intro i found
    rw [List.getElem?_take] at found
    split at found
    next early => exact absurd (near i found).1 (Nat.not_le.mpr early)
    next => cases found
  have trailing : bits.drop (start + w) = List.replicate (bits.drop (start + w)).length false := by
    apply eq_replicate_false
    intro i found
    rw [List.getElem?_drop] at found
    have bound := (near _ found).2
    omega
  have window : ((bits.drop start).take w)[at' - start]? = some true := by
    have inside : at' - start < w := by omega
    rw [List.getElem?_take, if_pos inside, List.getElem?_drop, Nat.add_sub_cancel' from']
    exact set
  have short : ((bits.drop start).take w).length ≤ w := by
    rw [List.length_take]
    exact Nat.min_le_left _ _
  intro zero
  rw [split, leading, serial_append, serial_append, serial_replicate_false, iterate_step_zero,
    trailing, serial_replicate_false, serial_eq_iterate poly _ short] at zero
  have cleared := iterate_step_eq_zero monic (iterate_step_eq_zero monic zero)
  exact word_ne_zero short window (BitVec.zero_xor.symm.trans cleared)

end ShiftRegister

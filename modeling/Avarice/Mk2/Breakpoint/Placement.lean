import Mathlib.Data.Finset.Card
import Mathlib.Order.Interval.Finset.Nat
import Avarice.Mk2.Breakpoint.Layout

/-!
# What one placement loop does

Both loops of the layout give each entry that waits for a slot the first one
that is free, or a fallback once none is left.  They are instances of one loop,
whose invariant says which entries have been given a slot, that the slots given
differ, and how many are left.
-/

namespace Avarice.Mk2

open Scan

abbrev SlotArray := CArray Bool (maxBreakpoints2 + 2)

def freeFrom (remaining : SlotArray) (first : Nat) : Finset Nat :=
  (Finset.Icc first maxBreakpoints2).filter fun slot => remaining.peek slot = true

theorem mem_freeFrom {remaining : SlotArray} {first slot : Nat} :
    slot ∈ freeFrom remaining first ↔
      first ≤ slot ∧ slot ≤ maxBreakpoints2 ∧ remaining.peek slot = true := by
  simp [freeFrom, and_assoc]

theorem freeFrom_poke (remaining : SlotArray) {slot : Nat} (inside : slot ≤ maxBreakpoints2)
    (least : Nat) :
    freeFrom (remaining.poke slot false) least = (freeFrom remaining least).erase slot := by
  have small : slot < maxBreakpoints2 + 2 := Nat.lt_add_right 1 (Nat.lt_succ_of_le inside)
  ext other
  simp only [mem_freeFrom, Finset.mem_erase, CArray.peek_poke]
  by_cases same : slot = other
  · subst same
    simp [small]
  · simp [same, Ne.symm same]

/-- The search stops at a free slot, or past the last one when none is free. -/
theorem nextSlot_spec (remaining : SlotArray) {first : Nat}
    (inside : first ≤ maxBreakpoints2) :
    nextSlot remaining first ∈ freeFrom remaining first ∨
      nextSlot remaining first = maxBreakpoints2 + 1 ∧ freeFrom remaining first = ∅ := by
  refine scanFrom_rule
    (fun slot _ => first ≤ slot ∧ slot ≤ maxBreakpoints2 + 1 ∧
      ∀ other, first ≤ other → other < slot → remaining.peek other = false)
    (fun slot _ => slot ∈ freeFrom remaining first ∨
      slot = maxBreakpoints2 + 1 ∧ freeFrom remaining first = ∅)
    ?stopped ?atBound ?turned (maxBreakpoints2 + 1 - first) first ()
    (Nat.add_sub_of_le (Nat.le_succ_of_le inside)) ⟨le_refl _, by omega, by omega⟩
  case stopped =>
    rintro slot _ ⟨lower, upper, passed⟩ stops
    by_cases within : slot ≤ maxBreakpoints2
    · left
      have available : remaining.peek slot = true := by simpa [within] using stops
      exact mem_freeFrom.mpr ⟨lower, within, available⟩
    · right
      refine ⟨by omega, Finset.eq_empty_of_forall_notMem ?_⟩
      intro other membership
      obtain ⟨low, high, available⟩ := mem_freeFrom.mp membership
      rw [passed other low (by omega)] at available
      cases available
  case atBound =>
    intro _ _
    simp
  case turned =>
    rintro slot _ bound ⟨lower, upper, passed⟩ goes
    simp only [Turn.meets_next]
    refine ⟨by omega, by omega, ?_⟩
    intro other low high
    rcases Nat.lt_or_eq_of_le (Nat.le_of_lt_succ high) with before | here
    · exact passed other low before
    · subst here
      simpa using (Bool.or_eq_false_iff.mp goes).1

/-- One turn of a placement loop: an entry that waits for a slot is given the
next free one, or the fallback. -/
def placeEntry (wants : Breakpoint2 → Bool) (first : Nat) (fallback : Option Nat)
    (i : Nat) (s : LayoutState) : Turn LayoutState :=
  if wants (s.bp.peek i) then
    match if nextSlot s.remainingBps first > maxBreakpoints2 then fallback
        else some (nextSlot s.remainingBps first) with
    | none => .leave { s with hadroom := false }
    | some slot =>
        .next { s with
          bp := s.bp.modify i (Breakpoint2.setBpnum slot)
          remainingBps := s.remainingBps.poke slot false }
  else .next s

def placeAll (wants : Breakpoint2 → Bool) (first : Nat) (fallback : Option Nat)
    (s : LayoutState) : LayoutState :=
  (scan (fun i s => atLast i s.bp) (placeEntry wants first fallback)
    maxTotalBreakpoints2 s).2

def waiting (wants : Breakpoint2 → Bool) (bp : BreakpointTable) : Finset Nat :=
  (Finset.range (endIndex bp)).filter fun i => wants (bp.peek i) = true

theorem mem_waiting {wants : Breakpoint2 → Bool} {bp : BreakpointTable} {i : Nat} :
    i ∈ waiting wants bp ↔ Visible bp i ∧ wants (bp.peek i) = true := by
  simp [waiting, Visible]

section Loop

variable {wants : Breakpoint2 → Bool} {first : Nat} {fallback : Option Nat}

/-- The loop has looked at the entries before `i`. -/
structure Placing (wants : Breakpoint2 → Bool) (first : Nat) (fallback : Option Nat)
    (s₀ : LayoutState) (i : Nat) (s : LayoutState) : Prop where
  reached : i ≤ endIndex s₀.bp
  hadroom : s.hadroom = s₀.hadroom
  entries : ∀ j, ∃ slot, s.bp.peek j = (s₀.bp.peek j).setBpnum slot
  untouched : ∀ j, ¬ (j < i ∧ wants (s₀.bp.peek j) = true) → s.bp.peek j = s₀.bp.peek j
  placed : ∀ j < i, wants (s₀.bp.peek j) = true →
    (s.bp.peek j).bpnum ∈ freeFrom s₀.remainingBps first ∨
      fallback = some (s.bp.peek j).bpnum
  distinct : ∀ j < i, ∀ k < i, wants (s₀.bp.peek j) = true →
    wants (s₀.bp.peek k) = true → (s.bp.peek j).bpnum = (s.bp.peek k).bpnum →
      j = k ∨ fallback = some (s.bp.peek j).bpnum
  remaining : ∀ slot, s.remainingBps.peek slot = true ↔
    s₀.remainingBps.peek slot = true ∧
      ∀ j < i, wants (s₀.bp.peek j) = true → (s.bp.peek j).bpnum ≠ slot
  consumed : fallback = none → ∀ least ≤ first,
    (freeFrom s.remainingBps least).card + Nat.count (fun j => wants (s₀.bp.peek j)) i =
      (freeFrom s₀.remainingBps least).card

/-- What the loop leaves behind in either case. -/
structure Placed (wants : Breakpoint2 → Bool) (s₀ s : LayoutState) : Prop where
  entries : ∀ j, ∃ slot, s.bp.peek j = (s₀.bp.peek j).setBpnum slot
  untouched : ∀ j, j ∉ waiting wants s₀.bp → s.bp.peek j = s₀.bp.peek j
  hadroom : s.hadroom = true → s₀.hadroom = true
  available : ∀ slot, s.remainingBps.peek slot = true → s₀.remainingBps.peek slot = true

theorem endIndex_of_entries {before after : BreakpointTable}
    (entries : ∀ j, ∃ slot, after.peek j = (before.peek j).setBpnum slot) :
    endIndex after = endIndex before := by
  apply endIndex_congr
  intro j
  obtain ⟨slot, same⟩ := entries j
  rw [same, Breakpoint2.setBpnum_last]

theorem Placing.start (s₀ : LayoutState) :
    Placing wants first fallback s₀ 0 s₀ where
  reached := Nat.zero_le _
  hadroom := rfl
  entries j := ⟨(s₀.bp.peek j).bpnum, rfl⟩
  untouched _ _ := rfl
  placed j before := absurd before (Nat.not_lt_zero j)
  distinct j before := absurd before (Nat.not_lt_zero j)
  remaining slot := by simp
  consumed _ _ _ := by simp

theorem Placing.skip {s₀ s : LayoutState} {i : Nat}
    (placing : Placing wants first fallback s₀ i s) (visible : Visible s₀.bp i)
    (content : wants (s₀.bp.peek i) = false) :
    Placing wants first fallback s₀ (i + 1) s := by
  have before : ∀ {j}, j < i + 1 → wants (s₀.bp.peek j) = true → j < i := by
    intro j inside wanted
    rcases Nat.lt_or_eq_of_le (Nat.le_of_lt_succ inside) with less | equal
    · exact less
    · subst equal
      rw [content] at wanted
      cases wanted
  constructor
  · exact visible
  · exact placing.hadroom
  · exact placing.entries
  · intro j outside
    exact placing.untouched j fun inside => outside ⟨by omega, inside.2⟩
  · intro j inside wanted
    exact placing.placed j (before inside wanted) wanted
  · intro j inside k inside' wanted wanted'
    exact placing.distinct j (before inside wanted) k (before inside' wanted') wanted wanted'
  · intro slot
    rw [placing.remaining slot]
    refine and_congr_right fun _ => ⟨fun clear j inside wanted => ?_, fun clear j inside => ?_⟩
    · exact clear j (before inside wanted) wanted
    · exact clear j (by omega)
  · intro none least low
    rw [Nat.count_succ, if_neg (by simp [content])]
    exact placing.consumed none least low

section Give

variable {s₀ s : LayoutState} {i slot : Nat} (placing : Placing wants first fallback s₀ i s)
  (visible : Visible s₀.bp i) (wanted : wants (s₀.bp.peek i) = true)

theorem given_peek (visible : Visible s₀.bp i) :
    (s.bp.modify i (Breakpoint2.setBpnum slot)).peek i = (s.bp.peek i).setBpnum slot :=
  CArray.peek_modify_same _ _ (lt_of_visible visible)

theorem given_peek_ne {j : Nat} (different : j ≠ i) :
    (s.bp.modify i (Breakpoint2.setBpnum slot)).peek j = s.bp.peek j :=
  CArray.peek_modify_ne _ _ (Ne.symm different)

include placing

theorem Placing.fresh (free : slot ∈ freeFrom s.remainingBps first) {j : Nat} (before : j < i)
    (wantedJ : wants (s₀.bp.peek j) = true) : (s.bp.peek j).bpnum ≠ slot :=
  ((placing.remaining slot).mp (mem_freeFrom.mp free).2.2).2 j before wantedJ

include visible

theorem Placing.give_placed
    (chosen : slot ∈ freeFrom s.remainingBps first ∨ fallback = some slot) {j : Nat}
    (before : j < i + 1) (wantedJ : wants (s₀.bp.peek j) = true) :
    ((s.bp.modify i (Breakpoint2.setBpnum slot)).peek j).bpnum ∈
        freeFrom s₀.remainingBps first ∨
      fallback = some ((s.bp.modify i (Breakpoint2.setBpnum slot)).peek j).bpnum := by
  by_cases here : j = i
  · subst here
    rw [given_peek visible]
    rcases chosen with free | falls
    · left
      obtain ⟨low, high, available⟩ := mem_freeFrom.mp free
      exact mem_freeFrom.mpr ⟨low, high, ((placing.remaining slot).mp available).1⟩
    · exact .inr falls
  · rw [given_peek_ne here]
    exact placing.placed j (by omega) wantedJ

theorem Placing.give_distinct
    (chosen : slot ∈ freeFrom s.remainingBps first ∨ fallback = some slot) {j k : Nat}
    (beforeJ : j < i + 1) (beforeK : k < i + 1) (wantedJ : wants (s₀.bp.peek j) = true)
    (wantedK : wants (s₀.bp.peek k) = true)
    (same : ((s.bp.modify i (Breakpoint2.setBpnum slot)).peek j).bpnum =
      ((s.bp.modify i (Breakpoint2.setBpnum slot)).peek k).bpnum) :
    j = k ∨ fallback = some ((s.bp.modify i (Breakpoint2.setBpnum slot)).peek j).bpnum := by
  by_cases hereJ : j = i <;> by_cases hereK : k = i
  · exact .inl (hereJ.trans hereK.symm)
  · subst hereJ
    rw [given_peek visible, given_peek_ne hereK] at same
    rw [given_peek visible]
    rcases chosen with free | falls
    · exact absurd same.symm (placing.fresh free (by omega) wantedK)
    · exact .inr falls
  · subst hereK
    rw [given_peek visible, given_peek_ne hereJ] at same
    rw [given_peek_ne hereJ, same]
    rcases chosen with free | falls
    · exact absurd same (placing.fresh free (by omega) wantedJ)
    · exact .inr falls
  · rw [given_peek_ne hereJ, given_peek_ne hereK] at same
    rw [given_peek_ne hereJ]
    exact placing.distinct j (by omega) k (by omega) wantedJ wantedK same

include wanted

/-- The slots that are left are those that nobody has been given, the entry of
this turn included. -/
theorem Placing.give_remaining (other : Nat) :
    (s.remainingBps.poke slot false).peek other = true ↔
      s₀.remainingBps.peek other = true ∧
        ∀ j < i + 1, wants (s₀.bp.peek j) = true →
          ((s.bp.modify i (Breakpoint2.setBpnum slot)).peek j).bpnum ≠ other := by
  rw [CArray.peek_poke]
  constructor
  · intro available
    split at available
    · cases available
    next kept =>
      obtain ⟨initially, clear⟩ := (placing.remaining other).mp available
      refine ⟨initially, fun j before wantedJ => ?_⟩
      by_cases here : j = i
      · subst here
        rw [given_peek visible, Breakpoint2.setBpnum_bpnum]
        rintro rfl
        have large : maxBreakpoints2 + 2 ≤ slot := by
          by_contra small
          exact kept ⟨rfl, by omega⟩
        rw [CArray.peek_of_le large] at available
        cases available
      · rw [given_peek_ne here]
        exact clear j (by omega) wantedJ
  · rintro ⟨initially, clear⟩
    have different : slot ≠ other := by
      have here := clear i (Nat.lt_succ_self i) wanted
      rwa [given_peek visible] at here
    rw [if_neg (fun both => different both.1)]
    refine (placing.remaining other).mpr ⟨initially, fun j before wantedJ => ?_⟩
    have there := clear j (Nat.lt_succ_of_lt before) wantedJ
    rwa [given_peek_ne before.ne] at there

omit visible in
theorem Placing.give_consumed (none : fallback = none)
    (free : slot ∈ freeFrom s.remainingBps first) {least : Nat} (low : least ≤ first) :
    (freeFrom (s.remainingBps.poke slot false) least).card +
        Nat.count (fun j => wants (s₀.bp.peek j)) (i + 1) =
      (freeFrom s₀.remainingBps least).card := by
  obtain ⟨lower, upper, available⟩ := mem_freeFrom.mp free
  have taken : slot ∈ freeFrom s.remainingBps least :=
    mem_freeFrom.mpr ⟨low.trans lower, upper, available⟩
  have positive := Finset.card_pos.mpr ⟨slot, taken⟩
  have count := placing.consumed none least low
  rw [freeFrom_poke _ upper, Nat.count_succ, if_pos wanted, Finset.card_erase_of_mem taken]
  omega

theorem Placing.give
    (chosen : slot ∈ freeFrom s.remainingBps first ∨ fallback = some slot) :
    Placing wants first fallback s₀ (i + 1)
      { s with
        bp := s.bp.modify i (Breakpoint2.setBpnum slot)
        remainingBps := s.remainingBps.poke slot false } := by
  constructor
  · exact visible
  · exact placing.hadroom
  · intro j
    by_cases here : j = i
    · subst here
      obtain ⟨old, same⟩ := placing.entries j
      exact ⟨slot, by rw [given_peek visible, same, Breakpoint2.setBpnum_setBpnum]⟩
    · rw [given_peek_ne here]
      exact placing.entries j
  · intro j outside
    have different : j ≠ i := by
      rintro rfl
      exact outside ⟨Nat.lt_succ_self j, wanted⟩
    rw [given_peek_ne different]
    exact placing.untouched j fun before => outside ⟨Nat.lt_succ_of_lt before.1, before.2⟩
  · exact fun j before wantedJ => placing.give_placed visible chosen before wantedJ
  · exact fun j beforeJ k beforeK wantedJ wantedK =>
      placing.give_distinct visible chosen beforeJ beforeK wantedJ wantedK
  · exact fun other => placing.give_remaining visible wanted other
  · intro none least low
    rcases chosen with free | falls
    · exact placing.give_consumed wanted none free low
    · rw [none] at falls
      cases falls

end Give

theorem count_eq_card_waiting (wants : Breakpoint2 → Bool) (bp : BreakpointTable) :
    Nat.count (fun j => wants (bp.peek j)) (endIndex bp) = (waiting wants bp).card := by
  rw [Nat.count_eq_card_filter_range]
  rfl

/-- The loop either places everything that waits, or stops for want of a slot
because more entries wait than slots are free. -/
theorem placeAll_spec (s₀ : LayoutState) (inside : first ≤ maxBreakpoints2) :
    Placed wants s₀ (placeAll wants first fallback s₀) ∧
      (Placing wants first fallback s₀ (endIndex s₀.bp) (placeAll wants first fallback s₀) ∨
        (placeAll wants first fallback s₀).hadroom = false ∧ fallback = none ∧
          (freeFrom s₀.remainingBps first).card < (waiting wants s₀.bp).card) := by
  refine visit_rule LayoutState.bp (fun _ _ => rfl) (Placing wants first fallback s₀)
    (fun s => Placed wants s₀ s ∧
      (Placing wants first fallback s₀ (endIndex s₀.bp) s ∨
        s.hadroom = false ∧ fallback = none ∧
          (freeFrom s₀.remainingBps first).card < (waiting wants s₀.bp).card))
    (fun _ _ placing => endIndex_of_entries placing.entries) ?turned ?finished
    (Placing.start s₀)
  case finished =>
    intro s placing
    refine ⟨⟨placing.entries, fun j outside => placing.untouched j ?_, ?_, ?_⟩,
      .inl placing⟩
    · exact fun both => outside (mem_waiting.mpr both)
    · exact fun room => placing.hadroom.symm.trans room
    · exact fun slot free => ((placing.remaining slot).mp free).1
  case turned =>
    intro i s visible placing
    have unseen : s.bp.peek i = s₀.bp.peek i :=
      placing.untouched i fun both => absurd both.1 (lt_irrefl i)
    unfold placeEntry
    rw [unseen]
    cases wanted : wants (s₀.bp.peek i) with
    | false => exact placing.skip visible wanted
    | true =>
        rcases nextSlot_spec s.remainingBps inside with free | ⟨beyond, exhausted⟩
        · have small := (mem_freeFrom.mp free).2.1
          rw [if_pos rfl, if_neg (Nat.not_lt.mpr small)]
          exact placing.give visible wanted (.inl free)
        · rw [if_pos rfl, if_pos (by omega)]
          cases falls : fallback with
          | some slot =>
              subst falls
              exact placing.give visible wanted (.inr rfl)
          | none =>
              subst falls
              refine ⟨⟨placing.entries, fun j outside => placing.untouched j ?_, ?_, ?_⟩,
                .inr ⟨rfl, rfl, ?_⟩⟩
              · exact fun both => outside
                  (mem_waiting.mpr ⟨lt_trans both.1 visible, both.2⟩)
              · intro impossible
                cases impossible
              · exact fun slot free => ((placing.remaining slot).mp free).1
              · have count := placing.consumed rfl first (le_refl _)
                rw [exhausted, Finset.card_empty, Nat.zero_add] at count
                rw [← count, ← count_eq_card_waiting]
                exact Nat.count_strict_mono wanted visible

end Loop

end Avarice.Mk2

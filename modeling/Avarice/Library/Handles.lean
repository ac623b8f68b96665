import Avarice.Library.Throwing

/-!
# Handles

A library hands out handles of several kinds, which are to be returned once and
not to be used afterwards.  They are numbered in the order in which they are
obtained, so that a part of a program is known by the handles it obtains: those
from the next number on.
-/

namespace Handles

variable {Kind : Type}

/-- The handles below `next` have been obtained.  `misused` tells whether one
has been used or released that was not held. -/
@[ext]
structure Pool (Kind : Type) where
  next : Nat
  kind : Nat → Option Kind
  releases : Nat → Nat
  misused : Bool

namespace Pool

def Held (pool : Pool Kind) (handle : Nat) : Prop :=
  handle < pool.next ∧ pool.releases handle = 0

instance (pool : Pool Kind) (handle : Nat) : Decidable (pool.Held handle) :=
  inferInstanceAs (Decidable (_ ∧ _))

def acquire (kind : Kind) (pool : Pool Kind) : Pool Kind :=
  { next := pool.next + 1
    kind := fun handle => if handle = pool.next then some kind else pool.kind handle
    releases := fun handle => if handle = pool.next then 0 else pool.releases handle
    misused := pool.misused }

def use (handle : Nat) (pool : Pool Kind) : Pool Kind :=
  { pool with misused := pool.misused || !decide (pool.Held handle) }

def release (handle : Nat) (pool : Pool Kind) : Pool Kind :=
  { pool with
    releases := fun other =>
      if other = handle then pool.releases handle + 1 else pool.releases other
    misused := pool.misused || !decide (pool.Held handle) }

/-- Of the handles from a number on, those that count have been released once,
and nothing was used or released that was not held. -/
def Returned (counted : Kind → Prop) (start : Nat) (pool : Pool Kind) : Prop :=
  pool.misused = false ∧
    ∀ handle, start ≤ handle → handle < pool.next →
      ∀ kind, pool.kind handle = some kind → counted kind → pool.releases handle = 1

/-- What was obtained before is as it was. -/
structure Keeps (before after : Pool Kind) : Prop where
  next_le : before.next ≤ after.next
  kind_eq : ∀ handle < before.next, after.kind handle = before.kind handle
  releases_eq : ∀ handle < before.next, after.releases handle = before.releases handle
  misused : after.misused = false → before.misused = false

variable {counted : Kind → Prop} {start handle : Nat} {kind : Kind}
  {pool before between after : Pool Kind}

theorem Keeps.refl (pool : Pool Kind) : Keeps pool pool :=
  ⟨Nat.le_refl _, fun _ _ => rfl, fun _ _ => rfl, id⟩

theorem Keeps.trans (first : Keeps before between) (second : Keeps between after) :
    Keeps before after where
  next_le := Nat.le_trans first.next_le second.next_le
  kind_eq handle old := by
    rw [second.kind_eq handle (Nat.lt_of_lt_of_le old first.next_le), first.kind_eq handle old]
  releases_eq handle old := by
    rw [second.releases_eq handle (Nat.lt_of_lt_of_le old first.next_le),
      first.releases_eq handle old]
  misused fine := first.misused (second.misused fine)

theorem Keeps.held (keeps : Keeps before after) (held : before.Held handle) :
    after.Held handle :=
  ⟨Nat.lt_of_lt_of_le held.1 keeps.next_le, (keeps.releases_eq handle held.1).trans held.2⟩

theorem keeps_acquire (kind : Kind) (pool : Pool Kind) : Keeps pool (pool.acquire kind) where
  next_le := Nat.le_succ _
  kind_eq _ old := if_neg (Nat.ne_of_lt old)
  releases_eq _ old := if_neg (Nat.ne_of_lt old)
  misused := id

theorem held_acquire (kind : Kind) (pool : Pool Kind) : (pool.acquire kind).Held pool.next :=
  ⟨Nat.lt_succ_self _, if_pos rfl⟩

theorem use_of_held (held : pool.Held handle) : pool.use handle = pool := by
  simp [use, held]

theorem release_misused (held : pool.Held handle) :
    (pool.release handle).misused = pool.misused := by
  simp [release, held]

theorem release_releases_ne {other : Nat} (different : other ≠ handle) :
    (pool.release handle).releases other = pool.releases other :=
  if_neg different

theorem held_release {other : Nat} (held : pool.Held other) (different : other ≠ handle) :
    (pool.release handle).Held other :=
  ⟨held.1, (release_releases_ne different).trans held.2⟩

theorem release_releases_self (held : pool.Held handle) :
    (pool.release handle).releases handle = 1 := by
  simp [release, held.2]

theorem release_release_misused (held : pool.Held handle) :
    ((pool.release handle).release handle).misused = true := by
  have gone : ¬(pool.release handle).Held handle := by
    intro still
    exact Nat.one_ne_zero ((release_releases_self held).symm.trans still.2)
  simp [release.eq_def handle (pool.release handle), gone]

theorem returned_iff_split (started : start ≤ between.next) (keeps : Keeps between after) :
    Returned counted start after ↔
      Returned counted start between ∧ Returned counted between.next after := by
  constructor
  · intro returned
    refine ⟨⟨keeps.misused returned.1, ?_⟩, returned.1, ?_⟩
    · intro handle from' below kind known
      rw [← keeps.releases_eq handle below]
      exact returned.2 handle from' (Nat.lt_of_lt_of_le below keeps.next_le) kind
        ((keeps.kind_eq handle below).trans known)
    · intro handle from' below
      exact returned.2 handle (Nat.le_trans started from') below
  · rintro ⟨old, new⟩
    refine ⟨new.1, fun handle from' below kind known count => ?_⟩
    rcases Nat.lt_or_ge handle between.next with earlier | later
    · rw [keeps.releases_eq handle earlier]
      exact old.2 handle from' earlier kind ((keeps.kind_eq handle earlier).symm.trans known) count
    · exact new.2 handle later below kind known count

theorem returned_next : Returned counted pool.next pool ↔ pool.misused = false := by
  refine ⟨fun returned => returned.1, fun fine => ⟨fine, fun handle from' below => ?_⟩⟩
  exact absurd below (Nat.not_lt.mpr from')

section Bracket

variable (inner : Keeps (pool.acquire kind) after)

include inner

theorem held_of_inner : after.Held pool.next := inner.held (held_acquire kind pool)

theorem keeps_of_inner : Keeps pool after := (keeps_acquire kind pool).trans inner

theorem keeps_release : Keeps pool (after.release pool.next) where
  next_le := (keeps_of_inner inner).next_le
  kind_eq := (keeps_of_inner inner).kind_eq
  releases_eq handle old := by
    rw [release_releases_ne (Nat.ne_of_lt old)]
    exact (keeps_of_inner inner).releases_eq handle old
  misused fine := by
    rw [release_misused (held_of_inner inner)] at fine
    exact (keeps_of_inner inner).misused fine

theorem returned_release_iff :
    Returned counted pool.next (after.release pool.next) ↔
      Returned counted (pool.next + 1) after := by
  have held := held_of_inner inner
  have misused := release_misused held
  constructor
  · intro returned
    refine ⟨misused ▸ returned.1, fun handle from' below kind known count => ?_⟩
    rw [← release_releases_ne (Nat.ne_of_gt from')]
    exact returned.2 handle (Nat.le_of_succ_le from') below kind known count
  · intro returned
    refine ⟨misused.trans returned.1, fun handle from' below kind known count => ?_⟩
    rcases Nat.eq_or_lt_of_le from' with here | later
    · subst here
      simp [release, held.2]
    · rw [release_releases_ne (Nat.ne_of_gt later)]
      exact returned.2 handle later below kind known count

theorem not_returned_of_inner (counts : counted kind) :
    ¬Returned counted pool.next after := by
  intro returned
  have held := held_of_inner inner
  have known : after.kind pool.next = some kind := by
    rw [inner.kind_eq _ (Nat.lt_succ_self _)]
    exact if_pos rfl
  have once := returned.2 _ (Nat.le_refl _) held.1 kind known counts
  rw [held.2] at once
  exact Nat.zero_ne_one once

theorem returned_inner_iff (ignored : ¬counted kind) :
    Returned counted pool.next after ↔ Returned counted (pool.next + 1) after := by
  constructor
  · exact fun returned =>
      ⟨returned.1, fun handle from' => returned.2 handle (Nat.le_of_succ_le from')⟩
  · intro returned
    refine ⟨returned.1, fun handle from' below other known count => ?_⟩
    rcases Nat.eq_or_lt_of_le from' with here | later
    · subst here
      have same : after.kind pool.next = some kind := by
        rw [inner.kind_eq _ (Nat.lt_succ_self _)]
        exact if_pos rfl
      rw [same] at known
      cases known
      exact absurd count ignored
    · exact returned.2 handle later below other known count

end Bracket

def acquireAll (kind : Kind) : Nat → Pool Kind → Pool Kind
  | 0, pool => pool
  | count + 1, pool => acquireAll kind count (pool.acquire kind)

theorem acquireAll_next (kind : Kind) (count : Nat) (pool : Pool Kind) :
    (pool.acquireAll kind count).next = pool.next + count := by
  induction count generalizing pool with
  | zero => rfl
  | succ count inductionHypothesis =>
      rw [acquireAll, inductionHypothesis, acquire, Nat.add_assoc, Nat.add_comm 1]

theorem keeps_acquireAll (kind : Kind) (count : Nat) (pool : Pool Kind) :
    Keeps pool (pool.acquireAll kind count) := by
  induction count generalizing pool with
  | zero => exact .refl pool
  | succ count inductionHypothesis =>
      exact (keeps_acquire kind pool).trans (inductionHypothesis _)

theorem acquireAll_misused (kind : Kind) (count : Nat) (pool : Pool Kind) :
    (pool.acquireAll kind count).misused = pool.misused := by
  induction count generalizing pool with
  | zero => rfl
  | succ count inductionHypothesis => exact inductionHypothesis _

theorem held_acquireAll {count offset : Nat} (kind : Kind) (pool : Pool Kind)
    (inside : offset < count) : (pool.acquireAll kind count).Held (pool.next + offset) := by
  induction count generalizing pool offset with
  | zero => exact absurd inside (Nat.not_lt_zero _)
  | succ count inductionHypothesis =>
      cases offset with
      | zero => exact (keeps_acquireAll kind count _).held (held_acquire kind pool)
      | succ offset =>
          have later := inductionHypothesis (pool.acquire kind) (Nat.lt_of_succ_lt_succ inside)
          have same : (pool.acquire kind).next + offset = pool.next + (offset + 1) := by
            simp only [acquire]
            omega
          exact same ▸ later

theorem Keeps.release (keeps : Keeps before after) (held : before.Held handle) :
    Keeps (before.release handle) (after.release handle) where
  next_le := keeps.next_le
  kind_eq := keeps.kind_eq
  releases_eq other old := by
    simp only [Pool.release]
    split
    · rw [keeps.releases_eq handle held.1]
    · exact keeps.releases_eq other old
  misused fine := by
    rw [release_misused (keeps.held held)] at fine
    rw [release_misused held]
    exact keeps.misused fine

theorem acquire_release (kind : Kind) (held : pool.Held handle) :
    (pool.release handle).acquire kind = (pool.acquire kind).release handle := by
  have still := release_misused ((keeps_acquire kind pool).held held)
  have misused := release_misused held
  have different : handle ≠ pool.next := Nat.ne_of_lt held.1
  refine Pool.ext rfl rfl ?_ (misused.trans still.symm)
  funext other
  by_cases here : other = handle
  · simp [acquire, release, here, different]
  · simp [acquire, release, here]

theorem not_returned_of_held (held : pool.Held handle) (since : start ≤ handle)
    (known : pool.kind handle = some kind) (counts : counted kind) :
    ¬Returned counted start pool := by
  intro returned
  have once := returned.2 handle since held.1 kind known counts
  rw [held.2] at once
  exact Nat.zero_ne_one once

end Pool

/-! ## Calls -/

open Throwing

/-- What a call does with handles: it keeps the old ones; it returns the new
ones, and misuses none, exactly in the clean case; and it returns or throws. -/
structure Does (counted : Kind → Prop) (pool : Pool Kind) (call : Called (Pool Kind) Unit)
    (clean completes : Prop) : Prop where
  keeps : Pool.Keeps pool call.state
  returned : Pool.Returned counted pool.next call.state ↔ pool.misused = false ∧ clean
  value : call.value = some () ↔ completes

variable {counted : Kind → Prop} {pool : Pool Kind} {call : Called (Pool Kind) Unit}
  {clean completes later latest : Prop}

theorem Does.congr (does : Does counted pool call clean completes) (same : clean ↔ later)
    (equal : completes ↔ latest) : Does counted pool call later latest :=
  ⟨does.keeps, does.returned.trans (and_congr_right fun _ => same), does.value.trans equal⟩

theorem does_check (succeeds : Bool) :
    Does counted pool ⟨if succeeds then some () else none, pool⟩ True (succeeds = true) where
  keeps := .refl pool
  returned := by simp [Pool.returned_next]
  value := by cases succeeds <;> simp

theorem Does.andThen (first : Does counted pool call clean completes)
    (rest : Unit → Pool Kind → Called (Pool Kind) Unit)
    (second : completes → Does counted call.state (rest () call.state) later latest) :
    Does counted pool (call.andThen rest) (clean ∧ (completes → later))
      (completes ∧ latest) := by
  cases outcome : call.value with
  | none =>
      have threw : ¬completes := by
        rw [← first.value, outcome]
        exact fun impossible => Option.some_ne_none _ impossible.symm
      rw [Called.andThen_of_threw outcome]
      refine ⟨first.keeps, ?_, ?_⟩
      · simp [first.returned, threw]
      · simp [threw]
  | some value =>
      have completed : completes := first.value.mp outcome
      have next := second completed
      rw [Called.andThen_of_returned outcome]
      refine ⟨first.keeps.trans next.keeps, ?_, ?_⟩
      · rw [Pool.returned_iff_split first.keeps.next_le next.keeps, next.returned, first.returned]
        have fine : Pool.Returned counted pool.next call.state → call.state.misused = false :=
          fun returned => returned.1
        rw [first.returned] at fine
        simp only [completed, true_implies]
        constructor
        · exact fun both => ⟨both.1.1, both.1.2, both.2.2⟩
        · exact fun all => ⟨⟨all.1, all.2.1⟩, fine ⟨all.1, all.2.1⟩, all.2.2⟩
      · simp [next.value, completed]

theorem Does.releasing {kind : Kind}
    (inner : Does counted (pool.acquire kind) call clean completes) :
    Does counted pool (call.andThen fun _ after => ⟨some (), after.release pool.next⟩)
      (clean ∧ (counted kind → completes)) completes := by
  have returned : Pool.Returned counted (pool.next + 1) call.state ↔
      pool.misused = false ∧ clean := inner.returned
  cases outcome : call.value with
  | none =>
      have threw : ¬completes := by
        rw [← inner.value, outcome]
        exact (Option.some_ne_none _ ·.symm)
      rw [Called.andThen_of_threw outcome]
      refine ⟨Pool.keeps_of_inner inner.keeps, ?_, by simp [threw]⟩
      by_cases counts : counted kind
      · exact iff_of_false (Pool.not_returned_of_inner inner.keeps counts)
          fun both => threw (both.2.2 counts)
      · rw [Pool.returned_inner_iff inner.keeps counts]
        simpa [counts] using returned
  | some value =>
      have completed : completes := inner.value.mp outcome
      rw [Called.andThen_of_returned outcome]
      refine ⟨Pool.keeps_release inner.keeps, ?_, by simp [completed]⟩
      rw [Pool.returned_release_iff inner.keeps]
      simpa [completed] using returned

end Handles

import Mathlib.Logic.Function.Basic

/-!
# Mutual exclusion

Threads with a control state each share something that changes only at the hands
of a holder, of whom there is at most one.  The rules say what has to be shown of
a step: that a thread goes on inside or outside, enters or leaves.
-/

universe u v w

namespace Exclusion

variable {Thread : Type u} {Control : Type v} {Shared : Type w}

/-- The threads without the token are outside; the holder is inside, in accord
with what is shared, which without a holder is free. -/
structure Exclusive (outside : Control → Prop) (inside : Thread → Control → Shared → Prop)
    (free : Shared → Prop) (holder : Option Thread) (control : Thread → Control)
    (shared : Shared) : Prop where
  others : ∀ thread, holder ≠ some thread → outside (control thread)
  free : holder = none → free shared
  inside : ∀ thread, holder = some thread → inside thread (control thread) shared

variable {outside : Control → Prop} {inside : Thread → Control → Shared → Prop}
  {free : Shared → Prop} {holder : Option Thread} {control : Thread → Control} {shared : Shared}

theorem Exclusive.holder_of_not_outside
    (exclusive : Exclusive outside inside free holder control shared) {thread : Thread}
    (within : ¬outside (control thread)) : holder = some thread := by
  by_contra other
  exact within (exclusive.others thread other)

theorem Exclusive.unique (exclusive : Exclusive outside inside free holder control shared)
    {first second : Thread} (one : ¬outside (control first)) (two : ¬outside (control second)) :
    first = second := by
  have same : some first = some second :=
    (exclusive.holder_of_not_outside one).symm.trans (exclusive.holder_of_not_outside two)
  exact Option.some.inj same

section Rules

variable [DecidableEq Thread] (exclusive : Exclusive outside inside free holder control shared)
  {thread : Thread} {next : Control} {after : Shared}
include exclusive

theorem Exclusive.wait (without : holder ≠ some thread) (goes : outside next) :
    Exclusive outside inside free holder (Function.update control thread next) shared where
  others other lacks := by
    by_cases same : other = thread
    · rw [same, Function.update_self]
      exact goes
    · rw [Function.update_of_ne same]
      exact exclusive.others other lacks
  free := exclusive.free
  inside other holds := by
    have different : other ≠ thread := fun same => without (same ▸ holds)
    rw [Function.update_of_ne different]
    exact exclusive.inside other holds

theorem Exclusive.move (may : holder = none ∨ holder = some thread)
    (goes : inside thread next after) :
    Exclusive outside inside free (some thread) (Function.update control thread next) after where
  others other lacks := by
    have different : other ≠ thread := fun same => lacks (congrArg some same.symm)
    rw [Function.update_of_ne different]
    apply exclusive.others
    rcases may with nobody | holds
    · rw [nobody]
      exact nofun
    · rwa [holds]
  free nobody := by cases nobody
  inside other holds := by
    cases holds
    rw [Function.update_self]
    exact goes

theorem Exclusive.leave (holds : holder = some thread) (goes : outside next)
    (left : free after) :
    Exclusive outside inside free none (Function.update control thread next) after where
  others other _ := by
    by_cases same : other = thread
    · rw [same, Function.update_self]
      exact goes
    · rw [Function.update_of_ne same]
      apply exclusive.others
      intro also
      exact same (Option.some.inj (also.symm.trans holds))
  free _ := left
  inside other nobody := by cases nobody

end Rules

end Exclusion

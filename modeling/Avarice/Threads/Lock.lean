import Avarice.Library.Exclusion

/-!
# Locks

`ThreadSynchronization` of `thread.hh`.  A method of a shared object locks it,
accesses it and unlocks it again; other threads may run between any two of its
statements.
-/

namespace Avarice.Threads

open Exclusion

/-- The statements of `lock` and `unlock`, and the accesses between them. -/
inductive Statement (Access : Type) where
  | lockMutex
  | raise
  | takeOwner
  | access (access : Access)
  | checkOwner
  | lower
  | whenFree
  | clearOwner
  | unlockMutex
  deriving DecidableEq, Repr

variable {Thread Access : Type}

def lock : List (Statement Access) := [.lockMutex, .raise, .takeOwner]

def unlock : List (Statement Access) :=
  [.checkOwner, .lower, .whenFree, .clearOwner, .unlockMutex]

/-- A method of a shared object. -/
def method (accesses : List Access) : List (Statement Access) :=
  lock ++ accesses.map .access ++ unlock

structure ThreadSynchronization (Thread : Type) where
  mutex : Option Thread := none
  owner : Option Thread := none
  level : Int := 0
  deriving DecidableEq, Repr

section Statements

variable [DecidableEq Thread]

def ThreadSynchronization.asserts (s : ThreadSynchronization Thread) (self : Thread) :
    Statement Access → Bool
  | .takeOwner => decide (s.owner = none ∨ s.owner = some self)
  | .checkOwner => decide (s.owner = some self)
  | _ => true

/-- The state behind a statement, and what the thread has still to do.  It waits
for a mutex that is locked. -/
def ThreadSynchronization.execute (s : ThreadSynchronization Thread) (self : Thread)
    (rest : List (Statement Access)) :
    Statement Access → Option (ThreadSynchronization Thread × List (Statement Access))
  | .lockMutex => if s.mutex = none then some ({ s with mutex := some self }, rest) else none
  | .raise => some ({ s with level := s.level + 1 }, rest)
  | .takeOwner => some ({ s with owner := if s.owner = none then some self else s.owner }, rest)
  | .access _ => some (s, rest)
  | .checkOwner => some (s, rest)
  | .lower => some ({ s with level := s.level - 1 }, rest)
  | .whenFree => some (s, if s.level = 0 then rest else [])
  | .clearOwner => some ({ s with owner := none }, rest)
  | .unlockMutex => some ({ s with mutex := none }, rest)

end Statements

/-! ## Mutual exclusion -/

/-- A thread has nothing to do, or one of the methods that it has not begun. -/
def Waiting (methods : List Access → Prop) (rest : List (Statement Access)) : Prop :=
  rest = [] ∨ ∃ accesses, methods accesses ∧ rest = method accesses

/-- A thread that has locked the mutex, with the owner and the level. -/
inductive Inside (self : Thread) : List (Statement Access) → Option Thread × Int → Prop
  | locked (accesses : List Access) :
      Inside self (.raise :: .takeOwner :: accesses.map .access ++ unlock) (none, 0)
  | raised (accesses : List Access) :
      Inside self (.takeOwner :: accesses.map .access ++ unlock) (none, 1)
  | working (accesses : List Access) :
      Inside self (accesses.map .access ++ unlock) (some self, 1)
  | checked : Inside self [.lower, .whenFree, .clearOwner, .unlockMutex] (some self, 1)
  | lowered : Inside self [.whenFree, .clearOwner, .unlockMutex] (some self, 0)
  | leaving : Inside self [.clearOwner, .unlockMutex] (some self, 0)
  | cleared : Inside self [.unlockMutex] (none, 0)

/-- The mutex is locked by the thread that is inside, if there is one. -/
abbrev ThreadSynchronization.Excludes (s : ThreadSynchronization Thread)
    (methods : List Access → Prop) (rest : Thread → List (Statement Access)) : Prop :=
  Exclusive (Waiting methods) Inside (· = (none, 0)) s.mutex rest (s.owner, s.level)

theorem excludes_start (methods : List Access → Prop) :
    ({} : ThreadSynchronization Thread).Excludes methods fun _ => [] where
  others _ _ := .inl rfl
  free _ := rfl
  inside _ holds := by cases holds

section Steps

variable [DecidableEq Thread] {s s' : ThreadSynchronization Thread} {self : Thread}
  {statement : Statement Access} {rest rest' : List (Statement Access)}
  {methods : List Access → Prop} {control : Thread → List (Statement Access)}

omit [DecidableEq Thread] in
theorem lockMutex_of_waiting (waiting : Waiting methods (statement :: rest)) :
    statement = .lockMutex ∧ ∃ accesses : List Access,
      rest = .raise :: .takeOwner :: accesses.map .access ++ unlock := by
  rcases waiting with none | ⟨accesses, _, begun⟩
  · cases none
  · obtain ⟨rfl, rfl⟩ := List.cons.inj begun
    exact ⟨rfl, accesses, rfl⟩

theorem excludes_execute (excludes : s.Excludes methods control)
    (here : control self = statement :: rest)
    (executed : s.execute self rest statement = some (s', rest')) :
    s.asserts self statement = true ∧ s'.Excludes methods (Function.update control self rest') := by
  by_cases holds : s.mutex = some self
  · have inside := excludes.inside self holds
    have may : s.mutex = none ∨ s.mutex = some self := .inr holds
    rw [here] at inside
    obtain ⟨mutex, owner, level⟩ := s
    cases holds
    generalize program : statement :: rest = all at inside
    generalize shared : (owner, level) = values at inside
    cases inside with
    | locked accesses =>
        cases program
        cases shared
        cases executed
        exact ⟨rfl, excludes.move may (.raised accesses)⟩
    | raised accesses =>
        cases program
        cases shared
        cases executed
        exact ⟨rfl, excludes.move may (.working accesses)⟩
    | working accesses =>
        cases shared
        cases accesses with
        | nil =>
            cases program
            cases executed
            exact ⟨decide_eq_true rfl, excludes.move may .checked⟩
        | cons access accesses =>
            cases program
            cases executed
            exact ⟨rfl, excludes.move may (.working accesses)⟩
    | checked =>
        cases program
        cases shared
        cases executed
        exact ⟨rfl, excludes.move may .lowered⟩
    | lowered =>
        cases program
        cases shared
        cases executed
        exact ⟨rfl, excludes.move may .leaving⟩
    | leaving =>
        cases program
        cases shared
        cases executed
        exact ⟨rfl, excludes.move may .cleared⟩
    | cleared =>
        cases program
        cases shared
        cases executed
        exact ⟨rfl, excludes.leave rfl (.inl rfl) rfl⟩
  · have waiting := excludes.others self holds
    rw [here] at waiting
    obtain ⟨rfl, accesses, rfl⟩ := lockMutex_of_waiting waiting
    simp only [ThreadSynchronization.execute] at executed
    split at executed
    next free =>
      cases executed
      have shared := excludes.free free
      refine ⟨rfl, excludes.move (.inl free) ?_⟩
      rw [shared]
      exact .locked accesses
    next => cases executed

theorem excludes_call (excludes : s.Excludes methods control) (idle : control self = [])
    {accesses : List Access} (fine : methods accesses) :
    s.Excludes methods (Function.update control self (method accesses)) := by
  refine excludes.wait ?_ (.inr ⟨accesses, fine, rfl⟩)
  intro holds
  have inside := excludes.inside self holds
  rw [idle] at inside
  generalize program : ([] : List (Statement Access)) = all at inside
  generalize (s.owner, s.level) = values at inside
  cases inside with
  | working accesses => cases accesses <;> cases program
  | _ => cases program

omit [DecidableEq Thread] in
theorem holder_of_access (excludes : s.Excludes methods control) {access : Access}
    (here : control self = .access access :: rest) : s.mutex = some self := by
  refine excludes.holder_of_not_outside ?_
  rw [here]
  intro waiting
  cases (lockMutex_of_waiting waiting).1

omit [DecidableEq Thread] in
theorem executes_of_excludes (excludes : s.Excludes methods control) {busy : Thread}
    (some : control busy ≠ []) :
    ∃ self statement rest, control self = statement :: rest ∧
      (s.execute self rest statement).isSome := by
  cases holder : s.mutex with
  | none =>
      have waiting := excludes.others busy (holder ▸ nofun)
      obtain ⟨statement, rest, begun⟩ := List.exists_cons_of_ne_nil some
      rw [begun] at waiting
      obtain ⟨rfl, _⟩ := lockMutex_of_waiting waiting
      refine ⟨busy, _, rest, begun, ?_⟩
      simp [ThreadSynchronization.execute, holder]
  | some self =>
      have inside := excludes.inside self holder
      have goes : ∃ statement rest, control self = statement :: rest ∧ statement ≠ .lockMutex := by
        generalize control self = all at inside
        generalize (s.owner, s.level) = values at inside
        cases inside with
        | working accesses =>
            cases accesses with
            | nil => exact ⟨_, _, rfl, nofun⟩
            | cons access accesses => exact ⟨_, _, rfl, nofun⟩
        | _ => exact ⟨_, _, rfl, nofun⟩
      obtain ⟨statement, rest, begun, other⟩ := goes
      refine ⟨self, statement, rest, begun, ?_⟩
      cases statement with
      | lockMutex => exact absurd rfl other
      | _ => rfl

end Steps

end Avarice.Threads

import Mathlib.Logic.Relation

/-!
# Runs of state machines

A machine takes one action after another.  It is a function from a state and
an action to the next state; it may be partial, where an action cannot be taken
in every state.  Invariants are carried along runs in both cases; the steps of
a total machine may be restricted by a guard, a condition on the state before a
step and the action taken in it.
-/

universe u v

namespace Transition

variable {State : Type u} {Action : Type v}

section Deterministic

variable (apply : State → Action → State) (guard : State → Action → Prop)

def run (state : State) (actions : List Action) : State :=
  actions.foldl apply state

@[simp]
theorem run_nil (state : State) : run apply state [] = state := rfl

@[simp]
theorem run_cons (state : State) (action : Action) (rest : List Action) :
    run apply state (action :: rest) = run apply (apply state action) rest := rfl

theorem run_append (state : State) (first second : List Action) :
    run apply state (first ++ second) =
      run apply (run apply state first) second := by
  simp [run]

def Along (state : State) : List Action → Prop
  | [] => True
  | action :: rest => guard state action ∧ Along (apply state action) rest

instance decidableAlong [∀ state action, Decidable (guard state action)]
    (state : State) (actions : List Action) :
    Decidable (Along apply guard state actions) :=
  match actions with
  | [] => inferInstanceAs (Decidable True)
  | action :: rest =>
      have := decidableAlong (apply state action) rest
      inferInstanceAs (Decidable (guard state action ∧ Along apply guard _ rest))

theorem along_append (state : State) (first second : List Action) :
    Along apply guard state (first ++ second) ↔
      Along apply guard state first ∧
        Along apply guard (run apply state first) second := by
  induction first generalizing state with
  | nil => simp [Along]
  | cons action rest inductionHypothesis =>
      simp only [List.cons_append, Along, run_cons, inductionHypothesis]
      exact and_assoc.symm

variable {apply guard}

/-- What every guarded step keeps, every guarded run keeps. -/
theorem invariant_of_along {invariant : State → Prop}
    (kept : ∀ state action, invariant state → guard state action →
      invariant (apply state action))
    {state : State} {actions : List Action} (holds : invariant state)
    (along : Along apply guard state actions) :
    invariant (run apply state actions) := by
  induction actions generalizing state with
  | nil => exact holds
  | cons action rest inductionHypothesis =>
      exact inductionHypothesis (kept state action holds along.1) along.2

theorem invariant_of_run {invariant : State → Prop}
    (kept : ∀ state action, invariant state → invariant (apply state action))
    {state : State} {actions : List Action} (holds : invariant state) :
    invariant (run apply state actions) := by
  induction actions generalizing state with
  | nil => exact holds
  | cons action rest inductionHypothesis => exact inductionHypothesis (kept state action holds)

theorem Along.mono {weaker : State → Action → Prop}
    (implied : ∀ state action, guard state action → weaker state action)
    {state : State} {actions : List Action}
    (along : Along apply guard state actions) :
    Along apply weaker state actions := by
  induction actions generalizing state with
  | nil => trivial
  | cons action rest inductionHypothesis =>
      exact ⟨implied _ _ along.1, inductionHypothesis along.2⟩

theorem Along.and_of_forall {property : Action → Prop} {state : State}
    {actions : List Action} (along : Along apply guard state actions)
    (all : ∀ action ∈ actions, property action) :
    Along apply (fun state action => property action ∧ guard state action) state actions := by
  induction actions generalizing state with
  | nil => trivial
  | cons action rest inductionHypothesis =>
      obtain ⟨here, later⟩ := List.forall_mem_cons.mp all
      exact ⟨⟨here, along.1⟩, inductionHypothesis along.2 later⟩

def Always (apply : State → Action → State) (property : State → Prop) (state : State) :
    List Action → Prop
  | [] => property state
  | action :: rest => property state ∧ Always apply property (apply state action) rest

/-- Where the guard says exactly which of the possible steps keep a property, it
says which of the possible runs do. -/
theorem always_iff_along_of_along {property : State → Prop} {possible : State → Action → Prop}
    (decides : ∀ state action, property state → possible state action →
      (property (apply state action) ↔ guard state action))
    {state : State} {actions : List Action} (along : Along apply possible state actions)
    (start : property state) :
    Always apply property state actions ↔ Along apply guard state actions := by
  induction actions generalizing state with
  | nil => exact ⟨fun _ => trivial, fun _ => start⟩
  | cons action rest inductionHypothesis =>
      have here := decides state action start along.1
      by_cases guarded : guard state action
      · have later := inductionHypothesis along.2 (here.mpr guarded)
        exact ⟨fun always => ⟨guarded, later.mp always.2⟩,
          fun along => ⟨start, later.mpr along.2⟩⟩
      · constructor
        · intro always
          have next : property (apply state action) := by
            cases rest with
            | nil => exact always.2
            | cons _ _ => exact always.2.1
          exact absurd (here.mp next) guarded
        · exact fun along => absurd along.1 guarded

theorem along_of_invariant {invariant : State → Prop}
    (kept : ∀ state action, invariant state → invariant (apply state action))
    {state : State} (actions : List Action) (holds : invariant state) :
    Along apply (fun state _ => invariant state) state actions := by
  induction actions generalizing state with
  | nil => trivial
  | cons action rest inductionHypothesis =>
      exact ⟨holds, inductionHypothesis (kept state action holds)⟩

/-- Where the guard says exactly which steps keep a property, it says which
runs do. -/
theorem always_iff_along {invariant property : State → Prop}
    (kept : ∀ state action, invariant state → invariant (apply state action))
    (decides : ∀ state action, invariant state → property state →
      (property (apply state action) ↔ guard state action))
    {state : State} (actions : List Action) (holds : invariant state) (start : property state) :
    Always apply property state actions ↔ Along apply guard state actions :=
  always_iff_along_of_along
    (fun state action current invariantHolds => decides state action invariantHolds current)
    (along_of_invariant kept actions holds) start

end Deterministic

section Partial

variable (step : State → Action → Option State)

def attempt (state : State) : List Action → Option State
  | [] => some state
  | action :: rest => (step state action).bind fun next => attempt next rest

variable {step}

theorem invariant_of_attempt {invariant : State → Prop}
    (kept : ∀ before action after, invariant before →
      step before action = some after → invariant after)
    {start finish : State} {actions : List Action}
    (reached : attempt step start actions = some finish) (holds : invariant start) :
    invariant finish := by
  induction actions generalizing start with
  | nil =>
      cases reached
      exact holds
  | cons action rest inductionHypothesis =>
      obtain ⟨next, taken, later⟩ := Option.bind_eq_some_iff.mp reached
      exact inductionHypothesis later (kept _ _ _ holds taken)

end Partial

section Loop

/-- How one round of an endless loop ends. -/
inductive Control (State : Type u) where
  | again (state : State)
  | leave (state : State)

/-- A loop whose body says when it is left, for a number of rounds. -/
def loop (body : State → Control State) : Nat → State → Option State
  | 0, _ => none
  | rounds + 1, state =>
      match body state with
      | .again next => loop body rounds next
      | .leave last => some last

theorem loop_eq_none {body : State → Control State}
    (stays : ∀ state, ∃ next, body state = .again next) (rounds : Nat) (state : State) :
    loop body rounds state = none := by
  induction rounds generalizing state with
  | zero => rfl
  | succ rounds inductionHypothesis =>
      obtain ⟨next, again⟩ := stays state
      simp only [loop, again]
      exact inductionHypothesis next

/-- A round that does not leave the loop. -/
def Again (body : State → Control State) (before after : State) : Prop :=
  body before = .again after

variable {body : State → Control State}

theorem invariant_of_again {invariant : State → Prop}
    (kept : ∀ before after, invariant before → body before = .again after → invariant after)
    {start state : State} (reached : Relation.ReflTransGen (Again body) start state)
    (holds : invariant start) : invariant state := by
  induction reached with
  | refl => exact holds
  | tail _ round inductionHypothesis => exact kept _ _ inductionHypothesis round

theorem leave_of_loop {rounds : Nat} {start last : State}
    (ended : loop body rounds start = some last) :
    ∃ state, Relation.ReflTransGen (Again body) start state ∧ body state = .leave last := by
  induction rounds generalizing start with
  | zero => cases ended
  | succ rounds inductionHypothesis =>
      unfold loop at ended
      cases round : body start with
      | again next =>
          simp only [round] at ended
          obtain ⟨state, reached, left⟩ := inductionHypothesis ended
          exact ⟨state, .head round reached, left⟩
      | leave final =>
          simp only [round] at ended
          cases ended
          exact ⟨start, .refl, round⟩

/-- A loop whose rounds lower a measure needs no more rounds than that. -/
theorem loop_isSome {invariant : State → Prop} {measure : State → Nat}
    (lowers : ∀ before after, invariant before → body before = .again after →
      invariant after ∧ measure after < measure before)
    {start : State} (holds : invariant start) {rounds : Nat} (enough : measure start < rounds) :
    (loop body rounds start).isSome := by
  induction rounds generalizing start with
  | zero => exact absurd enough (Nat.not_lt_zero _)
  | succ rounds inductionHypothesis =>
      cases round : body start with
      | again next =>
          obtain ⟨kept, lower⟩ := lowers start next holds round
          simp only [loop, round]
          exact inductionHypothesis kept (Nat.lt_of_lt_of_le lower (Nat.le_of_lt_succ enough))
      | leave last => simp only [loop, round, Option.isSome_some]

theorem loop_ends {invariant : State → Prop} {measure : State → Nat}
    (lowers : ∀ before after, invariant before → body before = .again after →
      invariant after ∧ measure after < measure before)
    {start : State} (holds : invariant start) :
    ∃ rounds last, loop body rounds start = some last :=
  ⟨measure start + 1,
    Option.isSome_iff_exists.mp (loop_isSome lowers holds (Nat.lt_succ_self _))⟩

end Loop

end Transition

import Mathlib.Logic.Basic

/-!
# Calls that may throw

A call changes an object and returns a value, or throws and leaves the object
as it is at that moment.
-/

namespace Throwing

variable {State Value Other : Type}

/-- The value unless the call throws, and the object left behind. -/
structure Called (State Value : Type) where
  value : Option Value
  state : State

namespace Called

/-- What follows a call, which a throw skips. -/
def andThen (call : Called State Value) (rest : Value → State → Called State Other) :
    Called State Other :=
  match call.value with
  | none => ⟨none, call.state⟩
  | some value => rest value call.state

variable {call : Called State Value} {rest : Value → State → Called State Other}

theorem andThen_of_threw (threw : call.value = none) :
    call.andThen rest = ⟨none, call.state⟩ := by
  rw [andThen, threw]

theorem andThen_of_returned {value : Value} (returned : call.value = some value) :
    call.andThen rest = rest value call.state := by
  rw [andThen, returned]

theorem andThen_return_state (value : Value → Other) :
    (call.andThen fun result state => ⟨some (value result), state⟩).state = call.state := by
  unfold andThen
  cases call.value <;> rfl

/-- What holds where a call returns, and where it throws. -/
structure Ends (returned : Value → State → Prop) (threw : State → Prop)
    (call : Called State Value) : Prop where
  returned : ∀ value, call.value = some value → returned value call.state
  threw : call.value = none → threw call.state

variable {returned between : Value → State → Prop} {after : Other → State → Prop}
  {threw : State → Prop}

theorem ends_return {value : Value} {state : State} (holds : returned value state) :
    Ends returned threw ⟨some value, state⟩ where
  returned _ same := Option.some.inj same ▸ holds
  threw impossible := absurd impossible (Option.some_ne_none value)

theorem ends_of_state {holds : State → Prop} (left : holds call.state) :
    Ends (fun _ => holds) (fun _ => True) call where
  returned _ _ := left
  threw _ := trivial

theorem Ends.imp {returned' : Value → State → Prop} {threw' : State → Prop}
    (ends : Ends returned threw call)
    (later : ∀ value state, returned value state → returned' value state)
    (early : ∀ state, threw state → threw' state) : Ends returned' threw' call where
  returned value same := later value call.state (ends.returned value same)
  threw same := early call.state (ends.threw same)

theorem Ends.andThen (first : Ends between threw call)
    (second : ∀ value state, between value state → Ends after threw (rest value state)) :
    Ends after threw (call.andThen rest) := by
  cases outcome : call.value with
  | none =>
      rw [andThen_of_threw outcome]
      exact ⟨fun _ impossible => absurd impossible.symm (Option.some_ne_none _),
        fun _ => first.threw outcome⟩
  | some value =>
      rw [andThen_of_returned outcome]
      exact second value call.state (first.returned value outcome)

theorem Ends.map {Another : Type} {first : Value → Other} {second : Value → Another}
    {other : Another → State → Prop}
    (ends : Ends after threw (call.andThen fun value state => ⟨some (first value), state⟩))
    (later : ∀ value state, after (first value) state → other (second value) state) :
    Ends other threw (call.andThen fun value state => ⟨some (second value), state⟩) := by
  cases outcome : call.value with
  | none =>
      rw [andThen_of_threw outcome] at ends ⊢
      exact ⟨fun _ impossible => absurd impossible.symm (Option.some_ne_none _),
        fun _ => ends.threw rfl⟩
  | some value =>
      rw [andThen_of_returned outcome] at ends ⊢
      exact ends_return (later value call.state (ends.returned _ rfl))

theorem ends_iff_state {holds : State → Prop} :
    Ends (fun _ => holds) holds call ↔ holds call.state := by
  constructor
  · intro ends
    cases outcome : call.value with
    | none => exact ends.threw outcome
    | some value => exact ends.returned value outcome
  · exact fun state => ⟨fun _ _ => state, fun _ => state⟩

end Called

end Throwing

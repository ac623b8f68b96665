import Mathlib.Logic.Relation

/-!
# Repeated requests

A machine that executes requests.  Where answers can be lost, a request may be
executed more than once, with others in between that leave alone what the
machine holds.  If repeating the request changes nothing either, what is held
behind its last execution is as if it had been executed once.
-/

universe u v w x

namespace Repetition

variable {Machine : Type u} {Request : Type v} {Answer : Type w} {Held : Type x}
  (execute : Machine → Request → Answer × Machine)

def Executes (requests : List Request) (before after : Machine) : Prop :=
  ∃ request ∈ requests, after = (execute before request).2

def Reaches (requests : List Request) : Machine → Machine → Prop :=
  Relation.ReflTransGen (Executes execute requests)

/-- Where the machine is ready for it, a request has an effect on what is held,
once and for all; the others have none. -/
structure Repeatable (held : Machine → Held) (ready : Held → Prop) (request : Request)
    (others : List Request) (effect : Held → Held) : Prop where
  once : ∀ machine, ready (held machine) → held (execute machine request).2 = effect (held machine)
  stays : ∀ value, ready value → ready (effect value)
  again : ∀ value, ready value → effect (effect value) = effect value
  harmless : ∀ machine, ∀ other ∈ others, held (execute machine other).2 = held machine

variable {execute} {requests others : List Request} {request : Request} {held : Machine → Held}
  {ready : Held → Prop} {effect : Held → Held} {before middle : Machine}

theorem Reaches.tail (reached : Reaches execute requests before middle)
    (member : request ∈ requests) : Reaches execute requests before (execute middle request).2 :=
  Relation.ReflTransGen.tail reached ⟨request, member, rfl⟩

section Repeatable

variable (repeatable : Repeatable execute held ready request others effect)
  (start : ready (held before)) (reached : Reaches execute (request :: others) before middle)
include repeatable start reached

theorem Repeatable.held_of_reaches :
    held middle = held before ∨ held middle = effect (held before) := by
  induction reached with
  | refl => exact .inl rfl
  | tail _ executed inductionHypothesis =>
      obtain ⟨other, member, rfl⟩ := executed
      rcases List.mem_cons.mp member with rfl | harmless
      · right
        rcases inductionHypothesis with not | already
        · rw [repeatable.once _ (not ▸ start), not]
        · rw [repeatable.once _ (already ▸ repeatable.stays _ start), already,
            repeatable.again _ start]
      · rw [repeatable.harmless _ other harmless]
        exact inductionHypothesis

theorem Repeatable.held_of_last : held (execute middle request).2 = effect (held before) := by
  rcases repeatable.held_of_reaches start reached with not | already
  · rw [repeatable.once _ (not ▸ start), not]
  · rw [repeatable.once _ (already ▸ repeatable.stays _ start), already,
      repeatable.again _ start]

end Repeatable

/-! ## One request after another -/

structure AllRepeatable (execute : Machine → Request → Answer × Machine) (held : Machine → Held)
    (effect : Request → Held → Held) (Allowed : Request → Prop) : Prop where
  once : ∀ machine request, Allowed request →
    held (execute machine request).2 = effect request (held machine)
  again : ∀ request value, Allowed request →
    effect request (effect request value) = effect request value

/-- What is held behind some requests, each executed once. -/
def behind (effect : Request → Held → Held) (start : Held) (requests : List Request) : Held :=
  requests.foldl (fun value request => effect request value) start

theorem behind_take_succ (effect : Request → Held → Held) (start : Held)
    {requests : List Request} {n : Nat} {request : Request} (found : requests[n]? = some request) :
    behind effect start (requests.take (n + 1)) =
      effect request (behind effect start (requests.take n)) := by
  rw [List.take_add_one, found, behind, behind, List.foldl_append]
  rfl

end Repetition

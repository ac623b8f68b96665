import Avarice.Library.Throwing

/-!
# Serving requests

An object that answers requests by calls that may throw, seen as a server that
holds a value.  A session ends at the first call that throws.  Where every call
does what the server may do, so does every session.
-/

universe u v w

namespace Serving

open Throwing

variable {Held : Type u} {Request : Type v} {Answer : Type w}

/-- What a server does with a list of requests.  The last of those it gets to may
be cut off, before or behind its effect. -/
inductive Explained (serves : Held → Request → Answer → Held → Prop) :
    Held → List Request → List Answer → Held → Prop
  | ended (held : Held) : Explained serves held [] [] held
  | served {held next last : Held} {request : Request} {answer : Answer}
      {requests : List Request} {answers : List Answer}
      (step : serves held request answer next)
      (later : Explained serves next requests answers last) :
      Explained serves held (request :: requests) (answer :: answers) last
  | cut {held last : Held} {request : Request} (requests : List Request)
      (effect : last = held ∨ ∃ answer, serves held request answer last) :
      Explained serves held (request :: requests) [] last

section Sessions

variable {State Result : Type}

def session {Request : Type v} (perform : State → Request → Called State Result) :
    State → List Request → List Result × State
  | state, [] => ([], state)
  | state, request :: requests =>
      let call := perform state request
      match call.value with
      | none => ([], call.state)
      | some answer =>
          let (answers, last) := session perform call.state requests
          (answer :: answers, last)

/-- Where an object is ready for it, every call for one of some requests does what
the server may do and leaves the object ready for the next one, or is cut off. -/
def Implements {Request : Type v} (perform : State → Request → Called State Result)
    (held : State → Held) (serves : Held → Request → Result → Held → Prop)
    (Ready : State → Prop) (Valid : Request → Prop) : Prop :=
  ∀ state request, Ready state → Valid request →
    Called.Ends
      (fun answer after => Ready after ∧ serves (held state) request answer (held after))
      (fun after => held after = held state ∨
        ∃ answer, serves (held state) request answer (held after)) (perform state request)

variable {perform : State → Request → Called State Result} {held : State → Held}
  {serves : Held → Request → Result → Held → Prop} {Ready : State → Prop} {Valid : Request → Prop}

theorem session_threw {state : State} {request : Request} {requests : List Request}
    (threw : (perform state request).value = none) :
    session perform state (request :: requests) = ([], (perform state request).state) := by
  rw [session]
  simp only [threw]

theorem session_returned {state : State} {request : Request} {requests : List Request}
    {answer : Result} (returned : (perform state request).value = some answer) :
    session perform state (request :: requests) =
      (answer :: (session perform (perform state request).state requests).1,
        (session perform (perform state request).state requests).2) := by
  rw [session]
  simp only [returned]

theorem Implements.session (implements : Implements perform held serves Ready Valid)
    {requests : List Request} (valid : ∀ request ∈ requests, Valid request) {state : State}
    (ready : Ready state) :
    Explained serves (held state) requests (Serving.session perform state requests).1
      (held (Serving.session perform state requests).2) := by
  induction requests generalizing state with
  | nil => exact .ended (held state)
  | cons request requests inductionHypothesis =>
      have ends := implements state request ready (valid request List.mem_cons_self)
      cases outcome : (perform state request).value with
      | none =>
          rw [session_threw outcome]
          exact .cut requests (ends.threw outcome)
      | some answer =>
          rw [session_returned outcome]
          obtain ⟨stillReady, served⟩ := ends.returned answer outcome
          exact .served served (inductionHypothesis
            (fun other later => valid other (List.mem_cons_of_mem _ later)) stillReady)

theorem Implements.ready_session (implements : Implements perform held serves Ready Valid)
    {requests : List Request} (valid : ∀ request ∈ requests, Valid request) {state : State}
    (ready : Ready state)
    (all : (Serving.session perform state requests).1.length = requests.length) :
    Ready (Serving.session perform state requests).2 := by
  induction requests generalizing state with
  | nil => exact ready
  | cons request requests inductionHypothesis =>
      have ends := implements state request ready (valid request List.mem_cons_self)
      cases outcome : (perform state request).value with
      | none =>
          rw [session_threw outcome] at all
          cases all
      | some answer =>
          rw [session_returned outcome] at all ⊢
          exact inductionHypothesis (fun other later => valid other (List.mem_cons_of_mem _ later))
            (ends.returned answer outcome).1 (Nat.succ.inj all)

theorem session_answers {Good : Result → Prop}
    (good : ∀ state request answer, (perform state request).value = some answer → Good answer)
    (state : State) (requests : List Request) :
    ∀ answer ∈ (Serving.session perform state requests).1, Good answer := by
  induction requests generalizing state with
  | nil => exact nofun
  | cons request requests inductionHypothesis =>
      cases outcome : (perform state request).value with
      | none =>
          rw [session_threw outcome]
          exact nofun
      | some answer =>
          rw [session_returned outcome]
          exact List.forall_mem_cons.mpr
            ⟨good state request answer outcome, inductionHypothesis _⟩

end Sessions

theorem Explained.append {serves : Held → Request → Answer → Held → Prop} {held last : Held}
    {front back : List Request} {answers : List Answer}
    (explained : Explained serves held (front ++ back) answers last)
    (all : answers.length = (front ++ back).length) :
    ∃ first later middle, answers = first ++ later ∧ first.length = front.length ∧
      later.length = back.length ∧ Explained serves held front first middle ∧
        Explained serves middle back later last := by
  induction front generalizing held answers with
  | nil => exact ⟨[], answers, held, rfl, rfl, all, .ended held, explained⟩
  | cons request front inductionHypothesis =>
      cases explained with
      | cut => cases all
      | served step rest =>
          obtain ⟨first, later, middle, rfl, length, lengthLater, front, back⟩ :=
            inductionHypothesis rest (Nat.succ.inj all)
          exact ⟨_ :: first, later, middle, rfl, congrArg Nat.succ length, lengthLater,
            .served step front, back⟩

section Both

variable {Held' : Type*} {Request' : Type*} {Answer' : Type*}

inductive Both (first : Held → Request → Answer → Held → Prop)
    (second : Held' → Request' → Answer' → Held' → Prop) :
    Held × Held' → Request ⊕ Request' → Answer ⊕ Answer' → Held × Held' → Prop
  | left {held after : Held} {other : Held'} {request : Request} {answer : Answer}
      (serves : first held request answer after) :
      Both first second (held, other) (.inl request) (.inl answer) (after, other)
  | right {held : Held} {other after : Held'} {request : Request'} {answer : Answer'}
      (serves : second other request answer after) :
      Both first second (held, other) (.inr request) (.inr answer) (held, after)

def lefts {α β : Type*} (all : List (α ⊕ β)) : List α := all.filterMap Sum.getLeft?

def rights {α β : Type*} (all : List (α ⊕ β)) : List β := all.filterMap Sum.getRight?

/-- A server that is cut off before its first effect. -/
theorem Explained.none (serves : Held → Request → Answer → Held → Prop) (held : Held)
    (requests : List Request) : Explained serves held requests [] held := by
  cases requests with
  | nil => exact .ended held
  | cons request requests => exact .cut requests (.inl rfl)

variable {first : Held → Request → Answer → Held → Prop}
  {second : Held' → Request' → Answer' → Held' → Prop} {held last : Held × Held'}
  {requests : List (Request ⊕ Request')} {answers : List (Answer ⊕ Answer')}

theorem Explained.both (explained : Explained (Both first second) held requests answers last) :
    Explained first held.1 (lefts requests) (lefts answers) last.1 ∧
      Explained second held.2 (rights requests) (rights answers) last.2 := by
  induction explained with
  | ended held => exact ⟨.ended _, .ended _⟩
  | cut requests effect =>
      rcases effect with rfl | ⟨_, effect⟩
      · exact ⟨.none _ _ _, .none _ _ _⟩
      · cases effect with
        | left served => exact ⟨.cut _ (.inr ⟨_, served⟩), .none _ _ _⟩
        | right served => exact ⟨.none _ _ _, .cut _ (.inr ⟨_, served⟩)⟩
  | served step _ inductionHypothesis =>
      obtain ⟨left, right⟩ := inductionHypothesis
      cases step with
      | left served => exact ⟨.served served left, right⟩
      | right served => exact ⟨left, .served served right⟩

theorem Explained.lengths (explained : Explained (Both first second) held requests answers last)
    (all : answers.length = requests.length) :
    (lefts answers).length = (lefts requests).length ∧
      (rights answers).length = (rights requests).length := by
  induction explained with
  | ended held => exact ⟨rfl, rfl⟩
  | cut requests effect => cases all
  | served step _ inductionHypothesis =>
      obtain ⟨left, right⟩ := inductionHypothesis (Nat.succ.inj all)
      cases step with
      | left served => exact ⟨congrArg Nat.succ left, right⟩
      | right served => exact ⟨left, congrArg Nat.succ right⟩

end Both

end Serving

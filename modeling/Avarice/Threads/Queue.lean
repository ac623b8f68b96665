import Avarice.Library.Transition
import Avarice.Threads.Lock

/-!
# Queues between threads

`ThreadSafeQueue` of `thread.hh`.  Many threads put data into a queue and one
takes it out, which looks each time whether there is any, as `pollListener` and
`TCPClient::doWork` do.  The queue inside is not atomic: it is read, and what
becomes of it is written later.
-/

namespace Avarice.Threads

open Exclusion

/-- What the methods do with the queue inside. -/
inductive QueueAccess (C : Type) where
  | read
  | empty
  | front
  | pop
  | push (data : C)
  deriving DecidableEq, Repr

inductive QueueMethod (C : Type) where
  | isDataAvailable
  | getData
  | putData (data : C)
  deriving DecidableEq, Repr

variable {Thread C : Type} [DecidableEq Thread]

def QueueMethod.accesses : QueueMethod C → List (QueueAccess C)
  | .isDataAvailable => [.read, .empty]
  | .getData => [.read, .front, .read, .pop]
  | .putData data => [.read, .push data]

def QueueMethod.Accesses (accesses : List (QueueAccess C)) : Prop :=
  ∃ m : QueueMethod C, accesses = m.accesses

/-- The queue and its threads.  A thread remembers what it has read, and its
result.  The records say what has been put into the queue, by whom, and taken
out of it; an assertion that fails, or data from an empty queue, is a failure. -/
structure ThreadSafeQueue (Thread C : Type) where
  sync : ThreadSynchronization Thread := {}
  myQueue : List C := []
  rest : Thread → List (Statement (QueueAccess C)) := fun _ => []
  seen : Thread → List C := fun _ => []
  result : Thread → Option C := fun _ => none
  available : Bool := false
  called : List (Thread × C) := []
  put : List (Thread × C) := []
  got : List C := []
  failed : Bool := false

inductive QueueAction (Thread C : Type) where
  | call (self : Thread) (method : QueueMethod C)
  | run (self : Thread)

def ThreadSafeQueue.perform (q : ThreadSafeQueue Thread C) (self : Thread) :
    QueueAccess C → ThreadSafeQueue Thread C
  | .read => { q with seen := Function.update q.seen self q.myQueue }
  | .empty => { q with available := !(q.seen self).isEmpty }
  | .front =>
      match q.seen self with
      | [] => { q with failed := true }
      | data :: _ => { q with result := Function.update q.result self (some data) }
  | .pop =>
      match q.seen self with
      | [] => { q with failed := true }
      | _ :: queue =>
          { q with
            myQueue := queue
            got := q.got ++ (q.result self).toList
            available := false }
  | .push data => { q with myQueue := q.seen self ++ [data], put := q.put ++ [(self, data)] }

/-- The thread may call the method: data is taken by the consumer, if it has seen
that there is any. -/
def ThreadSafeQueue.May (q : ThreadSafeQueue Thread C) (consumer self : Thread) :
    QueueMethod C → Prop
  | .isDataAvailable => self = consumer
  | .getData => self = consumer ∧ q.available = true
  | .putData _ => True

instance (q : ThreadSafeQueue Thread C) (consumer self : Thread) (method : QueueMethod C) :
    Decidable (q.May consumer self method) :=
  match method with
  | .isDataAvailable => inferInstanceAs (Decidable (_ = _))
  | .getData => inferInstanceAs (Decidable (_ ∧ _))
  | .putData _ => inferInstanceAs (Decidable True)

/-- What a call adds to the record. -/
def QueueMethod.data (self : Thread) : QueueMethod C → List (Thread × C)
  | .putData data => [(self, data)]
  | _ => []

/-- A thread that has nothing to do calls a method, or one executes its next
statement. -/
def ThreadSafeQueue.step (consumer : Thread) (q : ThreadSafeQueue Thread C) :
    QueueAction Thread C → Option (ThreadSafeQueue Thread C)
  | .call self m =>
      if (q.rest self).isEmpty ∧ q.May consumer self m then
        some { q with
          rest := Function.update q.rest self (method m.accesses)
          called := q.called ++ m.data self }
      else none
  | .run self =>
      match q.rest self with
      | [] => none
      | statement :: rest =>
          (q.sync.execute self rest statement).map fun (sync, rest) =>
            let q := { q with
              sync
              rest := Function.update q.rest self rest
              failed := q.failed || !q.sync.asserts self statement }
            match statement with
            | .access access => q.perform self access
            | _ => q

/-! ## What is left of a method -/

/-- The accesses that a thread has still to make. -/
def left (rest : List (Statement (QueueAccess C))) : List (QueueAccess C) :=
  rest.filterMap fun
    | .access access => some access
    | _ => none

@[simp]
theorem left_append (first second : List (Statement (QueueAccess C))) :
    left (first ++ second) = left first ++ left second := List.filterMap_append

theorem left_map_access (accesses : List (QueueAccess C)) :
    left (accesses.map Statement.access) = accesses := by
  induction accesses with
  | nil => rfl
  | cons access rest inductionHypothesis => exact congrArg (access :: ·) inductionHypothesis

@[simp]
theorem left_method (accesses : List (QueueAccess C)) : left (method accesses) = accesses := by
  have locked : left (lock : List (Statement (QueueAccess C))) = [] := rfl
  have unlocked : left (unlock : List (Statement (QueueAccess C))) = [] := rfl
  simp [method, locked, unlocked, left_map_access]

def pending (rest : List (Statement (QueueAccess C))) : List C :=
  (left rest).filterMap fun
    | .push data => some data
    | _ => none

omit [DecidableEq Thread] in
theorem left_execute {s s' : ThreadSynchronization Thread} {self : Thread}
    {statement : Statement (QueueAccess C)} {rest rest' : List (Statement (QueueAccess C))}
    {control : Thread → List (Statement (QueueAccess C))} {methods : List (QueueAccess C) → Prop}
    (excludes : s.Excludes methods control) (here : control self = statement :: rest)
    (executed : s.execute self rest statement = some (s', rest')) : rest' = rest := by
  cases statement with
  | whenFree =>
      have within : ¬Waiting methods (control self) := by
        rw [here]
        intro waiting
        cases (lockMutex_of_waiting waiting).1
      have inside := excludes.inside self (excludes.holder_of_not_outside within)
      rw [here] at inside
      generalize program : Statement.whenFree :: rest = all at inside
      generalize shared : (s.owner, s.level) = values at inside
      cases inside with
      | lowered =>
          cases program
          have level : s.level = 0 := congrArg Prod.snd shared
          simp only [ThreadSynchronization.execute, level, if_true] at executed
          cases executed
          rfl
      | working accesses => cases accesses <;> cases program
      | _ => cases program
  | lockMutex =>
      simp only [ThreadSynchronization.execute] at executed
      split at executed
      · cases executed
        rfl
      · cases executed
  | _ =>
      cases executed
      rfl

/-! ## The invariant -/

/-- How far a thread has got.  What it has read is what the queue holds, until it
reads again or has written. -/
inductive Progress (consumer self : Thread) (available : Bool) (queue seen : List C)
    (result : Option C) : List (QueueAccess C) → Prop
  | nothing : Progress consumer self available queue seen result []
  | looks : self = consumer → Progress consumer self available queue seen result [.read, .empty]
  | empty : self = consumer → seen = queue →
      Progress consumer self available queue seen result [.empty]
  | gets : self = consumer → available = true →
      Progress consumer self available queue seen result [.read, .front, .read, .pop]
  | front : self = consumer → available = true → seen = queue →
      Progress consumer self available queue seen result [.front, .read, .pop]
  | again : self = consumer → available = true → result = queue.head? →
      Progress consumer self available queue seen result [.read, .pop]
  | pop : self = consumer → available = true → result = queue.head? → seen = queue →
      Progress consumer self available queue seen result [.pop]
  | puts (data : C) : Progress consumer self available queue seen result [.read, .push data]
  | push (data : C) : seen = queue →
      Progress consumer self available queue seen result [.push data]

/-- The data in a record that is a thread's own. -/
def own (self : Thread) (record : List (Thread × C)) : List C :=
  (record.filter fun entry => entry.1 = self).map Prod.snd

theorem own_append (self : Thread) (first second : List (Thread × C)) :
    own self (first ++ second) = own self first ++ own self second := by
  simp [own]

theorem own_self (self : Thread) (data : List C) : own self (data.map (Prod.mk self)) = data := by
  simp [own, List.filter_map, Function.comp_def]

theorem own_other {self other : Thread} (different : other ≠ self) (data : List C) :
    own other (data.map (Prod.mk self)) = [] := by
  simp [own, List.filter_map, Function.comp_def, Ne.symm different]

structure ThreadSafeQueue.Orderly (consumer : Thread) (q : ThreadSafeQueue Thread C) : Prop where
  excludes : q.sync.Excludes QueueMethod.Accesses q.rest
  progress : ∀ self, Progress consumer self q.available q.myQueue (q.seen self) (q.result self)
    (left (q.rest self))
  filled : q.available = true → q.myQueue ≠ []
  inOrder : q.got ++ q.myQueue = q.put.map Prod.snd
  record : ∀ self, own self q.called = own self q.put ++ pending (q.rest self)
  unfailed : q.failed = false

section Steps

variable {consumer self : Thread} {q q' : ThreadSafeQueue Thread C}
  {rest : List (Statement (QueueAccess C))}

omit [DecidableEq Thread] in
theorem Progress.outside {available : Bool} {queue queue' seen seen' : List C}
    {result result' : Option C}
    (progress : Progress consumer self available queue seen result (left rest))
    (waiting : Waiting QueueMethod.Accesses rest) :
    Progress consumer self available queue' seen' result' (left rest) := by
  rcases waiting with rfl | ⟨_, ⟨m, rfl⟩, rfl⟩
  · exact .nothing
  · rw [left_method] at progress ⊢
    cases m with
    | isDataAvailable =>
        cases progress with
        | looks here => exact .looks here
    | getData =>
        cases progress with
        | gets here known => exact .gets here known
    | putData data => exact .puts data

omit [DecidableEq Thread] in
theorem Progress.imp {available available' : Bool} {queue seen : List C} {result : Option C}
    {accesses : List (QueueAccess C)}
    (progress : Progress consumer self available queue seen result accesses)
    (same : self = consumer → available' = available) :
    Progress consumer self available' queue seen result accesses := by
  cases progress with
  | nothing => exact .nothing
  | looks here => exact .looks here
  | empty here fresh => exact .empty here fresh
  | gets here known => exact .gets here ((same here).trans known)
  | front here known fresh => exact .front here ((same here).trans known) fresh
  | again here known first => exact .again here ((same here).trans known) first
  | pop here known first fresh => exact .pop here ((same here).trans known) first fresh
  | puts data => exact .puts data
  | push data fresh => exact .push data fresh

namespace ThreadSafeQueue.Orderly

variable (orderly : q.Orderly consumer)
include orderly

/-- Rules for a step: what a thread does to the queue is right if it is right for
the thread itself. -/
theorem step (statement : Statement (QueueAccess C))
    (excludes : q'.sync.Excludes QueueMethod.Accesses q'.rest)
    (here : q.rest self = statement :: rest) (goes : q'.rest = Function.update q.rest self rest)
    (others : ∀ other, other ≠ self →
      q'.seen other = q.seen other ∧ q'.result other = q.result other)
    (alone : q'.myQueue = q.myQueue ∨ q.sync.mutex = some self)
    (known : q'.available = q.available ∨ self = consumer)
    (progress : Progress consumer self q'.available q'.myQueue (q'.seen self) (q'.result self)
      (left rest))
    (filled : q'.available = true → q'.myQueue ≠ [])
    (inOrder : q'.got ++ q'.myQueue = q'.put.map Prod.snd)
    (called : q'.called = q.called)
    (put : ∃ data : List C, q'.put = q.put ++ data.map (Prod.mk self) ∧
      pending (statement :: rest) = data ++ pending rest)
    (unfailed : q'.failed = false) : q'.Orderly consumer where
  excludes := excludes
  progress other := by
    by_cases same : other = self
    · rw [same, goes, Function.update_self]
      exact progress
    · obtain ⟨sameSeen, sameResult⟩ := others other same
      rw [goes, Function.update_of_ne same]
      have before := orderly.progress other
      have sameKnown : other = consumer → q'.available = q.available := by
        intro consumes
        exact known.resolve_right fun also => same (consumes.trans also.symm)
      rw [sameSeen, sameResult]
      rcases alone with sameQueue | holds
      · rw [sameQueue]
        exact before.imp sameKnown
      · have waiting : Waiting QueueMethod.Accesses (q.rest other) := by
          apply orderly.excludes.others
          rw [holds]
          exact fun also => same (Option.some.inj also).symm
        exact (before.outside waiting).imp sameKnown
  filled := filled
  inOrder := inOrder
  record other := by
    obtain ⟨data, putBehind, begun⟩ := put
    have before := orderly.record other
    rw [called, putBehind, own_append, goes]
    by_cases same : other = self
    · subst same
      rw [here] at before
      rw [Function.update_self, before, begun, own_self, List.append_assoc]
    · rw [Function.update_of_ne same, own_other same, List.append_nil, before]
  unfailed := unfailed

theorem call {m : QueueMethod C} (idle : q.rest self = []) (may : q.May consumer self m) :
    Orderly consumer { q with
      rest := Function.update q.rest self (method m.accesses)
      called := q.called ++ m.data self } where
  excludes := excludes_call orderly.excludes idle ⟨m, rfl⟩
  progress other := by
    show Progress consumer other q.available q.myQueue (q.seen other) (q.result other)
      (left (Function.update q.rest self (method m.accesses) other))
    by_cases same : other = self
    · rw [same, Function.update_self, left_method]
      cases m with
      | isDataAvailable => exact .looks may
      | getData => exact .gets may.1 may.2
      | putData data => exact .puts data
    · rw [Function.update_of_ne same]
      exact orderly.progress other
  filled := orderly.filled
  inOrder := orderly.inOrder
  record other := by
    show own other (q.called ++ m.data self) =
      own other q.put ++ pending (Function.update q.rest self (method m.accesses) other)
    have data : m.data self = (pending (method m.accesses)).map (Prod.mk self) := by
      rw [pending, left_method]
      cases m <;> rfl
    rw [own_append, orderly.record other, data]
    by_cases same : other = self
    · subst same
      rw [own_self, Function.update_self, idle]
      exact congrArg (· ++ _) (List.append_nil _)
    · rw [own_other same, Function.update_of_ne same, List.append_nil]
  unfailed := orderly.unfailed

theorem read (here : q.rest self = .access .read :: rest)
    (next : Progress consumer self q.available q.myQueue q.myQueue (q.result self) (left rest)) :
    Orderly consumer { q with
      rest := Function.update q.rest self rest
      seen := Function.update q.seen self q.myQueue } := by
  refine orderly.step _ (excludes_execute orderly.excludes here rfl).2 here rfl
    (fun other different => ⟨Function.update_of_ne different _ _, rfl⟩) (.inl rfl) (.inl rfl) ?_
    orderly.filled orderly.inOrder rfl ⟨[], (List.append_nil _).symm, rfl⟩ orderly.unfailed
  show Progress consumer self q.available q.myQueue
    (Function.update q.seen self q.myQueue self) (q.result self) (left rest)
  rwa [Function.update_self]

theorem perform {access : QueueAccess C} (here : q.rest self = .access access :: rest) :
    (({ q with rest := Function.update q.rest self rest } : ThreadSafeQueue Thread C).perform
      self access).Orderly consumer := by
  have excludes : q.sync.Excludes QueueMethod.Accesses (Function.update q.rest self rest) :=
    (excludes_execute orderly.excludes here rfl).2
  have alone : q.sync.mutex = some self := holder_of_access orderly.excludes here
  have progress := orderly.progress self
  rw [here] at progress
  generalize accesses : left (.access access :: rest) = all at progress
  cases progress with
  | nothing => cases accesses
  | looks consumes =>
      obtain ⟨rfl, remaining⟩ := List.cons.inj accesses
      refine orderly.read here ?_
      rw [show left rest = [.empty] from remaining]
      exact .empty consumes rfl
  | gets consumes known =>
      obtain ⟨rfl, remaining⟩ := List.cons.inj accesses
      refine orderly.read here ?_
      rw [show left rest = [.front, .read, .pop] from remaining]
      exact .front consumes known rfl
  | again consumes known first =>
      obtain ⟨rfl, remaining⟩ := List.cons.inj accesses
      refine orderly.read here ?_
      rw [show left rest = [.pop] from remaining]
      exact .pop consumes known first rfl
  | puts data =>
      obtain ⟨rfl, remaining⟩ := List.cons.inj accesses
      refine orderly.read here ?_
      rw [show left rest = [.push data] from remaining]
      exact .push data rfl
  | empty consumes fresh =>
      obtain ⟨rfl, remaining⟩ := List.cons.inj accesses
      refine orderly.step _ excludes here rfl (fun _ _ => ⟨rfl, rfl⟩) (.inl rfl) (.inr consumes) ?_
        ?_ orderly.inOrder rfl ⟨[], (List.append_nil _).symm, rfl⟩ orderly.unfailed
      · rw [show left rest = [] from remaining]
        exact .nothing
      · intro known
        have some : (!(q.seen self).isEmpty) = true := known
        rw [fresh] at some
        show q.myQueue ≠ []
        simpa using some
  | front consumes known fresh =>
      obtain ⟨rfl, remaining⟩ := List.cons.inj accesses
      obtain ⟨data, queue, filled⟩ := List.exists_cons_of_ne_nil (orderly.filled known)
      have read : q.seen self = data :: queue := fresh.trans filled
      simp only [ThreadSafeQueue.perform, read]
      refine orderly.step _ excludes here rfl
        (fun other different => ⟨rfl, Function.update_of_ne different _ _⟩) (.inl rfl) (.inl rfl) ?_
        orderly.filled orderly.inOrder rfl ⟨[], (List.append_nil _).symm, rfl⟩ orderly.unfailed
      show Progress consumer self q.available q.myQueue (q.seen self)
        (Function.update q.result self (some data) self) (left rest)
      rw [show left rest = [.read, .pop] from remaining, Function.update_self]
      exact .again consumes known (congrArg List.head? filled).symm
  | pop consumes known first fresh =>
      obtain ⟨rfl, remaining⟩ := List.cons.inj accesses
      obtain ⟨data, queue, filled⟩ := List.exists_cons_of_ne_nil (orderly.filled known)
      have read : q.seen self = data :: queue := fresh.trans filled
      have result : q.result self = some data := first.trans (congrArg List.head? filled)
      simp only [ThreadSafeQueue.perform, read, result]
      refine orderly.step _ excludes here rfl (fun _ _ => ⟨rfl, rfl⟩) (.inr alone) (.inr consumes)
        ?_ (by simp) ?_ rfl ⟨[], (List.append_nil _).symm, rfl⟩ orderly.unfailed
      · rw [show left rest = [] from remaining]
        exact .nothing
      · have inOrder := orderly.inOrder
        rw [filled] at inOrder
        simpa using inOrder
  | push data fresh =>
      obtain ⟨rfl, remaining⟩ := List.cons.inj accesses
      refine orderly.step _ excludes here rfl (fun _ _ => ⟨rfl, rfl⟩) (.inr alone) (.inl rfl) ?_
        ?_ ?_ rfl ⟨[data], rfl, rfl⟩ orderly.unfailed
      · rw [show left rest = [] from remaining]
        exact .nothing
      · exact fun _ => List.append_ne_nil_of_right_ne_nil _ (List.cons_ne_nil _ _)
      · show q.got ++ (q.seen self ++ [data]) = (q.put ++ [(self, data)]).map Prod.snd
        rw [fresh, ← List.append_assoc, orderly.inOrder, List.map_append]
        rfl

end ThreadSafeQueue.Orderly

theorem orderly_step (orderly : q.Orderly consumer) {action : QueueAction Thread C}
    (taken : q.step consumer action = some q') : q'.Orderly consumer := by
  cases action with
  | call self m =>
      simp only [ThreadSafeQueue.step] at taken
      split at taken
      next guard =>
        cases taken
        exact orderly.call (List.isEmpty_iff.mp guard.1) guard.2
      next => cases taken
  | run self =>
      simp only [ThreadSafeQueue.step] at taken
      split at taken
      · cases taken
      next statement rest here =>
        obtain ⟨⟨sync, behind⟩, executed, rfl⟩ := Option.map_eq_some_iff.mp taken
        obtain rfl := left_execute orderly.excludes here executed
        obtain ⟨asserted, excludes⟩ := excludes_execute orderly.excludes here executed
        have unfailed : (q.failed || !q.sync.asserts self statement) = false := by
          rw [orderly.unfailed, asserted]
          rfl
        cases statement with
        | access access =>
            cases executed
            simp only [unfailed, ← orderly.unfailed]
            exact orderly.perform here
        | _ =>
            refine orderly.step _ excludes here rfl (fun _ _ => ⟨rfl, rfl⟩) (.inl rfl) (.inl rfl)
              ?_ orderly.filled orderly.inOrder rfl ⟨[], (List.append_nil _).symm, rfl⟩ unfailed
            have progress := orderly.progress self
            rw [here] at progress
            exact progress

theorem orderly_start (consumer : Thread) :
    ({} : ThreadSafeQueue Thread C).Orderly consumer where
  excludes := excludes_start _
  progress _ := .nothing
  filled := nofun
  inOrder := rfl
  record _ := rfl
  unfailed := rfl

end Steps

def ThreadSafeQueue.AboutToAccess (q : ThreadSafeQueue Thread C) (self : Thread) : Prop :=
  ∃ access rest, q.rest self = .access access :: rest

/-- However threads interleave, no assertion fails, the queue is never accessed by
two of them and never empty where data is taken; what is taken and what is left
is all that has been put into it, in order, and this is what each thread has
called for, but for a call that goes on.  The threads do not block each other for
good. -/
theorem queue_delivers {consumer : Thread} {actions : List (QueueAction Thread C)}
    {q : ThreadSafeQueue Thread C}
    (reached : Transition.attempt (ThreadSafeQueue.step consumer) {} actions = some q) :
    q.failed = false ∧
      (∀ first second, q.AboutToAccess first → q.AboutToAccess second → first = second) ∧
        q.got ++ q.myQueue = q.put.map Prod.snd ∧
          (∀ self, own self q.called = own self q.put ++ pending (q.rest self)) ∧
            ((∀ self, q.rest self = []) ∨ ∃ self, (q.step consumer (.run self)).isSome) := by
  have orderly : q.Orderly consumer :=
    Transition.invariant_of_attempt (fun _ _ _ orderly taken => orderly_step orderly taken) reached
      (orderly_start consumer)
  refine ⟨orderly.unfailed, ?_, orderly.inOrder, orderly.record, ?_⟩
  · rintro first second ⟨_, _, one⟩ ⟨_, _, two⟩
    have holds := holder_of_access orderly.excludes one
    have also := holder_of_access orderly.excludes two
    exact Option.some.inj (holds.symm.trans also)
  · by_cases busy : ∃ self, q.rest self ≠ []
    · obtain ⟨self, some⟩ := busy
      obtain ⟨runner, statement, rest, here, executes⟩ := executes_of_excludes orderly.excludes some
      right
      refine ⟨runner, ?_⟩
      simp only [ThreadSafeQueue.step, here, Option.isSome_map]
      exact executes
    · left
      intro self
      by_contra some
      exact busy ⟨self, some⟩

def passing : List (QueueAction Bool Nat) :=
  [.call false (.putData 7), .call true .isDataAvailable] ++ List.replicate 10 (.run false) ++
    List.replicate 10 (.run true) ++ [.call true .getData, .call false (.putData 8)] ++
      List.replicate 12 (.run true) ++ List.replicate 5 (.run false)

theorem queue_delivers_passing :
    ∃ q : ThreadSafeQueue Bool Nat,
      Transition.attempt (ThreadSafeQueue.step true) {} passing = some q ∧
        q.got = [7] ∧ q.myQueue = [8] ∧ q.got ++ q.myQueue = q.put.map Prod.snd := by
  have ends : (Transition.attempt (ThreadSafeQueue.step true) {} passing).map
      (fun q => (q.got, q.myQueue)) = some ([7], [8]) := by decide
  obtain ⟨q, reached, values⟩ := Option.map_eq_some_iff.mp ends
  obtain ⟨got, queue⟩ := Prod.mk.inj values
  exact ⟨q, reached, got, queue, (queue_delivers reached).2.2.1⟩

end Avarice.Threads

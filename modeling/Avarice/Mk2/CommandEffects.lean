import Avarice.Library.Repetition
import Avarice.Mk2.Protocol

/-!
# What commands do

The protocol with an ICE that executes the commands it receives.  A command that
is sent again after a timeout may be executed more than once, and late: during
the call behind its own.
-/

namespace Avarice.Mk2

open Repetition

/-- The protocol, the ICE, the commands of all calls and the responses of those
that have returned. -/
structure Plant (Ice : Type) where
  system : System
  ice : Ice
  calls : List (List UInt8)
  responses : List (List UInt8)
  deriving DecidableEq, Repr

section Program

variable {Ice : Type} (execute : Ice → List UInt8 → List UInt8 × Ice)

def Plant.start (ice : Ice) : Plant Ice := ⟨.start, ice, [], []⟩

/-- The ICE answers by the response to the command that it executes. -/
def Plant.step (p : Plant Ice) (action : Action) : Option (Plant Ice) :=
  match action with
  | .call command _ =>
      (p.system.step action).map fun system => { p with system, calls := p.calls ++ [command] }
  | .answer payload =>
      match p.system.toIce with
      | [] => none
      | c :: _ =>
          let (response, ice) := execute p.ice c.frame.payload
          if payload = response then (p.system.step action).map fun system => { p with system, ice }
          else none
  | .arrive _ =>
      (p.system.step action).map fun system =>
        { p with
          system
          responses :=
            if p.system.finished < system.finished then
              p.responses ++ (p.system.toHost.head?.map fun a => a.frame.payload).toList
            else p.responses }
  | _ => (p.system.step action).map fun system => { p with system }

end Program

/-! ## One command after another -/

section Invariant

variable {Ice Held : Type} (execute : Ice → List UInt8 → List UInt8 × Ice) (held : Ice → Held)
  (effect : List UInt8 → Held → Held) (start : Held)

/-- A response to a command has been given by an ICE on which the commands before
it have been carried out, and it itself perhaps. -/
def AnsweredInOrder (calls : List (List UInt8)) (n : Nat) (response : List UInt8) : Prop :=
  ∃ command ice, calls[n]? = some command ∧ response = (execute ice command).1 ∧
    (held ice = behind effect start (calls.take n) ∨
      held ice = behind effect start (calls.take (n + 1)))

/-- The invariant: all commands in flight and all answers belong to calls, and
the last command has been carried out or has not, but not without those before
it.  Once it has been, only repetitions of it are on their way. -/
structure Plant.Sequential (p : Plant Ice) : Prop where
  matched : p.system.Matched
  idle : p.system.host.activity = .idle → p.calls.length = p.system.finished
  active : ∀ command retryOnTimeout tries,
    p.system.host.activity = .receiving command retryOnTimeout tries →
      p.calls.length = p.system.finished + 1 ∧ p.calls[p.system.finished]? = some command
  commands : ∀ c ∈ p.system.toIce, p.calls[c.number]? = some c.frame.payload
  carriedOut : held p.ice = behind effect start (p.calls.take p.system.finished) ∨
    held p.ice = behind effect start (p.calls.take (p.system.finished + 1)) ∧
      ∀ c ∈ p.system.toIce, c.number = p.system.finished
  answers : ∀ a ∈ p.system.toHost, ∀ n, a.answers = some n →
    AnsweredInOrder execute held effect start p.calls n a.frame.payload
  answered : ∀ a ∈ p.system.toHost, a.answers = some p.system.finished →
    held p.ice = behind effect start (p.calls.take (p.system.finished + 1))
  returned : p.responses.length = p.system.finished
  responses : ∀ n response, p.responses[n]? = some response →
    AnsweredInOrder execute held effect start p.calls n response

end Invariant

section Steps

variable {Ice Held : Type} {execute : Ice → List UInt8 → List UInt8 × Ice} {held : Ice → Held}
  {effect : List UInt8 → Held → Held} {start : Held}

theorem AnsweredInOrder.call {calls : List (List UInt8)} {n : Nat} {response : List UInt8}
    (answered : AnsweredInOrder execute held effect start calls n response)
    (command : List UInt8) :
    AnsweredInOrder execute held effect start (calls ++ [command]) n response := by
  obtain ⟨answeredCommand, ice, found, given, before⟩ := answered
  have inside : n < calls.length := (List.getElem?_eq_some_iff.mp found).1
  refine ⟨answeredCommand, ice, ?_, given, ?_⟩
  · rw [List.getElem?_append_left inside, found]
  · rwa [List.take_append_of_le_length (Nat.le_of_lt inside),
      List.take_append_of_le_length inside]

namespace Plant.Sequential

variable {p : Plant Ice} (sequential : p.Sequential execute held effect start)
include sequential

theorem lose {toIce : List CommandInFlight} {toHost : List AnswerInFlight}
    (commandsLost : toIce.Sublist p.system.toIce) (answersLost : toHost.Sublist p.system.toHost) :
    Plant.Sequential execute held effect start
      { p with system := { p.system with toIce, toHost } } where
  matched := sequential.matched.lose commandsLost answersLost
  idle := sequential.idle
  active := sequential.active
  commands c member := sequential.commands c (commandsLost.subset member)
  carriedOut := sequential.carriedOut.imp_right fun later =>
    ⟨later.1, fun c member => later.2 c (commandsLost.subset member)⟩
  answers a member := sequential.answers a (answersLost.subset member)
  answered a member := sequential.answered a (answersLost.subset member)
  returned := sequential.returned
  responses := sequential.responses

theorem resend {command : List UInt8} {retryOnTimeout : Bool} {tries : Nat}
    (receiving : p.system.host.activity = .receiving command retryOnTimeout tries)
    (later : Nat) :
    Plant.Sequential execute held effect start { p with
      system := { p.system with
        host := { p.system.host with activity := .receiving command retryOnTimeout later }
        toIce := p.system.toIce ++
          [⟨⟨p.system.host.commandSequence, command⟩, p.system.finished⟩] } } where
  matched := sequential.matched.send nofun
  idle := nofun
  active := by
    rintro _ _ _ ⟨⟩
    exact sequential.active _ _ _ receiving
  commands c member := by
    rcases List.mem_append.mp member with earlier | last
    · exact sequential.commands c earlier
    · rw [List.mem_singleton.mp last]
      exact (sequential.active _ _ _ receiving).2
  carriedOut := sequential.carriedOut.imp_right fun later => ⟨later.1, fun c member => by
    rcases List.mem_append.mp member with earlier | last
    · exact later.2 c earlier
    · rw [List.mem_singleton.mp last]⟩
  answers := sequential.answers
  answered := sequential.answered
  returned := sequential.returned
  responses := sequential.responses

theorem event (payload : List UInt8) :
    Plant.Sequential execute held effect start { p with
      system := { p.system with
        toHost := p.system.toHost ++ [⟨⟨eventSeqno, payload⟩, none⟩] } } where
  matched := sequential.matched.event payload
  idle := sequential.idle
  active := sequential.active
  commands := sequential.commands
  carriedOut := sequential.carriedOut
  answers a member n number := by
    rcases List.mem_append.mp member with earlier | last
    · exact sequential.answers a earlier n number
    · rw [List.mem_singleton.mp last] at number
      cases number
  answered a member number := by
    rcases List.mem_append.mp member with earlier | last
    · exact sequential.answered a earlier number
    · rw [List.mem_singleton.mp last] at number
      cases number
  returned := sequential.returned
  responses := sequential.responses

theorem none_of_idle (idle : p.system.host.activity = .idle) {a : AnswerInFlight}
    (member : a ∈ p.system.toHost) : a.answers ≠ some p.system.finished := by
  intro number
  have flying : p.system.finished ∈ p.system.inFlight :=
    List.mem_append_left _ (List.mem_filterMap.mpr ⟨a, member, number⟩)
  exact absurd (sequential.matched.settled idle _ flying) (Nat.succ_ne_self _)

theorem call (idle : p.system.host.activity = .idle) (command : List UInt8)
    (retryOnTimeout : Bool) :
    Plant.Sequential execute held effect start { p with
      system := { p.system with
        host := { p.system.host with activity := .receiving command retryOnTimeout 1 }
        toIce := p.system.toIce ++
          [⟨⟨p.system.host.commandSequence, command⟩, p.system.finished⟩] }
      calls := p.calls ++ [command] } := by
  have length := sequential.idle idle
  have whole : (p.calls ++ [command]).take p.system.finished = p.calls := by
    rw [← length, List.take_left]
  exact
    { matched := sequential.matched.send nofun
      idle := nofun
      active := by
        rintro _ _ _ ⟨⟩
        simp [← length]
      commands := by
        intro c member
        rcases List.mem_append.mp member with earlier | last
        · have found := sequential.commands c earlier
          rw [List.getElem?_append_left (List.getElem?_eq_some_iff.mp found).1, found]
        · rw [List.mem_singleton.mp last]
          simp [← length]
      carriedOut := by
        left
        show held p.ice = behind effect start ((p.calls ++ [command]).take p.system.finished)
        rw [whole]
        rcases sequential.carriedOut with before | ⟨before, _⟩
        · rwa [List.take_of_length_le (Nat.le_of_eq length)] at before
        · rwa [List.take_of_length_le (by omega)] at before
      answers := fun a member n number => (sequential.answers a member n number).call command
      answered := fun a member number => absurd number (sequential.none_of_idle idle member)
      returned := sequential.returned
      responses := fun n response found => (sequential.responses n response found).call command }

theorem later_of_oldest {c : CommandInFlight} {toIce : List CommandInFlight}
    (oldest : p.system.toIce = c :: toIce) {other : CommandInFlight} (member : other ∈ toIce) :
    c.number ≤ other.number := by
  have ordered := sequential.matched.pending.ordered
  rw [System.inFlight, oldest, List.map_cons, List.pairwise_append] at ordered
  exact List.rel_of_pairwise_cons ordered.2.1 (List.mem_map_of_mem member)

theorem near_of_mem {c : CommandInFlight} (member : c ∈ p.system.toIce) :
    c.number = p.system.finished ∨ c.number + 1 = p.system.finished :=
  sequential.matched.pending.near c.number
    (List.mem_append_right _ (List.mem_map_of_mem member))

theorem accept {a : AnswerInFlight} {toHost : List AnswerInFlight}
    (oldest : p.system.toHost = a :: toHost)
    (matching : a.frame.seqno = p.system.host.commandSequence)
    (calling : p.system.host.activity ≠ .idle) :
    Plant.Sequential execute held effect start { p with
      system := { p.system with
        host := ⟨nextSequence p.system.host.commandSequence, .idle⟩
        toHost
        finished := p.system.finished + 1
        accepted := p.system.accepted ++ [(p.system.finished, a.answers)] }
      responses := p.responses ++ [a.frame.payload] } := by
  have member : a ∈ p.system.toHost := oldest ▸ List.mem_cons_self
  have number := sequential.matched.answers_of_seqno oldest matching
  have carriedOut := sequential.answered a member number
  have length : p.calls.length = p.system.finished + 1 := by
    cases activity : p.system.host.activity with
    | idle => exact absurd activity calling
    | receiving command retryOnTimeout tries =>
        exact (sequential.active command retryOnTimeout tries activity).1
  have matched := sequential.matched.accept oldest matching
  exact
    { matched
      idle := fun _ => length
      active := nofun
      commands := sequential.commands
      carriedOut := .inl carriedOut
      answers := fun other later => sequential.answers other
        (oldest ▸ List.mem_cons_of_mem a later)
      answered := by
        intro other later next
        have flying : p.system.finished + 1 ∈ System.inFlight { p.system with
            host := ⟨nextSequence p.system.host.commandSequence, .idle⟩
            toHost
            finished := p.system.finished + 1
            accepted := p.system.accepted ++ [(p.system.finished, a.answers)] } :=
          List.mem_append_left _ (List.mem_filterMap.mpr ⟨other, later, next⟩)
        exact absurd (matched.settled rfl _ flying) (Nat.succ_ne_self _)
      returned := by simp [sequential.returned]
      responses := by
        intro n response found
        rcases Nat.lt_or_ge n p.responses.length with before | behind
        · rw [List.getElem?_append_left before] at found
          exact sequential.responses n response found
        · rw [List.getElem?_append_right behind, List.getElem?_singleton] at found
          split at found
          next last =>
            cases found
            have same : n = p.system.finished := by
              have := sequential.returned
              omega
            exact same ▸ sequential.answers a member p.system.finished number
          next => cases found }

section Execution

variable {Allowed : List UInt8 → Prop}
  (repeatable : AllRepeatable execute held effect Allowed) (allowed : ∀ c ∈ p.calls, Allowed c)
include repeatable allowed

theorem execute_oldest {c : CommandInFlight} {toIce : List CommandInFlight}
    (oldest : p.system.toIce = c :: toIce) :
    let after := execute p.ice c.frame.payload
    (c.number = p.system.finished ∧
        held after.2 = behind effect start (p.calls.take (p.system.finished + 1)) ∧
        (∀ other ∈ toIce, other.number = p.system.finished) ∨
      c.number + 1 = p.system.finished ∧ held after.2 = held p.ice ∧
        held p.ice = behind effect start (p.calls.take p.system.finished)) := by
  have member : c ∈ p.system.toIce := oldest ▸ List.mem_cons_self
  have found := sequential.commands c member
  have fine : Allowed c.frame.payload :=
    allowed _ (List.mem_of_getElem? found)
  have once := repeatable.once p.ice c.frame.payload fine
  have next := behind_take_succ effect start found
  have again := repeatable.again c.frame.payload (behind effect start (p.calls.take c.number)) fine
  rcases sequential.near_of_mem member with current | before
  · left
    refine ⟨current, ?_, ?_⟩
    · rw [current] at next again
      rcases sequential.carriedOut with not | ⟨already, _⟩
      · rw [once, not, next]
      · rw [once, already, next, again]
    · intro other later
      have notBefore := sequential.later_of_oldest oldest later
      rcases sequential.near_of_mem (oldest ▸ List.mem_cons_of_mem c later) with same | earlier
      · exact same
      · omega
  · right
    rw [before] at next
    rcases sequential.carriedOut with not | ⟨_, only⟩
    · refine ⟨before, ?_, not⟩
      rw [once, not, next, again]
    · have current := only c member
      omega

theorem answer {c : CommandInFlight} {toIce : List CommandInFlight}
    (oldest : p.system.toIce = c :: toIce) :
    let after := execute p.ice c.frame.payload
    Plant.Sequential execute held effect start { p with
      system := { p.system with
        toIce
        toHost := p.system.toHost ++ [⟨⟨c.frame.seqno, after.1⟩, some c.number⟩] }
      ice := after.2 } := by
  intro after
  have member : c ∈ p.system.toIce := oldest ▸ List.mem_cons_self
  have found := sequential.commands c member
  have executed := sequential.execute_oldest repeatable allowed oldest
  have fewer : ∀ other ∈ toIce, other ∈ p.system.toIce :=
    fun other later => oldest ▸ List.mem_cons_of_mem c later
  have given : AnsweredInOrder execute held effect start p.calls c.number after.1 := by
    refine ⟨c.frame.payload, p.ice, found, rfl, ?_⟩
    rcases executed with ⟨current, _, _⟩ | ⟨before, _, already⟩
    · rw [current]
      exact sequential.carriedOut.imp_right And.left
    · right
      rw [before, already]
  exact
    { matched := sequential.matched.answer oldest after.1
      idle := sequential.idle
      active := sequential.active
      commands := fun other later => sequential.commands other (fewer other later)
      carriedOut := by
        rcases executed with ⟨_, carriedOut, only⟩ | ⟨_, same, already⟩
        · exact .inr ⟨carriedOut, only⟩
        · exact .inl (same.trans already)
      answers := by
        intro a here n number
        rcases List.mem_append.mp here with earlier | last
        · exact sequential.answers a earlier n number
        · rw [List.mem_singleton.mp last] at number ⊢
          cases number
          exact given
      answered := by
        intro a here number
        rcases executed with ⟨_, carriedOut, _⟩ | ⟨before, same, _⟩
        · exact carriedOut
        · rcases List.mem_append.mp here with earlier | last
          · exact same.trans (sequential.answered a earlier number)
          · rw [List.mem_singleton.mp last] at number
            have current : c.number = p.system.finished := Option.some.inj number
            exact absurd (current ▸ before) (Nat.succ_ne_self _)
      returned := sequential.returned
      responses := sequential.responses }

end Execution

end Plant.Sequential

end Steps

theorem receive_active {h : Host} {r : Reception} {outcome : Outcome}
    (handled : h.receive r = outcome) (going : outcome ≠ .abandoned) :
    ∃ command retryOnTimeout tries, h.activity = .receiving command retryOnTimeout tries ∧
      (outcome = .receiving ∨
        outcome = .resent { h with activity := .receiving command retryOnTimeout (tries + 1) }
          ⟨h.commandSequence, command⟩ ∨
        ∃ f, r = .frame f ∧ f.seqno = h.commandSequence ∧
          outcome = .returned ⟨nextSequence h.commandSequence, .idle⟩ f.payload
            (isPositive f.payload)) := by
  unfold Host.receive at handled
  cases activity : h.activity with
  | idle =>
      rw [activity] at handled
      exact absurd handled.symm going
  | receiving command retryOnTimeout tries =>
      refine ⟨command, retryOnTimeout, tries, rfl, ?_⟩
      rw [activity] at handled
      cases r with
      | nothing =>
          simp only [recvRound] at handled
          split at handled
          · exact .inr (.inl handled.symm)
          · exact absurd handled.symm going
      | frame f =>
          by_cases matching : f.seqno = h.commandSequence
          · simp only [recvRound, if_pos matching] at handled
            exact .inr (.inr ⟨f, rfl, matching, handled.symm⟩)
          · simp only [recvRound, if_neg matching] at handled
            exact .inl handled.symm

theorem receive_step {s s' : System} {r : Reception} {answers : Option Nat}
    {toHost : List AnswerInFlight} (taken : s.receive r answers toHost = some s') :
    ∃ command retryOnTimeout tries, s.host.activity = .receiving command retryOnTimeout tries ∧
      (s' = { s with toHost } ∨
        s' = { s with
          host := { s.host with activity := .receiving command retryOnTimeout (tries + 1) }
          toHost
          toIce := s.toIce ++ [⟨⟨s.host.commandSequence, command⟩, s.finished⟩] } ∨
        ∃ f, r = .frame f ∧ f.seqno = s.host.commandSequence ∧
          s' = { s with
            host := ⟨nextSequence s.host.commandSequence, .idle⟩
            toHost
            finished := s.finished + 1
            accepted := s.accepted ++ [(s.finished, answers)] }) := by
  unfold System.receive at taken
  cases handled : s.host.receive r with
  | abandoned =>
      rw [handled] at taken
      cases taken
  | receiving =>
      obtain ⟨command, retryOnTimeout, tries, activity, _⟩ := receive_active handled nofun
      rw [handled] at taken
      exact ⟨command, retryOnTimeout, tries, activity, .inl (Option.some.inj taken).symm⟩
  | resent host f =>
      obtain ⟨command, retryOnTimeout, tries, activity, outcome⟩ := receive_active handled nofun
      rw [handled] at taken
      refine ⟨command, retryOnTimeout, tries, activity, .inr (.inl ?_)⟩
      rcases outcome with other | again | ⟨_, _, _, other⟩
      · cases other
      · cases again
        exact (Option.some.inj taken).symm
      · cases other
  | returned host response result =>
      obtain ⟨command, retryOnTimeout, tries, activity, outcome⟩ := receive_active handled nofun
      rw [handled] at taken
      refine ⟨command, retryOnTimeout, tries, activity, .inr (.inr ?_)⟩
      rcases outcome with other | other | ⟨f, received, matching, reply⟩
      · cases other
      · cases other
      · cases reply
        exact ⟨f, received, matching, (Option.some.inj taken).symm⟩

section Steps

variable {Ice Held : Type} {execute : Ice → List UInt8 → List UInt8 × Ice} {held : Ice → Held}
  {effect : List UInt8 → Held → Held} {start : Held} {Allowed : List UInt8 → Prop}

theorem calls_step {p p' : Plant Ice} {action : Action} (taken : p.step execute action = some p') :
    p.calls <+: p'.calls := by
  cases action with
  | call command retryOnTimeout =>
      obtain ⟨_, _, rfl⟩ := Option.map_eq_some_iff.mp taken
      exact List.prefix_append _ _
  | answer payload =>
      simp only [Plant.step] at taken
      split at taken
      · cases taken
      · split at taken
        · obtain ⟨_, _, rfl⟩ := Option.map_eq_some_iff.mp taken
          exact List.prefix_refl _
        · cases taken
  | loseCommand _ | loseAnswer _ =>
      cases taken
      exact List.prefix_refl _
  | timeout | arrive _ | event _ =>
      obtain ⟨_, _, rfl⟩ := Option.map_eq_some_iff.mp taken
      exact List.prefix_refl _

theorem sequential_step (repeatable : AllRepeatable execute held effect Allowed)
    {p p' : Plant Ice} {action : Action} (sequential : p.Sequential execute held effect start)
    (allowed : ∀ c ∈ p.calls, Allowed c) (taken : p.step execute action = some p') :
    p'.Sequential execute held effect start := by
  cases action with
  | call command retryOnTimeout =>
      obtain ⟨system, called, rfl⟩ := Option.map_eq_some_iff.mp taken
      simp only [System.step] at called
      split at called
      next idle =>
        cases called
        exact sequential.call idle command retryOnTimeout
      next => cases called
  | timeout =>
      obtain ⟨system, received, rfl⟩ := Option.map_eq_some_iff.mp taken
      obtain ⟨command, retryOnTimeout, tries, activity, outcome⟩ := receive_step received
      rcases outcome with rfl | rfl | ⟨f, received, _⟩
      · exact sequential
      · exact sequential.resend activity (tries + 1)
      · cases received
  | arrive intact =>
      obtain ⟨system, arrived, rfl⟩ := Option.map_eq_some_iff.mp taken
      simp only [System.step] at arrived
      split at arrived
      · cases arrived
      next a toHost oldest =>
        have fewer : toHost.Sublist p.system.toHost := oldest ▸ List.sublist_cons_self a toHost
        have rest := sequential.lose (List.Sublist.refl _) fewer
        obtain ⟨command, retryOnTimeout, tries, activity, outcome⟩ := receive_step arrived
        rcases outcome with rfl | rfl | ⟨f, received, matching, rfl⟩
        · simpa using rest
        · simpa using rest.resend activity (tries + 1)
        · have frame : a.frame = f := by
            split at received
            · exact Reception.frame.inj received
            · cases received
          have calling : p.system.host.activity ≠ .idle := by
            rw [activity]
            exact Activity.noConfusion
          simpa [oldest] using sequential.accept oldest (frame ▸ matching) calling
  | loseCommand i =>
      cases taken
      exact sequential.lose (List.eraseIdx_sublist _ i) (List.Sublist.refl _)
  | loseAnswer i =>
      cases taken
      exact sequential.lose (List.Sublist.refl _) (List.eraseIdx_sublist _ i)
  | answer payload =>
      simp only [Plant.step] at taken
      split at taken
      · cases taken
      next c toIce oldest =>
        split at taken
        next same =>
          obtain ⟨system, answered, rfl⟩ := Option.map_eq_some_iff.mp taken
          simp only [System.step, oldest] at answered
          split at answered
          · cases answered
            rw [same]
            exact sequential.answer repeatable allowed oldest
          · cases answered
        next => cases taken
  | event payload =>
      obtain ⟨system, emitted, rfl⟩ := Option.map_eq_some_iff.mp taken
      simp only [System.step] at emitted
      split at emitted
      · cases emitted
        exact sequential.event payload
      · cases emitted

theorem sequential_start (ice : Ice) :
    (Plant.start ice).Sequential execute held effect (held ice) where
  matched := matched_start
  idle _ := rfl
  active := nofun
  commands := nofun
  carriedOut := .inl rfl
  answers := nofun
  answered := nofun
  returned := rfl
  responses := nofun

end Steps

/-! ## One byte of memory -/

def writeByte (value : UInt8) : List UInt8 := [0x04, 0x20, 1, 0, 0, 0, 0x60, 0, 0, 0, value]

def readByte : List UInt8 := [0x05, 0x20, 1, 0, 0, 0, 0x60, 0, 0, 0]

/-- An ICE with one byte of memory that refuses other commands. -/
def executeByte (byte : UInt8) (command : List UInt8) : List UInt8 × UInt8 :=
  match command.drop 10 with
  | [value] => if command = writeByte value then ([0x80], value) else ([0xa0], byte)
  | _ => if command = readByte then ([0x82, byte], byte) else ([0xa0], byte)

theorem executeByte_sets (command : List UInt8) :
    (∃ value, ∀ byte, (executeByte byte command).2 = value) ∨
      ∀ byte, (executeByte byte command).2 = byte := by
  unfold executeByte
  split
  next value _ =>
    split
    · exact .inl ⟨value, fun _ => rfl⟩
    · exact .inr fun _ => rfl
  · split <;> exact .inr fun _ => rfl

theorem executeByte_repeatable :
    AllRepeatable executeByte id (fun command byte => (executeByte byte command).2)
      (fun _ => True) where
  once _ _ _ := rfl
  again command byte _ := by
    rcases executeByte_sets command with ⟨value, sets⟩ | leaves
    · rw [sets, sets]
    · rw [leaves, leaves]

end Avarice.Mk2

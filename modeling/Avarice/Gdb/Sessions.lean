import Avarice.Gdb.StoredReplies
import Avarice.Library.Serving

/-!
# Packets as requests

Where each packet stands for a request to a server, and its reply for the answer,
so does a session of packets, character by character.
-/

namespace Avarice.Gdb.Sessions

open Throwing Serving
open Handler (Env GdbRemote Replies Target handler sentFor talkToGdb)
open Connection (Turn)

variable {State Held Request Answer : Type}

/-- What a packet stands for, and the reply to it. -/
structure Meaning (Request Answer : Type) where
  Asks : (packet : List Char) → Request → Prop
  reply : Request → Answer → Replies

def Meaning.AsksAll (meaning : Meaning Request Answer) (turns : List Turn)
    (requests : List Request) : Prop :=
  List.Forall₂ (fun turn request => meaning.Asks (ofBytes turn.text) request) turns requests

def Meaning.replies (meaning : Meaning Request Answer) (requests : List Request)
    (answers : List Answer) : List Replies :=
  List.zipWith meaning.reply requests answers

structure Awaits (Ready : State → Prop) (s : GdbRemote State) : Prop where
  alone : s.remote.lastOrphanPending = false
  ready : Ready s.target

variable (env : Env) (target : Target State) (held : State → Held)
  (serves : Held → Request → Answer → Held → Prop) (meaning : Meaning Request Answer) in
/-- The handler does for a packet what the server may do for the request. -/
def Realizes (Ready : State → Prop) (Valid : Request → Prop) : Prop :=
  ∀ (s : GdbRemote State) (packet : List Char) (request : Request),
    Awaits Ready s → meaning.Asks packet request → Valid request →
      Called.Ends
        (fun replies after => Awaits Ready after ∧
          ∃ answer, replies = meaning.reply request answer ∧
            serves (held s.target) request answer (held after.target))
        (fun after => held after.target = held s.target ∨
          ∃ answer, serves (held s.target) request answer (held after.target))
        (talkToGdb env target s packet)

section Runs

variable {env : Env} {target : Target State} {held : State → Held}
  {serves : Held → Request → Answer → Held → Prop} {meaning : Meaning Request Answer}
  {Ready : State → Prop} {Valid : Request → Prop}
  (realizes : Realizes env target held serves meaning Ready Valid)
include realizes

theorem Realizes.play {turns : List Turn} {requests : List Request}
    (asks : meaning.AsksAll turns requests) (valid : ∀ request ∈ requests, Valid request)
    (stack : Nat → Nat → Nat → UInt8) {s : GdbRemote State} (awaits : Awaits Ready s) :
    ∃ answers last,
      (Connection.play (handler env target) stack s turns).1 =
        sentFor stack turns (meaning.replies requests answers) ∧
      Explained serves (held s.target) requests answers last ∧
      ∀ after, (Connection.play (handler env target) stack s turns).2 = some after →
        answers.length = requests.length ∧ held after.target = last := by
  induction asks generalizing stack s with
  | nil => exact ⟨[], _, rfl, .ended _, fun _ same => Option.some.inj same ▸ ⟨rfl, rfl⟩⟩
  | @cons turn request turns requests asks later inductionHypothesis =>
      have ends := realizes s _ request awaits asks (valid request List.mem_cons_self)
      let call := talkToGdb env target s (ofBytes turn.text)
      cases outcome : call.value with
      | none =>
          have threw : (handler env target s turn.text).value = none := by
            rw [handler, Called.andThen_of_threw outcome]
          refine ⟨[], held call.state.target, ?_, .cut requests (ends.threw outcome), ?_⟩
          · simp only [Connection.play, threw]
            rfl
          · simp [Connection.play, threw]
      | some given =>
          have returned : handler env target s turn.text =
              ⟨some (given.packets.map toBytes), call.state⟩ := by
            rw [handler, Called.andThen_of_returned outcome]
          obtain ⟨stillAwaits, answer, rfl, served⟩ := ends.returned given outcome
          obtain ⟨answers, last, sent, explained, left⟩ := inductionHypothesis
            (fun other member => valid other (List.mem_cons_of_mem _ member))
            (fun k => stack (k + 1)) stillAwaits
          refine ⟨answer :: answers, last, ?_, .served served explained, ?_⟩
          · simp only [Connection.play, returned]
            exact congrArg
              (fun later => turn.received (stack 0) ++ (copies turn.refused _ ++ later)) sent
          · intro after goesOn
            simp only [Connection.play, returned] at goesOn
            obtain ⟨length, same⟩ := left after goesOn
            exact ⟨congrArg Nat.succ length, same⟩

theorem Realizes.serve {turns : List Turn} (whole : ∀ turn ∈ turns, turn.Valid)
    {requests : List Request} (asks : meaning.AsksAll turns requests)
    (valid : ∀ request ∈ requests, Valid request) (stack : Nat → Nat → Nat → UInt8)
    {buffer : CArray UInt8 bufMax} (clear : buffer.peek 2 ≠ colon) {s : GdbRemote State}
    (awaits : Awaits Ready s) (rest : List UInt8) :
    let (sent, server) := Connection.serve (handler env target) stack turns.length
      ⟨buffer, s, Connection.stream (handler env target) s turns rest⟩
    ∃ answers last, sent = sentFor stack turns (meaning.replies requests answers) ∧
      Explained serves (held s.target) requests answers last ∧
      ∀ after, server = some after → answers.length = requests.length ∧
        held after.state.target = last ∧ after.input = rest := by
  obtain ⟨sent, left⟩ :=
    @Connection.serve_stream _ (handler env target) _ whole stack _ clear s rest
  obtain ⟨answers, last, played, explained, goesOn⟩ := realizes.play asks valid stack awaits
  refine ⟨answers, last, sent.trans played, explained, ?_⟩
  intro after returned
  rw [returned, Option.map_some, eq_comm, Option.map_eq_some_iff] at left
  obtain ⟨state, ended, same⟩ := left
  obtain ⟨length, heldSame⟩ := goesOn state ended
  cases same
  exact ⟨length, heldSame, rfl⟩

end Runs

/-! ## Two kinds of packets -/

section Both

variable {Request' Answer' Held' : Type}

/-- The packets of two meanings.  Requests are answered by answers of their kind. -/
def Meaning.both (first : Meaning Request Answer) (second : Meaning Request' Answer') :
    Meaning (Request ⊕ Request') (Answer ⊕ Answer') where
  Asks packet := Sum.elim (first.Asks packet) (second.Asks packet)
  reply
    | .inl request, .inl answer => first.reply request answer
    | .inr request, .inr answer => second.reply request answer
    | _, _ => { reply := none }

variable {env : Env} {target : Target State} {held : State → Held × Held'}
  {first : Held → Request → Answer → Held → Prop}
  {second : Held' → Request' → Answer' → Held' → Prop}
  {meaning : Meaning Request Answer} {meaning' : Meaning Request' Answer'}
  {Ready : State → Prop} {Valid : Request → Prop} {Valid' : Request' → Prop}

theorem Realizes.both
    (left : Realizes env target held (fun before request answer after =>
      Both first second before (.inl request) (.inl answer) after) meaning Ready Valid)
    (right : Realizes env target held (fun before request answer after =>
      Both first second before (.inr request) (.inr answer) after) meaning' Ready Valid') :
    Realizes env target held (Both first second) (meaning.both meaning') Ready
      (Sum.elim Valid Valid') := by
  intro s packet request awaits asks valid
  cases request with
  | inl request =>
      refine (left s packet request awaits asks valid).imp ?_ ?_
      · rintro replies after ⟨stillAwaits, answer, same, served⟩
        exact ⟨stillAwaits, .inl answer, same, served⟩
      · exact fun after => Or.imp_right fun ⟨answer, served⟩ => ⟨.inl answer, served⟩
  | inr request =>
      refine (right s packet request awaits asks valid).imp ?_ ?_
      · rintro replies after ⟨stillAwaits, answer, same, served⟩
        exact ⟨stillAwaits, .inr answer, same, served⟩
      · exact fun after => Or.imp_right fun ⟨answer, served⟩ => ⟨.inr answer, served⟩

end Both

end Avarice.Gdb.Sessions

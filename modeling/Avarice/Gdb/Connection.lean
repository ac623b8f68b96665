import Avarice.Gdb.PacketGrammar
import Avarice.Library.Throwing

/-!
# The connection with GDB

The loop over `talkToGdb`, character by character: a packet is read, handled and
answered by packets, each of which is sent until it is acknowledged.  A packet may
first arrive with a wrong checksum, any number of times, and GDB may refuse what it
gets.
-/

namespace Avarice.Gdb.Connection

open Throwing

/-- The handler of packets.  It puts packets, or throws and so ends the program. -/
abbrev Handler (State : Type) := State → (text : List UInt8) → Called State (List (List UInt8))

structure Server (State : Type) where
  buffer : CArray UInt8 bufMax
  state : State
  input : List UInt8

def await (stack : Nat → Nat → UInt8) (buffer : CArray UInt8 bufMax) (input : List UInt8) :
    Option (List UInt8 × Accepted) :=
  (skipPast dollar input).bind (scanPacket stack buffer)

theorem getpacket_eq_await (stack : Nat → Nat → UInt8) (buffer : CArray UInt8 bufMax)
    (input : List UInt8) :
    getpacket stack buffer input =
      (await stack buffer input).map fun (sent, packet) => packet.reply sent := by
  rw [getpacket, await, Option.map_bind]
  rfl

section Program

variable {State : Type} (handle : Handler State)

/-- One packet, with what is sent.  There is no server any more where the input
has ended or the handler has thrown.  What has been sent before the input ends within
a packet, and what the handler has put before it throws, is left out. -/
def talkToGdb (stack : Nat → Nat → UInt8) (s : Server State) :
    List UInt8 × Option (Server State) :=
  match await stack s.buffer s.input with
  | none => ([], none)
  | some (sent, packet) =>
      let received := packet.reply sent
      let call := handle s.state received.text
      match call.value with
      | none => (received.sent, none)
      | some packets =>
          let (put, left) := putpackets packets received.rest
          (received.sent ++ put, left.map fun input => ⟨packet.buffer, call.state, input⟩)

/-- So many packets.  Each attempt to read one finds something else on the stack. -/
def serve : (stack : Nat → Nat → Nat → UInt8) → (rounds : Nat) → Server State →
    List UInt8 × Option (Server State)
  | _, 0, s => ([], some s)
  | stack, rounds + 1, s =>
      match talkToGdb handle (stack 0) s with
      | (sent, none) => (sent, none)
      | (sent, some s) =>
          let (later, last) := serve (fun k => stack (k + 1)) rounds s
          (sent ++ later, last)

end Program

/-! ## What GDB sends -/

/-- A packet whose checksum is wrong, with the acknowledgements of the three
packets that report this. -/
structure Damaged where
  noise : List UInt8
  text : List UInt8
  high : UInt8
  low : UInt8
  refused : Nat → List UInt8

/-- A packet that arrives, with the damaged ones in front of it and what is read
in place of the acknowledgements for its replies. -/
structure Turn where
  damaged : List Damaged
  noise : List UInt8
  text : List UInt8
  high : UInt8
  low : UInt8
  refused : Nat → List UInt8

def Damaged.bytes (damaged : Damaged) : List UInt8 :=
  damaged.noise ++ dollar :: (damaged.text ++ hash :: damaged.high :: damaged.low ::
    acknowledged damaged.refused [[], [], []])

def Turn.bytes (turn : Turn) : List UInt8 :=
  turn.damaged.flatMap Damaged.bytes ++
    (turn.noise ++ dollar :: (turn.text ++ hash :: turn.high :: turn.low :: []))

structure Damaged.Valid (damaged : Damaged) : Prop where
  noise : dollar ∉ damaged.noise
  text : Unnumbered damaged.text
  wrong : damaged.text.sum ≠ checkValue damaged.high damaged.low
  refused : ∀ k, plus ∉ damaged.refused k

structure Turn.Valid (turn : Turn) : Prop where
  damaged : ∀ damaged ∈ turn.damaged, damaged.Valid
  noise : dollar ∉ turn.noise
  plain : Plain turn.text
  right : turn.text.sum = checkValue turn.high turn.low
  refused : ∀ k, plus ∉ turn.refused k

def Turn.of (text : List UInt8) : Turn :=
  ⟨[], [], text, digit (text.sum >>> 4), digit (text.sum % 16), fun _ => []⟩

theorem Turn.of_bytes (text : List UInt8) : (Turn.of text).bytes = frame text := by
  simp [Turn.of, Turn.bytes, frame]

theorem Turn.of_valid {text : List UInt8} (plain : Plain text) : (Turn.of text).Valid where
  damaged := nofun
  noise := List.not_mem_nil
  plain := plain
  right := (checkValue_digit text.sum).symm
  refused _ := List.not_mem_nil

section Play

variable {State : Type} (handle : Handler State)

/-- What is read during some turns.  It depends on the handler, whose packets GDB
acknowledges. -/
def stream : State → List Turn → (rest : List UInt8) → List UInt8
  | _, [], rest => rest
  | s, turn :: turns, rest =>
      let call := handle s turn.text
      turn.bytes ++
        match call.value with
        | none => rest
        | some packets => acknowledged turn.refused packets ++ stream call.state turns rest

def Damaged.sent (damaged : Damaged) (stack : Nat → UInt8) : List UInt8 :=
  copies damaged.refused (reports stack damaged.text.sum (checkValue damaged.high damaged.low)
    (damaged.text.takeWhile (· ≠ 0))) ++ [minus]

def sentForDamaged : (stack : Nat → Nat → UInt8) → List Damaged → List UInt8
  | _, [] => []
  | stack, damaged :: later =>
      damaged.sent (stack 0) ++ sentForDamaged (fun k => stack (k + 1)) later

def Turn.received (turn : Turn) (stack : Nat → Nat → UInt8) : List UInt8 :=
  sentForDamaged stack turn.damaged ++ [plus]

/-- What is sent during some turns, packet by packet, and the state that the
handler ends in, unless it throws. -/
def play : (stack : Nat → Nat → Nat → UInt8) → State → List Turn → List UInt8 × Option State
  | _, s, [] => ([], some s)
  | stack, s, turn :: turns =>
      let call := handle s turn.text
      match call.value with
      | none => (turn.received (stack 0), none)
      | some packets =>
          let (later, last) := play (fun k => stack (k + 1)) call.state turns
          (turn.received (stack 0) ++ (copies turn.refused packets ++ later), last)

end Play

/-! ## Reading a packet -/

section Reading

variable {stack : Nat → Nat → UInt8} {buffer : CArray UInt8 bufMax}

theorem await_damaged {damaged : Damaged} (valid : damaged.Valid) (input : List UInt8) :
    await stack buffer (damaged.bytes ++ input) =
      (await (fun k => stack (k + 1)) (filled buffer damaged.text) input).map
        fun (sent, packet) => (damaged.sent (stack 0) ++ sent, packet) := by
  let behind := acknowledged damaged.refused [[], [], []] ++ input
  have split : damaged.bytes ++ input = damaged.noise ++ dollar :: (damaged.text ++
      hash :: damaged.high :: damaged.low :: behind) := by
    simp [Damaged.bytes, behind]
  have collected := collect_packet (r := ⟨buffer, 0, 0⟩) (by simpa using valid.text.short)
    valid.text.noStart valid.text.noHash (damaged.high :: damaged.low :: behind)
  have text := @cString_filled buffer _ valid.text.short 0 (Nat.zero_le _)
  have put : ∀ messages, putpackets (reports (stack 0) damaged.text.sum
      (checkValue damaged.high damaged.low) messages) behind =
        (copies damaged.refused (reports (stack 0) damaged.text.sum
          (checkValue damaged.high damaged.low) messages), some input) :=
    fun messages => putpackets_acknowledged valid.refused (reports _ _ _ messages) input
  have attempted : attempt (stack 0) buffer (damaged.text ++
      hash :: damaged.high :: damaged.low :: behind) =
      (skipPast dollar input).elim .blocked fun rest =>
        .again (filled buffer damaged.text) rest (damaged.sent (stack 0)) := by
    have terminated : (buffer.pokeAll 0 damaged.text).poke damaged.text.length 0 =
        filled buffer damaged.text := rfl
    rw [attempt, collected, foldl_store]
    simp only [Reading.terminate, Nat.zero_add, UInt8.zero_add, terminated, put]
    rw [text, if_neg valid.wrong]
    cases skipPast dollar input <;> rfl
  rw [split, await, skipPast_of_not_mem valid.noise, Option.bind_some, await]
  cases next : skipPast dollar input with
  | none =>
      rw [next] at attempted
      rw [scanPacket_blocked attempted]
      rfl
  | some rest =>
      rw [next] at attempted
      rw [scanPacket_again attempted]
      rfl

theorem filled_clear {text : List UInt8} (unnumbered : Unnumbered text)
    (clear : buffer.peek 2 ≠ colon) : (filled buffer text).peek 2 ≠ colon := by
  rw [filled_peek unnumbered.short]
  split
  · decide
  · have other := unnumbered.noColon
    cases third : text[2]? with
    | none => simpa using clear
    | some ch =>
        rw [third] at other
        simpa using other

theorem await_allDamaged {allDamaged : List Damaged}
    (valid : ∀ damaged ∈ allDamaged, damaged.Valid) (clear : buffer.peek 2 ≠ colon)
    (input : List UInt8) :
    ∃ (later : Nat → Nat → UInt8) (next : CArray UInt8 bufMax), next.peek 2 ≠ colon ∧
      await stack buffer (allDamaged.flatMap Damaged.bytes ++ input) =
        (await later next input).map
          fun (sent, packet) => (sentForDamaged stack allDamaged ++ sent, packet) := by
  induction allDamaged generalizing stack buffer with
  | nil => exact ⟨stack, buffer, clear, by simp [sentForDamaged]⟩
  | cons damaged others inductionHypothesis =>
      have first := valid damaged List.mem_cons_self
      obtain ⟨later, next, stillClear, awaited⟩ := @inductionHypothesis
        (fun k => stack (k + 1)) _
        (fun other member => valid other (List.mem_cons_of_mem _ member))
        (filled_clear first.text clear)
      refine ⟨later, next, stillClear, ?_⟩
      rw [List.flatMap_cons, List.append_assoc, await_damaged first, awaited, Option.map_map]
      refine congrArg (fun read => Option.map read _) (funext fun outcome => ?_)
      simp [sentForDamaged]

theorem await_turn {turn : Turn} (valid : turn.Valid) (clear : buffer.peek 2 ≠ colon)
    (rest : List UInt8) :
    ∃ packet, await stack buffer (turn.bytes ++ rest) =
        some (sentForDamaged stack turn.damaged, packet) ∧
      packet.buffer.peek 2 ≠ colon ∧
      ∀ sent, packet.reply sent = ⟨turn.text, sent ++ [plus], rest⟩ := by
  obtain ⟨later, next, stillClear, awaited⟩ := @await_allDamaged stack buffer _ valid.damaged clear
    (turn.noise ++ dollar :: (turn.text ++ hash :: turn.high :: turn.low :: rest))
  have accepted := scanPacket_accepted (@attempt_packet (later 0) next _ _ _ valid.plain.short
    valid.plain.noStart valid.plain.noHash valid.right rest)
  have filledClear := filled_clear valid.plain.toUnnumbered stillClear
  refine ⟨⟨filled next turn.text, turn.text.length, turn.high, turn.low, rest⟩, ?_, filledClear, ?_⟩
  · have split : turn.bytes ++ rest = turn.damaged.flatMap Damaged.bytes ++
        (turn.noise ++ dollar :: (turn.text ++ hash :: turn.high :: turn.low :: rest)) := by
      simp [Turn.bytes]
    rw [split, awaited, await, skipPast_of_not_mem valid.noise, Option.bind_some, accepted]
    simp
  · intro sent
    rw [Accepted.reply, if_neg filledClear, cString_filled valid.plain.short (Nat.zero_le _),
      List.drop_zero, (takeWhile_eq_iff turn.text).mpr valid.plain.noNull]

end Reading

/-! ## Turns -/

section Turns

variable {State : Type} {handle : Handler State}

theorem talkToGdb_returned {turn : Turn} (valid : turn.Valid)
    (stack : Nat → Nat → UInt8) {buffer : CArray UInt8 bufMax} (clear : buffer.peek 2 ≠ colon)
    {s : State} {packets : List (List UInt8)}
    (returned : (handle s turn.text).value = some packets) (rest : List UInt8) :
    ∃ next : CArray UInt8 bufMax, next.peek 2 ≠ colon ∧
      talkToGdb handle stack
          ⟨buffer, s, turn.bytes ++ (acknowledged turn.refused packets ++ rest)⟩ =
        (turn.received stack ++ copies turn.refused packets,
          some ⟨next, (handle s turn.text).state, rest⟩) := by
  obtain ⟨packet, awaited, stillClear, reply⟩ :=
    @await_turn stack _ _ valid clear (acknowledged turn.refused packets ++ rest)
  refine ⟨packet.buffer, stillClear, ?_⟩
  simp only [talkToGdb, awaited, reply, returned, putpackets_acknowledged valid.refused]
  rfl

theorem talkToGdb_threw {turn : Turn} (valid : turn.Valid)
    (stack : Nat → Nat → UInt8) {buffer : CArray UInt8 bufMax} (clear : buffer.peek 2 ≠ colon)
    {s : State} (threw : (handle s turn.text).value = none) (rest : List UInt8) :
    talkToGdb handle stack ⟨buffer, s, turn.bytes ++ rest⟩ = (turn.received stack, none) := by
  obtain ⟨packet, awaited, _, reply⟩ := @await_turn stack _ _ valid clear rest
  simp only [talkToGdb, awaited, reply, threw]
  rfl

/-- Every packet is handled once, in order, however often it has been damaged, and
each reply is sent once more than it is refused. -/
theorem serve_stream {turns : List Turn} (valid : ∀ turn ∈ turns, turn.Valid)
    (stack : Nat → Nat → Nat → UInt8) {buffer : CArray UInt8 bufMax}
    (clear : buffer.peek 2 ≠ colon) (s : State) (rest : List UInt8) :
    let (sent, last) := serve handle stack turns.length ⟨buffer, s, stream handle s turns rest⟩
    sent = (play handle stack s turns).1 ∧
      last.map (fun server => (server.state, server.input)) =
        (play handle stack s turns).2.map fun state => (state, rest) := by
  induction turns generalizing stack buffer s with
  | nil => exact ⟨rfl, rfl⟩
  | cons turn turns inductionHypothesis =>
      have first := valid turn List.mem_cons_self
      cases outcome : (handle s turn.text).value with
      | none =>
          have talked := talkToGdb_threw first (stack 0) clear outcome rest
          simp [stream, outcome, serve, talked, play]
      | some packets =>
          obtain ⟨next, stillClear, talked⟩ := talkToGdb_returned first (stack 0) clear outcome
            (stream handle (handle s turn.text).state turns rest)
          obtain ⟨sent, left⟩ := inductionHypothesis
            (fun other member => valid other (List.mem_cons_of_mem _ member))
            (fun k => stack (k + 1)) stillClear (handle s turn.text).state
          simp only [stream, outcome, List.length_cons, serve, talked, play]
          exact ⟨by rw [sent, List.append_assoc], left⟩

end Turns

end Avarice.Gdb.Connection

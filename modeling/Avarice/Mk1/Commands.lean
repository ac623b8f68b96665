import Avarice.Mk1.Memory

/-!
# Commands of the mkI

`sendJtagCommand` and `doJtagCommand` of `jtagio.cc`, over a serial line that
may do anything.  Answers carry no number, so the host drops what it has not
read before it writes, and gets in step again after a failure.
-/

namespace Avarice.Mk1

open Throwing
open Memory (jtagROk jtagEom)

abbrev maxJtagCommAttempts : Nat := 10

abbrev jtagRInfo : UInt8 := 0x47

/-- A serial line with whatever is at its other end.  A write drops the input
that has not been read; a read ends at a timeout.  Either may throw. -/
structure SerialLine (Wire : Type) where
  write : Wire → (command : List UInt8) → Called Wire Unit
  read : Wire → (count : Nat) → Called Wire (List UInt8)

inductive SendResult where
  | sendFailed
  | sendOk
  | mcuData (info : UInt8)
  deriving DecidableEq, Repr

/-- The places from which `doJtagCommand` sends: the command itself, the byte
that gets the ICE in step, and the sign-on that makes it quiet. -/
inductive Sending where
  | command
  | sync
  | stop
  deriving DecidableEq, Repr

def sync : List UInt8 := [0x20]

def stop : List UInt8 := 0x53 :: jtagEom

def Sending.bytes (sending : Sending) (request : List UInt8) : List UInt8 :=
  match sending with
  | .command => request
  | .sync => Mk1.sync
  | .stop => Mk1.stop

section Program

variable {Wire : Type} (line : SerialLine Wire)

/-- `timeout_read`, which has nothing to wait for when it is asked for nothing. -/
def SerialLine.timeoutRead (w : Wire) (count : Nat) : Called Wire (List UInt8) :=
  if count = 0 then ⟨some [], w⟩
  else (line.read w count).andThen fun bytes w => ⟨some (bytes.take count), w⟩

def readResult (w : Wire) : Called Wire SendResult :=
  (line.timeoutRead w 1).andThen fun ok w =>
  match ok with
  -- timed out
  | [] => ⟨some .sendFailed, w⟩
  | ok :: _ =>
      if ok = jtagROk then ⟨some .sendOk, w⟩
      else if ok = jtagRInfo then
        (line.timeoutRead w 2).andThen fun infobuf w =>
          ⟨some (if infobuf.length ≠ 2 ∨ infobuf.getD 1 0 ≠ jtagROk then .sendFailed
            else .mcuData (infobuf.getD 0 0)), w⟩
      -- out of sync
      else ⟨some .sendFailed, w⟩

def sendJtagCommand (w : Wire) (command : List UInt8) : Called Wire SendResult :=
  (line.write w command).andThen fun _ w => readResult line w

/-- Nothing stands for `NULL`, after a partial response. -/
def getJtagResponse (w : Wire) (responseSize : Nat) : Called Wire (Option (List UInt8)) :=
  (line.timeoutRead w responseSize).andThen fun response w =>
    ⟨some (if response.length < responseSize then none else some response), w⟩

def respond (w : Wire) (responseSize : Nat) : Called Wire (List UInt8) :=
  (getJtagResponse line w responseSize).andThen fun response w => ⟨response, w⟩

/-- The loops of `doJtagCommand` from one of the places on.  Where no attempt is
left, the check in `sendJtagCommand` throws. -/
def commandLoop (command : List UInt8) (responseSize : Nat) :
    (attempts : Nat) → Sending → Wire → Called Wire (List UInt8)
  | 0, _, w => ⟨none, w⟩
  | attempts + 1, sending, w =>
      (sendJtagCommand line w (sending.bytes command)).andThen fun result w =>
      match sending, result with
      | .command, .sendOk => respond line w responseSize
      | .command, .sendFailed => commandLoop command responseSize attempts .sync w
      | .command, .mcuData _ => commandLoop command responseSize attempts .stop w
      | .sync, .sendOk => commandLoop command responseSize attempts .command w
      | .sync, _ => commandLoop command responseSize attempts .sync w
      | .stop, .sendOk =>
          (getJtagResponse line w 8).andThen fun _ w =>
            commandLoop command responseSize attempts .command w
      | .stop, _ => commandLoop command responseSize attempts .command w

def doJtagCommand (command : List UInt8) (responseSize : Nat) (w : Wire) :
    Called Wire (List UInt8) :=
  commandLoop line command responseSize maxJtagCommAttempts .command w

end Program

/-! ## What passes over the line -/

/-- A write, a read with what it got, or either of them throwing. -/
inductive Transfer where
  | wrote (command : List UInt8)
  | got (bytes : List UInt8)
  | threw
  deriving DecidableEq, Repr

def Transfer.isWrite : Transfer → Bool
  | .wrote _ => true
  | _ => false

def writes (passed : List Transfer) : Nat := passed.countP Transfer.isWrite

@[simp]
theorem writes_nil : writes [] = 0 := rfl

@[simp]
theorem writes_append (first second : List Transfer) :
    writes (first ++ second) = writes first + writes second :=
  List.countP_append

@[simp]
theorem writes_wrote (command : List UInt8) (rest : List Transfer) :
    writes (.wrote command :: rest) = writes rest + 1 := by
  simp [writes, List.countP_cons, Transfer.isWrite]

@[simp]
theorem writes_got (bytes : List UInt8) (rest : List Transfer) :
    writes (.got bytes :: rest) = writes rest := rfl

@[simp]
theorem writes_threw (rest : List Transfer) : writes (.threw :: rest) = writes rest := rfl

def SerialLine.recorded {Wire : Type} (line : SerialLine Wire) :
    SerialLine (Wire × List Transfer) where
  write w command :=
    let call := line.write w.1 command
    ⟨call.value, call.state, w.2 ++ [call.value.elim .threw fun _ => .wrote command]⟩
  read w count :=
    let call := line.read w.1 count
    ⟨call.value, call.state, w.2 ++ [call.value.elim .threw fun bytes => .got (bytes.take count)]⟩

/-- What passes for a send, and what the answer says. -/
inductive Exchange (command : List UInt8) : List Transfer → Option SendResult → Prop
  | writeThrew : Exchange command [.threw] none
  | readThrew : Exchange command [.wrote command, .threw] none
  | timedOut : Exchange command [.wrote command, .got []] (some .sendFailed)
  | ok : Exchange command [.wrote command, .got [jtagROk]] (some .sendOk)
  | outOfSync {byte : UInt8} (notOk : byte ≠ jtagROk) (notInfo : byte ≠ jtagRInfo) :
      Exchange command [.wrote command, .got [byte]] (some .sendFailed)
  | infoThrew : Exchange command [.wrote command, .got [jtagRInfo], .threw] none
  | info (data : UInt8) :
      Exchange command [.wrote command, .got [jtagRInfo], .got [data, jtagROk]]
        (some (.mcuData data))
  | badInfo {infobuf : List UInt8} (short : infobuf.length ≤ 2)
      (bad : ∀ data, infobuf ≠ [data, jtagROk]) :
      Exchange command [.wrote command, .got [jtagRInfo], .got infobuf] (some .sendFailed)

/-- The reads of a response, of which there is none where nothing is asked for. -/
def responseReads (responseSize : Nat) (response : List UInt8) : List Transfer :=
  if responseSize = 0 then [] else [.got response]

/-- What passes for a response.  Nothing is returned where it is cut short. -/
inductive Response (responseSize : Nat) : List Transfer → Option (Option (List UInt8)) → Prop
  | threw : Response responseSize [.threw] none
  | whole {response : List UInt8} (length : response.length = responseSize) :
      Response responseSize (responseReads responseSize response) (some (some response))
  | cut {short : List UInt8} (less : short.length < responseSize) :
      Response responseSize (responseReads responseSize short) (some none)

/-- The sends of a command and their answers, from one of its places on, with so many
attempts left: what passes, and the response that is returned. -/
inductive Conversation (command : List UInt8) (responseSize : Nat) :
    (attempts : Nat) → Sending → List Transfer → Option (List UInt8) → Prop
  | exhausted (sending : Sending) : Conversation command responseSize 0 sending [] none
  | threw {attempts : Nat} {sending : Sending} {passed : List Transfer}
      (sent : Exchange (sending.bytes command) passed none) :
      Conversation command responseSize (attempts + 1) sending passed none
  | answered {attempts : Nat} {reads : List Transfer} {response : Option (Option (List UInt8))}
      (read : Response responseSize reads response) :
      Conversation command responseSize (attempts + 1) .command
        ([.wrote command, .got [jtagROk]] ++ reads) response.join
  | outOfStep {attempts : Nat} {passed later : List Transfer} {outcome : Option (List UInt8)}
      (sent : Exchange command passed (some .sendFailed))
      (rest : Conversation command responseSize attempts .sync later outcome) :
      Conversation command responseSize (attempts + 1) .command (passed ++ later) outcome
  | dirty {attempts : Nat} {data : UInt8} {later : List Transfer} {outcome : Option (List UInt8)}
      (rest : Conversation command responseSize attempts .stop later outcome) :
      Conversation command responseSize (attempts + 1) .command
        ([.wrote command, .got [jtagRInfo], .got [data, jtagROk]] ++ later) outcome
  | synced {attempts : Nat} {later : List Transfer} {outcome : Option (List UInt8)}
      (rest : Conversation command responseSize attempts .command later outcome) :
      Conversation command responseSize (attempts + 1) .sync
        ([.wrote sync, .got [jtagROk]] ++ later) outcome
  | notSynced {attempts : Nat} {passed later : List Transfer} {result : SendResult}
      {outcome : Option (List UInt8)} (sent : Exchange sync passed (some result))
      (notOk : result ≠ .sendOk)
      (rest : Conversation command responseSize attempts .sync later outcome) :
      Conversation command responseSize (attempts + 1) .sync (passed ++ later) outcome
  | stopped {attempts : Nat} {reads later : List Transfer} {response : Option (List UInt8)}
      {outcome : Option (List UInt8)} (read : Response 8 reads (some response))
      (rest : Conversation command responseSize attempts .command later outcome) :
      Conversation command responseSize (attempts + 1) .stop
        ([.wrote stop, .got [jtagROk]] ++ reads ++ later) outcome
  | stopThrew {attempts : Nat} {reads : List Transfer} (read : Response 8 reads none) :
      Conversation command responseSize (attempts + 1) .stop
        ([.wrote stop, .got [jtagROk]] ++ reads) none
  | notStopped {attempts : Nat} {passed later : List Transfer} {result : SendResult}
      {outcome : Option (List UInt8)} (sent : Exchange stop passed (some result))
      (notOk : result ≠ .sendOk)
      (rest : Conversation command responseSize attempts .command later outcome) :
      Conversation command responseSize (attempts + 1) .stop (passed ++ later) outcome

/-- A command that has been acknowledged, and what has been read behind that. -/
def acknowledged (command : List UInt8) (responseSize : Nat) (response : List UInt8) :
    List Transfer :=
  [.wrote command, .got [jtagROk]] ++ responseReads responseSize response

/-- How a command ends.  There are at most so many writes; a response has the
length asked for and was read right behind the acknowledgement of the command,
which was the last thing written.  Without a response, the line threw, the
response was cut short, or no attempt was left. -/
structure Dialogue (command : List UInt8) (responseSize attempts : Nat) (passed : List Transfer)
    (outcome : Option (List UInt8)) : Prop where
  bounded : writes passed ≤ attempts
  answered : ∀ response, outcome = some response → response.length = responseSize ∧
    acknowledged command responseSize response <:+ passed
  failed : outcome = none → [Transfer.threw] <:+ passed ∨
    (∃ short, short.length < responseSize ∧ acknowledged command responseSize short <:+ passed) ∨
      writes passed = attempts

/-- The command may be sent: nothing has been written, the ICE has just acknowledged
that it is in step, or it has answered the command by data, and has been told to be
quiet.  Whether it has acknowledged that does not matter. -/
def Sendable (command : List UInt8) (passed : List Transfer) : Prop :=
  passed = [] ∨ [.wrote sync, .got [jtagROk]] <:+ passed ∨
    ∃ before data reads, writes reads = 0 ∧
      passed = before ++ [.wrote command, .got [jtagRInfo], .got [data, jtagROk], .wrote stop] ++
        reads

/-- A command is written only where it may be sent. -/
def WrittenWhenSendable (command : List UInt8) (passed : List Transfer) : Prop :=
  ∀ front back, passed = front ++ .wrote command :: back → Sendable command front

section Recorded

variable {Wire : Type} {line : SerialLine Wire}

def Passed {Value : Type} (call : Called (Wire × List Transfer) Value) (record : List Transfer)
    (holds : List Transfer → Option Value → Prop) : Prop :=
  ∃ passed, call.state.2 = record ++ passed ∧ holds passed call.value

section Calls

variable {Value Other : Type} {record : List Transfer} {first : List Transfer → Option Value → Prop}
  {both : List Transfer → Option Other → Prop}

theorem passed_return {w : Wire × List Transfer} {value : Option Value}
    (holds : first [] value) : Passed ⟨value, w⟩ w.2 first :=
  ⟨[], (List.append_nil _).symm, holds⟩

theorem Passed.andThen {call : Called (Wire × List Transfer) Value}
    {rest : Value → Wire × List Transfer → Called (Wire × List Transfer) Other}
    (before : Passed call record first) (threw : ∀ passed, first passed none → both passed none)
    (later : ∀ passed value, first passed (some value) →
      Passed (rest value call.state) call.state.2 fun more => both (passed ++ more)) :
    Passed (call.andThen rest) record both := by
  obtain ⟨passed, recorded, holds⟩ := before
  cases outcome : call.value with
  | none =>
      rw [Called.andThen_of_threw outcome]
      exact ⟨passed, recorded, threw passed (outcome ▸ holds)⟩
  | some value =>
      rw [Called.andThen_of_returned outcome]
      obtain ⟨more, behind, holds⟩ := later passed value (outcome ▸ holds)
      exact ⟨passed ++ more, by rw [behind, recorded, List.append_assoc], holds⟩

end Calls

structure Read (count : Nat) (passed : List Transfer) (bytes : Option (List UInt8)) : Prop where
  threw : bytes = none → passed = [.threw]
  got : ∀ read, bytes = some read → read.length ≤ count ∧ passed = responseReads count read

theorem timeoutRead_passed (w : Wire × List Transfer) (count : Nat) :
    Passed (line.recorded.timeoutRead w count) w.2 (Read count) := by
  unfold SerialLine.timeoutRead
  split
  next nothing =>
    refine passed_return ⟨nofun, ?_⟩
    rintro _ ⟨⟩
    simp [responseReads, nothing]
  next some =>
    refine @Passed.andThen Wire _ _ _ (fun passed bytes =>
      passed = [bytes.elim .threw fun bytes => .got (bytes.take count)]) _ _ _ ⟨_, rfl, rfl⟩ ?_ ?_
    · rintro _ rfl
      exact ⟨fun _ => rfl, nofun⟩
    · rintro _ bytes rfl
      refine passed_return ⟨nofun, ?_⟩
      rintro _ ⟨⟩
      simp [responseReads, some]

theorem readResult_passed (w : Wire × List Transfer) (command : List UInt8) :
    Passed (readResult line.recorded w) w.2 fun passed =>
      Exchange command (.wrote command :: passed) := by
  refine (timeoutRead_passed w 1).andThen ?_ ?_
  · intro passed read
    obtain rfl := read.threw rfl
    exact .readThrew
  intro passed ok read
  obtain ⟨length, rfl⟩ := read.got ok rfl
  cases ok with
  | nil => exact passed_return .timedOut
  | cons ok rest =>
      obtain rfl : rest = [] := by simpa using length
      by_cases acknowledged : ok = jtagROk
      · subst acknowledged
        exact passed_return .ok
      by_cases info : ok = jtagRInfo
      · subst info
        simp only [if_neg acknowledged]
        refine (timeoutRead_passed _ 2).andThen ?_ ?_
        · intro more read
          obtain rfl := read.threw rfl
          exact .infoThrew
        · intro more infobuf read
          obtain ⟨short, rfl⟩ := read.got infobuf rfl
          refine passed_return ?_
          split
          next bad =>
            refine .badInfo short ?_
            rintro data rfl
            simp at bad
          next good =>
            obtain ⟨data, ok, rfl⟩ := List.length_eq_two.mp (of_not_not (not_or.mp good).1)
            obtain rfl : ok = jtagROk := of_not_not (not_or.mp good).2
            exact .info data
      · simp only [if_neg acknowledged, if_neg info]
        exact passed_return (.outOfSync acknowledged info)

theorem sendJtagCommand_passed (w : Wire × List Transfer) (command : List UInt8) :
    Passed (sendJtagCommand line.recorded w command) w.2 (Exchange command) := by
  refine @Passed.andThen Wire _ _ _ (fun passed done =>
    passed = [done.elim .threw fun _ => .wrote command]) _ _ _ ⟨_, rfl, rfl⟩ ?_ ?_
  · rintro _ rfl
    exact .writeThrew
  · rintro _ ⟨⟩ rfl
    exact readResult_passed _ command

theorem getJtagResponse_passed (w : Wire × List Transfer) (responseSize : Nat) :
    Passed (getJtagResponse line.recorded w responseSize) w.2 (Response responseSize) := by
  refine (timeoutRead_passed w responseSize).andThen ?_ ?_
  · intro passed read
    obtain rfl := read.threw rfl
    exact .threw
  · intro passed response read
    obtain ⟨length, rfl⟩ := read.got response rfl
    by_cases short : response.length < responseSize
    · rw [if_pos short]
      exact passed_return (by simpa using .cut short)
    · rw [if_neg short]
      exact passed_return (by simpa using .whole (Nat.le_antisymm length (Nat.not_lt.mp short)))

theorem respond_passed (w : Wire × List Transfer) (responseSize : Nat) :
    Passed (respond line.recorded w responseSize) w.2 fun reads outcome =>
      ∃ response, Response responseSize reads response ∧ response.join = outcome := by
  refine (getJtagResponse_passed w responseSize).andThen ?_ ?_
  · intro reads read
    exact ⟨none, read, rfl⟩
  · intro reads response read
    exact passed_return ⟨some response, by rwa [List.append_nil], rfl⟩

theorem Exchange.eq_of_ok {command : List UInt8} {passed : List Transfer}
    (sent : Exchange command passed (some .sendOk)) : passed = [.wrote command, .got [jtagROk]] := by
  cases sent
  rfl

theorem Exchange.eq_of_mcuData {command : List UInt8} {passed : List Transfer} {data : UInt8}
    (sent : Exchange command passed (some (.mcuData data))) :
    passed = [.wrote command, .got [jtagRInfo], .got [data, jtagROk]] := by
  cases sent
  rfl

theorem commandLoop_passed (command : List UInt8) (responseSize attempts : Nat)
    (sending : Sending) (w : Wire × List Transfer) :
    Passed (commandLoop line.recorded command responseSize attempts sending w) w.2
      (Conversation command responseSize attempts sending) := by
  induction attempts generalizing sending w with
  | zero => exact passed_return (.exhausted sending)
  | succ attempts inductionHypothesis =>
      refine (sendJtagCommand_passed w (sending.bytes command)).andThen ?_ ?_
      · intro passed sent
        exact .threw sent
      intro passed result sent
      have goesOn (before : List Transfer) (next : Sending) (after : Wire × List Transfer)
          (step : ∀ later outcome, Conversation command responseSize attempts next later outcome →
            Conversation command responseSize (attempts + 1) sending (before ++ later) outcome) :
          Passed (commandLoop line.recorded command responseSize attempts next after) after.2
            fun later => Conversation command responseSize (attempts + 1) sending
              (before ++ later) := by
        obtain ⟨later, recorded, rest⟩ := inductionHypothesis next after
        exact ⟨later, recorded, step later _ rest⟩
      cases sending with
      | command =>
          cases result with
          | sendOk =>
              obtain rfl := sent.eq_of_ok
              obtain ⟨reads, recorded, response, read, joined⟩ := @respond_passed _ line _ responseSize
              exact ⟨reads, recorded, joined ▸ .answered read⟩
          | sendFailed => exact goesOn passed .sync _ fun _ _ => .outOfStep sent
          | mcuData data =>
              obtain rfl := sent.eq_of_mcuData
              exact goesOn _ .stop _ fun _ _ => .dirty
      | sync =>
          cases result with
          | sendOk =>
              obtain rfl := sent.eq_of_ok
              exact goesOn _ .command _ fun _ _ => .synced
          | sendFailed => exact goesOn passed .sync _ fun _ _ => .notSynced sent nofun
          | mcuData info => exact goesOn passed .sync _ fun _ _ => .notSynced sent nofun
      | stop =>
          cases result with
          | sendFailed => exact goesOn passed .command _ fun _ _ => .notStopped sent nofun
          | mcuData info => exact goesOn passed .command _ fun _ _ => .notStopped sent nofun
          | sendOk =>
              obtain rfl := sent.eq_of_ok
              refine (getJtagResponse_passed _ 8).andThen ?_ ?_
              · intro reads read
                exact .stopThrew read
              · intro reads response read
                have later := goesOn ([.wrote stop, .got [jtagROk]] ++ reads) .command
                  (getJtagResponse line.recorded
                    (sendJtagCommand line.recorded w stop).state 8).state
                  fun _ _ => .stopped read
                simp only [List.append_assoc] at later
                exact later

end Recorded

/-! ## What conversations have in common -/

section Conversations

variable {command : List UInt8} {responseSize attempts : Nat} {passed : List Transfer}

theorem Exchange.wrote {result : SendResult} (sent : Exchange command passed (some result)) :
    ∃ reads, passed = .wrote command :: reads ∧ writes reads = 0 := by
  cases sent <;> exact ⟨_, rfl, rfl⟩

theorem Exchange.one {result : SendResult} (sent : Exchange command passed (some result)) :
    writes passed = 1 := by
  obtain ⟨reads, rfl, noWrite⟩ := sent.wrote
  simp [noWrite]

theorem Exchange.threw (sent : Exchange command passed none) :
    [Transfer.threw] <:+ passed ∧ writes passed ≤ 1 := by
  cases sent with
  | writeThrew => exact ⟨List.suffix_refl _, Nat.zero_le 1⟩
  | readThrew => exact ⟨⟨[_], rfl⟩, Nat.le_refl 1⟩
  | infoThrew => exact ⟨⟨[_, _], rfl⟩, Nat.le_refl 1⟩

theorem writes_responseReads (response : List UInt8) :
    writes (responseReads responseSize response) = 0 := by
  rw [responseReads]
  split <;> rfl

theorem Response.noWrite {response : Option (Option (List UInt8))}
    (read : Response responseSize passed response) : writes passed = 0 := by
  cases read with
  | threw => rfl
  | whole | cut => exact writes_responseReads _

theorem Response.threw_of_none (read : Response responseSize passed none) :
    passed = [.threw] := by
  cases read
  rfl

theorem Response.ends {response : Option (Option (List UInt8))}
    (read : Response responseSize passed response) :
    Dialogue command responseSize (attempts + 1) ([.wrote command, .got [jtagROk]] ++ passed)
      response.join := by
  have bounded : writes ([.wrote command, .got [jtagROk]] ++ passed) ≤ attempts + 1 := by
    simp [read.noWrite]
  cases read with
  | threw => exact ⟨bounded, nofun, fun _ => .inl (List.suffix_append _ _)⟩
  | whole length =>
      refine ⟨bounded, ?_, nofun⟩
      rintro response ⟨⟩
      exact ⟨length, List.suffix_refl _⟩
  | cut less => exact ⟨bounded, nofun, fun _ => .inr (.inl ⟨_, less, List.suffix_refl _⟩)⟩

theorem Dialogue.behind {before : List Transfer} {outcome : Option (List UInt8)}
    (dialogue : Dialogue command responseSize attempts passed outcome) (one : writes before = 1) :
    Dialogue command responseSize (attempts + 1) (before ++ passed) outcome where
  bounded := by
    have := dialogue.bounded
    simp only [writes_append, one]
    omega
  answered response same :=
    ⟨(dialogue.answered response same).1,
      (dialogue.answered response same).2.trans (List.suffix_append _ _)⟩
  failed missing := by
    rcases dialogue.failed missing with threw | ⟨short, less, cut⟩ | exhausted
    · exact .inl (threw.trans (List.suffix_append _ _))
    · exact .inr (.inl ⟨short, less, cut.trans (List.suffix_append _ _)⟩)
    · exact .inr (.inr (by simp [one, exhausted, Nat.add_comm]))

theorem Conversation.ends {sending : Sending} {outcome : Option (List UInt8)}
    (conversation : Conversation command responseSize attempts sending passed outcome) :
    Dialogue command responseSize attempts passed outcome := by
  induction conversation with
  | exhausted sending => exact ⟨Nat.le_refl 0, nofun, fun _ => .inr (.inr rfl)⟩
  | @threw attempts _ _ sent =>
      exact ⟨Nat.le_trans sent.threw.2 (Nat.succ_le_succ (Nat.zero_le attempts)), nofun,
        fun _ => .inl sent.threw.1⟩
  | answered read => exact read.ends
  | outOfStep sent _ rest | notSynced sent _ _ rest | notStopped sent _ _ rest =>
      exact rest.behind sent.one
  | dirty _ rest | synced _ rest => exact rest.behind rfl
  | stopped read _ rest => exact rest.behind (by simp [read.noWrite])
  | stopThrew read =>
      obtain rfl := read.threw_of_none
      exact ⟨by simp, nofun, fun _ => .inl ⟨[_, _], rfl⟩⟩

def ReadyFor (command : List UInt8) : Sending → (before : List Transfer) → Prop
  | .command, before => Sendable command before
  | .sync, _ => True
  | .stop, before =>
      ∃ earlier data, before =
        earlier ++ [.wrote command, .got [jtagRInfo], .got [data, jtagROk]]

theorem split_behind_reads (reads : List Transfer) {later front back : List Transfer}
    {other : List UInt8}
    (noWrite : writes reads = 0) (split : reads ++ later = front ++ .wrote other :: back) :
    ∃ front', front = reads ++ front' ∧ later = front' ++ .wrote other :: back := by
  induction reads generalizing front with
  | nil => exact ⟨front, rfl, split⟩
  | cons read reads inductionHypothesis =>
      cases front with
      | nil =>
          obtain ⟨rfl, -⟩ := List.cons.inj split
          simp at noWrite
      | cons first front =>
          obtain ⟨rfl, rest⟩ := List.cons.inj split
          have none : writes reads = 0 := by
            rw [writes, List.countP_cons] at noWrite
            exact Nat.eq_zero_of_add_eq_zero_right noWrite
          obtain ⟨front', rfl, same⟩ := inductionHypothesis none rest
          exact ⟨front', rfl, same⟩

theorem sendable_behind (reads : List Transfer) {sent : List UInt8}
    {before later : List Transfer}
    (noWrite : writes reads = 0) (start : sent = command → Sendable command before)
    (rest : ∀ front back, later = front ++ .wrote command :: back →
      Sendable command (before ++ (.wrote sent :: reads) ++ front))
    {front back : List Transfer}
    (split : .wrote sent :: reads ++ later = front ++ .wrote command :: back) :
    Sendable command (before ++ front) := by
  cases front with
  | nil =>
      rw [List.append_nil]
      exact start (by simpa using (List.cons.inj split).1)
  | cons first front =>
      obtain ⟨rfl, behind⟩ := List.cons.inj split
      obtain ⟨front', rfl, same⟩ := split_behind_reads reads noWrite behind
      have sendable := rest front' back same
      rwa [List.append_assoc] at sendable

theorem Conversation.sendable (notSync : command ≠ sync) (notStop : command ≠ stop)
    {sending : Sending} {outcome : Option (List UInt8)}
    (conversation : Conversation command responseSize attempts sending passed outcome)
    {before : List Transfer} (ready : ReadyFor command sending before) {front back : List Transfer}
    (split : passed = front ++ .wrote command :: back) : Sendable command (before ++ front) := by
  have starts {sending : Sending} {before : List Transfer}
      (ready : ReadyFor command sending before) (same : sending.bytes command = command) :
      Sendable command before := by
    cases sending with
    | command => exact ready
    | sync => exact absurd same.symm notSync
    | stop => exact absurd same.symm notStop
  have nothing {front back : List Transfer} (split : [] = front ++ .wrote command :: back) :
      False := by
    simp at split
  induction conversation generalizing before front back with
  | exhausted _ => exact (nothing split).elim
  | @threw _ sending _ sent =>
      have more : ∀ before front back : List Transfer, [] = front ++ .wrote command :: back →
          Sendable command (before ++ front) := fun _ _ _ split => (nothing split).elim
      cases sent with
      | writeThrew =>
          obtain ⟨_, -, rest⟩ := split_behind_reads [.threw] rfl ((List.append_nil _).trans split)
          exact (nothing rest).elim
      | readThrew =>
          exact sendable_behind [.threw] rfl (starts ready) (more _) ((List.append_nil _).trans split)
      | infoThrew =>
          exact sendable_behind [.got [jtagRInfo], .threw] rfl (starts ready) (more _)
            ((List.append_nil _).trans split)
  | @answered _ reads _ read =>
      rw [← List.append_nil reads] at split
      exact sendable_behind (.got [jtagROk] :: reads) (by simp [read.noWrite])
        (fun _ => ready) (fun _ _ split => (nothing split).elim) split
  | outOfStep sent _ inductionHypothesis =>
      obtain ⟨reads, rfl, noWrite⟩ := sent.wrote
      exact sendable_behind _ noWrite (fun _ => ready) (fun _ _ => inductionHypothesis trivial) split
  | @dirty _ data _ _ _ inductionHypothesis =>
      exact sendable_behind [.got [jtagRInfo], .got [data, jtagROk]] rfl
        (fun _ => ready) (fun _ _ => inductionHypothesis ⟨before, data, rfl⟩) split
  | synced _ inductionHypothesis =>
      exact sendable_behind [.got [jtagROk]] rfl (fun same => absurd same.symm notSync)
        (fun _ _ => inductionHypothesis (.inr (.inl (List.suffix_append _ _)))) split
  | notSynced sent _ _ inductionHypothesis =>
      obtain ⟨reads, rfl, noWrite⟩ := sent.wrote
      exact sendable_behind _ noWrite (fun same => absurd same.symm notSync)
        (fun _ _ => inductionHypothesis trivial) split
  | @stopped _ reads _ _ _ read _ inductionHypothesis =>
      obtain ⟨earlier, data, rfl⟩ := ready
      have noWrite : writes (.got [jtagROk] :: reads) = 0 := by simp [read.noWrite]
      refine sendable_behind _ noWrite (fun same => absurd same.symm notStop)
        (fun _ _ => inductionHypothesis (.inr (.inr ⟨earlier, data, _, noWrite, ?_⟩))) split
      simp
  | @stopThrew _ reads read =>
      rw [← List.append_nil reads] at split
      exact sendable_behind (.got [jtagROk] :: reads) (by simp [read.noWrite])
        (fun same => absurd same.symm notStop) (fun _ _ split => (nothing split).elim) split
  | notStopped sent _ _ inductionHypothesis =>
      obtain ⟨earlier, data, rfl⟩ := ready
      obtain ⟨reads, rfl, noWrite⟩ := sent.wrote
      refine sendable_behind _ noWrite (fun same => absurd same.symm notStop)
        (fun _ _ => inductionHypothesis (.inr (.inr ⟨earlier, data, reads, noWrite, ?_⟩))) split
      simp

end Conversations

/-! ## The record changes nothing -/

section Recorded

variable {Wire : Type} {line : SerialLine Wire}

def Projects {Value : Type} (recorded : Called (Wire × List Transfer) Value)
    (call : Called Wire Value) : Prop :=
  recorded.value = call.value ∧ recorded.state.1 = call.state

theorem Projects.andThen {Value Other : Type} {recorded : Called (Wire × List Transfer) Value}
    {call : Called Wire Value} {rest : Value → Wire × List Transfer → Called _ Other}
    {plain : Value → Wire → Called Wire Other} (same : Projects recorded call)
    (later : ∀ value w, Projects (rest value w) (plain value w.1)) :
    Projects (recorded.andThen rest) (call.andThen plain) := by
  obtain ⟨value, state⟩ := same
  cases outcome : call.value with
  | none =>
      rw [Called.andThen_of_threw outcome, Called.andThen_of_threw (value.trans outcome)]
      exact ⟨rfl, state⟩
  | some result =>
      rw [Called.andThen_of_returned outcome, Called.andThen_of_returned (value.trans outcome),
        ← state]
      exact later result _

theorem timeoutRead_projects (w : Wire × List Transfer) (count : Nat) :
    Projects (line.recorded.timeoutRead w count) (line.timeoutRead w.1 count) := by
  unfold SerialLine.timeoutRead
  split
  · exact ⟨rfl, rfl⟩
  · exact Projects.andThen ⟨rfl, rfl⟩ fun _ _ => ⟨rfl, rfl⟩

theorem sendJtagCommand_projects (w : Wire × List Transfer) (command : List UInt8) :
    Projects (sendJtagCommand line.recorded w command) (sendJtagCommand line w.1 command) := by
  refine Projects.andThen ⟨rfl, rfl⟩ fun _ w => (timeoutRead_projects w 1).andThen fun ok w => ?_
  cases ok with
  | nil => exact ⟨rfl, rfl⟩
  | cons ok rest =>
      simp only
      split
      · exact ⟨rfl, rfl⟩
      · split
        · exact (timeoutRead_projects w 2).andThen fun _ _ => ⟨rfl, rfl⟩
        · exact ⟨rfl, rfl⟩

theorem getJtagResponse_projects (w : Wire × List Transfer) (responseSize : Nat) :
    Projects (getJtagResponse line.recorded w responseSize)
      (getJtagResponse line w.1 responseSize) :=
  (timeoutRead_projects w responseSize).andThen fun _ _ => ⟨rfl, rfl⟩

theorem commandLoop_projects (command : List UInt8) (responseSize attempts : Nat)
    (sending : Sending) (w : Wire × List Transfer) :
    Projects (commandLoop line.recorded command responseSize attempts sending w)
      (commandLoop line command responseSize attempts sending w.1) := by
  induction attempts generalizing sending w with
  | zero => exact ⟨rfl, rfl⟩
  | succ attempts inductionHypothesis =>
      refine (sendJtagCommand_projects w (sending.bytes command)).andThen fun result w => ?_
      cases sending with
      | command =>
          cases result with
          | sendOk => exact (getJtagResponse_projects w responseSize).andThen fun _ _ => ⟨rfl, rfl⟩
          | sendFailed => exact inductionHypothesis .sync w
          | mcuData info => exact inductionHypothesis .stop w
      | sync => cases result <;> exact inductionHypothesis _ w
      | stop =>
          cases result with
          | sendOk =>
              exact (getJtagResponse_projects w 8).andThen fun _ w => inductionHypothesis .command w
          | sendFailed => exact inductionHypothesis .command w
          | mcuData info => exact inductionHypothesis .command w

/-- Whatever the line does, a command is a conversation of at most ten writes, and
a response is what the ICE sent behind its acknowledgement of the last of them.
The command is repeated only where it may be sent. -/
theorem doJtagCommand_dialogue (line : SerialLine Wire) (w : Wire) (command : List UInt8)
    (responseSize : Nat) :
    ∃ passed,
      doJtagCommand line.recorded command responseSize (w, []) =
        ⟨(doJtagCommand line command responseSize w).value,
          (doJtagCommand line command responseSize w).state, passed⟩ ∧
      Conversation command responseSize maxJtagCommAttempts .command passed
        (doJtagCommand line command responseSize w).value ∧
      Dialogue command responseSize maxJtagCommAttempts passed
        (doJtagCommand line command responseSize w).value ∧
      (command ≠ sync → command ≠ stop → WrittenWhenSendable command passed) := by
  obtain ⟨passed, recorded, conversation⟩ := @commandLoop_passed _ line command
    responseSize maxJtagCommAttempts .command (w, [])
  obtain ⟨value, state⟩ := @commandLoop_projects _ line command responseSize
    maxJtagCommAttempts .command (w, [])
  rw [List.nil_append] at recorded
  refine ⟨passed, ?_, value ▸ conversation, value ▸ conversation.ends, ?_⟩
  · simp only [doJtagCommand, ← value, ← state, ← recorded]
  · intro notSync notStop front back split
    exact conversation.sendable notSync notStop (.inl rfl) split

end Recorded

end Avarice.Mk1

import Avarice.Library.Repetition
import Avarice.Mk1.Commands

/-!
# Commands over a lossy line

An ICE behind a serial line that loses commands, and answers or their ends.
Nothing in an answer says which command it belongs to.
-/

namespace Avarice.Mk1

open Throwing Repetition
open Memory (jtagROk)

/-- What becomes of a command: it is lost, and bytes that have nothing to do with
it may come back, or it is executed and so many bytes of its answer arrive. -/
inductive Fate where
  | lost (noise : List UInt8)
  | executed (kept : Nat)
  deriving DecidableEq, Repr

def Fate.Fails : Fate → Prop
  | .lost _ => True
  | .executed kept => kept = 0

instance : DecidablePred Fate.Fails
  | .lost _ => inferInstanceAs (Decidable True)
  | .executed kept => inferInstanceAs (Decidable (kept = 0))

/-- An ICE, what has arrived from it, and the number of commands written. -/
structure Far (Ice : Type) where
  ice : Ice
  unread : List UInt8
  count : Nat

section Line

variable {Ice : Type} (execute : Ice → List UInt8 → List UInt8 × Ice) (fates : Nat → Fate)

/-- Whatever has not been read when a command is written is dropped. -/
def lossyLine : SerialLine (Far Ice) where
  write w command :=
    match fates w.count with
    | .lost noise => ⟨some (), { w with unread := noise, count := w.count + 1 }⟩
    | .executed kept =>
        let (answer, ice) := execute w.ice command
        ⟨some (), { ice, unread := answer.take kept, count := w.count + 1 }⟩
  read w count := ⟨some (w.unread.take count), { w with unread := w.unread.drop count }⟩

/-- A lost command is not acknowledged. -/
def NoFalseOk : Prop := ∀ n noise, fates n = .lost noise → noise.head? ≠ some jtagROk

end Line

section Calls

variable {Ice : Type} {execute : Ice → List UInt8 → List UInt8 × Ice} {fates : Nat → Fate}

theorem timeoutRead_lossy (w : Far Ice) (count : Nat) :
    (lossyLine execute fates).timeoutRead w count =
      ⟨some (w.unread.take count), { w with unread := w.unread.drop count }⟩ := by
  unfold SerialLine.timeoutRead
  split
  next nothing => simp [nothing]
  next => simp [lossyLine, Called.andThen]

theorem getJtagResponse_lossy (w : Far Ice) (responseSize : Nat) :
    getJtagResponse (lossyLine execute fates) w responseSize =
      ⟨some (if w.unread.length < responseSize then none else some (w.unread.take responseSize)),
        { w with unread := w.unread.drop responseSize }⟩ := by
  simp [getJtagResponse, timeoutRead_lossy, Called.andThen]

theorem readResult_lossy (w : Far Ice) :
    ∃ result unread, readResult (lossyLine execute fates) w = ⟨some result, { w with unread }⟩ ∧
      (result = .sendOk ↔ w.unread = jtagROk :: unread) := by
  unfold readResult
  rw [timeoutRead_lossy, Called.andThen_of_returned rfl]
  cases arrived : w.unread with
  | nil => exact ⟨.sendFailed, [], rfl, nofun, nofun⟩
  | cons ok rest =>
      simp only [List.take_succ_cons, List.take_zero, List.drop_succ_cons, List.drop_zero]
      by_cases acknowledged : ok = jtagROk
      · rw [if_pos acknowledged]
        exact ⟨.sendOk, rest, rfl, by simp [acknowledged]⟩
      rw [if_neg acknowledged]
      by_cases info : ok = jtagRInfo
      · rw [if_pos info, timeoutRead_lossy, Called.andThen_of_returned rfl]
        refine ⟨_, _, rfl, ?_, fun same => absurd (List.cons.inj same).1 acknowledged⟩
        intro sent
        split at sent <;> cases sent
      · rw [if_neg info]
        exact ⟨.sendFailed, rest, rfl, nofun,
          fun same => absurd (List.cons.inj same).1 acknowledged⟩

/-- What a command leaves behind: it was executed or not, and if it has been
acknowledged, it was, and what can be read is the beginning of the rest of its
answer. -/
structure Exchanged (execute : Ice → List UInt8 → List UInt8 × Ice) (fates : Nat → Fate)
    (w : Far Ice) (command : List UInt8) (result : SendResult) (after : Far Ice) : Prop where
  executed : after.ice = w.ice ∨ after.ice = (execute w.ice command).2
  count : after.count = w.count + 1
  acknowledged : result = .sendOk → after.ice = (execute w.ice command).2 ∧
    ∃ lost, (execute w.ice command).1 = jtagROk :: (after.unread ++ lost)
  kept : result = .sendOk → ¬(fates w.count).Fails

theorem sendJtagCommand_lossy (honest : NoFalseOk fates) (w : Far Ice) (command : List UInt8) :
    ∃ result after, sendJtagCommand (lossyLine execute fates) w command = ⟨some result, after⟩ ∧
      Exchanged execute fates w command result after := by
  unfold sendJtagCommand
  cases fate : fates w.count with
  | lost noise =>
      obtain ⟨result, unread, read, ok⟩ := @readResult_lossy _ execute fates
        { w with unread := noise, count := w.count + 1 }
      refine ⟨result, { w with unread, count := w.count + 1 }, ?_, .inl rfl, rfl, ?_, ?_⟩
      · simpa [lossyLine, fate, Called.andThen] using read
      all_goals
        intro sent
        have front : noise = jtagROk :: unread := ok.mp sent
        exact absurd (congrArg List.head? front) (honest w.count noise fate)
  | executed kept =>
      obtain ⟨result, unread, read, ok⟩ := @readResult_lossy _ execute fates
        ⟨(execute w.ice command).2, (execute w.ice command).1.take kept, w.count + 1⟩
      refine ⟨result, ⟨(execute w.ice command).2, unread, w.count + 1⟩, ?_, .inr rfl, rfl, ?_, ?_⟩
      · simpa [lossyLine, fate, Called.andThen] using read
      · intro sent
        refine ⟨rfl, (execute w.ice command).1.drop kept, ?_⟩
        have front := ok.mp sent
        simp only at front ⊢
        rw [← List.cons_append, ← front, List.take_append_drop]
      · intro sent fails
        have nothing : kept = 0 := by simpa [fate, Fate.Fails] using fails
        have front := ok.mp sent
        simp [nothing] at front

/-- How a command over a lossy line ends.  A response is from the last execution
of the command, which is the last of any, and the ICE has executed nothing else
than what the host has for it. -/
structure Settled (execute : Ice → List UInt8 → List UInt8 × Ice) (command : List UInt8)
    (responseSize attempts : Nat) (before : Far Ice) (outcome : Option (List UInt8))
    (after : Far Ice) : Prop where
  reached : Reaches execute [command, sync, stop] before.ice after.ice
  count : after.count ≤ before.count + attempts
  fresh : ∀ response, outcome = some response → response.length = responseSize ∧
    ∃ last, Reaches execute [command, sync, stop] before.ice last ∧
      after.ice = (execute last command).2 ∧
      ∃ rest, (execute last command).1 = jtagROk :: (response ++ rest)

theorem sending_bytes_mem (sending : Sending) (command : List UInt8) :
    sending.bytes command ∈ [command, sync, stop] := by
  cases sending <;> simp [Sending.bytes]

theorem Exchanged.reaches {w after : Far Ice} {command : List UInt8} {sending : Sending}
    {result : SendResult}
    (exchanged : Exchanged execute fates w (sending.bytes command) result after) :
    Reaches execute [command, sync, stop] w.ice after.ice := by
  rcases exchanged.executed with not | executed
  · rw [not]
    exact .refl
  · rw [executed]
    exact Reaches.tail .refl (sending_bytes_mem sending command)

theorem commandLoop_settled (honest : NoFalseOk fates) (command : List UInt8)
    (responseSize attempts : Nat) (sending : Sending) (w : Far Ice) :
    let call := commandLoop (lossyLine execute fates) command responseSize attempts sending w
    Settled execute command responseSize attempts w call.value call.state := by
  induction attempts generalizing sending w with
  | zero => exact ⟨.refl, Nat.le_refl _, nofun⟩
  | succ attempts inductionHypothesis =>
      obtain ⟨result, after, sent, exchanged⟩ :=
        @sendJtagCommand_lossy _ execute _ honest w (sending.bytes command)
      have goesOn (next : Sending) (unread : List UInt8) :
          let call := commandLoop (lossyLine execute fates) command responseSize attempts next
            { after with unread }
          Settled execute command responseSize (attempts + 1) w call.value call.state := by
        obtain ⟨reached, count, fresh⟩ := inductionHypothesis next { after with unread }
        have first := exchanged.reaches
        refine ⟨first.trans reached, ?_, ?_⟩
        · have := exchanged.count
          simp only at count
          omega
        · intro response same
          obtain ⟨length, last, later, final, answer⟩ := fresh response same
          exact ⟨length, last, first.trans later, final, answer⟩
      simp only [commandLoop, sent, Called.andThen]
      cases sending with
      | command =>
          cases result with
          | sendFailed => exact goesOn .sync after.unread
          | mcuData info => exact goesOn .stop after.unread
          | sendOk =>
              obtain ⟨executed, lost, answer⟩ := exchanged.acknowledged rfl
              rw [respond, getJtagResponse_lossy, Called.andThen_of_returned rfl]
              refine ⟨exchanged.reaches, ?_, ?_⟩
              · have := exchanged.count
                simp only
                omega
              · intro response whole
                simp only at whole
                split at whole
                next => cases whole
                next enough =>
                  cases whole
                  refine ⟨by simp [Nat.min_eq_left (Nat.not_lt.mp enough)], w.ice, .refl,
                    executed, after.unread.drop responseSize ++ lost, ?_⟩
                  rw [← List.append_assoc, List.take_append_drop]
                  exact answer
      | sync =>
          cases result with
          | sendOk => exact goesOn .command after.unread
          | sendFailed => exact goesOn .sync after.unread
          | mcuData info => exact goesOn .sync after.unread
      | stop =>
          cases result with
          | sendFailed => exact goesOn .command after.unread
          | mcuData info => exact goesOn .command after.unread
          | sendOk =>
              simp only [getJtagResponse_lossy]
              exact goesOn .command (after.unread.drop 8)

theorem doJtagCommand_ends {Held : Type} {held : Ice → Held} {ready : Held → Prop}
    {effect : Held → Held} {command : List UInt8}
    (repeatable : Repeatable execute held ready command [sync, stop] effect)
    (honest : NoFalseOk fates) (responseSize : Nat) {w : Far Ice} (start : ready (held w.ice)) :
    Called.Ends
      (fun response after => response.length = responseSize ∧
        held after.ice = effect (held w.ice) ∧
        ∃ last rest, (execute last command).1 = jtagROk :: (response ++ rest) ∧
          (held last = held w.ice ∨ held last = effect (held w.ice)))
      (fun after => held after.ice = held w.ice ∨ held after.ice = effect (held w.ice))
      (doJtagCommand (lossyLine execute fates) command responseSize w) where
  returned response same := by
    obtain ⟨length, last, reached, final, rest, answer⟩ :=
      (@commandLoop_settled _ execute _ honest command responseSize _ .command
        w).fresh response same
    exact ⟨length, (congrArg held final).trans (repeatable.held_of_last start reached),
      last, rest, answer, repeatable.held_of_reaches start reached⟩
  threw _ := repeatable.held_of_reaches start
    (@commandLoop_settled _ execute _ honest command responseSize _ .command w).reached

end Calls

/-- Over a line that loses commands and answers, a response belongs to the last
execution of its command and never to an earlier one, and the ICE is as that
execution has left it. -/
theorem doJtagCommand_settled {Ice : Type} (execute : Ice → List UInt8 → List UInt8 × Ice)
    {fates : Nat → Fate} (honest : NoFalseOk fates) (command : List UInt8) (responseSize : Nat)
    (w : Far Ice) :
    let call := doJtagCommand (lossyLine execute fates) command responseSize w
    Settled execute command responseSize maxJtagCommAttempts w call.value call.state :=
  commandLoop_settled honest command responseSize maxJtagCommAttempts .command w

def oneByte (ice : UInt8) (command : List UInt8) : List UInt8 × UInt8 :=
  if command = [0x78] then ([jtagROk, jtagROk], 1) else ([jtagROk], ice)

def twoFail : Nat → Fate
  | 0 => .lost []
  | 2 => .executed 0
  | _ => .executed 9

theorem twoFail_honest : NoFalseOk twoFail := by
  intro n noise fate
  match n with
  | 0 =>
      cases fate
      exact nofun
  | 1 | 2 | _ + 3 => cases fate

theorem doJtagCommand_settled_twoFail :
    let call := doJtagCommand (lossyLine oneByte twoFail) [0x78] 1 ⟨0, [], 0⟩
    Settled oneByte [0x78] 1 maxJtagCommAttempts ⟨0, [], 0⟩ call.value call.state :=
  doJtagCommand_settled oneByte twoFail_honest [0x78] 1 ⟨0, [], 0⟩

/-! ## Enough attempts -/

def Fate.Arrives (size : Nat) : Fate → Prop
  | .lost _ => False
  | .executed kept => size ≤ kept

def failures (fates : Nat → Fate) (count attempts : Nat) : Nat :=
  (List.range' count attempts).countP fun n => decide (fates n).Fails

/-- The ICE acknowledges a command in every state, with enough behind it. -/
def Acknowledges {Ice : Type} (execute : Ice → List UInt8 → List UInt8 × Ice)
    (command : List UInt8) (size : Nat) : Prop :=
  ∀ ice, ∃ rest, (execute ice command).1 = jtagROk :: rest ∧ size ≤ rest.length

section Enough

variable {Ice : Type} {execute : Ice → List UInt8 → List UInt8 × Ice} {fates : Nat → Fate}
  {command : List UInt8} {responseSize : Nat}

theorem failures_succ (count attempts : Nat) :
    failures fates count (attempts + 1) =
      (if (fates count).Fails then 1 else 0) + failures fates (count + 1) attempts := by
  simp [failures, List.range'_succ, List.countP_cons, Nat.add_comm]

theorem sendJtagCommand_arrives {w : Far Ice} {size : Nat}
    (acknowledges : Acknowledges execute command size)
    (arrives : (fates w.count).Arrives (size + 1)) :
    ∃ unread, sendJtagCommand (lossyLine execute fates) w command =
      ⟨some .sendOk, (execute w.ice command).2, unread, w.count + 1⟩ ∧ size ≤ unread.length := by
  obtain ⟨rest, answer, long⟩ := acknowledges w.ice
  cases fate : fates w.count with
  | lost noise => simp [fate, Fate.Arrives] at arrives
  | executed kept =>
      obtain ⟨kept, rfl⟩ : ∃ more, kept = more + 1 := by
        simp only [fate, Fate.Arrives] at arrives
        exact Nat.exists_eq_succ_of_ne_zero (by omega)
      have enough : size ≤ kept := by simpa [fate, Fate.Arrives] using arrives
      have written : (lossyLine execute fates).write w command = ⟨some (),
          (execute w.ice command).2, jtagROk :: rest.take kept, w.count + 1⟩ := by
        simp [lossyLine, fate, answer]
      refine ⟨rest.take kept, ?_, by simp [enough, long]⟩
      rw [sendJtagCommand, written, Called.andThen_of_returned rfl, readResult, timeoutRead_lossy,
        Called.andThen_of_returned rfl]
      simp

/-- The attempts needed from a place on: two for each failure, and those of a
dialogue without any. -/
def needed (failures : Nat) : Sending → Nat
  | .command => 2 * failures + 1
  | _ => 2 * failures + 2

theorem commandLoop_returns (honest : NoFalseOk fates)
    (clean : ∀ n, (fates n).Fails ∨ (fates n).Arrives (responseSize + 1))
    (acknowledges : Acknowledges execute command responseSize)
    (inStep : Acknowledges execute sync 0) {attempts : Nat} {sending : Sending} {w : Far Ice}
    (enough : needed (failures fates w.count attempts) sending ≤ attempts) :
    (commandLoop (lossyLine execute fates) command responseSize attempts sending
      w).value.isSome := by
  induction attempts generalizing sending w with
  | zero => cases sending <;> simp [needed] at enough
  | succ attempts inductionHypothesis =>
      rw [failures_succ] at enough
      simp only [commandLoop]
      have goesOn (next : Sending) (after : Far Ice) (count : after.count = w.count + 1)
          (left : needed (failures fates (w.count + 1) attempts) next ≤ attempts) :
          (commandLoop (lossyLine execute fates) command responseSize attempts next
            after).value.isSome :=
        inductionHypothesis (count ▸ left)
      rcases clean w.count with fails | arrives
      · -- this one fails, and pays for two attempts
        rw [if_pos fails] at enough
        have left (next : Sending) :
            needed (failures fates (w.count + 1) attempts) next ≤ attempts := by
          cases sending <;> cases next <;> simp only [needed] at enough ⊢ <;> omega
        obtain ⟨result, after, sent, exchanged⟩ :=
          @sendJtagCommand_lossy _ execute _ honest w (sending.bytes command)
        rw [sent, Called.andThen_of_returned rfl]
        have notOk : result ≠ .sendOk := fun ok => exchanged.kept ok fails
        cases sending with
        | command =>
            cases result with
            | sendOk => exact absurd rfl notOk
            | sendFailed => exact goesOn .sync after exchanged.count (left _)
            | mcuData info => exact goesOn .stop after exchanged.count (left _)
        | sync =>
            cases result with
            | sendOk => exact absurd rfl notOk
            | sendFailed => exact goesOn .sync after exchanged.count (left _)
            | mcuData info => exact goesOn .sync after exchanged.count (left _)
        | stop =>
            cases result with
            | sendOk => exact absurd rfl notOk
            | sendFailed => exact goesOn .command after exchanged.count (left _)
            | mcuData info => exact goesOn .command after exchanged.count (left _)
      · have fine : ¬(fates w.count).Fails := by
          cases fate : fates w.count with
          | lost noise => simp [fate, Fate.Arrives] at arrives
          | executed kept =>
              simp only [fate, Fate.Arrives] at arrives
              simp only [Fate.Fails]
              omega
        rw [if_neg fine, Nat.zero_add] at enough
        cases sending with
        | command =>
            obtain ⟨unread, sent, long⟩ := sendJtagCommand_arrives acknowledges arrives
            rw [Sending.bytes, sent, Called.andThen_of_returned rfl]
            simp [respond, getJtagResponse_lossy, Called.andThen, Nat.not_lt.mpr long]
        | sync =>
            have one : (fates w.count).Arrives (0 + 1) := by
              cases fate : fates w.count with
              | lost noise => simp [fate, Fate.Arrives] at arrives
              | executed kept =>
                  simp only [fate, Fate.Arrives] at arrives ⊢
                  omega
            obtain ⟨unread, sent, -⟩ := sendJtagCommand_arrives inStep one
            rw [Sending.bytes, sent, Called.andThen_of_returned rfl]
            exact goesOn .command _ rfl (by simp only [needed] at enough ⊢; omega)
        | stop =>
            have left : needed (failures fates (w.count + 1) attempts) .command ≤ attempts := by
              simp only [needed] at enough ⊢
              omega
            obtain ⟨result, after, sent, exchanged⟩ :=
              @sendJtagCommand_lossy _ execute _ honest w (Sending.stop.bytes command)
            rw [sent, Called.andThen_of_returned rfl]
            cases result with
            | sendFailed => exact goesOn .command after exchanged.count left
            | mcuData info => exact goesOn .command after exchanged.count left
            | sendOk =>
                simp only [getJtagResponse_lossy]
                rw [Called.andThen_of_returned rfl]
                exact goesOn .command _ exchanged.count left

/-- A command that may be repeated is carried out once, as far as the ICE holds
anything, if up to four of the ten attempts fail and no answer is cut short. -/
theorem doJtagCommand_once {Held : Type} {held : Ice → Held} {ready : Held → Prop}
    {effect : Held → Held} (repeatable : Repeatable execute held ready command [sync, stop] effect)
    (honest : NoFalseOk fates)
    (clean : ∀ n, (fates n).Fails ∨ (fates n).Arrives (responseSize + 1))
    (acknowledges : Acknowledges execute command responseSize)
    (inStep : Acknowledges execute sync 0) {w : Far Ice} (start : ready (held w.ice))
    (few : failures fates w.count maxJtagCommAttempts ≤ 4) :
    let call := doJtagCommand (lossyLine execute fates) command responseSize w
    ∃ response, call.value = some response ∧ response.length = responseSize ∧
      held call.state.ice = effect (held w.ice) ∧
      ∃ last rest, (execute last command).1 = jtagROk :: (response ++ rest) ∧
        (held last = held w.ice ∨ held last = effect (held w.ice)) := by
  have enough : needed (failures fates w.count maxJtagCommAttempts) .command ≤
      maxJtagCommAttempts := by
    show 2 * _ + 1 ≤ 10
    omega
  obtain ⟨response, returned⟩ := Option.isSome_iff_exists.mp
    (commandLoop_returns honest clean acknowledges inStep enough)
  obtain ⟨length, carriedOut, answered⟩ :=
    (doJtagCommand_ends repeatable honest responseSize start).returned response returned
  exact ⟨response, returned, length, carriedOut, answered⟩

end Enough

theorem doJtagCommand_once_twoFail :
    let call := doJtagCommand (lossyLine oneByte twoFail) [0x78] 1 ⟨0, [], 0⟩
    ∃ response, call.value = some response ∧ response.length = 1 ∧ id call.state.ice = 1 ∧
      ∃ last rest, (oneByte last [0x78]).1 = jtagROk :: (response ++ rest) ∧
        (id last = id (0 : UInt8) ∨ id last = 1) := by
  have repeatable : Repeatable oneByte id (fun _ => True) [0x78] [sync, stop] fun _ => 1 :=
    ⟨fun _ _ => rfl, fun _ _ => trivial, fun _ _ => rfl, ?_⟩
  · refine doJtagCommand_once repeatable twoFail_honest ?_
      (fun _ => ⟨[jtagROk], rfl, Nat.le_refl 1⟩) (fun _ => ⟨[], rfl, Nat.le_refl 0⟩) trivial
      (by decide)
    intro n
    match n with
    | 0 => exact .inl trivial
    | 2 => exact .inl rfl
    | 1 | _ + 3 => exact .inr (by decide : 2 ≤ 9)
  · intro ice other member
    rcases List.mem_pair.mp member with rfl | rfl <;> rfl

example :
    (doJtagCommand (lossyLine oneByte fun n => if n % 2 = 0 then .lost [] else .executed 9)
      [0x78] 1 ⟨0, [], 0⟩).value = none := by
  decide

end Avarice.Mk1

import Avarice.Library.Transition
import Avarice.Mk2.Frame

/-!
# Reading with a timeout

`timeout_read` of `jtaggeneric.cc` and the `select` of `select.cc` that it waits
with.  What the system answers is given as a sequence of outcomes, so that nothing
is assumed about the ICE.
-/

namespace Avarice.TimeoutRead

open Transition

/-! ## The calls of the system -/

inductive Errno where
  | again | interrupted | other
  deriving DecidableEq, Repr

inductive Selected where
  | ready
  | timedOut
  | failed (errno : Errno)
  deriving DecidableEq, Repr

/-- A `read` gets what has come, but not more than has been asked for, and nothing
at the end of the file. -/
inductive Reading where
  | came (available : Nat)
  | failed (errno : Errno)
  deriving DecidableEq, Repr

/-- The outcomes of the calls of `select` in order, those of the calls of `read`
that are made right behind them, and the bytes of the stream. -/
structure Line where
  select : Nat → Selected
  read : Nat → Reading
  stream : Nat → UInt8

def Line.bytes (line : Line) (position count : Nat) : List UInt8 :=
  (List.range' position count).map line.stream

/-! ## The functions -/

def Selected.isRetried (retry : Bool) : Selected → Bool
  | .failed .again | .failed .interrupted => retry
  | _ => false

/-- `_select`, as the call of `select` whose outcome is returned.  It yields nothing
when it is not over after so many rounds. -/
def Line._select (line : Line) (retry : Bool) (rounds call : Nat) : Option Nat :=
  loop (fun call =>
    if (line.select call).isRetried retry then .again (call + 1) else .leave call) rounds call

def Line.waitRead (line : Line) (retry : Bool) (rounds call : Nat) : Option Nat :=
  line._select retry rounds call

/-- The variables of `timeout_read`, with the number of the next call and the place
in the stream.  Nothing is returned before the end, and where it throws. -/
structure Reader where
  call : Nat := 0
  position : Nat := 0
  actual : Nat := 0
  buffer : List UInt8
  returned : Option Int32 := none
  deriving DecidableEq, Repr

def Reader.body (line : Line) (count retries : Nat) (r : Reader) : Control Reader :=
  if r.actual < count then
    match line.waitRead true retries r.call with
    -- `select` is still being tried when the rounds are used up
    | none => .again r
    | some call =>
        match line.select call with
        | .timedOut =>
            .leave { r with call := call + 1, returned := some (Int32.ofNat r.actual) }
        | _ =>
            match line.read call with
            | .failed .again => .again { r with call := call + 1 }
            -- `jtagCheck` throws
            | .failed _ => .leave { r with call := call + 1 }
            | .came available =>
                let thisread := min available (count - r.actual)
                .again
                  { r with
                    call := call + 1
                    position := r.position + thisread
                    actual := r.actual + thisread
                    buffer := Mk2.store r.buffer r.actual (line.bytes r.position thisread) }
  else .leave { r with returned := some (Int32.ofNat count) }

/-- What there is after the call, if no loop takes more rounds. -/
def timeoutRead (line : Line) (count rounds : Nat) (buffer : List UInt8) : Option Reader :=
  loop (Reader.body line count rounds) rounds { buffer }

/-! ## Lines -/

/-- At the end of the file there is always something to read, but no byte. -/
def Line.Ended (line : Line) (call : Nat) : Prop :=
  line.select call = .ready ∧ line.read call = .came 0

/-- A line is ready or silent, and a read gets bytes, nothing now, or nothing ever
again.  Calls are interrupted or put off only finitely often. -/
structure Line.Regular (line : Line) : Prop where
  select : ∀ call, line.select call ≠ .failed .other
  read : ∀ call errno, line.read call = .failed errno → errno = .again
  settled : ∃ bound, ∀ call, bound ≤ call →
    (line.select call).isRetried true = false ∧ line.read call ≠ .failed .again
  ended : ∀ call, line.Ended call → line.Ended (call + 1)

def Line.available (line : Line) (call : Nat) : Nat :=
  match line.select call, line.read call with
  | .ready, .came available => available
  | _, _ => 0

def Line.arrived (line : Line) : Nat → Nat
  | 0 => 0
  | call + 1 => line.arrived call + line.available call

/-- The call returns how many bytes it has stored, which are the next ones of the
stream, at the front of the buffer, and no byte has been lost. -/
def Line.Accounts (line : Line) (count : Nat) (buffer : List UInt8) : Prop :=
  ∃ rounds last value, timeoutRead line count rounds buffer = some last ∧
    last.returned = some value ∧ value.toInt = last.position ∧ last.position ≤ count ∧
    last.buffer = line.bytes 0 last.position ++ buffer.drop last.position

/-- Before the end of the file enough bytes have come or the line has been silent,
and what is read before either can be counted by an `int`. -/
structure Line.InTime (line : Line) (count : Nat) : Prop where
  ended : ∀ call, line.Ended call →
    count ≤ line.arrived call ∨ ∃ earlier < call, line.select earlier = .timedOut
  counted : count < 2 ^ 31 ∨
    ∃ call, line.select call = .timedOut ∧ line.arrived call < 2 ^ 31

/-! ## Waiting -/

section Waiting

variable {line : Line} {call settled rounds : Nat}

theorem waitRead_spec (waited : line.waitRead true rounds call = some settled) :
    call ≤ settled ∧ (line.select settled).isRetried true = false ∧
      ∀ between, call ≤ between → between < settled →
        (line.select between).isRetried true = true := by
  obtain ⟨last, reached, left⟩ := leave_of_loop waited
  have retried : call ≤ last ∧ ∀ between, call ≤ between → between < last →
      (line.select between).isRetried true = true := by
    refine @invariant_of_again _ _ (fun last => call ≤ last ∧ ∀ between, call ≤ between →
      between < last → (line.select between).isRetried true = true) ?_ _ _ reached
      ⟨Nat.le_refl call, fun _ above below => absurd below (Nat.not_lt.mpr above)⟩
    rintro before after ⟨above, retried⟩ again
    by_cases here : (line.select before).isRetried true = true
    · simp only [here, if_true, Control.again.injEq] at again
      subst again
      refine ⟨Nat.le_succ_of_le above, fun between above' below => ?_⟩
      rcases Nat.lt_succ_iff_lt_or_eq.mp below with earlier | rfl
      · exact retried between above' earlier
      · exact here
    · simp [here] at again
  by_cases here : (line.select last).isRetried true = true
  · simp [here] at left
  · simp only [here, Bool.false_eq_true, if_false, Control.leave.injEq] at left
    subst left
    exact ⟨retried.1, Bool.eq_false_iff.mpr here, retried.2⟩

theorem waitRead_isSome {bound : Nat}
    (quiet : ∀ call, bound ≤ call → (line.select call).isRetried true = false)
    (enough : bound < rounds) (call : Nat) : (line.waitRead true rounds call).isSome := by
  refine @loop_isSome _ _ (fun _ => True) (fun call => bound - call) ?_ call trivial rounds
    (Nat.lt_of_le_of_lt (Nat.sub_le bound call) enough)
  intro before after _ again
  by_cases here : (line.select before).isRetried true = true
  · have early : before < bound := by
      rw [← Nat.not_le]
      intro late
      rw [quiet before late] at here
      cases here
    simp only [here, if_true, Control.again.injEq] at again
    exact ⟨trivial, by omega⟩
  · simp [here] at again

end Waiting

/-! ## What has come -/

section Arrived

variable {line : Line}

theorem arrived_mono {call later : Nat} (behind : call ≤ later) :
    line.arrived call ≤ line.arrived later := by
  induction behind with
  | refl => exact Nat.le_refl _
  | step _ inductionHypothesis => exact Nat.le_trans inductionHypothesis (Nat.le_add_right _ _)

theorem arrived_eq {call later : Nat} (behind : call ≤ later)
    (nothing : ∀ between, call ≤ between → between < later → line.available between = 0) :
    line.arrived later = line.arrived call := by
  induction behind with
  | refl => rfl
  | @step middle between inductionHypothesis =>
      have before : line.arrived middle = line.arrived call := by
        apply inductionHypothesis
        intro other above below
        exact nothing other above (Nat.lt_succ_of_lt below)
      rw [Line.arrived, nothing middle between (Nat.lt_succ_self middle), before, Nat.add_zero]

theorem available_of_isRetried {call : Nat} (retried : (line.select call).isRetried true = true) :
    line.available call = 0 := by
  unfold Line.available
  cases outcome : line.select call with
  | ready => simp [outcome, Selected.isRetried] at retried
  | timedOut => rfl
  | failed errno => rfl

theorem Line.Regular.ended_later (regular : line.Regular) {call later : Nat}
    (ended : line.Ended call) (behind : call ≤ later) : line.Ended later := by
  induction behind with
  | refl => exact ended
  | step _ inductionHypothesis => exact regular.ended _ inductionHypothesis

theorem Line.Ended.available {call : Nat} (ended : line.Ended call) : line.available call = 0 := by
  unfold Line.available
  rw [ended.1, ended.2]

theorem Line.Regular.exists_arrived (regular : line.Regular)
    (goesOn : ∀ call, line.select call ≠ .timedOut ∧ ¬ line.Ended call) (count : Nat) :
    ∃ call, count ≤ line.arrived call := by
  obtain ⟨bound, settled⟩ := regular.settled
  refine ⟨bound + count, ?_⟩
  have positive : ∀ call, bound ≤ call → 0 < line.available call := by
    intro call late
    obtain ⟨quiet, answered⟩ := settled call late
    have ready : line.select call = .ready := by
      cases outcome : line.select call with
      | ready => rfl
      | timedOut => exact absurd outcome (goesOn call).1
      | failed errno =>
          cases errno with
          | other => exact absurd outcome (regular.select call)
          | again => simp [outcome, Selected.isRetried] at quiet
          | interrupted => simp [outcome, Selected.isRetried] at quiet
    cases outcome : line.read call with
    | failed errno => exact absurd (regular.read call errno outcome ▸ outcome) answered
    | came available =>
        unfold Line.available
        simp only [ready, outcome]
        rw [Nat.pos_iff_ne_zero]
        rintro rfl
        exact (goesOn call).2 ⟨ready, outcome⟩
  induction count with
  | zero => exact Nat.zero_le _
  | succ count inductionHypothesis =>
      exact Nat.add_le_add inductionHypothesis (positive (bound + count) (Nat.le_add_right _ _))

end Arrived

/-! ## A round -/

def Reader.takes (r : Reader) (line : Line) (count call : Nat) : Reader :=
  let thisread := min (line.available call) (count - r.actual)
  { r with
    call := call + 1
    position := r.position + thisread
    actual := r.actual + thisread
    buffer := Mk2.store r.buffer r.actual (line.bytes r.position thisread) }

/-- How far the loop has come: the line has not been silent, and what has come, as
far as it is asked for, is at the front of the buffer. -/
structure Reader.Progress (line : Line) (count : Nat) (buffer : List UInt8) (r : Reader) :
    Prop where
  timely : ∀ earlier < r.call, line.select earlier ≠ .timedOut
  actual : r.actual = min count (line.arrived r.call)
  position : r.position = r.actual
  buffer : r.buffer = line.bytes 0 r.actual ++ buffer.drop r.actual

/-- The call by which the loop is left: nothing is missing, or the line is silent. -/
structure Line.Stops (line : Line) (count stop : Nat) : Prop where
  timely : ∀ earlier < stop, line.select earlier ≠ .timedOut
  stops : count ≤ line.arrived stop ∨ line.select stop = .timedOut

structure Reader.Left (line : Line) (count : Nat) (buffer : List UInt8) (stop : Nat)
    (last : Reader) : Prop where
  position : last.position = min count (line.arrived stop)
  buffer : last.buffer = line.bytes 0 last.position ++ buffer.drop last.position
  returned : last.returned = some (Int32.ofNat last.position)

section Round

variable {line : Line} {count rounds : Nat} {buffer : List UInt8} {r : Reader}

theorem store_nil (buf : List UInt8) (index : Nat) : Mk2.store buf index [] = buf := by
  simp [Mk2.store]

theorem bytes_length (position number : Nat) : (line.bytes position number).length = number := by
  simp [Line.bytes]

theorem bytes_append (first second : Nat) :
    line.bytes 0 first ++ line.bytes first second = line.bytes 0 (first + second) := by
  have numbers := @List.range'_append_1 0 first second
  rw [Nat.zero_add] at numbers
  simp only [Line.bytes, ← List.map_append, numbers]

theorem bytes_take (position number count : Nat) :
    (line.bytes position number).take count = line.bytes position (min count number) := by
  unfold Line.bytes
  rw [← List.map_take]
  rcases Nat.le_total count number with few | many
  · rw [List.take_range'_of_length_ge few, Nat.min_eq_left few]
  · rw [List.take_range'_of_length_le many, Nat.min_eq_right many]

theorem store_behind (front rest bytes : List UInt8) :
    Mk2.store (front ++ rest) front.length bytes = front ++ bytes ++ rest.drop bytes.length := by
  simp [Mk2.store]

theorem body_settled (regular : line.Regular) (missing : r.actual < count) {call : Nat}
    (waited : line.waitRead true rounds r.call = some call) :
    r.body line count rounds =
      if line.select call = .timedOut then
        .leave { r with call := call + 1, returned := some (Int32.ofNat r.actual) }
      else .again (r.takes line count call) := by
  unfold Reader.body Reader.takes
  simp only [if_pos missing, waited]
  cases outcome : line.select call with
  | timedOut => rfl
  | failed errno =>
      have settled := (waitRead_spec waited).2.1
      cases errno with
      | other => exact absurd outcome (regular.select call)
      | again => simp [outcome, Selected.isRetried] at settled
      | interrupted => simp [outcome, Selected.isRetried] at settled
  | ready =>
      cases answer : line.read call with
      | came available => simp [Line.available, outcome, answer]
      | failed errno =>
          obtain rfl := regular.read call errno answer
          simp [Line.available, outcome, answer, Line.bytes, store_nil]

theorem Reader.Progress.waited (progress : r.Progress line count buffer) {call : Nat}
    (waited : line.waitRead true rounds r.call = some call) :
    (∀ earlier < call, line.select earlier ≠ .timedOut) ∧
      line.arrived call = line.arrived r.call := by
  obtain ⟨behind, -, retried⟩ := waitRead_spec waited
  constructor
  · intro earlier before silent
    rcases Nat.lt_or_ge earlier r.call with old | new
    · exact progress.timely earlier old silent
    · have again := retried earlier new before
      rw [silent] at again
      cases again
  · apply arrived_eq behind
    intro between above below
    exact available_of_isRetried (retried between above below)

theorem Reader.Progress.takes (progress : r.Progress line count buffer) {call : Nat}
    (waited : line.waitRead true rounds r.call = some call)
    (ready : line.select call ≠ .timedOut) :
    (r.takes line count call).Progress line count buffer := by
  obtain ⟨timely, same⟩ := progress.waited waited
  constructor
  · intro earlier before
    rcases Nat.lt_succ_iff_lt_or_eq.mp before with early | rfl
    · exact timely earlier early
    · exact ready
  · show r.actual + min (line.available call) (count - r.actual) =
      min count (line.arrived call + line.available call)
    rw [progress.actual, same]
    omega
  · show r.position + _ = r.actual + _
    rw [progress.position]
  · show Mk2.store r.buffer r.actual (line.bytes r.position _) = line.bytes 0 (r.actual + _) ++
      buffer.drop (r.actual + _)
    have front := store_behind (line.bytes 0 r.actual) (buffer.drop r.actual)
      (line.bytes r.position (min (line.available call) (count - r.actual)))
    rw [bytes_length] at front
    rw [progress.buffer, front, bytes_length, List.drop_drop, progress.position, bytes_append]

theorem Reader.Progress.again (regular : line.Regular) {next : Reader}
    (progress : r.Progress line count buffer)
    (again : r.body line count rounds = .again next) : next.Progress line count buffer := by
  by_cases missing : r.actual < count
  · cases waited : line.waitRead true rounds r.call with
    | none =>
        simp only [Reader.body, if_pos missing, waited, Control.again.injEq] at again
        exact again ▸ progress
    | some call =>
        rw [body_settled regular missing waited] at again
        by_cases silent : line.select call = .timedOut
        · rw [if_pos silent] at again
          cases again
        · rw [if_neg silent, Control.again.injEq] at again
          exact again ▸ progress.takes waited silent
  · rw [Reader.body, if_neg missing] at again
    cases again

theorem Reader.Progress.leave (regular : line.Regular) {last : Reader}
    (progress : r.Progress line count buffer)
    (left : r.body line count rounds = .leave last) :
    ∃ stop, line.Stops count stop ∧ last.Left line count buffer stop := by
  have stored := progress.actual
  by_cases missing : r.actual < count
  · cases waited : line.waitRead true rounds r.call with
    | none =>
        simp only [Reader.body, if_pos missing, waited] at left
        cases left
    | some call =>
        rw [body_settled regular missing waited] at left
        by_cases silent : line.select call = .timedOut
        · rw [if_pos silent, Control.leave.injEq] at left
          subst left
          obtain ⟨timely, same⟩ := progress.waited waited
          refine ⟨call, ⟨timely, .inr silent⟩, ?_, ?_, ?_⟩
          · show r.position = _
            rw [progress.position, stored, same]
          · show r.buffer = line.bytes 0 r.position ++ buffer.drop r.position
            rw [progress.position, progress.buffer]
          · show some (Int32.ofNat r.actual) = some (Int32.ofNat r.position)
            rw [progress.position]
        · rw [if_neg silent] at left
          cases left
  · rw [Reader.body, if_neg missing, Control.leave.injEq] at left
    subst left
    have enough : r.actual = count := by omega
    refine ⟨r.call, ⟨progress.timely, .inl (by omega)⟩, ?_, ?_, ?_⟩
    · exact progress.position.trans stored
    · show r.buffer = line.bytes 0 r.position ++ buffer.drop r.position
      rw [progress.position, progress.buffer]
    · show some (Int32.ofNat count) = some (Int32.ofNat r.position)
      rw [progress.position, enough]

theorem Reader.Progress.lowers (regular : line.Regular) {stop : Nat} {next : Reader}
    (stops : count ≤ line.arrived stop ∨ line.select stop = .timedOut)
    (waits : (line.waitRead true rounds r.call).isSome)
    (progress : r.Progress line count buffer)
    (again : r.body line count rounds = .again next) : stop - next.call < stop - r.call := by
  obtain ⟨call, waited⟩ := Option.isSome_iff_exists.mp waits
  by_cases missing : r.actual < count
  · rw [body_settled regular missing waited] at again
    by_cases silent : line.select call = .timedOut
    · rw [if_pos silent] at again
      cases again
    · rw [if_neg silent, Control.again.injEq] at again
      subst again
      have behind := (waitRead_spec waited).1
      have before : r.call < stop := by
        rw [← Nat.not_le]
        intro passed
        rcases stops with enough | silence
        · have stored := progress.actual
          have mono : line.arrived stop ≤ line.arrived r.call := arrived_mono passed
          omega
        · rcases Nat.lt_or_eq_of_le (Nat.le_trans passed behind) with earlier | rfl
          · exact (progress.waited waited).1 stop earlier silence
          · exact silent silence
      show stop - (call + 1) < stop - r.call
      omega
  · rw [Reader.body, if_neg missing] at again
    cases again

end Round

/-! ## The whole call -/

section Run

variable {line : Line} {count : Nat} {buffer : List UInt8}

theorem progress_start : Reader.Progress line count buffer { buffer } where
  timely _ before := absurd before (Nat.not_lt_zero _)
  actual := (Nat.min_zero count).symm
  position := rfl
  buffer := rfl

theorem stops_of_timeoutRead (regular : line.Regular) {rounds : Nat} {last : Reader}
    (ended : timeoutRead line count rounds buffer = some last) :
    ∃ stop, line.Stops count stop ∧ last.Left line count buffer stop := by
  obtain ⟨r, reached, left⟩ := leave_of_loop ended
  have progress : r.Progress line count buffer := by
    apply invariant_of_again _ reached progress_start
    intro before after progress again
    exact progress.again regular again
  exact progress.leave regular left

theorem timeoutRead_ends (regular : line.Regular) {stop : Nat}
    (stops : count ≤ line.arrived stop ∨ line.select stop = .timedOut) :
    ∃ rounds last, timeoutRead line count rounds buffer = some last := by
  obtain ⟨bound, settled⟩ := regular.settled
  refine ⟨bound + stop + 1, Option.isSome_iff_exists.mp ?_⟩
  refine @loop_isSome _ _ (Reader.Progress line count buffer) (fun r => stop - r.call) ?_ _
    progress_start _ (by omega)
  intro before after progress again
  refine ⟨progress.again regular again, progress.lowers regular stops ?_ again⟩
  exact waitRead_isSome (fun call late => (settled call late).1) (by omega) before.call

theorem Line.Stops.not_ended (regular : line.Regular) {stop call : Nat}
    (stops : line.Stops count stop) (ended : line.Ended call) :
    count ≤ line.arrived call ∨ ∃ earlier < call, line.select earlier = .timedOut := by
  rcases Nat.lt_or_ge stop call with early | late
  · exact stops.stops.imp (fun enough => Nat.le_trans enough (arrived_mono (Nat.le_of_lt early)))
      fun silent => ⟨stop, early, silent⟩
  · rcases stops.stops with enough | silent
    · have same : line.arrived stop = line.arrived call :=
        arrived_eq late fun between above _ => (regular.ended_later ended above).available
      exact .inl (same ▸ enough)
    · rw [(regular.ended_later ended late).1] at silent
      cases silent

theorem timeoutRead_eq_none (regular : line.Regular) {call : Nat} (ended : line.Ended call)
    (missing : line.arrived call < count)
    (timely : ∀ earlier < call, line.select earlier ≠ .timedOut) (rounds : Nat) :
    timeoutRead line count rounds buffer = none := by
  cases outcome : timeoutRead line count rounds buffer with
  | none => rfl
  | some last =>
      obtain ⟨stop, stops, -⟩ := stops_of_timeoutRead regular outcome
      rcases stops.not_ended regular ended with enough | ⟨earlier, before, silent⟩
      · exact absurd missing (Nat.not_lt.mpr enough)
      · exact absurd silent (timely earlier before)

/-- If the line is silent behind what has come, the call gets what is taken from a
finite stream. -/
theorem timeoutRead_refines (regular : line.Regular) {silence : Nat}
    (silent : line.select silence = .timedOut)
    (timely : ∀ earlier < silence, line.select earlier ≠ .timedOut) :
    ∃ rounds last, timeoutRead line count rounds buffer = some last ∧
      last.buffer =
        (Mk2.timeoutRead count (line.bytes 0 (line.arrived silence))).1 ++
          buffer.drop last.position := by
  obtain ⟨rounds, last, ended⟩ := @timeoutRead_ends _ count buffer regular silence (.inr silent)
  obtain ⟨stop, stops, left⟩ := stops_of_timeoutRead regular ended
  refine ⟨rounds, last, ended, ?_⟩
  have early : stop ≤ silence := by
    rw [← Nat.not_lt]
    exact fun late => stops.timely silence late silent
  have position : last.position = min count (line.arrived silence) := by
    rw [left.position]
    rcases stops.stops with enough | silentStop
    · have mono : line.arrived stop ≤ line.arrived silence := arrived_mono early
      omega
    · rcases Nat.lt_or_eq_of_le early with before | rfl
      · exact absurd silentStop (timely stop before)
      · rfl
  rw [left.buffer, Mk2.timeoutRead, position, bytes_take]

theorem toInt_ofNat_eq_iff (number : Nat) :
    (Int32.ofNat number).toInt = number ↔ number < 2 ^ 31 := by
  constructor
  · intro same
    have small := Int32.toInt_lt (Int32.ofNat number)
    omega
  · exact Int32.toInt_ofNat_of_lt

theorem inTime_of_accounts (regular : line.Regular) (accounts : line.Accounts count buffer) :
    line.InTime count := by
  obtain ⟨rounds, last, value, ended, returned, same, -⟩ := accounts
  obtain ⟨stop, stops, left⟩ := stops_of_timeoutRead regular ended
  refine ⟨fun call => stops.not_ended regular, ?_⟩
  obtain rfl := Option.some.inj (returned.symm.trans left.returned)
  have small := (toInt_ofNat_eq_iff _).mp same
  rw [left.position] at small
  rcases Nat.lt_or_ge count (2 ^ 31) with few | many
  · exact .inl few
  · rcases stops.stops with enough | silent
    · omega
    · exact .inr ⟨stop, silent, by omega⟩

theorem accounts_of_inTime (regular : line.Regular) (inTime : line.InTime count) :
    line.Accounts count buffer := by
  obtain ⟨stop, stops⟩ : ∃ stop, count ≤ line.arrived stop ∨ line.select stop = .timedOut := by
    by_contra never
    simp only [not_exists, not_or, Nat.not_le] at never
    obtain ⟨call, enough⟩ := regular.exists_arrived (fun call => ⟨(never call).2, fun ended => by
      rcases inTime.ended call ended with enough | ⟨earlier, -, silent⟩
      · exact absurd (never call).1 (Nat.not_lt.mpr enough)
      · exact (never earlier).2 silent⟩) count
    exact absurd (never call).1 (Nat.not_lt.mpr enough)
  obtain ⟨rounds, last, ended⟩ := @timeoutRead_ends _ count buffer regular _ stops
  obtain ⟨stop, stops, left⟩ := stops_of_timeoutRead regular ended
  have small : last.position < 2 ^ 31 := by
    rw [left.position]
    rcases inTime.counted with few | ⟨call, silent, few⟩
    · omega
    · have mono : line.arrived stop ≤ line.arrived call := by
        apply arrived_mono
        rw [← Nat.not_lt]
        exact fun early => stops.timely call early silent
      omega
  refine ⟨rounds, last, _, ended, left.returned, (toInt_ofNat_eq_iff _).mpr small, ?_, left.buffer⟩
  rw [left.position]
  exact Nat.min_le_left _ _

end Run

/-- The call returns, and accounts for its bytes, exactly where it does not come to
the end of the file with bytes missing, and reads no more than an `int` can count. -/
theorem accounts_iff (line : Line) (regular : line.Regular) (count : Nat) (buffer : List UInt8) :
    line.Accounts count buffer ↔ line.InTime count :=
  ⟨inTime_of_accounts regular, accounts_of_inTime regular⟩

/-- A line on which every read finds so many bytes. -/
def Line.steady (available : Nat) : Line :=
  ⟨fun _ => .ready, fun _ => .came available, fun _ => 0x41⟩

theorem regular_steady (available : Nat) : (Line.steady available).Regular where
  select _ failed := by cases failed
  read _ _ failed := by cases failed
  settled := ⟨0, fun _ _ => ⟨rfl, fun failed => by cases failed⟩⟩
  ended _ ended := ended

theorem accounts_bytewise : (Line.steady 1).Accounts 3 [0, 0, 0, 0] := by
  refine (accounts_iff _ (regular_steady 1) 3 [0, 0, 0, 0]).mpr ⟨?_, .inl (by decide)⟩
  intro call ended
  cases ended.2

theorem accounts_fails :
    ¬ ∀ (line : Line), line.Regular → ∀ (count : Nat) (buffer : List UInt8),
      line.Accounts count buffer := by
  intro accounts
  have inTime := inTime_of_accounts (regular_steady 0) (accounts _ (regular_steady 0) 1 [0])
  rcases inTime.ended 0 ⟨rfl, rfl⟩ with enough | ⟨earlier, before, -⟩
  · cases enough
  · exact absurd before (Nat.not_lt_zero earlier)

end Avarice.TimeoutRead

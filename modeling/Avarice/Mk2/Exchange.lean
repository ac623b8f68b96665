import Avarice.Mk2.FrameReceiver
import Avarice.Mk2.FrameRoundTrip

/-!
# One command and its reply

`recv` and `doJtagCommand` frame by frame: which frame is the reply to the
command that has been sent, and when the command is sent again.
-/

namespace Avarice.Mk2

structure Frame where
  seqno : UInt16
  payload : List UInt8
  deriving DecidableEq, Repr

def Frame.bytes (f : Frame) : List UInt8 := sendFrame f.seqno f.payload

/-- The receiver takes the frame, which has a payload and is not too long. -/
def Frame.Fits (f : Frame) : Prop :=
  0 < f.payload.length ∧ f.payload.length ≤ 100000

instance : DecidablePred Frame.Fits := fun _ => inferInstanceAs (Decidable (_ ∧ _))

/-- What `recvFrame` reports: a value that is not positive, after a timeout or
with a wrong CRC, or a frame. -/
inductive Reception where
  | nothing
  | frame (f : Frame)
  deriving DecidableEq, Repr

/-- What comes of one round of the loop in `recv`. -/
inductive Round where
  | nothing
  | reply (payload : List UInt8) (commandSequence : UInt16)
  | again
  deriving DecidableEq, Repr

def recvRound (commandSequence : UInt16) : Reception → Round
  | .nothing => .nothing
  | .frame f =>
      if f.seqno = commandSequence then .reply f.payload (nextSequence commandSequence)
      else .again

/-! ## Frames on the wire -/

theorem recvFrame_bytes {f : Frame} (fits : f.Fits) (rest : List UInt8) :
    recvFrame (f.bytes ++ rest) =
      { value := f.payload.length
        msg := some f.bytes
        seqno := some f.seqno
        rest } := by
  have nonempty : f.payload ≠ [] := List.length_pos_iff.mp fits.1
  have absent : messageStart ∉ ([] : List UInt8) := List.not_mem_nil
  exact recvFrame_behind_noise f.seqno rest nonempty fits.2 absent

theorem recv_bytes {f : Frame} (fits : f.Fits) (commandSequence : UInt16) (rest : List UInt8) :
    recv commandSequence (f.bytes ++ rest) =
      match recvRound commandSequence (.frame f) with
      | .reply payload commandSequence =>
          some
            { value := payload.length
              msg := some (payloadFirst f.bytes payload.length)
              commandSequence
              rest }
      | _ => recv commandSequence rest := by
  have received := recvFrame_bytes fits rest
  have returned : 0 < (recvFrame (f.bytes ++ rest)).value := by
    rw [received]
    exact Int.natCast_pos.mpr fits.1
  unfold recvRound
  by_cases matching : f.seqno = commandSequence
  · rw [recv_of_matching returned (by rw [received, matching]), received]
    simp [matching]
  · have other : (recvFrame (f.bytes ++ rest)).seqno ≠ some commandSequence := by
      rw [received]
      exact fun same => matching (Option.some.inj same)
    have readable : (recvFrame (f.bytes ++ rest)).msg ≠ none := by
      rw [received]
      exact Option.some_ne_none _
    rw [recv_of_other returned other fun _ => readable, received]
    simp [matching]

/-! ## Commands -/

abbrev maxJtagCommAttemps : Nat := 10
abbrev rspOk : UInt8 := 0x80
abbrev rspFailed : UInt8 := 0xA0

def isPositive (response : List UInt8) : Bool :=
  match response with
  | [] => false
  | c :: _ => rspOk ≤ c && c < rspFailed

/-- What the host is doing: nothing, or receiving after it has sent a command
for the given number of times. -/
inductive Activity where
  | idle
  | receiving (command : List UInt8) (retryOnTimeout : Bool) (tries : Nat)
  deriving DecidableEq, Repr

structure Host where
  commandSequence : UInt16
  activity : Activity
  deriving DecidableEq, Repr

/-- What the host does about one reception: it goes on receiving, it sends the
command again, or the call returns, with a response or without. -/
inductive Outcome where
  | receiving
  | resent (host : Host) (f : Frame)
  | returned (host : Host) (response : List UInt8) (result : Bool)
  | abandoned
  deriving DecidableEq, Repr

def Host.call (h : Host) (command : List UInt8) (retryOnTimeout : Bool) : Host × Frame :=
  ({ h with activity := .receiving command retryOnTimeout 1 }, ⟨h.commandSequence, command⟩)

def Host.receive (h : Host) (r : Reception) : Outcome :=
  match h.activity with
  | .idle => .abandoned
  | .receiving command retryOnTimeout tries =>
      match recvRound h.commandSequence r with
      | .again => .receiving
      | .reply response commandSequence =>
          .returned ⟨commandSequence, .idle⟩ response (isPositive response)
      | .nothing =>
          if retryOnTimeout && decide (tries < maxJtagCommAttemps) then
            .resent { h with activity := .receiving command retryOnTimeout (tries + 1) }
              ⟨h.commandSequence, command⟩
          -- no retry is wanted, or the check in sendJtagCommand fails
          else .abandoned

end Avarice.Mk2

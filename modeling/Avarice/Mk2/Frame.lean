import Avarice.Crc16
import Avarice.Utils

/-!
# Frames of the mkII

Sending and receiving one frame, as in `jtag2io.cc`.  The ICE is a finite
stream of bytes and silent afterwards, so a read gets what is left of it.
-/

namespace Avarice.Mk2

abbrev messageStart : UInt8 := 0x1b
abbrev token : UInt8 := 0x0e
abbrev maxMessage : UInt32 := 100000

/-- What `sendFrame` writes: the preamble, the command and the CRC. -/
def sendFrame (commandSequence : UInt16) (command : List UInt8) : List UInt8 :=
  let commandSize := command.length
  let buf := [messageStart] ++ u16ToB2 commandSequence ++ u32ToB4 commandSize.toUInt32 ++
    [token] ++ command
  crcappend buf (commandSize + 8)

def timeoutRead (count : Nat) (stream : List UInt8) : List UInt8 × List UInt8 :=
  (stream.take count, stream.drop count)

theorem timeoutRead_rest_lt {count : Nat} {stream : List UInt8}
    (got : (timeoutRead count stream).1.length ≠ 0) :
    (timeoutRead count stream).2.length < stream.length := by
  simp only [timeoutRead, List.length_take, List.length_drop] at got ⊢
  omega

/-! ## The byte machine -/

inductive State where
  | start | seqnum1 | seqnum2 | size1 | size2 | size3 | size4
  | token | data | csum1 | csum2 | done
  deriving DecidableEq, Repr

def State.isHeader : State → Bool
  | .data | .csum1 | .csum2 | .done => false
  | _ => true

/-- The variables of `recvFrame`.  A list holds what has been written to its
buffer, from the front. -/
structure Receiver where
  state : State := .start
  msglen : UInt32 := 0
  l : Nat := 0
  header : List UInt8 := []
  seqno : UInt16 := 0
  buf : Option (List UInt8) := none
  deriving Repr

def store (buf : List UInt8) (index : Nat) (bytes : List UInt8) : List UInt8 :=
  buf.take index ++ bytes ++ buf.drop (index + bytes.length)

def shiftMsglen (msglen : UInt32) (c : UInt8) : UInt32 :=
  msglen >>> 8 ||| c.toUInt32 <<< 24

def Receiver.accept (r : Receiver) (c : UInt8) : Option Receiver :=
  let r := if r.state.isHeader then { r with header := r.header ++ [c] } else r
  match r.state with
  | .start =>
      if c = messageStart then some { r with state := .seqnum1 }
      else some { r with header := [] }
  | .seqnum1 => some { r with seqno := c.toUInt16, state := .seqnum2 }
  | .seqnum2 => some { r with seqno := r.seqno ||| c.toUInt16 <<< 8, state := .size1 }
  | .size1 => some { r with state := .size2, msglen := shiftMsglen r.msglen c }
  | .size2 => some { r with state := .size3, msglen := shiftMsglen r.msglen c }
  | .size3 => some { r with state := .size4, msglen := shiftMsglen r.msglen c }
  | .size4 => some { r with state := .token, msglen := shiftMsglen r.msglen c }
  | .token =>
      if c = token then
        if r.msglen > maxMessage then some { r with state := .start, header := [] }
        else some { r with state := .data, buf := some r.header }
      else some { r with state := .start, header := [] }
  | .csum1 =>
      some { r with buf := r.buf.map (store · r.l [c]), l := r.l + 1, state := .csum2 }
  | .csum2 =>
      let buf := r.buf.map (store · r.l [c])
      if crcverify (buf.getD []) (r.msglen.toNat + 10) then
        some { r with buf, l := r.l + 1, state := .done }
      else none
  | .data | .done => none

/-- What `recvFrame` returns: its value, and the variables of the caller, where
nothing means that the sequence number is left as it was. -/
structure Received where
  value : Int
  msg : Option (List UInt8)
  seqno : Option UInt16
  rest : List UInt8
  deriving DecidableEq, Repr

/-- The way out of the loop that is taken for a frame and for a timeout. -/
def Receiver.leave (r : Receiver) (rest : List UInt8) : Received where
  value := r.msglen.toBitVec.toInt
  msg := r.buf
  seqno := some r.seqno
  rest := rest

def checksumError (rest : List UInt8) : Received where
  value := -1
  msg := none
  seqno := none
  rest := rest

def Receiver.loop (r : Receiver) (stream : List UInt8) : Received :=
  if r.state = .done then r.leave stream
  else if r.state = .data then
    let read := timeoutRead r.msglen.toNat stream
    if _timedOut : read.1.length = 0 then r.leave read.2
    else
      { r with
        buf := r.buf.map (store · 8 read.1)
        l := r.msglen.toNat + 8
        state := .csum1 : Receiver }.loop read.2
  else
    match stream with
    | [] => r.leave []
    | c :: rest =>
        match r.accept c with
        | none => checksumError rest
        | some r => r.loop rest
termination_by stream.length
decreasing_by
  · exact timeoutRead_rest_lt _timedOut
  · exact Nat.lt_succ_self _

def recvFrame (stream : List UInt8) : Received :=
  ({} : Receiver).loop stream

end Avarice.Mk2

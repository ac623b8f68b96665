import Avarice.Gdb.Connection
import Avarice.Gdb.Interrupt
import Avarice.Gdb.Registers

/-!
# The handler of packets

All branches of `talkToGdb` of `remote.cc`, over the operations of the classes for
the two protocols.  They are called one after the other, and a packet is answered
by a reply, with console packets in front of it.
-/

namespace Avarice.Gdb.Handler

open Throwing IoRegisters
open Registers (okIf)
open ReplyBuffer (parseBreakpoint parseRead queryName sigHup sigInt sigTrap)

/-- The operations of an ICE.  Those that talk to it may throw. -/
structure Target (State : Type) extends Registers.Jtag State where
  codeBreakpointAt : State → UInt32 → Bool
  addBreakpoint : State → UInt32 → BpType → UInt32 → Bool × State
  deleteBreakpoint : State → UInt32 → BpType → UInt32 → Bool × State
  jtagSingleStep : State → Called State Bool
  jtagContinue : State → Called State Bool
  interruptProgram : State → Called State Bool
  resumeProgram : State → Called State Bool
  resetProgram : State → (possibleReset : Bool) → Called State Bool

/-- What stepping over an interrupt uses. -/
def Target.forInterrupt {State : Type} (target : Target State) : Interrupt.Jtag State where
  codeBreakpointAt := target.codeBreakpointAt
  addBreakpoint := target.addBreakpoint
  deleteBreakpoint := target.deleteBreakpoint
  jtagContinue := target.jtagContinue
  jtagRead s addr count := target.jtagRead s addr count.toUInt32

/-- The device, the options, the memory that is read in front of a table or from a
buffer that has not been filled, and a bound for the loops, whose calls count as
throwing when they are not over by then. -/
structure Env where
  ioRegDefs : Option (List IoRegister)
  vectorsEnd : UInt32
  ignoreInterrupts : Bool
  stray : Nat → IoRegister
  heap : Nat → UInt8
  rounds : Nat

/-- The packets that are put. -/
structure Replies where
  console : List (List Char) := []
  /-- There is none where `dontSendReply` is set. -/
  reply : Option (List Char)
  deriving DecidableEq, Repr

def Replies.packets (replies : Replies) : List (List Char) :=
  replies.console ++ replies.reply.toList

/-- A message where a call has failed. -/
def messageUnless (success : Bool) (text : String) : List (List Char) :=
  if success then [] else [gdbOut text.toList]

def toAddress (addr : UInt32) : UInt64 := addr.toInt32.toInt64.toUInt64

section Program

variable {State : Type} (env : Env) (target : Target State)

def replied (call : Called State (List Char)) : Called State Replies :=
  call.andThen fun reply s => ⟨some { reply := some reply }, s⟩

def reply (text : List Char) (s : State) : Called State Replies :=
  ⟨some { reply := some text }, s⟩

def readMemory (s : State) (ptr : List Char) : Called State (List Char) :=
  match parseRead ptr with
  | none => ⟨some (Registers.error 1), s⟩
  | some (addr, length) =>
      (target.jtagRead s (toAddress addr) length).andThen fun buffer s =>
        ⟨some (buffer.elim (Registers.error 1) fun buffer =>
          ReplyBuffer.memoryText buffer length), s⟩

/-- Whether there is a reason to stop, with the messages put before. -/
def singleStep (s : State) : Called State (List (List Char) × Bool) :=
  (target.jtagSingleStep s).andThen fun success s =>
  let console := messageUnless success "Failed to single-step"
  (target.getProgramCounter s).andThen fun newPC s =>
  if target.codeBreakpointAt s newPC.toUInt32 then ⟨some (console, true), s⟩
  -- assume interrupt when PC goes into interrupt table
  else if env.ignoreInterrupts ∧ newPC.toUInt32 < env.vectorsEnd then
    let call := Interrupt.handleInterrupt target.forInterrupt env.rounds s
    ⟨call.value.join.map fun result => (console, result), call.state⟩
  else ⟨some (console, true), s⟩

def repStatus (s : State) (breaktime : Bool) : Called State (List Char) :=
  if breaktime then Registers.reportStatusExtended target.toJtag s sigTrap
  else
    (target.interruptProgram s).andThen fun _ s =>
      Registers.reportStatusExtended target.toJtag s sigInt

def atAddress (s : State) (ptr : List Char) : Called State (List (List Char)) :=
  let (digits, addr, _) := hexToInt ptr
  if digits ≠ 0 then
    (target.setProgramCounter s (toAddress addr)).andThen fun success s =>
      ⟨some (messageUnless success "Failed to set PC"), s⟩
  else ⟨some [], s⟩

/-- The loop of a query.  A round makes one read at the most. -/
def queryLoop (ioRegDefs : List IoRegister) :
    (rounds : Nat) → Query → State → Called State (List Char)
  | 0, _, s => ⟨none, s⟩
  | rounds + 1, q, s =>
      let read (addr count : Nat) := target.jtagRead s addr.toUInt64 count.toUInt32
      match q.body ioRegDefs fun _ addr count => (read addr count).value.getD none with
      | .leave _ => ⟨some q.reply, s⟩
      | .again next =>
          if next.reads.length = q.reads.length then queryLoop ioRegDefs rounds next s
          else
            let (addr, count) := next.reads.getLastD (0, 0)
            (read addr count).andThen fun _ s => queryLoop ioRegDefs rounds next s

def queryRegisters (s : State) (ptr : List Char) : Called State (List Char) :=
  match env.ioRegDefs with
  | none => ⟨some [], s⟩
  | some ioRegDefs =>
      match ptr with
      | [] => ⟨some (twoDigits (ioRegDefs.length % 2 ^ 32)), s⟩
      | ':' :: ptr =>
          let (i, j) := requested ptr
          queryLoop target (tableFrom i env.stray ioRegDefs) env.rounds (.start i.toNat j.toNat) s
      | _ => ⟨some [], s⟩

def breakpointType (kind : UInt32) : Option BpType :=
  if kind ≤ 1 then some .code
  else if kind = 2 then some .writeData
  else if kind = 3 then some .readData
  else if kind = 4 then some .accessData
  else none

/-- The packets `Z` and `z`.  Another kind ends the program. -/
def changeBreakpoint (change : State → UInt32 → BpType → UInt32 → Bool × State) (s : State)
    (ptr : List Char) : Called State (List Char) :=
  match parseBreakpoint ptr with
  | none => ⟨some (Registers.error 1), s⟩
  | some (kind, addr, length) =>
      match breakpointType kind with
      | none => ⟨none, s⟩
      | some mode =>
          let (success, s) := change s addr mode length
          okIf ⟨some success, s⟩

def continueSignal (s : State) (ptr : List Char) : Called State (List Char) :=
  let (digits, sig, _) := hexToInt ptr
  if digits ≠ 0 ∧ sig = sigHup then
    (target.resetProgram s false).andThen fun success s =>
      if success then Registers.reportStatusExtended target.toJtag s sigTrap else ⟨some [], s⟩
  else ⟨some [], s⟩

/-- What is done for a packet, for which the write has been put together. -/
def answer (write : Option Write) (s : State) (packet : List Char) : Called State Replies :=
  match packet with
  | 'k' :: _ => ⟨some { reply := none }, s⟩
  | 'R' :: _ =>
      (target.resetProgram s false).andThen fun success s =>
        ⟨some { console := messageUnless success "reset failed\n", reply := none }, s⟩
  | '!' :: _ => reply Registers.ok s
  | 'M' :: _ =>
      match write with
      | none => reply (Registers.error 1) s
      | some write =>
          replied (okIf (target.jtagWrite s (UInt64.ofInt write.addr) write.bytes))
  | 'm' :: ptr => replied (readMemory target s ptr)
  | '?' :: _ => reply ('S' :: byteToHex sigTrap) s
  | 'g' :: _ => replied (Registers.readRegisters target.toJtag s)
  | 'q' :: ptr =>
      if ptr.take queryName.length = queryName then
        replied (queryRegisters env target s (ptr.drop queryName.length))
      else reply [] s
  | 'P' :: ptr => replied (Registers.writeRegister target.toJtag s ptr)
  | 'G' :: _ => reply (Registers.error 1) s
  | 's' :: ptr =>
      (atAddress target s ptr).andThen fun set s =>
      (singleStep env target s).andThen fun (stepped, breaktime) s =>
      (repStatus target s breaktime).andThen fun status s =>
      ⟨some { console := set ++ stepped, reply := some status }, s⟩
  | 'C' :: ptr => replied (continueSignal target s ptr)
  | 'c' :: ptr =>
      (atAddress target s ptr).andThen fun set s =>
      (target.jtagContinue s).andThen fun breaktime s =>
      (repStatus target s breaktime).andThen fun status s =>
      ⟨some { console := set, reply := some status }, s⟩
  | 'D' :: _ =>
      (target.resumeProgram s).andThen fun success s =>
        reply (if success then Registers.ok else Registers.error 1) s
  | 'Z' :: ptr => replied (changeBreakpoint target.addBreakpoint s ptr)
  | 'z' :: ptr => replied (changeBreakpoint target.deleteBreakpoint s ptr)
  | _ => reply [] s

structure GdbRemote (State : Type) where
  remote : Remote
  target : State

def talkToGdb (s : GdbRemote State) (packet : List Char) : Called (GdbRemote State) Replies :=
  let (remote, write) := s.remote.talkToGdb ⟨packet, env.heap⟩
  let call := answer env target write s.target packet
  ⟨call.value, ⟨remote, call.state⟩⟩

def handler : Connection.Handler (GdbRemote State) := fun s text =>
  (talkToGdb env target s (ofBytes text)).andThen fun replies s =>
    ⟨some (replies.packets.map toBytes), s⟩

end Program

end Avarice.Gdb.Handler

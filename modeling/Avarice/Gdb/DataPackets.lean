import Avarice.Gdb.DataMemory
import Avarice.Gdb.Sessions
import Avarice.Mk1.LossyMemory
import Avarice.Mk2.LossyMemory

/-!
# Packets for data memory

The packets `m` and `M` for data memory, character by character: the replies are
those of a memory.
-/

namespace Avarice.Gdb.DataMemory

open Throwing PagedMemory Serving Storage
open Handler (Env GdbRemote Replies Target handler sentFor talkToGdb)
open Connection (Turn)
open Sessions (Meaning Realizes)

/-- A packet for data memory.  A reply with the bytes read fits its buffer. -/
inductive Asks : (packet : List Char) → Access UInt8 → Prop
  | read {ptr : List Char} {addr length : UInt32} {start : Nat}
      (parsed : ReplyBuffer.parseRead ptr = some (addr, length))
      (address : addr.toNat = 0x800000 + start) (fits : length.toNat ≤ 199) :
      Asks ('m' :: ptr) (.read start length.toNat)
  | write {ptr : List Char} {request : Request} {start : Nat}
      (parsed : parseWrite ptr = some request) (address : request.addr = 0x800000 + start) :
      Asks ('M' :: ptr) (.write start request.payload)

def replyText : Access UInt8 → (answer : Option (List UInt8)) → List Char
  | .read _ _, some bytes => mem2hex bytes
  | .write _ _, some _ => Registers.ok
  | _, none => Registers.error 1

/-- Packets for data memory as accesses. -/
def dataMeaning : Meaning (Access UInt8) (Option (List UInt8)) where
  Asks := Asks
  reply access answer := { reply := some (replyText access answer) }

section Packets

variable {State Held : Type} {env : Env} {target : Target State} {held : State → Held}
  {serves : Held → Access UInt8 → Option (List UInt8) → Held → Prop} {Ready : State → Prop}

theorem toNat_toAddress {addr : UInt32} (small : addr.toNat < 2 ^ 31) :
    (Handler.toAddress addr).toNat = addr.toNat := by
  have positive : addr.toBitVec.msb = false :=
    BitVec.msb_eq_false_iff_two_mul_lt.mpr (by simpa using by omega)
  have extended := @BitVec.signExtend_eq_setWidth_of_msb_false 32 _ 64 positive
  have width := addr.toNat_lt
  calc (Handler.toAddress addr).toNat
      = (addr.toBitVec.signExtend 64).toNat := rfl
    _ = addr.toNat := by
      rw [extended, BitVec.toNat_setWidth]
      exact Nat.mod_eq_of_lt (by simp; omega)

theorem toNat_dataAddress {start : Nat} (small : start < 0x10000) :
    (dataAddress start).toNat = 0x800000 + start := by
  have same : start.toUInt64.toNat = start :=
    UInt64.toNat_ofNat_of_lt' (Nat.lt_trans small (by decide))
  rw [dataAddress, UInt64.toNat_add]
  show (start.toUInt64.toNat + 0x800000) % 2 ^ 64 = _
  omega

theorem toAddress_data {addr : UInt32} {start : Nat} (address : addr.toNat = 0x800000 + start)
    (small : start < 0x10000) : Handler.toAddress addr = dataAddress start := by
  rw [← UInt64.toNat_inj, toNat_toAddress (by omega), toNat_dataAddress small, address]

theorem ofInt_data {start : Nat} (small : start < 0x10000) :
    UInt64.ofInt (0x800000 + start) = dataAddress start := by
  have whole : ((0x800000 + start : Int) % 2 ^ 64).toNat = 0x800000 + start := by omega
  rw [← UInt64.toNat_inj, toNat_dataAddress small, UInt64.ofInt, whole]
  exact UInt64.toNat_ofNat_of_lt' (Nat.lt_trans (by omega : _ < 0x900000) (by decide))

theorem toInt_of_small {n : UInt32} (small : n.toNat < 2 ^ 31) : n.toInt32.toInt = n.toNat := by
  have positive : n.toBitVec.msb = false :=
    BitVec.msb_eq_false_iff_two_mul_lt.mpr (by simpa using by omega)
  exact BitVec.toInt_eq_toNat_of_msb positive

theorem memoryText_slice {buffer : List UInt8} {length : UInt32} (small : length.toNat ≤ 199)
    {contents : Nat → UInt8} {start : Nat}
    (read : buffer.take length.toNat = slice contents start length.toNat) :
    ReplyBuffer.memoryText buffer length = mem2hex (slice contents start length.toNat) := by
  have number : length.toInt32.toInt.toNat = length.toNat := by
    rw [toInt_of_small (by omega)]
    rfl
  have used := Registers.map_getD_range
    (@slice_length _ contents start length.toNat) (buffer.drop length.toNat)
  rw [← read, List.take_append_drop] at used
  rw [ReplyBuffer.memoryText, number, used, read]

theorem ends_replied {call : Called State (List Char)} {remote : Remote}
    {returned : Replies → GdbRemote State → Prop} {threw : GdbRemote State → Prop}
    (ends : Called.Ends (fun text after => returned { reply := some text } ⟨remote, after⟩)
      (fun after => threw ⟨remote, after⟩) call) :
    Called.Ends returned threw
      ⟨(Handler.replied call).value, ⟨remote, (Handler.replied call).state⟩⟩ := by
  rw [Handler.replied]
  cases outcome : call.value with
  | none =>
      rw [Called.andThen_of_threw outcome]
      exact ⟨nofun, fun _ => ends.threw outcome⟩
  | some text =>
      rw [Called.andThen_of_returned outcome]
      exact Called.ends_return (ends.returned text outcome)

theorem data_realizes
    (implements : Implements (dataAccess target.toJtag) held serves Ready InData)
    (answers : ∀ h access answer after, serves h access answer after →
      ∃ memory next, Serves memory access answer next) :
    Realizes env target held serves dataMeaning Ready InData := by
  intro s packet access awaits asks inData
  have ends := implements s.target access awaits.ready inData
  cases asks with
  | @read ptr addr length start parsed address fits =>
      have small : start < 0x10000 := by
        have := inData.within
        have := inData.some
        simp only [Access.last, Access.size] at *
        omega
      have called : talkToGdb env target s ('m' :: ptr) =
          let call := (target.jtagRead s.target (dataAddress start) length).andThen
            fun buffer s => ⟨some (buffer.elim (Registers.error 1) fun buffer =>
              ReplyBuffer.memoryText buffer length), s⟩
          ⟨(Handler.replied call).value,
            ⟨{ s.remote with lastCmd := 'm' }, (Handler.replied call).state⟩⟩ := by
        rw [← toAddress_data address small]
        simp only [talkToGdb, Handler.answer, Handler.readMemory, parsed]
        rfl
      rw [called]
      have counted : length.toNat.toUInt32 = length := UInt32.ofNat_toNat
      simp only [dataAccess, counted] at ends
      refine ends_replied (ends.map fun buffer after kept => ⟨⟨awaits.alone, kept.1⟩, ?_⟩)
      have served := kept.2
      cases buffer with
      | none => exact ⟨none, rfl, served⟩
      | some buffer =>
          obtain ⟨memory, next, read, _⟩ := answers _ _ _ _ served
          have read : buffer.take length.toNat = slice memory start length.toNat := read
          refine ⟨some (buffer.take length.toNat), ?_, served⟩
          show Replies.mk [] (some (ReplyBuffer.memoryText buffer length)) =
            ⟨[], some (mem2hex (buffer.take length.toNat))⟩
          rw [memoryText_slice fits read, read]
  | @write ptr request start parsed address =>
      have small : start < 0x10000 := by
        have := inData.within
        have := inData.some
        simp only [Access.last, Access.size] at *
        omega
      have notLeads : ¬s.remote.Leads request := fun leads =>
        Bool.false_ne_true (awaits.alone.symm.trans leads.2.2)
      have isData : ¬request.LeavesOrphan := fun leaves => by
        have := leaves.1
        rw [address] at this
        simp only [dataSpaceAddrOffset] at this
        omega
      obtain ⟨made, pending⟩ := write_of_not_leads notLeads env.heap
      rw [decide_eq_false isData] at pending
      have called : talkToGdb env target s ('M' :: ptr) =
          let call := Registers.okIf (target.jtagWrite s.target (dataAddress start) request.payload)
          ⟨(Handler.replied call).value,
            ⟨{ (s.remote.write env.heap request).1 with lastCmd := 'M' },
              (Handler.replied call).state⟩⟩ := by
        have words : request.words = request.payload := if_neg isData
        simp only [talkToGdb, Remote.talkToGdb, Packet.request, Packet.cmd, List.headD_cons,
          List.tail_cons, if_pos, parsed, Handler.answer, made, words, address, ofInt_data small]
      rw [called]
      simp only [dataAccess] at ends
      refine ends_replied (ends.map fun success after kept => ⟨⟨pending, kept.1⟩, ?_⟩)
      have served := kept.2
      cases success with
      | false => exact ⟨none, rfl, served⟩
      | true => exact ⟨some [], rfl, served⟩

end Packets

theorem memory_serve {State : Type} {target : Target State} {memory : State → Nat → UInt8}
    {Ready : State → Prop} (keeps : KeepsMemory target.toJtag memory Ready) (env : Env)
    {turns : List Turn} (valid : ∀ turn ∈ turns, turn.Valid) {accesses : List (Access UInt8)}
    (asks : dataMeaning.AsksAll turns accesses) (inData : ∀ access ∈ accesses, InData access)
    (stack : Nat → Nat → Nat → UInt8) {buffer : CArray UInt8 bufMax}
    (clear : buffer.peek 2 ≠ colon) {s : State} (ready : Ready s)
    (rest : List UInt8) :
    let (sent, server) := Connection.serve (handler env target) stack turns.length
      ⟨buffer, ⟨.start, s⟩, Connection.stream (handler env target) ⟨.start, s⟩ turns rest⟩
    ∃ answers last, sent = sentFor stack turns (dataMeaning.replies accesses answers) ∧
      Consistent (memory s) accesses answers last ∧
      ∀ after, server = some after → answers.length = accesses.length ∧
        memory after.state.target = last ∧ after.input = rest := by
  have realizes := @data_realizes _ _ env _ _ _ _ keeps fun _ _ _ _ served => ⟨_, _, served⟩
  obtain ⟨answers, last, sent, explained, left⟩ :=
    realizes.serve valid asks inData stack clear (s := ⟨.start, s⟩) ⟨rfl, ready⟩ rest
  exact ⟨answers, last, sent, consistent_of_explained explained, left⟩

def stillTarget {State : Type} (jtag : Registers.Jtag State) : Target State where
  toJtag := jtag
  codeBreakpointAt _ _ := false
  addBreakpoint s _ _ _ := (false, s)
  deleteBreakpoint s _ _ _ := (false, s)
  jtagSingleStep s := ⟨none, s⟩
  jtagContinue s := ⟨none, s⟩
  interruptProgram s := ⟨none, s⟩
  resumeProgram s := ⟨none, s⟩
  resetProgram s _ := ⟨none, s⟩

def dataTurns : List Turn :=
  [.of (toBytes "M800060,2:0102".toList), .of (toBytes "m800060,2".toList)]

theorem dataTurns_valid : ∀ turn ∈ dataTurns, turn.Valid :=
  List.forall_mem_cons.mpr ⟨Turn.of_valid ⟨⟨by decide, by decide, by decide, by decide⟩, by decide⟩,
    List.forall_mem_singleton.mpr
      (Turn.of_valid ⟨⟨by decide, by decide, by decide, by decide⟩, by decide⟩)⟩

theorem dataTurns_asks : dataMeaning.AsksAll dataTurns [.write 0x60 [1, 2], .read 0x60 2] := by
  refine .cons ?_ (.cons ?_ .nil)
  · exact @Asks.write "800060,2:0102".toList ⟨0x800060, 2, "0102".toList⟩ 0x60 rfl rfl
  · exact @Asks.read "800060,2".toList 0x800060 2 0x60 (by decide) rfl (by decide)

end Avarice.Gdb.DataMemory

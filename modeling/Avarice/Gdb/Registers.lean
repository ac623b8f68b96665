import Avarice.AddressSpace
import Avarice.Gdb.ReplyBuffer
import Avarice.Library.PagedMemory
import Avarice.Utils
import Mathlib.Tactic.IntervalCases

/-!
# Views of the registers

The packets `P` and `g` and the stop reply of `remote.cc`, over what they use of
the classes for the two protocols.  Registers are in data memory, apart from the
program counter, and each of the three has a layout of its own.
-/

namespace Avarice.Gdb.Registers

open Throwing PagedMemory
open ReplyBuffer (pcBytes pcInvalid regBuffer statusText)

/-- The operations of an ICE that are used.  They may throw, and nothing stands
for `NULL`. -/
structure Jtag (State : Type) where
  jtagRead : State → (addr : UInt64) → (numBytes : UInt32) → Called State (Option (List UInt8))
  jtagWrite : State → (addr : UInt64) → (buffer : List UInt8) → Called State Bool
  getProgramCounter : State → Called State UInt64
  setProgramCounter : State → (pc : UInt64) → Called State Bool

abbrev numRegs : UInt32 := 32
abbrev sreg : UInt32 := 32
abbrev sp : UInt32 := 33
abbrev pc : UInt32 := 34

def ok : List Char := "OK".toList

def error (n : UInt8) : List Char := 'E' :: byteToHex n

/-- The number that four bytes make, low byte first.  It is an `int`, which is
converted to `unsigned long`. -/
def pcOfBytes (reg : List UInt8) : UInt64 :=
  let number := (reg.getD 0 0).toUInt32 ||| (reg.getD 1 0).toUInt32 <<< 8 |||
    (reg.getD 2 0).toUInt32 <<< 16 ||| (reg.getD 3 0).toUInt32 <<< 24
  number.toInt32.toInt64.toUInt64

section Program

variable {State : Type} (jtag : Jtag State)

/-- The error stands there already. -/
def okIf (written : Called State Bool) : Called State (List Char) :=
  written.andThen fun success s => ⟨some (if success then ok else error 1), s⟩

/-- The packet `P`, with the text behind this letter. -/
def writeRegister (s : State) (ptr : List Char) : Called State (List Char) :=
  let (digits, regno, ptr) := hexToInt ptr
  if digits ≠ 0 ∧ ptr.head? = some '=' then
    let ptr := ptr.drop 1
    if regno < numRegs then
      okIf (jtag.jtagWrite s (regno.toUInt64 + Avarice.dataSpaceAddrOffset) (hex2mem ptr 1))
    else if regno = sreg then
      okIf (jtag.jtagWrite s (0x5f + Avarice.dataSpaceAddrOffset) (hex2mem ptr 1))
    else if regno = sp then
      okIf (jtag.jtagWrite s (0x5d + Avarice.dataSpaceAddrOffset) (hex2mem ptr 2))
    else if regno = pc then okIf (jtag.setProgramCounter s (pcOfBytes (hex2mem ptr 4)))
    else ⟨some (error 1), s⟩
  else ⟨some (error 1), s⟩

/-- The packet `g`. -/
def readRegisters (s : State) : Called State (List Char) :=
  (jtag.jtagRead s (0x00 + Avarice.dataSpaceAddrOffset) 0x20).andThen fun registers s =>
  match registers with
  | none => ⟨some (error 1), s⟩
  | some registers =>
      (jtag.jtagRead s (0x5d + Avarice.dataSpaceAddrOffset) 3).andThen fun stack s =>
      match stack with
      | none => ⟨some (error 1), s⟩
      | some stack =>
          (jtag.getProgramCounter s).andThen fun newPC s =>
          let newPC := newPC.toUInt32
          ⟨some (if newPC = pcInvalid then error 1 else mem2hex (regBuffer registers stack newPC)),
            s⟩

def reportStatusExtended (s : State) (sigval : UInt8) : Called State (List Char) :=
  (jtag.getProgramCounter s).andThen fun pc s =>
  (jtag.jtagRead s (0x5d + Avarice.dataSpaceAddrOffset) 3).andThen fun jtagBuffer s =>
  ⟨some (jtagBuffer.elim (error 1) fun jtagBuffer => statusText sigval jtagBuffer pc.toUInt32), s⟩

end Program

/-! ## The replies are those in the buffer -/

section Buffer

variable {State Value : Type} {jtag : Jtag State} {out : ReplyBuffer.OutBuffer}

def Stores (reply : Option (List Char)) (stored : ReplyBuffer.Reply) : Prop :=
  ∀ text, reply = some text → stored.state.text = text

theorem stores_text (text : List Char) :
    Stores (some text) (ReplyBuffer.done (out.put text)) :=
  fun _ same => Option.some.inj same

theorem stores_andThen {call : Called State Value} {rest : Value → State → Called State (List Char)}
    {stored : Value → ReplyBuffer.Reply}
    (later : ∀ value, Stores (rest value call.state).value (stored value)) :
    Stores (call.andThen rest).value (ReplyBuffer.after call.value out stored) := by
  intro text returned
  cases outcome : call.value with
  | none =>
      rw [Called.andThen_of_threw outcome] at returned
      cases returned
  | some value =>
      rw [Called.andThen_of_returned outcome] at returned
      exact later value text returned

theorem stores_getProgramCounter {call : Called State UInt64}
    {rest : UInt64 → State → Called State (List Char)} {stored : UInt32 → ReplyBuffer.Reply}
    (later : ∀ pc, Stores (rest pc call.state).value (stored pc.toUInt32)) :
    Stores (call.andThen rest).value
      (ReplyBuffer.after (call.value.map UInt64.toUInt32) out stored) := by
  have narrowed : ReplyBuffer.after (call.value.map UInt64.toUInt32) out stored =
      ReplyBuffer.after call.value out fun pc => stored pc.toUInt32 := by
    cases call.value <;> rfl
  rw [narrowed]
  exact stores_andThen later

def readResults (first second : Option (Option (List UInt8))) (pc : Option UInt64) :
    ReplyBuffer.Results where
  jtagRead call := if call = 0 then first else second
  jtagWrite := none
  getProgramCounter := pc.map UInt64.toUInt32
  setProgramCounter := none
  resetProgram := none
  singleStep := none
  jtagContinue := none
  interruptProgram := none
  resumeProgram := none
  addBreakpoint := none
  deleteBreakpoint := none

variable (jtag) in
def registersResults (s : State) : ReplyBuffer.Results :=
  let first := jtag.jtagRead s (0x00 + Avarice.dataSpaceAddrOffset) 0x20
  let second := jtag.jtagRead first.state (0x5d + Avarice.dataSpaceAddrOffset) 3
  readResults first.value second.value (jtag.getProgramCounter second.state).value

theorem readRegisters_stores (s : State) :
    Stores (readRegisters jtag s).value
      (ReplyBuffer.readRegisters (registersResults jtag s) out) := by
  refine stores_andThen fun registers => ?_
  cases registers with
  | none => exact stores_text (error 1)
  | some registers =>
      refine stores_andThen fun stack => ?_
      cases stack with
      | none => exact stores_text (error 1)
      | some stack =>
          refine stores_getProgramCounter fun newPC => ?_
          dsimp only
          by_cases invalid : newPC.toUInt32 = pcInvalid
          · rw [if_pos invalid, if_pos invalid]
            exact stores_text (error 1)
          · rw [if_neg invalid, if_neg invalid]
            exact stores_text _

variable (jtag) in
def statusResults (s : State) : ReplyBuffer.Results :=
  let counter := jtag.getProgramCounter s
  let read := jtag.jtagRead counter.state (0x5d + Avarice.dataSpaceAddrOffset) 3
  readResults read.value read.value counter.value

theorem reportStatusExtended_stores (s : State) (sigval : UInt8) :
    Stores (reportStatusExtended jtag s sigval).value
      (ReplyBuffer.reportStatusExtended (statusResults jtag s) sigval out) := by
  refine stores_getProgramCounter fun pc => stores_andThen fun jtagBuffer => ?_
  cases jtagBuffer with
  | none => exact stores_text (error 1)
  | some jtagBuffer => exact stores_text _

theorem okIf_stores (written : Called State Bool) :
    Stores (okIf written).value
      (ReplyBuffer.okIf written.value (out.put (error 1))) := by
  refine stores_andThen fun success => ?_
  cases success with
  | true => exact stores_text ok
  | false => exact fun _ same => Option.some.inj same

variable (jtag) in
def writeResults (s : State) (regno : UInt32) (ptr : List Char) : ReplyBuffer.Results :=
  { readResults none none none with
    jtagWrite :=
      if regno < numRegs then
        (jtag.jtagWrite s (regno.toUInt64 + Avarice.dataSpaceAddrOffset) (hex2mem ptr 1)).value
      else if regno = sreg then
        (jtag.jtagWrite s (0x5f + Avarice.dataSpaceAddrOffset) (hex2mem ptr 1)).value
      else (jtag.jtagWrite s (0x5d + Avarice.dataSpaceAddrOffset) (hex2mem ptr 2)).value
    setProgramCounter := (jtag.setProgramCounter s (pcOfBytes (hex2mem ptr 4))).value }

theorem writeRegister_stores (s : State) (ptr : List Char) :
    Stores (writeRegister jtag s ptr).value
      (ReplyBuffer.writeRegister
        (writeResults jtag s (hexToInt ptr).2.1 ((hexToInt ptr).2.2.drop 1)) ptr out) := by
  rcases parsed : hexToInt ptr with ⟨digits, regno, text⟩
  simp only [writeRegister, ReplyBuffer.writeRegister, writeResults, parsed]
  by_cases valid : digits ≠ 0 ∧ text.head? = some '='
  · simp only [if_pos valid]
    by_cases general : regno < numRegs
    · have low : regno ≤ 33 := UInt32.le_of_lt (UInt32.lt_trans general (by decide))
      simp only [if_pos general, if_pos low]
      exact okIf_stores _
    simp only [if_neg general]
    by_cases isSreg : regno = sreg
    · subst isSreg
      exact okIf_stores _
    simp only [if_neg isSreg]
    by_cases isSp : regno = sp
    · subst isSp
      exact okIf_stores _
    simp only [if_neg isSp]
    by_cases isPc : regno = pc
    · subst isPc
      exact okIf_stores _
    have high : ¬regno ≤ 33 := by grind
    simp only [if_neg isPc, if_neg high]
    exact stores_text (error 1)
  · simp only [if_neg valid]
    exact stores_text (error 1)

end Buffer

/-! ## Ideal targets -/

/-- What a target holds: its data memory, and the program counter as a byte
address. -/
structure Contents where
  data : Nat → UInt8
  counter : UInt32

def Contents.store (c : Contents) (start : Nat) (bytes : List UInt8) : Contents :=
  { c with data := overwrite c.data start bytes }

structure Ideal {State : Type} (jtag : Jtag State) (contents : State → Contents) : Prop where
  read : ∀ s (start : UInt64) (numBytes : UInt32), numBytes ≠ 0 →
    start.toNat + numBytes.toNat ≤ 0x60 →
      ∃ rest, (jtag.jtagRead s (start + Avarice.dataSpaceAddrOffset) numBytes).value =
        some (some (slice (contents s).data start.toNat numBytes.toNat ++ rest))
  readState : ∀ s (start : UInt64) (numBytes : UInt32), numBytes ≠ 0 →
    start.toNat + numBytes.toNat ≤ 0x60 →
      contents (jtag.jtagRead s (start + Avarice.dataSpaceAddrOffset) numBytes).state = contents s
  write : ∀ s (start : UInt64) (buffer : List UInt8), buffer ≠ [] →
    start.toNat + buffer.length ≤ 0x60 →
      (jtag.jtagWrite s (start + Avarice.dataSpaceAddrOffset) buffer).value = some true →
        contents (jtag.jtagWrite s (start + Avarice.dataSpaceAddrOffset) buffer).state =
          (contents s).store start.toNat buffer
  getCounter : ∀ s, ∃ pc, (jtag.getProgramCounter s).value = some pc ∧
    pc.toUInt32 = (contents s).counter
  getState : ∀ s, contents (jtag.getProgramCounter s).state = contents s
  setCounter : ∀ s (pc : UInt64), pc.toNat % 2 = 0 → pc.toNat < 2 ^ 24 →
    (jtag.setProgramCounter s pc).value = some true →
      contents (jtag.setProgramCounter s pc).state = { contents s with counter := pc.toUInt32 }
  valid : ∀ s, (contents s).counter ≠ pcInvalid

/-! ## The three layouts -/

/-- The bytes of all registers, in the order of the packet `g`. -/
def Contents.registers (c : Contents) : List UInt8 :=
  slice c.data 0 0x20 ++ [c.data 0x5f, c.data 0x5d, c.data 0x5e] ++ pcBytes c.counter

def position (r : Nat) : Nat := if r ≤ 33 then r else 35

def width (r : Nat) : Nat := if r ≤ 32 then 1 else if r = 33 then 2 else 4

def field (registers : List UInt8) (r : Nat) : List UInt8 :=
  (registers.drop (position r)).take (width r)

/-- The text behind `P` says that a register gets a value: one of its width, and
for the program counter an even one below 2^24. -/
structure Assigns (ptr : List Char) (r : Nat) (v : List UInt8) : Prop where
  digits : (hexToInt ptr).1 ≠ 0
  regno : (hexToInt ptr).2.1.toNat = r
  known : r ≤ 34
  equals : (hexToInt ptr).2.2.head? = some '='
  bytes : hex2mem ((hexToInt ptr).2.2.drop 1) (width r) = v
  counter : r = 34 →
    let number := b4ToU32 (v.getD 0 0) (v.getD 1 0) (v.getD 2 0) (v.getD 3 0)
    number.toNat % 2 = 0 ∧ number.toNat < 2 ^ 24

def stopReply (sigval : UInt8) (registers : List UInt8) : List Char :=
  'T' :: byteToHex sigval ++ "20:".toList ++ mem2hex (field registers 0x20) ++
    ";21:".toList ++ mem2hex (field registers 0x21) ++ ";22:".toList ++
    mem2hex (field registers 0x22) ++ ";".toList

structure Shows {State : Type} (jtag : Jtag State) (s : State) (registers : List UInt8) :
    Prop where
  length : registers.length = 39
  all : ∃ reply, (readRegisters jtag s).value = some reply ∧ reply.length = 2 * 39 ∧
    hex2mem reply 39 = registers
  stop : ∀ sigval, (reportStatusExtended jtag s sigval).value = some (stopReply sigval registers)

/-- The views of the registers agree in a state, looking at them changes nothing,
and a register that has been written shows what it got, the others what they
had. -/
def ViewsAgree {State : Type} (jtag : Jtag State) (s : State) : Prop :=
  ∃ registers, Shows jtag s registers ∧ Shows jtag (readRegisters jtag s).state registers ∧
    (∀ sigval, Shows jtag (reportStatusExtended jtag s sigval).state registers) ∧
    ∀ ptr r v, Assigns ptr r v → (writeRegister jtag s ptr).value = some ok →
      Shows jtag (writeRegister jtag s ptr).state (patch registers (position r) v)

section Layouts

variable {c : Contents}

@[simp]
theorem registers_length : c.registers.length = 39 := by
  simp [Contents.registers, pcBytes]

theorem map_getD_range {bytes : List UInt8} {count : Nat} (length : bytes.length = count)
    (rest : List UInt8) : (List.range count).map ((bytes ++ rest).getD · 0) = bytes := by
  refine List.ext_getElem (by simp [length]) fun i _ inside => ?_
  simp [List.getElem?_append_left inside, List.getElem?_eq_getElem inside]

theorem regBuffer_slice (rest behind : List UInt8) :
    regBuffer (slice c.data 0 0x20 ++ rest) (slice c.data 0x5d 3 ++ behind) c.counter =
      c.registers := by
  rw [regBuffer, map_getD_range slice_length, Contents.registers]
  rfl

theorem statusText_slice (sigval : UInt8) (behind : List UInt8) :
    statusText sigval (slice c.data 0x5d 3 ++ behind) c.counter =
      stopReply sigval c.registers := by
  have general : (slice c.data 0 0x20).length = 0x20 := slice_length
  rw [statusText, List.take_of_length_le (by simp [byteToHex, mem2hex, pcBytes, bufMax])]
  simp [stopReply, field, position, width, Contents.registers, general]
  rfl

/-! ## Writes by layout -/

theorem registers_store_general {start : Nat} {bytes : List UInt8}
    (within : start + bytes.length ≤ 0x20) :
    (c.store start bytes).registers = patch c.registers start bytes := by
  have stored := @slice_overwrite_part _ c.data 0 0x20 bytes start within
  have outside (address : Nat) (behind : 0x20 ≤ address) :
      (c.store start bytes).data address = c.data address :=
    overwrite_of_ge (Nat.le_trans within behind)
  rw [Nat.zero_add] at stored
  rw [Contents.registers, Contents.registers, outside 0x5f (by decide), outside 0x5d (by decide),
    outside 0x5e (by decide), patch_append_left _ (by simp; omega), patch_append_left _ (by simpa)]
  exact congrArg (· ++ _ ++ _) stored

theorem patch_registers (i : Nat) (part : List UInt8) :
    patch c.registers (0x20 + i) part = slice c.data 0 0x20 ++
      patch ([c.data 0x5f, c.data 0x5d, c.data 0x5e] ++ pcBytes c.counter) i part := by
  have general : (slice c.data 0 0x20).length = 0x20 := slice_length
  have behind := @patch_append_right _
    ([c.data 0x5f, c.data 0x5d, c.data 0x5e] ++ pcBytes c.counter) (slice c.data 0 0x20) part i
  rwa [general, ← List.append_assoc] at behind

theorem general_store {start : Nat} (behind : 0x20 ≤ start) (bytes : List UInt8) :
    slice (c.store start bytes).data 0 0x20 = slice c.data 0 0x20 :=
  slice_overwrite_of_disjoint (.inr behind)

theorem registers_store_sreg (byte : UInt8) :
    (c.store 0x5f [byte]).registers = patch c.registers 32 [byte] := by
  rw [Contents.registers, general_store (by decide)]
  exact (patch_registers 0 [byte]).symm

theorem registers_store_sp (low high : UInt8) :
    (c.store 0x5d [low, high]).registers = patch c.registers 33 [low, high] := by
  rw [Contents.registers, general_store (by decide)]
  exact (patch_registers 1 [low, high]).symm

theorem registers_counter (counter : UInt32) :
    ({ c with counter } : Contents).registers = patch c.registers 35 (pcBytes counter) :=
  (patch_registers 3 (pcBytes counter)).symm

end Layouts

/-! ## Packets for each register -/

theorem hexToInt_number {r : Nat} (known : r ≤ 34) (text : List Char) :
    hexToInt (Nat.toDigits 16 r ++ '=' :: text) =
      ((Nat.toDigits 16 r).length, UInt32.ofNat r, '=' :: text) := by
  interval_cases r <;> rfl

theorem assigns_number {r : Nat} (known : r ≤ 34) {v : List UInt8} (length : v.length = width r)
    (counter : r = 34 →
      let number := b4ToU32 (v.getD 0 0) (v.getD 1 0) (v.getD 2 0) (v.getD 3 0)
      number.toNat % 2 = 0 ∧ number.toNat < 2 ^ 24) (behind : List Char) :
    Assigns (Nat.toDigits 16 r ++ '=' :: (mem2hex v ++ behind)) r v where
  digits := by
    rw [hexToInt_number known]
    exact Nat.ne_of_gt Nat.length_toDigits_pos
  regno := by
    rw [hexToInt_number known]
    exact UInt32.toNat_ofNat_of_lt' (Nat.lt_of_le_of_lt known (by decide))
  known := known
  equals := by rw [hexToInt_number known, List.head?_cons]
  bytes := by
    rw [hexToInt_number known, ← length]
    exact hex2mem_mem2hex v behind
  counter := counter

/-! ## Numbers of four bytes -/

section Numbers

theorem toUInt8_and (l : UInt32) : (l &&& 0xff).toUInt8 = l.toUInt8 := by
  rw [← UInt8.toNat_inj, toNat_byte32, UInt32.toNat_toUInt8]

theorem pcBytes_eq (number : UInt32) : pcBytes number = u32ToB4 number := by
  simp only [pcBytes, u32ToB4, toUInt8_and]

theorem pcBytes_b4ToU32 (b0 b1 b2 b3 : UInt8) :
    pcBytes (b4ToU32 b0 b1 b2 b3) = [b0, b1, b2, b3] := by
  rw [pcBytes_eq, u32ToB4_b4ToU32]

theorem or_bytes (b0 b1 b2 b3 : UInt8) :
    b0.toUInt32 ||| b1.toUInt32 <<< 8 ||| b2.toUInt32 <<< 16 ||| b3.toUInt32 <<< 24 =
      b4ToU32 b0 b1 b2 b3 := by
  have first := b0.toNat_lt
  have second := b1.toNat_lt
  have third := b2.toNat_lt
  have fourth := b3.toNat_lt
  rw [← UInt32.toNat_inj, toNat_b4ToU32]
  simp only [UInt32.toNat_or, UInt32.toNat_shiftLeft, UInt8.toNat_toUInt32, Nat.shiftLeft_eq]
  show ((b0.toNat ||| b1.toNat * 2 ^ 8 % 2 ^ 32) ||| b2.toNat * 2 ^ 16 % 2 ^ 32) |||
    b3.toNat * 2 ^ 24 % 2 ^ 32 = _
  rw [Nat.mod_eq_of_lt (by omega), Nat.mod_eq_of_lt (by omega), Nat.mod_eq_of_lt (by omega),
    Nat.or_comm b0.toNat, Nat.mul_comm b1.toNat, ← Nat.two_pow_add_eq_or_of_lt first,
    Nat.or_comm _ (b2.toNat * 2 ^ 16), Nat.mul_comm b2.toNat,
    ← Nat.two_pow_add_eq_or_of_lt (by omega : 2 ^ 8 * b1.toNat + b0.toNat < 2 ^ 16),
    Nat.or_comm _ (b3.toNat * 2 ^ 24), Nat.mul_comm b3.toNat,
    ← Nat.two_pow_add_eq_or_of_lt (by omega :
      2 ^ 16 * b2.toNat + (2 ^ 8 * b1.toNat + b0.toNat) < 2 ^ 24)]
  omega

theorem toNat_pcOfBytes {b0 b1 b2 b3 : UInt8} (small : (b4ToU32 b0 b1 b2 b3).toNat < 2 ^ 31) :
    (pcOfBytes [b0, b1, b2, b3]).toNat = (b4ToU32 b0 b1 b2 b3).toNat := by
  have positive : (b4ToU32 b0 b1 b2 b3).toBitVec.msb = false :=
    BitVec.msb_eq_false_iff_two_mul_lt.mpr (by simpa using by omega)
  have extended := @BitVec.signExtend_eq_setWidth_of_msb_false 32 _ 64 positive
  have same : pcOfBytes [b0, b1, b2, b3] =
      (b4ToU32 b0 b1 b2 b3).toInt32.toInt64.toUInt64 := by
    rw [← or_bytes]
    rfl
  have width := (b4ToU32 b0 b1 b2 b3).toNat_lt
  calc (pcOfBytes [b0, b1, b2, b3]).toNat
      = ((b4ToU32 b0 b1 b2 b3).toBitVec.signExtend 64).toNat := congrArg UInt64.toNat same
    _ = (b4ToU32 b0 b1 b2 b3).toNat := by
      rw [extended, BitVec.toNat_setWidth]
      exact Nat.mod_eq_of_lt (by simp; omega)

end Numbers

/-! ## Ideal targets show what has been written -/

section Ideal

variable {State : Type} {jtag : Jtag State}

theorem written_of_okIf {written : Called State Bool} (answered : (okIf written).value = some ok) :
    written.value = some true ∧ (okIf written).state = written.state := by
  refine ⟨?_, Called.andThen_return_state _⟩
  cases outcome : written.value with
  | none => simp [okIf, Called.andThen_of_threw outcome] at answered
  | some success =>
      rw [okIf, Called.andThen_of_returned outcome] at answered
      cases success with
      | true => rfl
      | false => exact absurd (Option.some.inj answered) (by decide)

variable {contents : State → Contents} (ideal : Ideal jtag contents)
include ideal

theorem Ideal.andThen_read (s : State) (start : UInt64) (numBytes : UInt32) (some : numBytes ≠ 0)
    (within : start.toNat + numBytes.toNat ≤ 0x60) :
    ∃ behind after, contents after = contents s ∧
      ∀ {Value : Type} (rest : Option (List UInt8) → State → Called State Value),
        (jtag.jtagRead s (start + Avarice.dataSpaceAddrOffset) numBytes).andThen rest =
          rest (.some (slice (contents s).data start.toNat numBytes.toNat ++ behind)) after := by
  obtain ⟨behind, returned⟩ := ideal.read s start numBytes some within
  exact ⟨behind, _, ideal.readState s start numBytes some within,
    fun rest => Called.andThen_of_returned returned⟩

theorem Ideal.andThen_getCounter (s : State) :
    ∃ (pc : UInt64) (after : State), pc.toUInt32 = (contents s).counter ∧
      contents after = contents s ∧
      ∀ {Value : Type} (rest : UInt64 → State → Called State Value),
        (jtag.getProgramCounter s).andThen rest = rest pc after := by
  obtain ⟨pc, returned, counter⟩ := ideal.getCounter s
  exact ⟨pc, _, counter, ideal.getState s, fun rest => Called.andThen_of_returned returned⟩

theorem Ideal.registers_read (s : State) :
    ∃ after, contents after = contents s ∧
      readRegisters jtag s = ⟨some (mem2hex (contents s).registers), after⟩ := by
  obtain ⟨rest, first, same, general⟩ :=
    ideal.andThen_read s 0 0x20 (by decide) (by decide)
  obtain ⟨behind, second, same', stack⟩ :=
    ideal.andThen_read first 0x5d 3 (by decide) (by decide)
  obtain ⟨pc, after, counter, same'', got⟩ := ideal.andThen_getCounter second
  have valid := ideal.valid second
  refine ⟨after, same''.trans (same'.trans same), ?_⟩
  rw [same', same] at counter valid
  rw [readRegisters, general]
  dsimp only
  rw [stack, same]
  dsimp only
  rw [got, counter, if_neg valid]
  show Called.mk (some (mem2hex (regBuffer (slice (contents s).data 0 0x20 ++ rest)
    (slice (contents s).data 0x5d 3 ++ behind) _))) after = _
  rw [regBuffer_slice]

theorem Ideal.status_read (s : State) (sigval : UInt8) :
    ∃ after, contents after = contents s ∧
      reportStatusExtended jtag s sigval =
        ⟨some (stopReply sigval (contents s).registers), after⟩ := by
  obtain ⟨pc, first, counter, same, got⟩ := ideal.andThen_getCounter s
  obtain ⟨behind, after, same', stack⟩ :=
    ideal.andThen_read first 0x5d 3 (by decide) (by decide)
  refine ⟨after, same'.trans same, ?_⟩
  rw [reportStatusExtended, got, stack, same, counter]
  show Called.mk (some (statusText sigval (slice (contents s).data 0x5d 3 ++ behind) _)) after = _
  rw [statusText_slice]

theorem Ideal.shows (s : State) : Shows jtag s (contents s).registers where
  length := registers_length
  all := by
    obtain ⟨after, same, read⟩ := ideal.registers_read s
    have decoded := hex2mem_mem2hex (contents s).registers []
    rw [List.append_nil, registers_length] at decoded
    exact ⟨_, congrArg Called.value read, by simp [ReplyBuffer.mem2hex_length], decoded⟩
  stop sigval := by
    obtain ⟨after, same, read⟩ := ideal.status_read s sigval
    exact congrArg Called.value read

theorem Ideal.stored {s : State} {start : UInt64} {ptr : List Char} {count : Nat}
    (some : 0 < count) (within : start.toNat + count ≤ 0x60)
    (answered : (okIf (jtag.jtagWrite s (start + Avarice.dataSpaceAddrOffset)
      (hex2mem ptr count))).value = .some ok) :
    contents (okIf (jtag.jtagWrite s (start + Avarice.dataSpaceAddrOffset)
      (hex2mem ptr count))).state = (contents s).store start.toNat (hex2mem ptr count) := by
  obtain ⟨written, state⟩ := written_of_okIf answered
  rw [state]
  refine ideal.write s start (hex2mem ptr count) ?_ ?_ written
  · exact List.ne_nil_of_length_pos (by simpa using some)
  · rwa [hex2mem_length]

theorem Ideal.register_written {s : State} {ptr : List Char} {r : Nat} {v : List UInt8}
    (assigns : Assigns ptr r v) (answered : (writeRegister jtag s ptr).value = some ok) :
    (contents (writeRegister jtag s ptr).state).registers =
      patch (contents s).registers (position r) v := by
  obtain ⟨digits, regno, known, equals, bytes, counter⟩ := assigns
  unfold writeRegister at answered ⊢
  rcases parsed : hexToInt ptr with ⟨count, number, text⟩
  simp only [parsed] at digits regno equals bytes answered ⊢
  rw [if_pos ⟨digits, equals⟩] at answered ⊢
  rcases (by omega : r < 32 ∨ r = 32 ∨ r = 33 ∨ r = 34) with general | rfl | rfl | rfl
  · have small : number < numRegs := UInt32.lt_iff_toNat_lt.mpr (regno.trans_lt general)
    have one : width r = 1 := if_pos (by omega)
    have there : position r = r := if_pos (by omega)
    have wide : number.toUInt64.toNat = r := (UInt32.toNat_toUInt64 number).trans regno
    rw [if_pos small] at answered ⊢
    rw [ideal.stored Nat.one_pos (by omega) answered, wide, there, ← bytes, one]
    exact registers_store_general (by simp; omega)
  · obtain rfl : number = sreg := UInt32.toNat_inj.mp regno
    rw [if_neg (by decide), if_pos rfl] at answered ⊢
    rw [ideal.stored Nat.one_pos (by decide) answered, ← bytes]
    exact registers_store_sreg _
  · obtain rfl : number = sp := UInt32.toNat_inj.mp regno
    rw [if_neg (by decide), if_neg (by decide), if_pos rfl] at answered ⊢
    rw [ideal.stored Nat.two_pos (by decide) answered, ← bytes]
    exact registers_store_sp _ _
  · obtain rfl : number = pc := UInt32.toNat_inj.mp regno
    rw [if_neg (by decide), if_neg (by decide), if_neg (by decide), if_pos rfl] at answered ⊢
    obtain ⟨written, state⟩ := written_of_okIf answered
    subst bytes
    obtain ⟨even, small⟩ := counter rfl
    have value := toNat_pcOfBytes (Nat.lt_trans small (by decide))
    have narrow : (pcOfBytes (hex2mem (text.drop 1) 4)).toUInt32 = _ :=
      congrArg UInt64.toUInt32 (UInt64.toNat_inj.mp (value.trans (UInt32.toNat_toUInt64 _).symm))
    rw [state, ideal.setCounter s _ (value ▸ even) (value ▸ small) written, registers_counter,
      narrow, UInt32.toUInt32_toUInt64, pcBytes_b4ToU32]
    rfl

theorem Ideal.viewsAgree (s : State) : ViewsAgree jtag s := by
  refine ⟨(contents s).registers, ideal.shows s, ?_, fun sigval => ?_,
    fun ptr r v assigns answered => ?_⟩
  · obtain ⟨after, same, read⟩ := ideal.registers_read s
    rw [read, ← same]
    exact ideal.shows after
  · obtain ⟨after, same, read⟩ := ideal.status_read s sigval
    rw [read, ← same]
    exact ideal.shows after
  · rw [← ideal.register_written assigns answered]
    exact ideal.shows _

end Ideal

end Avarice.Gdb.Registers

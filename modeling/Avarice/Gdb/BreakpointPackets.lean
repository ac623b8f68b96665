import Avarice.Gdb.DataPackets
import Avarice.Mk1.BreakpointBag

/-!
# Packets for breakpoints and data memory

The packets `Z` and `z` among those for data memory, with a mkI: the replies are
those of a bag of breakpoints and of a memory.
-/

namespace Avarice.Gdb.BreakpointPackets

open Throwing Serving Storage
open DataMemory (InData KeepsMemory dataAccess dataMeaning data_realizes)
open Handler (Env GdbRemote Replies Target breakpointType changeBreakpoint handler sentFor
  talkToGdb)
open Mk1 (Breakpoint Room Tables codeBreakpointAt kept)
open Mk1.Memory (Jtag1 KeepsData lossyJtag1)
open Registers (Jtag)
open ReplyBuffer (parseBreakpoint)
open Connection (Turn)
open Sessions (Meaning Realizes)

/-! ## The mkI with its tables -/

section Target

variable {State Other Value : Type}

/-- A call of one part of an object. -/
def beside (other : Other) (call : Called State Value) : Called (State × Other) Value :=
  ⟨call.value, (call.state, other)⟩

/-- An object whose first part is talked to. -/
def besides (jtag : Jtag State) : Jtag (State × Other) where
  jtagRead s addr numBytes := beside s.2 (jtag.jtagRead s.1 addr numBytes)
  jtagWrite s addr buffer := beside s.2 (jtag.jtagWrite s.1 addr buffer)
  getProgramCounter s := beside s.2 (jtag.getProgramCounter s.1)
  setProgramCounter s pc := beside s.2 (jtag.setProgramCounter s.1 pc)

/-- The class `jtag1` over a line, which keeps the breakpoints in its tables. -/
def mk1Target {Ice : Type} (execute : Ice → List UInt8 → List UInt8 × Ice) (fates : Nat → Mk1.Fate)
    (runs : Target (Jtag1 (Mk1.Far Ice) × Tables)) : Target (Jtag1 (Mk1.Far Ice) × Tables) where
  toJtag := besides (lossyJtag1 execute fates)
  codeBreakpointAt s address := codeBreakpointAt s.2.1 address
  addBreakpoint s address type length :=
    ((s.2.addBreakpoint address type length).1, (s.1, (s.2.addBreakpoint address type length).2))
  deleteBreakpoint s address type length :=
    ((s.2.deleteBreakpoint address type length).1,
      (s.1, (s.2.deleteBreakpoint address type length).2))
  jtagSingleStep := runs.jtagSingleStep
  jtagContinue := runs.jtagContinue
  interruptProgram := runs.interruptProgram
  resumeProgram := runs.resumeProgram
  resetProgram := runs.resetProgram

end Target

/-! ## Packets -/

inductive Asks : (packet : List Char) → Bag.Request Breakpoint → Prop
  | set {ptr : List Char} {kind addr length : UInt32} {type : BpType}
      (parsed : parseBreakpoint ptr = some (kind, addr, length))
      (known : breakpointType kind = some type) : Asks ('Z' :: ptr) (.put (kept addr type))
  | clear {ptr : List Char} {kind addr length : UInt32} {type : BpType}
      (parsed : parseBreakpoint ptr = some (kind, addr, length))
      (known : breakpointType kind = some type) : Asks ('z' :: ptr) (.take (kept addr type))

/-- Packets for breakpoints as requests to a bag. -/
def breakpointMeaning : Meaning (Bag.Request Breakpoint) Bool where
  Asks := Asks
  reply _ success := { reply := some (if success then Registers.ok else Registers.error 1) }

def meaning := dataMeaning.both breakpointMeaning

section Packets

variable {Ice : Type} {execute : Ice → List UInt8 → List UInt8 × Ice} {fates : Nat → Mk1.Fate}
  {runs : Target (Jtag1 (Mk1.Far Ice) × Tables)} {env : Env}

def holds (data : Ice → Nat → UInt8) (s : Jtag1 (Mk1.Far Ice) × Tables) :
    (Nat → UInt8) × Multiset Breakpoint :=
  (data s.1.ice.ice, s.2.1.bag)

theorem dataAccess_besides {State Other : Type} (jtag : Jtag State) (s : State × Other)
    (access : Access UInt8) :
    dataAccess (besides jtag) s access = beside s.2 (dataAccess jtag s.1 access) := by
  cases access with
  | read start count =>
      cases outcome : (jtag.jtagRead s.1 (DataMemory.dataAddress start) count.toUInt32).value <;>
        simp [dataAccess, besides, beside, Called.andThen, outcome]
  | write start bytes =>
      cases outcome : (jtag.jtagWrite s.1 (DataMemory.dataAddress start) bytes).value <;>
        simp [dataAccess, besides, beside, Called.andThen, outcome]

theorem besides_implements {data : Ice → Nat → UInt8} {jtag : Jtag (Jtag1 (Mk1.Far Ice))}
    (keeps : KeepsMemory jtag (fun s => data s.ice.ice) fun _ => True) :
    Implements (dataAccess (besides jtag)) (holds data)
      (fun before access answer after =>
        Both Serves (Bag.Serves Room) before (.inl access) (.inl answer) after)
      (fun _ => True) InData := by
  intro s access _ inData
  have ends := keeps s.1 access trivial inData
  rw [dataAccess_besides]
  constructor
  · exact fun answer returned => ⟨trivial, .left (ends.returned answer returned).2⟩
  · intro threw
    rcases ends.threw threw with same | ⟨answer, served⟩
    · exact .inl (congrArg (·, s.2.1.bag) same)
    · exact .inr ⟨answer, .left served⟩

theorem breakpoint_realizes (data : Ice → Nat → UInt8) :
    Realizes env (mk1Target execute fates runs) (holds data)
      (fun before request answer after =>
        Both Serves (Bag.Serves Room) before (.inr request) (.inr answer) after)
      breakpointMeaning (fun _ => True) fun _ => True := by
  intro s packet request awaits asks _
  cases asks with
  | @set ptr kind addr length type parsed known =>
      have called : talkToGdb env (mk1Target execute fates runs) s ('Z' :: ptr) =
          let (success, t) := s.target.2.addBreakpoint addr type length
          ⟨some { reply := some (if success then Registers.ok else Registers.error 1) },
            ⟨{ s.remote with lastCmd := 'Z' }, (s.target.1, t)⟩⟩ := by
        simp only [talkToGdb, Handler.answer, changeBreakpoint, parsed, known]
        rfl
      rw [called]
      have served := (Mk1.addBreakpoint_serves s.target.2.2 addr type length).2
      exact Called.ends_return ⟨⟨awaits.alone, trivial⟩, _, rfl, .right served⟩
  | @clear ptr kind addr length type parsed known =>
      have called : talkToGdb env (mk1Target execute fates runs) s ('z' :: ptr) =
          let (success, t) := s.target.2.deleteBreakpoint addr type length
          ⟨some { reply := some (if success then Registers.ok else Registers.error 1) },
            ⟨{ s.remote with lastCmd := 'z' }, (s.target.1, t)⟩⟩ := by
        simp only [talkToGdb, Handler.answer, changeBreakpoint, parsed, known]
        rfl
      rw [called]
      have served := (Mk1.deleteBreakpoint_serves s.target.2.2 addr type length).2
      exact Called.ends_return ⟨⟨awaits.alone, trivial⟩, _, rfl, .right served⟩

end Packets

def breakpointTexts : List (List UInt8) :=
  ["Z0,100,2", "Z1,101,2", "Z2,60,1", "M800060,1:07", "z0,100,2"].map fun text =>
    toBytes text.toList

def breakpointTurns : List Turn := breakpointTexts.map Turn.of

def breakpointRequests : List (Access UInt8 ⊕ Bag.Request Breakpoint) :=
  [.inr (.put (kept 0x100 .code)), .inr (.put (kept 0x101 .code)),
    .inr (.put (kept 0x60 .writeData)), .inl (.write 0x60 [7]), .inr (.take (kept 0x100 .code))]

theorem breakpointTurns_valid : ∀ turn ∈ breakpointTurns, turn.Valid := by
  intro turn member
  obtain ⟨text, sent, rfl⟩ := List.mem_map.mp member
  have plain : ∀ text ∈ breakpointTexts, text.length ≤ 398 ∧ dollar ∉ text ∧ hash ∉ text ∧
      text[2]? ≠ some colon ∧ 0 ∉ text := by
    decide
  obtain ⟨short, noStart, noHash, noColon, noNull⟩ := plain text sent
  exact Turn.of_valid ⟨⟨short, noStart, noHash, noColon⟩, noNull⟩

theorem breakpointTurns_asks : meaning.AsksAll breakpointTurns breakpointRequests := by
  refine .cons ?_ (.cons ?_ (.cons ?_ (.cons ?_ (.cons ?_ .nil))))
  · exact @Asks.set "0,100,2".toList 0 0x100 2 .code rfl rfl
  · exact @Asks.set "1,101,2".toList 1 0x101 2 .code rfl rfl
  · exact @Asks.set "2,60,1".toList 2 0x60 1 .writeData rfl rfl
  · exact @DataMemory.Asks.write "800060,1:07".toList ⟨0x800060, 1, "07".toList⟩ 0x60 rfl rfl
  · exact @Asks.clear "0,100,2".toList 0 0x100 2 .code rfl rfl

def dataTarget : Target (Jtag1 (Mk1.Far Mk1.Memory.DataIce) × Tables) :=
  mk1Target Mk1.Memory.DataIce.execute Mk1.twoFail
    (DataMemory.stillTarget (besides (lossyJtag1 Mk1.Memory.DataIce.execute Mk1.twoFail)))

end Avarice.Gdb.BreakpointPackets

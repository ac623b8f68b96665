import Avarice.Gdb.Registers
import Avarice.Library.Storage

/-!
# Data memory

Accesses to data memory by the classes for the two protocols, as requests to a
memory.
-/

namespace Avarice.Gdb.DataMemory

open Throwing Storage
open Registers (Jtag)

def dataAddress (start : Nat) : UInt64 := start.toUInt64 + Avarice.dataSpaceAddrOffset

/-- A call of `jtagRead` or `jtagWrite`, with the bytes that are used of a buffer. -/
def dataAccess {State : Type} (jtag : Jtag State) (s : State) :
    Access UInt8 → Called State (Option (List UInt8))
  | .read start count =>
      (jtag.jtagRead s (dataAddress start) count.toUInt32).andThen fun buffer s =>
        ⟨some (buffer.map fun buffer => buffer.take count), s⟩
  | .write start bytes =>
      (jtag.jtagWrite s (dataAddress start) bytes).andThen fun success s =>
        ⟨some (if success then some [] else none), s⟩

/-- The addresses of data memory have 16 bits. -/
structure InData (access : Access UInt8) : Prop where
  some : 0 < access.size
  within : access.last ≤ 0x10000

instance : DecidablePred InData := fun access =>
  decidable_of_iff (0 < access.size ∧ access.last ≤ 0x10000)
    ⟨fun both => ⟨both.1, both.2⟩, fun inData => ⟨inData.some, inData.within⟩⟩

def KeepsMemory {State : Type} (jtag : Jtag State) (memory : State → Nat → UInt8)
    (Ready : State → Prop) : Prop :=
  Serving.Implements (dataAccess jtag) memory Serves Ready InData

end Avarice.Gdb.DataMemory

import Avarice.Gdb.DataMemory
import Avarice.Mk2.LossyLine
import Avarice.Mk2.Registers

/-!
# Data memory of the mkII over a lossy line

Reads and writes of data memory, each in one command, over a line that loses and
delays frames, or damages them so that their CRC is wrong.
-/

namespace Avarice.Mk2.Access

open PagedMemory Repetition Storage Throwing
open Gdb.DataMemory (InData KeepsMemory dataAccess dataAddress)
open Gdb.Registers (Jtag)
open Memory (mtypeSram)

/-! ## Commands for data memory -/

def accessCommand : Access UInt8 → List UInt8
  | .read start count => readCommand mtypeSram count.toUInt32 start.toUInt32
  | .write start bytes => writeCommand mtypeSram bytes.length.toUInt32 start.toUInt32 bytes

def commandAccess : List UInt8 → Access UInt8
  | code :: _ :: n0 :: n1 :: n2 :: n3 :: b0 :: b1 :: b2 :: b3 :: bytes =>
      let start := (b4ToU32 b0 b1 b2 b3).toNat
      if code = cmndReadMemory then .read start (b4ToU32 n0 n1 n2 n3).toNat
      else .write start bytes
  | _ => .read 0 0

theorem commandAccess_accessCommand {access : Access UInt8} (inData : InData access) :
    commandAccess (accessCommand access) = access := by
  have within := inData.within
  have some := inData.some
  cases access with
  | read start count =>
      simp only [Access.last, Access.size] at within some
      have startBack : start.toUInt32.toNat = start :=
        UInt32.toNat_ofNat_of_lt' (Nat.lt_of_le_of_lt (by omega : start ≤ 0x10000) (by decide))
      have countBack : count.toUInt32.toNat = count :=
        UInt32.toNat_ofNat_of_lt' (Nat.lt_of_le_of_lt (by omega : count ≤ 0x10000) (by decide))
      have number := b4ToU32_u32ToB4 count.toUInt32
      have address := b4ToU32_u32ToB4 start.toUInt32
      simp only [accessCommand, readCommand, u32ToB4, List.cons_append, List.nil_append,
        commandAccess, if_true, number, address, startBack, countBack]
  | write start bytes =>
      simp only [Access.last, Access.size] at within some
      have startBack : start.toUInt32.toNat = start :=
        UInt32.toNat_ofNat_of_lt' (Nat.lt_of_le_of_lt (by omega : start ≤ 0x10000) (by decide))
      have address := b4ToU32_u32ToB4 start.toUInt32
      have other : cmndWriteMemory ≠ cmndReadMemory := by decide
      simp only [accessCommand, writeCommand, u32ToB4, List.cons_append, List.nil_append,
        commandAccess, if_neg other, address, startBack]

theorem toUInt32_toUInt64 (start : Nat) : start.toUInt64.toUInt32 = start.toUInt32 := by
  rw [← UInt32.toNat_inj, UInt64.toNat_toUInt32]
  show start % 2 ^ 64 % 2 ^ 32 = start % 2 ^ 32
  omega

variable {Ice : Type}

/-- An ICE with data memory.  It may refuse commands, and an answer to a read that it
does not refuse has the data. -/
structure KeepsData (execute : Ice → List UInt8 → List UInt8 × Ice) (data : Ice → Nat → UInt8)
    (refuses : List UInt8 → Bool) : Prop where
  effect : ∀ ice access, InData access →
    data (execute ice (accessCommand access)).2 =
      if refuses (accessCommand access) then data ice else access.effect (data ice)
  read : ∀ ice start count, InData (.read start count) →
    let response := (execute ice (accessCommand (.read start count))).1
    isPositive response = true → (response.drop 1).take count = slice (data ice) start count
  refusal : ∀ ice access, InData access → refuses (accessCommand access) = true →
    isPositive (execute ice (accessCommand access)).1 = false

def dataEffect (refuses : List UInt8 → Bool) (command : List UInt8) (memory : Nat → UInt8) :
    Nat → UInt8 :=
  if refuses command then memory else (commandAccess command).effect memory

def DataCommand (command : List UInt8) : Prop :=
  ∃ access, InData access ∧ command = accessCommand access

section Access

variable {attempt : List UInt8 → Ice → Attempt × Ice}

def accessAnswer (access : Access UInt8) (response : List UInt8) : List UInt8 :=
  match access with
  | .read _ count => (moveDown 1 response).take count
  | .write _ _ => []

theorem dataAccess_command (s : Jtag2 Ice) {access : Access UInt8} (inData : InData access) :
    dataAccess (jtag2 attempt) s access =
      let call := checkedCommand attempt (accessCommand access) s.ice
      ⟨call.value.map fun response => some (accessAnswer access response),
        { s with ice := call.state }⟩ := by
  have within := inData.within
  have some := inData.some
  cases access with
  | read start count =>
      simp only [Access.last, Access.size] at within some
      have size : count.toUInt32.toNat = count :=
        UInt32.toNat_ofNat_of_lt' (Nat.lt_of_le_of_lt (by omega : count ≤ 0x10000) (by decide))
      have notNone : count.toUInt32 ≠ 0 := fun none => by
        rw [none] at size
        exact Nat.ne_of_lt some size
      have place : start.toUInt64.toNat = start :=
        UInt64.toNat_ofNat_of_lt' (Nat.lt_of_le_of_lt (by omega : start ≤ 0x10000) (by decide))
      have unpaged : s.jtagRead attempt (dataAddress start) count.toUInt32 =
          s.readUnpaged attempt mtypeSram 0 start.toUInt64 count.toUInt32 := by
        rw [Jtag2.jtagRead, if_neg notNone, dataAddress, memorySpace_data _ _ (by omega)]
        dsimp only
        rw [inProgmode_of_lt (by decide)]
        rfl
      have command : readCommand mtypeSram count.toUInt32 start.toUInt64.toUInt32 =
          accessCommand (.read start count) := by rw [toUInt32_toUInt64, accessCommand]
      simp only [dataAccess, jtag2, unpaged, Jtag2.readUnpaged, command]
      cases outcome : (checkedCommand attempt (accessCommand (.read start count)) s.ice).value <;>
        rfl
  | write start bytes =>
      simp only [Access.last, Access.size] at within some
      have place : start.toUInt64.toNat = start :=
        UInt64.toNat_ofNat_of_lt' (Nat.lt_of_le_of_lt (by omega : start ≤ 0x10000) (by decide))
      have written := @jtagWrite_command _ attempt s start.toUInt64 bytes
        (List.ne_nil_of_length_pos some) (by omega)
      rw [toUInt32_toUInt64] at written
      simp only [dataAccess, jtag2, dataAddress, written, accessCommand]
      cases (checkedCommand attempt (writeCommand mtypeSram bytes.length.toUInt32
          start.toUInt32 bytes) s.ice).value <;> simp [Called.andThen, accessAnswer]

end Access

section Line

variable {execute : Ice → List UInt8 → List UInt8 × Ice} {data : Ice → Nat → UInt8}
  {refuses : List UInt8 → Bool}

theorem KeepsData.repeatable (keeps : KeepsData execute data refuses) :
    AllRepeatable execute data (dataEffect refuses) DataCommand where
  once ice command := by
    rintro ⟨access, inData, rfl⟩
    rw [keeps.effect ice access inData, dataEffect, commandAccess_accessCommand inData]
  again command memory _ := by
    simp only [dataEffect]
    split
    · rfl
    · exact Access.effect_effect _ memory

theorem KeepsData.dataEffect_of_accepted (keeps : KeepsData execute data refuses)
    {access : Access UInt8} (inData : InData access) {ice : Ice}
    (positive : isPositive (execute ice (accessCommand access)).1 = true) (memory : Nat → UInt8) :
    dataEffect refuses (accessCommand access) memory = access.effect memory := by
  have accepted : ¬refuses (accessCommand access) = true := fun refused =>
    Bool.false_ne_true ((keeps.refusal ice access inData refused).symm.trans positive)
  rw [dataEffect, if_neg accepted, commandAccess_accessCommand inData]

theorem KeepsData.accessAnswer_eq (keeps : KeepsData execute data refuses)
    {access : Access UInt8} (inData : InData access) {ice : Ice}
    (positive : isPositive (execute ice (accessCommand access)).1 = true) :
    accessAnswer access (execute ice (accessCommand access)).1 = access.data (data ice) := by
  cases access with
  | read start count =>
      have answered := keeps.read ice start count inData positive
      have long := congrArg List.length answered
      rw [slice_length, List.length_take] at long
      rw [accessAnswer, moveDown, List.take_append_of_le_length (by omega)]
      exact answered
  | write start bytes => rfl

variable (execute) in
abbrev lossyJtag2 (fates : Nat → List Happening) : Jtag (Jtag2 (Line Ice)) :=
  jtag2 (lossyAttempt execute fates)

variable (execute data refuses) in
def Jtag2.Ready (s : Jtag2 (Line Ice)) : Prop :=
  s.ice.Ready execute data (dataEffect refuses) DataCommand

theorem lossyJtag2_keepsMemory (keeps : KeepsData execute data refuses)
    (fates : Nat → List Happening) :
    KeepsMemory (lossyJtag2 execute fates) (fun s => data s.ice.ice)
      (Jtag2.Ready execute data refuses) := by
  intro s access ready inData
  have ends := checkedCommand_ends keeps.repeatable ⟨access, inData, rfl⟩ fates ready
  rw [dataAccess_command s inData]
  constructor
  · intro answer returned
    obtain ⟨response, same, rfl⟩ := Option.map_eq_some_iff.mp returned
    obtain ⟨stillReady, stored, positive, ice, rfl, before⟩ := ends.returned response same
    have effect := keeps.dataEffect_of_accepted inData positive
    rw [effect] at stored before
    have read : access.data (data ice) = access.data (data s.ice.ice) := by
      cases access with
      | read start count =>
          have same : data ice = data s.ice.ice := before.elim id id
          rw [same]
      | write start bytes => rfl
    exact ⟨stillReady, (keeps.accessAnswer_eq inData positive).trans read, stored⟩
  · intro threw
    rcases ends.threw (Option.map_eq_none_iff.mp threw) with not | done
    · exact .inl not
    · rw [dataEffect, commandAccess_accessCommand inData] at done
      split at done
      · exact .inl done
      · exact .inr ⟨some (access.data (data s.ice.ice)), rfl, done⟩

end Line

/-- An ICE that is its data memory, and refuses nothing. -/
def executeData (memory : Nat → UInt8) (command : List UInt8) : List UInt8 × (Nat → UInt8) :=
  match commandAccess command with
  | .read start count => (rspMemory :: slice memory start count, memory)
  | .write start bytes => ([rspOk], overwrite memory start bytes)

theorem executeData_keepsData : KeepsData executeData id fun _ => false where
  effect memory access inData := by
    rw [executeData, commandAccess_accessCommand inData]
    cases access <;> rfl
  read memory start count inData := by
    intro response _
    simp only [response, executeData, commandAccess_accessCommand inData, List.drop_succ_cons,
      List.drop_zero]
    exact List.take_of_length_le (Nat.le_of_eq slice_length)
  refusal _ _ _ := nofun

def lateAnswer : Nat → List Happening
  | 0 => [.loseCommand 0]
  | 1 => [.execute]
  | 2 => [.execute, .arrive]
  | _ => [.event [0xe0], .arrive, .execute, .arrive, .arrive]

def lateSession : Jtag2 (Line (Nat → UInt8)) :=
  .start ⟨"atmega16", 128, 128, 4, 128⟩ false false (.start fun _ => 0)

theorem lateSession_ready : lateSession.Ready executeData id fun _ => false := ready_start _

end Avarice.Mk2.Access

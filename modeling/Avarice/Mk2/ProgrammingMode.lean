import Avarice.Mk2.Access

/-!
# Programming mode during memory accesses

Some spaces are accessed in programming mode only.  An access to them enters it
and leaves it again, in three commands that may each fail.
-/

namespace Avarice.Mk2.Access

open Throwing Retry Memory

section Modes

variable {Ice : Type} (attempt : List UInt8 → Ice → Attempt × Ice) (mode : Ice → Bool)

/-- The mode of the ICE is changed by two commands only. -/
def KeepsMode : Prop :=
  ∀ command ice, command ≠ [cmndEnterProgmode] → command ≠ [cmndLeaveProgmode] →
    mode (attempt command ice).2 = mode ice

/-- The flag is as before, and still tells the mode of the ICE. -/
structure Restored (before after : Jtag2 Ice) : Prop where
  flag : after.programmingEnabled = before.programmingEnabled
  agrees : mode after.ice = after.programmingEnabled

def Switches (s : Jtag2 Ice) (addr : UInt64) : Prop :=
  mtypeFlashPage ≤ (memorySpace s.useDebugWire s.programmingEnabled addr).1 ∧
    s.programmingEnabled = false ∧ s.useDebugWire = false

/-- The ICE enters programming mode, executes a command there, and is not in
programming mode any more once it has been told to leave it. -/
def Completes (command : List UInt8) (ice : Ice) : Prop :=
  let entered := doSimpleJtagCommand attempt cmndEnterProgmode ice
  let executed := doJtagCommand attempt command true entered.state
  let left := doSimpleJtagCommand attempt cmndLeaveProgmode executed.state
  entered.result = some true ∧ (∃ answer, executed.result = some (true, answer)) ∧
    mode left.state = false

structure Kept (before after : Jtag2 Ice) : Prop where
  debugWire : after.useDebugWire = before.useDebugWire
  flag : after.programmingEnabled = before.programmingEnabled
  mode : mode after.ice = mode before.ice

end Modes

section Kept

variable {Ice : Type} {attempt : List UInt8 → Ice → Attempt × Ice} {mode : Ice → Bool}
  (keeps : KeepsMode attempt mode)
include keeps

theorem doSimpleJtagCommand_mode {command : UInt8} (notEnter : command ≠ cmndEnterProgmode)
    (notLeave : command ≠ cmndLeaveProgmode) (ice : Ice) :
    mode (doSimpleJtagCommand attempt command ice).state = mode ice := by
  rw [doSimpleJtagCommand_eq]
  exact retry_unchanged (fun state =>
    keeps [command] state (by simpa using notEnter) (by simpa using notLeave)) _ ice

theorem checkedCommand_mode {code : UInt8} (rest : List UInt8)
    (notEnter : code ≠ cmndEnterProgmode) (notLeave : code ≠ cmndLeaveProgmode) (ice : Ice) :
    mode (checkedCommand attempt (code :: rest) ice).state = mode ice := by
  rw [checkedCommand]
  dsimp only
  rw [doJtagCommand_eq]
  exact retry_unchanged (fun state =>
    keeps (code :: rest) state (by simp [notEnter]) (by simp [notLeave])) _ ice

theorem readCommand_mode (whichSpace : UInt8) (numBytes addr : UInt32) (ice : Ice) :
    mode (checkedCommand attempt (readCommand whichSpace numBytes addr) ice).state = mode ice :=
  checkedCommand_mode keeps _ (by decide) (by decide) ice

theorem writeCommand_mode (whichSpace : UInt8) (numBytes addr : UInt32) (buffer : List UInt8)
    (ice : Ice) :
    mode (checkedCommand attempt (writeCommand whichSpace numBytes addr buffer) ice).state =
      mode ice :=
  checkedCommand_mode keeps _ (by decide) (by decide) ice

theorem fetch_mode {n : Nat} (p : Paging Ice n) (whichSpace : UInt8) (pageSize pageAddr : UInt32) :
    mode (p.fetch attempt whichSpace pageSize pageAddr).state.ice = mode p.ice := by
  have sent := readCommand_mode keeps whichSpace pageSize pageAddr p.ice
  unfold Paging.fetch
  split
  · rfl
  · cases outcome : (checkedCommand attempt (readCommand whichSpace pageSize pageAddr) p.ice).value
    · simp only [outcome]
      exact sent
    · simp only [outcome]
      exact sent

theorem readPages_mode {n : Nat} {whichSpace : UInt8} {pageSize offset : UInt32} {rounds : Nat}
    (p : Paging Ice n) (numBytes chunksize targetOffset pageAddr : UInt32)
    (response : List UInt8) :
    mode (p.readPages attempt whichSpace pageSize offset rounds numBytes chunksize targetOffset
      pageAddr response).state.ice = mode p.ice := by
  induction rounds generalizing p numBytes chunksize targetOffset pageAddr response with
  | zero => rfl
  | succ rounds inductionHypothesis =>
      have fetched := fetch_mode keeps p whichSpace pageSize pageAddr
      rw [Paging.readPages]
      split
      · rfl
      · cases outcome : (p.fetch attempt whichSpace pageSize pageAddr).value with
        | none =>
            rw [Called.andThen_of_threw outcome]
            exact fetched
        | some value =>
            rw [Called.andThen_of_returned outcome]
            exact (inductionHypothesis _ _ _ _ _ _).trans fetched

theorem readSpace_kept (s : Jtag2 Ice) (whichSpace : UInt8) (addr : UInt64) (numBytes : UInt32) :
    Kept mode s (s.readSpace attempt whichSpace addr numBytes).state := by
  simp only [Jtag2.readSpace]
  split_ifs
  · exact ⟨rfl, rfl, readCommand_mode keeps _ _ _ _⟩
  · exact ⟨rfl, rfl, readCommand_mode keeps _ _ _ _⟩
  · exact ⟨rfl, rfl, readPages_mode keeps _ _ _ _ _ _⟩
  · exact ⟨rfl, rfl, readPages_mode keeps _ _ _ _ _ _⟩

theorem writeSpace_kept (s : Jtag2 Ice) (whichSpace : UInt8) (addr : UInt64)
    (buffer : List UInt8) : Kept mode s (s.writeSpace attempt whichSpace addr buffer).state := by
  simp only [Jtag2.writeSpace]
  split_ifs
  · exact ⟨rfl, rfl, rfl⟩
  · exact ⟨rfl, rfl, writeCommand_mode keeps _ _ _ _ _⟩
  · exact ⟨rfl, rfl, writeCommand_mode keeps _ _ _ _ _⟩

theorem eraseProgramMemory_kept (s : Jtag2 Ice) :
    Kept mode s (s.eraseProgramMemory attempt).state :=
  ⟨rfl, rfl, doSimpleJtagCommand_mode keeps (by decide) (by decide) s.ice⟩

end Kept

section Switching

variable {Ice : Type} {attempt : List UInt8 → Ice → Attempt × Ice} {mode : Ice → Bool}
  {s : Jtag2 Ice} {Value : Type} {part : Jtag2 Ice → Called (Jtag2 Ice) Value} {whichSpace : UInt8}

theorem Kept.restored {after : Jtag2 Ice} (kept : Kept mode s after)
    (agree : mode s.ice = s.programmingEnabled) : Restored mode s after :=
  ⟨kept.flag, by rw [kept.mode, agree, kept.flag]⟩

theorem Kept.trans {between after : Jtag2 Ice} (first : Kept mode s between)
    (second : Kept mode between after) : Kept mode s after :=
  ⟨second.debugWire.trans first.debugWire, second.flag.trans first.flag,
    second.mode.trans first.mode⟩

theorem inProgmode_kept (part : Jtag2 Ice → Called (Jtag2 Ice) Value)
    (kept : Kept mode s (part s).state)
    (needless : ¬ (mtypeFlashPage ≤ whichSpace ∧ s.programmingEnabled = false ∧
      s.useDebugWire = false)) :
    Kept mode s (s.inProgmode attempt whichSpace part).state := by
  cases debugWire : s.useDebugWire with
  | true => rwa [inProgmode_of_debugWire whichSpace debugWire kept.debugWire]
  | false =>
      have direct : s.inProgmode attempt whichSpace part = part s :=
        if_neg fun switches => needless ⟨switches.1, switches.2, debugWire⟩
      rwa [direct]

theorem enableProgramming_eq (noWire : s.useDebugWire = false) :
    s.enableProgramming attempt =
      { s with programmingEnabled := true }.simpleCommand attempt cmndEnterProgmode :=
  if_neg (by simp [noWire])

theorem disableProgramming_eq (noWire : s.useDebugWire = false) :
    s.disableProgramming attempt =
      { s with programmingEnabled := false }.simpleCommand attempt cmndLeaveProgmode :=
  if_neg (by simp [noWire])

theorem simpleCommand_value_iff {command : UInt8} :
    (s.simpleCommand attempt command).value = some () ↔
      (doSimpleJtagCommand attempt command s.ice).result = some true := by
  simp only [Jtag2.simpleCommand]
  split
  next accepted => simp [accepted]
  next refused => simp [refused]

theorem checkedCommand_value_iff {command : List UInt8} {ice : Ice} :
    (∃ response, (checkedCommand attempt command ice).value = some response) ↔
      ∃ answer, (doJtagCommand attempt command true ice).result = some (true, answer) := by
  simp only [checkedCommand]
  cases (doJtagCommand attempt command true ice).result with
  | none => simp
  | some result =>
      obtain ⟨positive, answer⟩ := result
      cases positive <;> simp

/-- An access that sends one command restores the mode only if everything
succeeds. -/
theorem inProgmode_restored_iff {command : List UInt8} {value : List UInt8 → Value}
    (single : ∀ s : Jtag2 Ice, part s =
      ⟨(checkedCommand attempt command s.ice).value.map value,
        { s with ice := (checkedCommand attempt command s.ice).state }⟩)
    (needed : mtypeFlashPage ≤ whichSpace) (off : s.programmingEnabled = false)
    (noWire : s.useDebugWire = false) :
    Restored mode s (s.inProgmode attempt whichSpace part).state ↔
      Completes attempt mode command s.ice := by
  have switching : s.inProgmode attempt whichSpace part =
      (s.enableProgramming attempt).andThen fun _ s =>
        (part s).andThen fun value s =>
          (s.disableProgramming attempt).andThen fun _ s => ⟨some value, s⟩ :=
    if_pos ⟨needed, off⟩
  rw [switching, enableProgramming_eq noWire, Completes, ← checkedCommand_value_iff]
  cases entered : ({ s with programmingEnabled := true }.simpleCommand attempt
      cmndEnterProgmode).value with
  | none =>
      have refused : (doSimpleJtagCommand attempt cmndEnterProgmode s.ice).result ≠ some true :=
        fun accepted => Option.some_ne_none ()
          ((simpleCommand_value_iff.mpr accepted).symm.trans entered)
      rw [Called.andThen_of_threw entered]
      constructor
      · intro restored
        exact absurd (restored.flag.trans off) (by simp [Jtag2.simpleCommand])
      · intro completes
        exact absurd completes.1 refused
  | some _ =>
      have accepted := simpleCommand_value_iff.mp entered
      rw [Called.andThen_of_returned entered, single]
      simp only [Jtag2.simpleCommand, accepted, true_and]
      cases executed : (checkedCommand attempt command
          (doSimpleJtagCommand attempt cmndEnterProgmode s.ice).state).value with
      | none =>
          rw [Called.andThen_of_threw rfl]
          constructor
          · intro restored
            exact absurd (restored.flag.trans off) (by simp)
          · rintro ⟨⟨response, succeeded⟩, -⟩
            cases succeeded
      | some response =>
          rw [Called.andThen_of_returned rfl, Called.andThen_return_state fun _ => value response]
          dsimp only
          rw [disableProgramming_eq]
          · constructor
            · intro restored
              exact ⟨⟨response, rfl⟩, restored.agrees⟩
            · intro completes
              exact ⟨off.symm, completes.2⟩
          · exact noWire

end Switching

/-! ## Spaces that need programming mode -/

section Spaces

variable {Ice : Type} {attempt : List UInt8 → Ice → Attempt × Ice} {s : Jtag2 Ice}
  {addr a : UInt64} {space : UInt8}

theorem unpaged_of_switches (switches : Switches s addr)
    (decoded : memorySpace s.useDebugWire s.programmingEnabled addr = (space, a)) :
    space ≠ mtypeSpm ∧ space ≠ mtypeFlashPage ∧ space ≠ mtypeEepromPage := by
  obtain ⟨needed, off, noWire⟩ := switches
  have found : (memorySpace s.useDebugWire s.programmingEnabled addr).1 = space :=
    congrArg Prod.fst decoded
  rw [← found]
  revert needed
  simp only [memorySpace, off, noWire, Bool.and_false, Bool.or_false, Bool.false_eq_true, if_false]
  split_ifs <;> decide

theorem pageSizeOf_unpaged (device : DeviceDef) (noFlash : space ≠ mtypeFlashPage)
    (noEeprom : space ≠ mtypeEepromPage) : pageSizeOf device space = 0 := by
  rw [pageSizeOf, if_neg noFlash, if_neg noEeprom]

theorem readSpace_unpaged (noSpm : space ≠ mtypeSpm) (noFlash : space ≠ mtypeFlashPage)
    (noEeprom : space ≠ mtypeEepromPage) (addr : UInt64) (numBytes : UInt32) :
    s.readSpace attempt space addr numBytes = s.readUnpaged attempt space 0 addr numBytes := by
  rw [Jtag2.readSpace, if_neg noSpm, if_pos (pageSizeOf_unpaged s.device noFlash noEeprom)]

theorem writeSpace_unpaged (noFlash : space ≠ mtypeFlashPage) (noEeprom : space ≠ mtypeEepromPage)
    (addr : UInt64) (buffer : List UInt8) :
    s.writeSpace attempt space addr buffer =
      let call := checkedCommand attempt
        (writeCommand space buffer.length.toUInt32 addr.toUInt32 buffer) s.ice
      ⟨call.value.map fun _ => (), { s with ice := call.state }⟩ := by
  simp [Jtag2.writeSpace, pageSizeOf_unpaged s.device noFlash noEeprom]

end Spaces

section Claim

variable {Ice : Type} {attempt : List UInt8 → Ice → Attempt × Ice} {mode : Ice → Bool}
  (keeps : KeepsMode attempt mode) {s : Jtag2 Ice} (agree : mode s.ice = s.programmingEnabled)
  (addr : UInt64)
include keeps agree

theorem jtagRead_restored_iff (numBytes : UInt32) :
    Restored mode s (s.jtagRead attempt addr numBytes).state ↔
      (numBytes ≠ 0 → Switches s addr →
        Completes attempt mode
          (readCommand (memorySpace s.useDebugWire s.programmingEnabled addr).1 numBytes
            (memorySpace s.useDebugWire s.programmingEnabled addr).2.toUInt32) s.ice) := by
  by_cases nothing : numBytes = 0
  · rw [Jtag2.jtagRead, if_pos nothing]
    exact ⟨fun _ some => absurd nothing some, fun _ => ⟨rfl, agree⟩⟩
  · rw [Jtag2.jtagRead, if_neg nothing]
    cases decoded : memorySpace s.useDebugWire s.programmingEnabled addr with
    | mk space a =>
        dsimp only
        by_cases switches : Switches s addr
        · obtain ⟨noSpm, noFlash, noEeprom⟩ := unpaged_of_switches switches decoded
          have ⟨needed, off, noWire⟩ := switches
          rw [decoded] at needed
          rw [inProgmode_restored_iff
            (fun s => readSpace_unpaged noSpm noFlash noEeprom a numBytes) needed off noWire]
          exact ⟨fun completes _ _ => completes, fun completes => completes nothing switches⟩
        · have needless : ¬ (mtypeFlashPage ≤ space ∧ s.programmingEnabled = false ∧
              s.useDebugWire = false) := by
            rwa [Switches, decoded] at switches
          refine ⟨fun _ _ needs => absurd needs switches, fun _ => Kept.restored ?_ agree⟩
          exact inProgmode_kept _ (readSpace_kept keeps s space a numBytes) needless

theorem jtagWrite_restored_iff (buffer : List UInt8) :
    Restored mode s (s.jtagWrite attempt addr buffer).state ↔
      (buffer ≠ [] → Switches s addr →
        Completes attempt mode
          (writeCommand (memorySpace s.useDebugWire s.programmingEnabled addr).1
            buffer.length.toUInt32
            (memorySpace s.useDebugWire s.programmingEnabled addr).2.toUInt32 buffer) s.ice) := by
  by_cases nothing : buffer = []
  · rw [Jtag2.jtagWrite, if_pos (List.length_eq_zero_iff.mpr nothing)]
    exact ⟨fun _ some => absurd nothing some, fun _ => ⟨rfl, agree⟩⟩
  · rw [Jtag2.jtagWrite, if_neg fun none => nothing (List.length_eq_zero_iff.mp none)]
    cases decoded : memorySpace s.useDebugWire s.programmingEnabled addr with
    | mk space a =>
        dsimp only
        by_cases switches : Switches s addr
        · obtain ⟨noSpm, noFlash, noEeprom⟩ := unpaged_of_switches switches decoded
          have ⟨needed, off, noWire⟩ := switches
          rw [decoded] at needed
          rw [if_neg fun load => noSpm load.1, Called.andThen_of_returned rfl,
            inProgmode_restored_iff (fun s => writeSpace_unpaged noFlash noEeprom a buffer) needed
              off noWire]
          exact ⟨fun completes _ _ => completes, fun completes => completes nothing switches⟩
        · have needless : ¬ (mtypeFlashPage ≤ space ∧ s.programmingEnabled = false ∧
              s.useDebugWire = false) := by
            rwa [Switches, decoded] at switches
          have erased : (if space = mtypeSpm ∧ a = 0 ∧ 4 < buffer.length then
                s.eraseProgramMemory attempt
              else ⟨some (), s⟩).Ends (fun _ => Kept mode s) (Kept mode s) := by
            rw [Called.ends_iff_state]
            split
            · exact eraseProgramMemory_kept keeps s
            · exact ⟨rfl, rfl, rfl⟩
          refine ⟨fun _ _ needs => absurd needs switches, fun _ => Kept.restored ?_ agree⟩
          refine Called.ends_iff_state.mp (erased.andThen fun _ between before =>
            Called.ends_iff_state.mpr (before.trans ?_))
          apply inProgmode_kept _ (writeSpace_kept keeps between space a buffer)
          rw [before.flag, before.debugWire]
          exact needless

end Claim

/-- After a call, the mode is as before unless the call has to enter programming
mode and one of its three commands fails. -/
theorem programming_mode_restored_iff {Ice : Type} (attempt : List UInt8 → Ice → Attempt × Ice)
    (mode : Ice → Bool) (keeps : KeepsMode attempt mode) (s : Jtag2 Ice)
    (agree : mode s.ice = s.programmingEnabled) (addr : UInt64) :
    (∀ numBytes, Restored mode s (s.jtagRead attempt addr numBytes).state ↔
      (numBytes ≠ 0 → Switches s addr →
        Completes attempt mode
          (readCommand (memorySpace s.useDebugWire s.programmingEnabled addr).1 numBytes
            (memorySpace s.useDebugWire s.programmingEnabled addr).2.toUInt32) s.ice)) ∧
    ∀ buffer, Restored mode s (s.jtagWrite attempt addr buffer).state ↔
      (buffer ≠ [] → Switches s addr →
        Completes attempt mode
          (writeCommand (memorySpace s.useDebugWire s.programmingEnabled addr).1
            buffer.length.toUInt32
            (memorySpace s.useDebugWire s.programmingEnabled addr).2.toUInt32 buffer) s.ice) :=
  ⟨jtagRead_restored_iff keeps agree addr, jtagWrite_restored_iff keeps agree addr⟩

/-- An ICE that changes its mode when it is told to, and gives the same answer
to every other command. -/
def switchable (answer : Attempt) (command : List UInt8) (mode : Bool) : Attempt × Bool :=
  if command = [cmndEnterProgmode] then (.response rspOk [], true)
  else if command = [cmndLeaveProgmode] then (.response rspOk [], false)
  else (answer, mode)

theorem switchable_keepsMode (answer : Attempt) : KeepsMode (switchable answer) id := by
  intro command mode notEnter notLeave
  rw [switchable, if_neg notEnter, if_neg notLeave]

def idle : Jtag2 Bool := Jtag2.start ⟨"atmega16", 128, 128, 4, 128⟩ false false false

theorem programming_mode_restored_fuses :
    Restored id idle (idle.jtagRead (switchable (.response rspOk [0x99])) 0x820000 1).state :=
  ((programming_mode_restored_iff _ id (switchable_keepsMode _) idle rfl 0x820000).1 1).mpr
    fun _ _ => ⟨by decide, ⟨.response rspOk [0x99], by decide⟩, by decide⟩

/-- A refused read of the fuses throws, and leaves programming mode on. -/
theorem refused_read_stays_in_progmode :
    KeepsMode (switchable (.response rspFailed [])) id ∧
      id idle.ice = idle.programmingEnabled ∧
      (idle.jtagRead (switchable (.response rspFailed [])) 0x820000 1).value = none ∧
      (idle.jtagRead (switchable (.response rspFailed [])) 0x820000 1).state.programmingEnabled =
        true ∧
      ¬ Restored id idle
        (idle.jtagRead (switchable (.response rspFailed [])) 0x820000 1).state := by
  refine ⟨switchable_keepsMode _, rfl, by decide, by decide, fun restored => ?_⟩
  exact absurd restored.flag (by decide)

end Avarice.Mk2.Access

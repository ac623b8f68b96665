import Avarice.Gdb.Hex
import Avarice.Programming.Chip

/-!
# Fuses and lock bits

The functions of `jtaggeneric.cc` that write and read them, and what is done to them
before a chip is debugged.
-/

namespace Avarice.Programming

open Throwing PagedMemory
open Gdb (byteToHex hex)

abbrev Text := List Char

abbrev lockBitsAllUnlocked : UInt8 := 0xff
abbrev fuseOcden : UInt8 := 0x80

/-! ## Text -/

def isSpace (c : Char) : Bool := c = ' ' || (9 ≤ c.toNat && c.toNat ≤ 13)

/-- `%02x`: behind white space, a number of two characters, or of one in front of
something else.  One of them may be a sign, and `0x` is no number.  The number is
converted to a byte. -/
def scanByte (str : Text) : Option (UInt8 × Text) :=
  match str.dropWhile isSpace with
  | [] => none
  | first :: rest =>
      if first = '+' ∨ first = '-' then
        match rest with
        | [] => none
        | c :: rest => (hex c).map fun n => (if first = '-' then -n else n, rest)
      else
        (hex first).bind fun high =>
          match rest with
          | [] => some (high, [])
          | c :: later =>
              if first = '0' ∧ (c = 'x' ∨ c = 'X') then none
              else some (((hex c).map fun low => (high <<< 4 + low, later)).getD (high, rest))

/-- `%02x%02x%02x`, of which the last is stored first. -/
def scanFuses (fuses : Text) : Option (List UInt8) := do
  let (extended, fuses) ← scanByte fuses
  let (high, fuses) ← scanByte fuses
  let (low, _) ← scanByte fuses
  some [low, high, extended]

def scanLockBits (lock : Text) : Option (List UInt8) :=
  if lock.length = 2 then (scanByte lock).map fun scanned => [scanned.1] else none

def displayFuses (fuseBits : List UInt8) : Text :=
  "  Extended Fuse byte -> 0x".toList ++ byteToHex (fuseBits.getD 2 0) ++
    "\n      High Fuse byte -> 0x".toList ++ byteToHex (fuseBits.getD 1 0) ++
      "\n       Low Fuse byte -> 0x".toList ++ byteToHex (fuseBits.getD 0 0) ++ ['\n']

def lockBitNames : List String :=
  ["Reserved", "Reserved", "BLB12   ", "BLB11   ", "BLB02   ", "BLB01   ", "LB2     ", "LB1     "]

def displayLockBit (lockBits : UInt8) (bit : Nat) : Text :=
  let digit n := [Char.ofNat ('0'.toNat + n)]
  "    Bit ".toList ++ digit bit ++ " [ ".toList ++ (lockBitNames.getD (7 - bit) "").toList ++
    " ] -> ".toList ++ digit ((lockBits >>> bit.toUInt8) &&& 1).toNat ++ ['\n']

def displayLockBits (lockBits : List UInt8) : Text :=
  "Lock bits -> 0x".toList ++ byteToHex (lockBits.getD 0 0) ++ "\n\n".toList ++
    [7, 6, 5, 4, 3, 2, 1, 0].flatMap (displayLockBit (lockBits.getD 0 0))

/-! ## The functions -/

section Program

variable {State : Type} (programmer : Programmer State)

/-- Bits are written in programming mode, and read again to verify them.  A read
that returns `NULL` ends the program. -/
def writeBits (space : Space) (bits : List UInt8) (s : State) : Called State Unit :=
  (programmer.enableProgramming s).andThen fun _ s =>
    (programmer.jtagWrite s space.offset bits).andThen fun written s =>
      if written then
        (programmer.jtagRead s space.offset bits.length.toUInt32).andThen fun readBits s =>
          (programmer.disableProgramming s).andThen fun _ s =>
            ⟨if readBits.map (·.take bits.length) = some bits then some () else none, s⟩
      else ⟨none, s⟩

def readBits (space : Space) (count : Nat) (s : State) : Called State (List UInt8) :=
  (programmer.enableProgramming s).andThen fun _ s =>
    (programmer.jtagRead s space.offset count.toUInt32).andThen fun bits s =>
      (programmer.disableProgramming s).andThen fun _ s => ⟨bits.map (·.take count), s⟩

/-- What is displayed, unless the call throws.  Nothing stands for no string. -/
def jtagWriteFuses (fuses : Option Text) (s : State) : Called State Text :=
  match fuses.bind scanFuses with
  | none => ⟨none, s⟩
  | some fuseBits =>
      (writeBits programmer .fuses fuseBits s).andThen fun _ s =>
        ⟨some ("\nWriting Fuse Bytes:\n".toList ++ displayFuses fuseBits), s⟩

def jtagReadFuses (s : State) : Called State Text :=
  (readBits programmer .fuses 3 s).andThen fun fuseBits s =>
    ⟨some ("\nReading Fuse Bytes:\n".toList ++ displayFuses fuseBits), s⟩

def jtagWriteLockBits (lock : Option Text) (s : State) : Called State Text :=
  match lock.bind scanLockBits with
  | none => ⟨none, s⟩
  | some lockBits =>
      (writeBits programmer .lockBits lockBits s).andThen fun _ s =>
        ⟨some ("\nWriting Lock Bits -> 0x".toList ++ byteToHex (lockBits.getD 0 0) ++ ['\n']), s⟩

def jtagReadLockBits (s : State) : Called State Text :=
  (readBits programmer .lockBits 1 s).andThen fun lockBits s =>
    ⟨some ("\nReading Lock Bits:\n".toList ++ displayLockBits lockBits), s⟩

/-- A byte is read among others, and another one is written where that is not as it
should be.  Whether that succeeds is not checked. -/
def adjust (space : Space) (count i : Nat) (better : UInt8 → Option UInt8) (s : State) :
    Called State Unit :=
  (programmer.jtagRead s space.offset count.toUInt32).andThen fun bits s =>
    match bits with
    | none => ⟨none, s⟩
    | some bits =>
        match better (bits.getD i 0) with
        | none => ⟨some (), s⟩
        | some byte =>
            (programmer.jtagWrite s (space.offset + i.toUInt64) [byte]).andThen fun _ s =>
              ⟨some (), s⟩

def unlocked (lockBits : UInt8) : Option UInt8 :=
  if lockBits ≠ lockBitsAllUnlocked then some lockBitsAllUnlocked else none

def withOcd (high : UInt8) : Option UInt8 :=
  if high &&& fuseOcden = fuseOcden then some (high &&& ~~~fuseOcden) else none

/-- What both classes do in `initJtagOnChipDebugging` so that the chip can be
debugged. -/
def openChip (s : State) : Called State Unit :=
  (programmer.enableProgramming s).andThen fun _ s =>
    (adjust programmer .lockBits 1 0 unlocked s).andThen fun _ s =>
      (adjust programmer .fuses 3 1 withOcd s).andThen fun _ s => programmer.disableProgramming s

end Program

/-! ## What becomes of a chip -/

/-- The contents with a byte as it should be. -/
def adjusted (cells : Cells) (contents : Contents) (space : Space) (i : Nat)
    (better : UInt8 → Option UInt8) : Contents :=
  match better (contents space i) with
  | none => contents
  | some byte => cells.stored contents space i [byte]

def opened (cells : Cells) (contents : Contents) : Contents :=
  adjusted cells (adjusted cells contents .lockBits 0 unlocked) .fuses 1 withOcd

theorem adjusted_apply (cells : Cells) (contents : Contents) (space : Space) (i : Nat)
    (better : UInt8 → Option UInt8) (other : Space) (address : Nat) :
    adjusted cells contents space i better other address =
      if other = space ∧ address = i then
        (better (contents space i)).elim (contents space i) (cells.merge space (contents space i))
      else contents other address := by
  rw [adjusted]
  cases better (contents space i) with
  | none =>
      split
      next same => rw [same.1, same.2]; rfl
      next => rfl
  | some byte =>
      show cells.stored contents space i [byte] other address = _
      by_cases same : other = space
      · subst same
        rw [Cells.stored, Function.update_self, merged_apply]
        simp
      · rw [Cells.stored, Function.update_of_ne same, if_neg fun both => same both.1]

/-- All lock bits are set, and the fuse `OCDEN` is cleared. -/
def Debuggable (contents : Contents) : Prop :=
  contents .lockBits 0 = lockBitsAllUnlocked ∧ contents .fuses 1 &&& fuseOcden ≠ fuseOcden

theorem opened_debuggable {cells : Cells} {contents : Contents}
    (unlocks : cells.merge .lockBits (contents .lockBits 0) lockBitsAllUnlocked =
      lockBitsAllUnlocked)
    (clears : ∀ old, cells.merge .fuses old (old &&& ~~~fuseOcden) = old &&& ~~~fuseOcden) :
    Debuggable (opened cells contents) := by
  constructor
  · simp only [opened, adjusted_apply, reduceCtorEq, false_and, if_false, true_and, if_true,
      unlocked]
    by_cases already : contents .lockBits 0 = lockBitsAllUnlocked
    · simp [already]
    · simp [already, unlocks]
  · simp only [opened, adjusted_apply, reduceCtorEq, false_and, if_false, true_and, if_true,
      withOcd]
    by_cases enabled : contents .fuses 1 &&& fuseOcden = fuseOcden
    · rw [if_pos enabled, Option.elim_some, clears, UInt8.and_assoc]
      have cleared : ~~~fuseOcden &&& fuseOcden = 0 := by decide
      rw [cleared, UInt8.and_zero]
      decide
    · rwa [if_neg enabled]

namespace Drives

variable {State : Type} {programmer : Programmer State} {device : Image.Device} {cells : Cells}
  {view : View State} (drives : Drives programmer device cells view) {s : State}
include drives

theorem writeBits (ready : view.Ready s) {space : Space} (unpaged : space.Unpaged)
    {bits : List UInt8} (some : 0 < bits.length) (few : bits.length ≤ 256) :
    let stored := cells.stored (view.chip s).contents space 0 bits
    Called.Ends
      (fun _ after => view.Kept s after ∧ view.chip after = ⟨false, stored⟩ ∧
        slice (stored space) 0 bits.length = bits)
      (fun after => (view.chip after).contents = (view.chip s).contents ∨
        (view.chip after).contents = stored)
      (Programming.writeBits programmer space bits s) := by
  intro stored
  have zero : space.offset + (0 : Nat).toUInt64 = space.offset := UInt64.add_zero _
  have within : Within device space 0 bits.length :=
    within_of_unpaged unpaged some few (by decide)
  refine Called.Ends.andThen ((drives.enable s ready).imp (fun _ _ => id) fun _ => .inl) ?_
  rintro _ entered ⟨kept, inMode⟩
  have programming : (view.chip entered).programming = true := by rw [inMode]; rfl
  have before : (view.chip entered).contents = (view.chip s).contents := by rw [inMode]; rfl
  have write := drives.write entered space 0 bits kept.ready programming within
    fun memtype same => absurd same (unpaged memtype)
  rw [zero, before] at write
  refine Called.Ends.andThen (write.imp (fun _ _ => id) fun _ => id) ?_
  rintro _ after ⟨rfl, keptToo, wrote⟩
  rw [Request.effect, if_pos programming, before] at wrote
  have mode : (view.chip after).programming = true := by rw [wrote]; exact programming
  have now : (view.chip after).contents = stored := by rw [wrote]
  have read := drives.read_unpaged keptToo.ready mode unpaged within
  rw [zero] at read
  rw [if_pos rfl]
  refine Called.Ends.andThen (read.imp (fun _ _ => id) fun _ same => .inr (same.trans now)) ?_
  rintro readBits last ⟨still, same, verified⟩
  refine Called.Ends.andThen ((drives.disable last still.ready).imp (fun _ _ => id)
    fun _ unchanged => .inr ((unchanged.trans (congrArg Chip.contents same)).trans now)) ?_
  rintro _ final ⟨atLast, left⟩
  rw [same] at left
  have allKept := ((kept.trans keptToo).trans still).trans atLast
  have bitsNow : (view.chip final).contents = stored := by
    rw [left]
    exact now
  constructor
  · intro _ returned
    cases readBits with
    | none => cases returned
    | some buffer =>
        have equal : buffer.take bits.length = bits := by
          by_contra differs
          simp [differs] at returned
        have read := verified buffer rfl
        rw [equal, now] at read
        exact ⟨allKept, by rw [left, Request.effect, now], read.symm⟩
  · exact fun _ => .inr bitsNow

theorem readBits (ready : view.Ready s) {space : Space} (unpaged : space.Unpaged) {count : Nat}
    (some : 0 < count) (few : count ≤ 256) :
    Called.Ends
      (fun bits after => view.Kept s after ∧
        view.chip after = ⟨false, (view.chip s).contents⟩ ∧
          bits = slice ((view.chip s).contents space) 0 count)
      (fun after => (view.chip after).contents = (view.chip s).contents)
      (Programming.readBits programmer space count s) := by
  have zero : space.offset + (0 : Nat).toUInt64 = space.offset := UInt64.add_zero _
  refine Called.Ends.andThen ((drives.enable s ready).imp (fun _ _ => id) fun _ => id) ?_
  rintro _ entered ⟨kept, inMode⟩
  have before : (view.chip entered).contents = (view.chip s).contents := by rw [inMode]; rfl
  have within : Within device space 0 count := within_of_unpaged unpaged some few (by decide)
  have read := drives.read_unpaged kept.ready (by rw [inMode]; rfl) unpaged within
  rw [zero, before] at read
  refine Called.Ends.andThen (read.imp (fun _ _ => id) fun _ => id) ?_
  rintro bits after ⟨still, same, presented⟩
  refine Called.Ends.andThen ((drives.disable after still.ready).imp (fun _ _ => id)
    fun _ unchanged => unchanged.trans ((congrArg Chip.contents same).trans before)) ?_
  rintro _ last ⟨atLast, left⟩
  rw [same, inMode] at left
  constructor
  · intro value returned
    obtain ⟨buffer, rfl, rfl⟩ := Option.map_eq_some_iff.mp returned
    exact ⟨(kept.trans still).trans atLast, left, presented buffer rfl⟩
  · intro _
    have same := congrArg Chip.contents left
    exact same

theorem adjust (ready : view.Ready s) (programming : (view.chip s).programming = true)
    {space : Space} (unpaged : space.Unpaged) {count i : Nat} (few : count ≤ 256)
    (inside : i < count) (better : UInt8 → Option UInt8) :
    Called.Ends
      (fun _ after => view.Kept s after ∧ view.chip after =
        { view.chip s with contents := adjusted cells (view.chip s).contents space i better })
      (fun after => (view.chip after).contents = (view.chip s).contents ∨
        (view.chip after).contents = adjusted cells (view.chip s).contents space i better)
      (Programming.adjust programmer space count i better s) := by
  have zero : space.offset + (0 : Nat).toUInt64 = space.offset := UInt64.add_zero _
  have within : Within device space 0 count :=
    within_of_unpaged unpaged (by omega) few (by decide)
  have read := drives.read_unpaged ready programming unpaged within
  rw [zero] at read
  refine Called.Ends.andThen (read.imp (fun _ _ => id) fun _ => .inl) ?_
  rintro bits after ⟨kept, same, presented⟩
  cases bits with
  | none => exact ⟨nofun, fun _ => .inl (congrArg Chip.contents same)⟩
  | some bits =>
      have byte : bits.getD i 0 = (view.chip s).contents space i := by
        have taken := congrArg (fun all => all.getD i 0) (presented bits rfl)
        simp only [slice, Nat.zero_add] at taken
        rw [List.getD_eq_getElem?_getD, List.getElem?_take_of_lt inside,
          ← List.getD_eq_getElem?_getD] at taken
        simpa [List.getD_eq_getElem?_getD, inside] using taken
      simp only [byte, adjusted]
      cases better ((view.chip s).contents space i) with
      | none => exact Called.ends_return ⟨kept, same⟩
      | some wanted =>
          have one : Within device space i [wanted].length :=
            within_of_unpaged unpaged Nat.one_pos (by simp) (by omega)
          have write := drives.write after space i [wanted] kept.ready (same ▸ programming) one
            fun memtype equal => absurd equal (unpaged memtype)
          rw [same] at write
          refine Called.Ends.andThen (write.imp (fun _ _ => id) fun _ => id) ?_
          rintro _ last ⟨-, keptToo, wrote⟩
          refine Called.ends_return ⟨kept.trans keptToo, ?_⟩
          rw [wrote, Request.effect, if_pos programming]

theorem openChip (ready : view.Ready s) :
    Called.Ends
      (fun _ after => view.Kept s after ∧
        view.chip after = ⟨false, opened cells (view.chip s).contents⟩)
      (fun after => (view.chip after).contents = (view.chip s).contents ∨
        (view.chip after).contents =
            adjusted cells (view.chip s).contents .lockBits 0 unlocked ∨
          (view.chip after).contents = opened cells (view.chip s).contents)
      (Programming.openChip programmer s) := by
  refine Called.Ends.andThen ((drives.enable s ready).imp (fun _ _ => id) fun _ => .inl) ?_
  rintro _ entered ⟨kept, inMode⟩
  have programming : (view.chip entered).programming = true := by rw [inMode]; rfl
  have before : (view.chip entered).contents = (view.chip s).contents := by rw [inMode]; rfl
  have unlock := drives.adjust kept.ready programming unpaged_lockBits (by decide : 1 ≤ 256)
    Nat.one_pos unlocked
  rw [before] at unlock
  refine Called.Ends.andThen (unlock.imp (fun _ _ => id) fun _ => Or.imp_right .inl) ?_
  rintro _ after ⟨keptToo, done⟩
  have enable := drives.adjust keptToo.ready (by rw [done]; exact programming) unpaged_fuses
    (by decide : 3 ≤ 256) (by decide : 1 < 3) withOcd
  rw [done] at enable
  refine Called.Ends.andThen (enable.imp (fun _ _ => id) fun _ => .inr) ?_
  rintro _ last ⟨still, done⟩
  refine (drives.disable last still.ready).imp ?_ ?_
  · rintro _ final ⟨atLast, left⟩
    rw [done] at left
    exact ⟨((kept.trans keptToo).trans still).trans atLast, left⟩
  · intro final unchanged
    rw [done] at unchanged
    exact .inr (.inr unchanged)

end Drives

end Avarice.Programming

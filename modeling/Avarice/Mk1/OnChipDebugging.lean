import Avarice.Mk1.LossyProgramming

/-!
# On-chip debugging with a mkI

`initJtagOnChipDebugging` of `jtagio.cc` with the reset of `jtagrun.cc`, over a line that
loses commands and answers.
-/

namespace Avarice.Mk1.Memory

open Throwing
open Programming (Cells Chip Debuggable adjusted atmega16_supported fuseOcden
  lockBitsAllUnlocked opened openChip opened_debuggable unlocked usualCells)

abbrev jtagPClock : UInt8 := 0x86
abbrev jtagPExternalReset : UInt8 := 0x8b
abbrev jtagPTimersRunning : UInt8 := 0xa0

abbrev jtagBitrate1MHz : UInt8 := 0xff
abbrev jtagBitrate500KHz : UInt8 := 0xfe
abbrev jtagBitrate250KHz : UInt8 := 0xfd
abbrev jtagBitrate125KHz : UInt8 := 0xfb

/-- The code for a clock that is not faster than the bit rate. -/
def clockOf (bitrate : UInt64) : UInt8 :=
  if 1000000 ≤ bitrate then jtagBitrate1MHz
  else if 500000 ≤ bitrate then jtagBitrate500KHz
  else if 250000 ≤ bitrate then jtagBitrate250KHz
  else jtagBitrate125KHz

section Program

variable {Ice : Type} (doJtagCommand : List UInt8 → Nat → Ice → Called Ice (List UInt8))

def Jtag1.resetProgram (s : Jtag1 Ice) (applyNsrst possibleNsrst : Bool) :
    Called (Jtag1 Ice) Bool :=
  let external (newValue : UInt8) (s : Jtag1 Ice) : Called (Jtag1 Ice) Unit :=
    if possibleNsrst && applyNsrst then
      s.setJtagParameter doJtagCommand jtagPExternalReset newValue
    else ⟨some (), s⟩
  (external 0x01 s).andThen fun _ s =>
    (s.doSimpleJtagCommand doJtagCommand 0x78 1).andThen fun result s =>
      (external 0x00 s).andThen fun _ s => ⟨some result, s⟩

def Jtag1.initJtagOnChipDebugging (s : Jtag1 Ice) (applyNsrst : Bool) (bitrate : UInt64) :
    Called (Jtag1 Ice) Unit :=
  (s.setJtagParameter doJtagCommand jtagPClock (clockOf bitrate)).andThen fun _ s =>
    (openChip (programmer1 doJtagCommand) s).andThen fun _ s =>
      (s.resetProgram doJtagCommand applyNsrst false).andThen fun _ s =>
        (s.setJtagParameter doJtagCommand jtagPTimersRunning 0x00).andThen fun _ s =>
          (s.resetProgram doJtagCommand applyNsrst true).andThen fun _ s => ⟨some (), s⟩

end Program

section Line

variable {Ice : Type} {execute : Ice → List UInt8 → List UInt8 × Ice} {kit : Ice → Kit}
  {device : Image.Device} {remembers : Bool} {cells : Cells} {fates : Nat → Fate}
  (keeps : KeepsChip execute kit device remembers cells) (honest : NoFalseOk fates)
include keeps honest

theorem setJtagParameter_ready (s : Jtag1 (Far Ice)) (item newValue : UInt8)
    {parameters : UInt8 → UInt8} (ready : s.ChipReady kit parameters) :
    Called.Ends
      (fun _ after => after.ChipReady kit (Function.update parameters item newValue) ∧
        (kit after.ice.ice).chip = (kit s.ice.ice).chip)
      (fun after => (kit after.ice.ice).chip = (kit s.ice.ice).chip)
      (s.setJtagParameter (doJtagCommand (lossyLine execute fates)) item newValue) := by
  refine (setJtagParameter_ends keeps honest s item newValue).imp ?_ fun _ => id
  rintro _ after ⟨flag, same, set⟩
  refine ⟨⟨?_, ?_⟩, same⟩
  · rw [same, flag]
    exact ready.mode
  · intro other apart
    rw [set]
    by_cases here : other = item
    · rw [here, Function.update_self, Function.update_self]
    · rw [Function.update_of_ne here, Function.update_of_ne here]
      exact ready.parameters other apart

def released (applies : Bool) (parameters : UInt8 → UInt8) : UInt8 → UInt8 :=
  if applies then Function.update parameters jtagPExternalReset 0 else parameters

theorem resetProgram_ends (s : Jtag1 (Far Ice)) (applyNsrst possibleNsrst : Bool)
    {parameters : UInt8 → UInt8} (ready : s.ChipReady kit parameters) :
    Called.Ends
      (fun _ after => after.ChipReady kit (released (possibleNsrst && applyNsrst) parameters) ∧
        (kit after.ice.ice).chip = (kit s.ice.ice).chip)
      (fun after => (kit after.ice.ice).chip = (kit s.ice.ice).chip)
      (s.resetProgram (doJtagCommand (lossyLine execute fates)) applyNsrst possibleNsrst) := by
  have reset {middle : Jtag1 (Far Ice)} {parameters : UInt8 → UInt8}
      (ready : middle.ChipReady kit parameters) :
      Called.Ends
        (fun _ after => after.ChipReady kit parameters ∧
          (kit after.ice.ice).chip = (kit middle.ice.ice).chip)
        (fun after => (kit after.ice.ice).chip = (kit middle.ice.ice).chip)
        (middle.doSimpleJtagCommand (doJtagCommand (lossyLine execute fates)) 0x78 1) := by
    refine (doSimpleJtagCommand_ends keeps honest middle
      (show Order.reset.bytes = 0x78 :: jtagEom from rfl) trivial trivial 1).imp ?_ ?_
    · rintro _ after ⟨flag, done⟩
      rw [Order.effect] at done
      exact ⟨⟨by rw [done, flag]; exact ready.mode, by rw [done]; exact ready.parameters⟩,
        congrArg Kit.chip done⟩
    · rintro after (same | same) <;> exact congrArg Kit.chip same
  rw [Jtag1.resetProgram, released]
  cases possibleNsrst && applyNsrst with
  | false =>
      have nothing : Called.Ends (fun _ after => after = s)
          (fun after => (kit after.ice.ice).chip = (kit s.ice.ice).chip)
          (⟨some (), s⟩ : Called (Jtag1 (Far Ice)) Unit) := Called.ends_return rfl
      refine Called.Ends.andThen nothing ?_
      rintro _ _ rfl
      refine Called.Ends.andThen (reset ready) ?_
      exact fun _ after done => Called.ends_return done
  | true =>
      refine Called.Ends.andThen
        (setJtagParameter_ready keeps honest s jtagPExternalReset 1 ready) ?_
      rintro _ pulled ⟨ready, samePulled⟩
      refine Called.Ends.andThen ((reset ready).imp (fun _ _ => id)
        fun _ same => same.trans samePulled) ?_
      rintro result after ⟨ready, same⟩
      refine Called.Ends.andThen
        ((setJtagParameter_ready keeps honest after jtagPExternalReset 0 ready).imp (fun _ _ => id)
          fun _ kept => kept.trans (same.trans samePulled)) ?_
      rintro _ last ⟨ready, kept⟩
      rw [Function.update_idem] at ready
      exact Called.ends_return ⟨ready, kept.trans (same.trans samePulled)⟩

end Line

def prepared (parameters : UInt8 → UInt8) (applyNsrst : Bool) (bitrate : UInt64) : UInt8 → UInt8 :=
  released applyNsrst
    (Function.update (Function.update parameters jtagPClock (clockOf bitrate)) jtagPTimersRunning 0)

/-- Whatever the line loses, preparing a chip for debugging changes at most its lock
bits and its high fuse byte, each to what it should be.  If the call returns, both
have been changed where necessary, the parameters other than the page sizes are set,
and both sides are out of programming mode. -/
theorem initJtagOnChipDebugging_opens {Ice : Type}
    {execute : Ice → List UInt8 → List UInt8 × Ice} {kit : Ice → Kit} {device : Image.Device}
    {remembers : Bool} {cells : Cells} {fates : Nat → Fate}
    (keeps : KeepsChip execute kit device remembers cells) (fits : FitsCommands device)
    (honest : NoFalseOk fates) {s : Jtag1 (Far Ice)}
    (agrees : (kit s.ice.ice).chip.programming = s.programmingEnabled)
    (applyNsrst : Bool) (bitrate : UInt64) :
    let call := s.initJtagOnChipDebugging (doJtagCommand (lossyLine execute fates)) applyNsrst
      bitrate
    let before := kit s.ice.ice
    let after := kit call.state.ice.ice
    (call.value = some () →
      after.chip = ⟨false, opened cells before.chip.contents⟩ ∧
        call.state.programmingEnabled = false ∧
          (∀ item ∉ pageParameters,
            after.parameters item = prepared before.parameters applyNsrst bitrate item) ∧
            (cells.merge .lockBits (before.chip.contents .lockBits 0) lockBitsAllUnlocked =
                lockBitsAllUnlocked →
              (∀ old, cells.merge .fuses old (old &&& ~~~fuseOcden) = old &&& ~~~fuseOcden) →
                Debuggable after.chip.contents)) ∧
      (call.value = none →
        after.chip.contents = before.chip.contents ∨
          after.chip.contents = adjusted cells before.chip.contents .lockBits 0 unlocked ∨
            after.chip.contents = opened cells before.chip.contents) := by
  have ready : s.ChipReady kit (kit s.ice.ice).parameters := ⟨agrees, fun _ _ => rfl⟩
  suffices ends : Called.Ends
      (fun _ after => after.ChipReady kit
          (prepared (kit s.ice.ice).parameters applyNsrst bitrate) ∧
        (kit after.ice.ice).chip = ⟨false, opened cells (kit s.ice.ice).chip.contents⟩)
      (fun after => (kit after.ice.ice).chip.contents = (kit s.ice.ice).chip.contents ∨
        (kit after.ice.ice).chip.contents =
            adjusted cells (kit s.ice.ice).chip.contents .lockBits 0 unlocked ∨
          (kit after.ice.ice).chip.contents = opened cells (kit s.ice.ice).chip.contents)
      (s.initJtagOnChipDebugging (doJtagCommand (lossyLine execute fates)) applyNsrst bitrate) by
    refine ⟨fun returned => ?_, ends.threw⟩
    obtain ⟨stillReady, done⟩ := ends.returned () returned
    refine ⟨done, ?_, stillReady.parameters, fun unlocks clears => ?_⟩
    · rw [← stillReady.mode, done]
    · rw [done]
      exact opened_debuggable unlocks clears
  refine Called.Ends.andThen
    ((setJtagParameter_ready keeps honest s jtagPClock (clockOf bitrate) ready).imp (fun _ _ => id)
      fun _ same => .inl (congrArg Chip.contents same)) ?_
  rintro _ clocked ⟨ready, sameClocked⟩
  have opening := (lossyProgrammer1_drives keeps honest fits _).openChip ready
  simp only [lossyView1, sameClocked] at opening
  refine Called.Ends.andThen (opening.imp (fun _ _ => id) fun _ => id) ?_
  rintro _ openedHere ⟨kept, done⟩
  have late {after : Jtag1 (Far Ice)}
      (same : (kit after.ice.ice).chip = (kit openedHere.ice.ice).chip) :
      (kit after.ice.ice).chip.contents = opened cells (kit s.ice.ice).chip.contents := by
    rw [same, done]
  refine Called.Ends.andThen
    ((resetProgram_ends keeps honest openedHere applyNsrst false kept.ready).imp
      (fun _ _ => id) fun _ same => .inr (.inr (late same))) ?_
  rintro _ reset ⟨ready, sameReset⟩
  refine Called.Ends.andThen
    ((setJtagParameter_ready keeps honest reset jtagPTimersRunning 0 ready).imp (fun _ _ => id)
      fun _ same => .inr (.inr (late (same.trans sameReset)))) ?_
  rintro _ stopped ⟨ready, sameStopped⟩
  have sameAll := sameStopped.trans sameReset
  refine Called.Ends.andThen ((resetProgram_ends keeps honest stopped applyNsrst true ready).imp
    (fun _ _ => id) fun _ same => .inr (.inr (late (same.trans sameAll)))) ?_
  rintro _ last ⟨ready, sameLast⟩
  exact Called.ends_return ⟨ready, (sameLast.trans sameAll).trans done⟩

/-- A chip whose bits are all set, but for its high fuse byte. -/
def unopened : Programming.Contents :=
  fun space address => if space = .fuses ∧ address = 1 then 0xd9 else 0xff

theorem initJtagOnChipDebugging_opens_twoFail :
    let s := sessionWith unopened
    let call := s.initJtagOnChipDebugging
      (doJtagCommand (lossyLine (Kit.execute usualCells) twoFail)) true 1000000
    let after := call.state.ice.ice
    (call.value = some () →
      after.chip = ⟨false, opened usualCells unopened⟩ ∧
        call.state.programmingEnabled = false ∧
          (∀ item ∉ pageParameters,
            after.parameters item = prepared (fun _ => 0) true 1000000 item) ∧
            ((0xff &&& lockBitsAllUnlocked : UInt8) = lockBitsAllUnlocked →
              (∀ old : UInt8, old &&& (old &&& ~~~fuseOcden) = old &&& ~~~fuseOcden) →
                Debuggable after.chip.contents)) ∧
      (call.value = none →
        after.chip.contents = unopened ∨
          after.chip.contents = adjusted usualCells unopened .lockBits 0 unlocked ∨
            after.chip.contents = opened usualCells unopened) :=
  initJtagOnChipDebugging_opens (Kit.keepsChip usualCells (fitsCommands_supported _))
    (fitsCommands_supported atmega16_supported) twoFail_honest (s := sessionWith unopened) rfl
    true 1000000

end Avarice.Mk1.Memory

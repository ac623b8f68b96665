import Avarice.Mk1.Programming
import Avarice.Programming.Session

/-!
# Programming with a mkI

Memories, fuses and lock bits are written in two commands, over a line that loses
commands and answers.
-/

namespace Avarice.Mk1.Memory

open PagedMemory Repetition Throwing
open Programming (Cells Chip Drives Programmer Request Served Space Task View Within
  atmega16_supported pages usualCells usualCells_takes usualTasks usualTasks_bits usualTasks_fit)

/-- An ICE with a chip, which takes pages once their sizes have been set.  An answer to
a read that ends well has the bytes. -/
structure KeepsChip {Ice : Type} (execute : Ice → List UInt8 → List UInt8 × Ice)
    (kit : Ice → Kit) (device : Image.Device) (remembers : Bool) (cells : Cells) : Prop where
  once : ∀ ice (order : Order), order.Sayable device → order.Fits device (kit ice) →
    kit (execute ice order.bytes).2 = order.effect remembers cells (kit ice)
  quiet : ∀ ice, ∀ command ∈ [sync, stop], kit (execute ice command).2 = kit ice
  read : ∀ ice space start count response rest, Within device space start count →
    (kit ice).chip.programming = true →
      (execute ice (Order.read space start count).bytes).1 = jtagROk :: (response ++ rest) →
        response.length = count + 2 → response.getD (count + 1) 0 = jtagROk →
          response.take count = slice ((kit ice).chip.contents space) start count

section Line

variable {Ice : Type} {execute : Ice → List UInt8 → List UInt8 × Ice} {kit : Ice → Kit}
  {device : Image.Device} {remembers : Bool} {cells : Cells}

theorem KeepsChip.repeatable (keeps : KeepsChip execute kit device remembers cells) {order : Order}
    (sayable : order.Sayable device) :
    Repeatable execute kit (fun kit => order.Fits device kit) order.bytes [sync, stop]
      (fun kit => order.effect remembers cells kit) where
  once ice fits := keeps.once ice order sayable fits
  harmless := keeps.quiet
  stays held fits := by
    cases order with
    | block bytes =>
        intro space start count named
        simp only [Order.effect] at named
        split at named
        next unnamed => rw [unnamed] at named; cases named
        next other first size here =>
          cases remembers with
          | false => cases named
          | true =>
              have kept := fits space start count named
              simp only [Order.effect, here]
              exact kept
    | _ => trivial
  again held fits := by
    cases order with
    | parameter item newValue => simp [Order.effect]
    | erase => simp [Order.effect, Request.effect_effect]
    | block bytes =>
        cases place : held.named with
        | none => simp [Order.effect, place]
        | some name =>
            obtain ⟨space, start, count⟩ := name
            cases remembers with
            | false => simp [Order.effect, place]
            | true => simp [Order.effect, place, Request.effect_effect]
    | _ => rfl

variable (execute) in
abbrev lossyProgrammer1 (fates : Nat → Fate) : Programmer (Jtag1 (Far Ice)) :=
  programmer1 (doJtagCommand (lossyLine execute fates))

abbrev pageParameters : List UInt8 :=
  [jtagPFlashPagesizeLow, jtagPFlashPagesizeHigh, jtagPEepromPagesize]

variable (kit) in
/-- Both sides are in the same mode, and the other parameters are given. -/
structure Jtag1.ChipReady (parameters : UInt8 → UInt8) (s : Jtag1 (Far Ice)) : Prop where
  mode : (kit s.ice.ice).chip.programming = s.programmingEnabled
  parameters : ∀ item ∉ pageParameters, (kit s.ice.ice).parameters item = parameters item

variable (kit device) in
/-- Nothing is kept of what is read. -/
def lossyView1 (parameters : UInt8 → UInt8) : View (Jtag1 (Far Ice)) where
  chip s := (kit s.ice.ice).chip
  cached _ _ := none
  Ready s := s.ChipReady kit parameters
  Paged s := PagesGiven device (kit s.ice.ice).parameters

theorem kept_of_same {parameters : UInt8 → UInt8} {s after : Jtag1 (Far Ice)}
    (ready : s.ChipReady kit parameters)
    (mode : (kit after.ice.ice).chip.programming = after.programmingEnabled)
    (same : (kit after.ice.ice).parameters = (kit s.ice.ice).parameters) :
    (lossyView1 kit device parameters).Kept s after where
  ready := ⟨mode, same.symm ▸ ready.parameters⟩
  paged := by
    intro paged
    show PagesGiven device (kit after.ice.ice).parameters
    rw [same]
    exact paged
  cached := rfl

variable {fates : Nat → Fate} (keeps : KeepsChip execute kit device remembers cells)
  (honest : NoFalseOk fates)
include keeps honest

theorem order_ends (s : Jtag1 (Far Ice)) {order : Order} (sayable : order.Sayable device)
    (fits : order.Fits device (kit s.ice.ice)) (responseSize : Nat) :
    Called.Ends
      (fun response after => after.programmingEnabled = s.programmingEnabled ∧
        response.length = responseSize ∧
          kit after.ice.ice = order.effect remembers cells (kit s.ice.ice) ∧
            ∃ last rest, (execute last order.bytes).1 = jtagROk :: (response ++ rest) ∧
              (kit last = kit s.ice.ice ∨
                kit last = order.effect remembers cells (kit s.ice.ice)))
      (fun after => kit after.ice.ice = kit s.ice.ice ∨
        kit after.ice.ice = order.effect remembers cells (kit s.ice.ice))
      (s.command (doJtagCommand (lossyLine execute fates)) order.bytes responseSize) := by
  have ends := doJtagCommand_ends (keeps.repeatable sayable) honest responseSize (w := s.ice) fits
  exact ⟨fun response same => ⟨rfl, ends.returned response same⟩, ends.threw⟩

theorem doSimpleJtagCommand_ends (s : Jtag1 (Far Ice)) {order : Order} {cmd : UInt8}
    (bytes : order.bytes = cmd :: jtagEom) (sayable : order.Sayable device)
    (fits : order.Fits device (kit s.ice.ice)) (responseSize : Nat) :
    Called.Ends
      (fun _ after => after.programmingEnabled = s.programmingEnabled ∧
        kit after.ice.ice = order.effect remembers cells (kit s.ice.ice))
      (fun after => kit after.ice.ice = kit s.ice.ice ∨
        kit after.ice.ice = order.effect remembers cells (kit s.ice.ice))
      (s.doSimpleJtagCommand (doJtagCommand (lossyLine execute fates)) cmd responseSize) := by
  have ends := order_ends keeps honest s sayable fits responseSize
  rw [bytes] at ends
  refine Called.Ends.andThen (ends.imp (fun _ _ => id) fun _ => id) ?_
  rintro response after ⟨flag, -, done, -⟩
  exact Called.ends_return ⟨flag, done⟩

theorem checkedCommand_ends (s : Jtag1 (Far Ice)) {order : Order} {cmd : UInt8}
    (bytes : order.bytes = cmd :: jtagEom) (sayable : order.Sayable device)
    (fits : order.Fits device (kit s.ice.ice)) :
    Called.Ends
      (fun _ after => after.programmingEnabled = s.programmingEnabled ∧
        kit after.ice.ice = order.effect remembers cells (kit s.ice.ice))
      (fun after => kit after.ice.ice = kit s.ice.ice ∨
        kit after.ice.ice = order.effect remembers cells (kit s.ice.ice))
      (s.checkedCommand (doJtagCommand (lossyLine execute fates)) cmd) := by
  refine Called.Ends.andThen ((doSimpleJtagCommand_ends keeps honest s bytes sayable fits 1).imp
    (fun _ _ => id) fun _ => id) ?_
  rintro success after ⟨flag, done⟩
  exact ⟨fun _ _ => ⟨flag, done⟩, fun _ => .inr done⟩

theorem mode_ends (s : Jtag1 (Far Ice)) (programming : Bool) {cmd : UInt8}
    (bytes : (Order.mode programming).bytes = cmd :: jtagEom) {parameters : UInt8 → UInt8}
    (ready : s.ChipReady kit parameters) :
    Called.Ends
      (fun _ after => (lossyView1 kit device parameters).Kept s after ∧
        (kit after.ice.ice).chip = { (kit s.ice.ice).chip with programming })
      (fun after => (kit after.ice.ice).chip.contents = (kit s.ice.ice).chip.contents)
      (Jtag1.checkedCommand (doJtagCommand (lossyLine execute fates))
        { s with programmingEnabled := programming } cmd) := by
  refine (checkedCommand_ends keeps honest { s with programmingEnabled := programming } bytes
    trivial trivial).imp ?_ ?_
  · rintro _ after ⟨flag, done⟩
    refine ⟨kept_of_same ready ?_ ?_, by rw [done]; rfl⟩
    · rw [done, flag]
      rfl
    · rw [done]
      rfl
  · rintro after (not | done)
    · rw [not]
    · rw [done]
      rfl

theorem setJtagParameter_ends (s : Jtag1 (Far Ice)) (item newValue : UInt8) :
    Called.Ends
      (fun _ after => after.programmingEnabled = s.programmingEnabled ∧
        (kit after.ice.ice).chip = (kit s.ice.ice).chip ∧
          (kit after.ice.ice).parameters =
            Function.update (kit s.ice.ice).parameters item newValue)
      (fun after => (kit after.ice.ice).chip = (kit s.ice.ice).chip)
      (s.setJtagParameter (doJtagCommand (lossyLine execute fates)) item newValue) := by
  have ends := order_ends keeps honest s
    (show (Order.parameter item newValue).Sayable device from trivial) trivial 1
  refine Called.Ends.andThen (ends.imp (fun _ _ => id) ?_) ?_
  · rintro after (same | same)
    · rw [same]
    · rw [same]
      rfl
  · rintro response after ⟨flag, -, done, -⟩
    have same : (kit after.ice.ice).chip = (kit s.ice.ice).chip := by
      rw [done]
      rfl
    exact ⟨fun _ _ => ⟨flag, same, congrArg Kit.parameters done⟩, fun _ => same⟩

theorem setPageSizes_ends {s : Jtag1 (Far Ice)} {parameters : UInt8 → UInt8}
    (ready : s.ChipReady kit parameters) :
    Called.Ends
      (fun _ after => (lossyView1 kit device parameters).Kept s after ∧
        PagesGiven device (kit after.ice.ice).parameters ∧
          (kit after.ice.ice).chip = (kit s.ice.ice).chip)
      (fun after => (kit after.ice.ice).chip.contents = (kit s.ice.ice).chip.contents)
      (Jtag1.setPageSizes (doJtagCommand (lossyLine execute fates)) device s) := by
  rw [Jtag1.setPageSizes]
  refine Called.Ends.andThen ((setJtagParameter_ends keeps honest s _ _).imp (fun _ _ => id)
    fun _ same => congrArg Chip.contents same) ?_
  rintro _ low ⟨flagLow, sameLow, setLow⟩
  refine Called.Ends.andThen ((setJtagParameter_ends keeps honest low _ _).imp (fun _ _ => id)
    fun _ same => congrArg Chip.contents (same.trans sameLow)) ?_
  rintro _ high ⟨flagHigh, sameHigh, setHigh⟩
  have unchanged := sameHigh.trans sameLow
  refine (setJtagParameter_ends keeps honest high _ _).imp ?_
    fun _ same => congrArg Chip.contents (same.trans unchanged)
  rintro _ after ⟨flag, same, set⟩
  rw [setHigh, setLow] at set
  have given : PagesGiven device (kit after.ice.ice).parameters := by
    rw [set]
    exact ⟨rfl, rfl, rfl⟩
  refine ⟨⟨⟨?_, ?_⟩, fun _ => given, rfl⟩, given, same.trans unchanged⟩
  · rw [same, unchanged, flag, flagHigh, flagLow]
    exact ready.mode
  · intro item other
    obtain ⟨notLow, notHigh, notEeprom⟩ : item ≠ jtagPFlashPagesizeLow ∧
        item ≠ jtagPFlashPagesizeHigh ∧ item ≠ jtagPEepromPagesize := by
      simpa only [pageParameters, List.mem_cons, List.not_mem_nil, or_false, not_or] using other
    rw [set, Function.update_of_ne notEeprom, Function.update_of_ne notHigh,
      Function.update_of_ne notLow]
    exact ready.parameters item other

theorem blocks_end (s : Jtag1 (Far Ice)) {space : Space} {start : Nat} {bytes : List UInt8}
    (within : Within device space start bytes.length)
    (paged : ∀ memtype, space = .memory memtype → PagesGiven device (kit s.ice.ice).parameters) :
    let doJtagCommand := doJtagCommand (lossyLine execute fates)
    let written := (Request.write space start bytes).effect cells (kit s.ice.ice).chip
    Called.Ends
      (fun _ after => after.programmingEnabled = s.programmingEnabled ∧
        (kit after.ice.ice).parameters = (kit s.ice.ice).parameters ∧
          (kit after.ice.ice).chip = written)
      (fun after => (kit after.ice.ice).chip = (kit s.ice.ice).chip ∨
        (kit after.ice.ice).chip = written)
      ((s.command doJtagCommand (Order.name space start bytes.length).bytes 0).andThen fun _ s =>
        s.command doJtagCommand (Order.block bytes).bytes 1) := by
  intro doJtagCommand written
  have naming := order_ends keeps honest s
    (show (Order.name space start bytes.length).Sayable device from within) trivial 0
  refine Called.Ends.andThen (naming.imp (fun _ _ => id) ?_) ?_
  · rintro after (same | same)
    · exact .inl (congrArg Kit.chip same)
    · left
      rw [same]
      rfl
  · rintro _ middle ⟨flag, -, named, -⟩
    have fits : (Order.block bytes).Fits device (kit middle.ice.ice) := by
      intro other first count place
      rw [named] at place
      cases place
      rw [named]
      exact ⟨rfl, paged⟩
    refine (order_ends keeps honest middle (show (Order.block bytes).Sayable device from trivial)
      fits 1).imp ?_ ?_
    · rintro _ after ⟨same, -, done, -⟩
      rw [named] at done
      rw [done]
      exact ⟨same.trans flag, rfl, rfl⟩
    · rintro after (same | done)
      · rw [same, named]
        exact .inl rfl
      · rw [done, named]
        exact .inr rfl

/-- The class over the line does what the chip is asked for, and leaves the other
parameters alone. -/
theorem lossyProgrammer1_drives (fits : FitsCommands device) (parameters : UInt8 → UInt8) :
    Drives (lossyProgrammer1 execute fates) device cells (lossyView1 kit device parameters) where
  uncached _ _ _ := rfl
  enable s ready := mode_ends keeps honest s true rfl ready
  disable s ready := mode_ends keeps honest s false rfl ready
  erase s ready := by
    refine (checkedCommand_ends keeps honest s (show Order.erase.bytes = 0xa5 :: jtagEom from rfl)
      trivial trivial).imp ?_ ?_
    · rintro _ after ⟨flag, done⟩
      have same := congrArg Kit.chip done
      refine ⟨kept_of_same ready ?_ ?_, same⟩
      · rw [same, flag]
        exact ready.mode
      · rw [done]
        rfl
    · rintro after (not | done)
      · exact .inl (congrArg (fun kit => kit.chip.contents) not)
      · exact .inr (congrArg (fun kit => kit.chip.contents) done)
  setPageSizes s ready := setPageSizes_ends keeps honest ready
  read s space start count ready programming within := by
    have mode : (kit s.ice.ice).chip.programming = true := programming
    have enabled : s.programmingEnabled = true := ready.mode.symm.trans mode
    simp only [programmer1, jtag1, jtagRead_space fits enabled within]
    have ends := order_ends keeps honest s
      (show (Order.read space start count).Sayable device from within) trivial (count + 2)
    refine Called.Ends.andThen (ends.imp (fun _ _ => id) ?_) ?_
    · rintro after (same | same) <;> exact congrArg (fun kit => kit.chip.contents) same
    · rintro response after ⟨flag, length, same, last, rest, answer, before⟩
      have kept : (lossyView1 kit device parameters).Kept s after :=
        kept_of_same ready (by rw [same, flag]; exact ready.mode) (congrArg Kit.parameters same)
      refine Called.ends_return ⟨kept.but space, congrArg Kit.chip same, .inl rfl, ?_⟩
      intro _ buffer taken
      have unread : kit last = kit s.ice.ice := before.elim id id
      split at taken
      next status =>
        cases taken
        have presented := keeps.read last space start count response rest within
          (unread ▸ mode) answer length status
        rwa [unread] at presented
      next => cases taken
  write s space start bytes ready programming within paged := by
    have mode : (kit s.ice.ice).chip.programming = true := programming
    have enabled : s.programmingEnabled = true := ready.mode.symm.trans mode
    simp only [programmer1, jtag1, jtagWrite_space fits enabled within]
    have ends := blocks_end keeps honest s within paged
    simp only [Request.effect, if_pos mode] at ends
    constructor
    · intro written returned
      obtain ⟨response, same, rfl⟩ := Option.map_eq_some_iff.mp returned
      obtain ⟨flag, sameParameters, done⟩ := ends.returned response same
      refine ⟨rfl, kept_of_same ready ?_ sameParameters, ?_⟩
      · rw [done, flag]
        exact ready.mode
      · rw [Request.effect, if_pos programming]
        exact done
    · intro threw
      rcases ends.threw (Option.map_eq_none_iff.mp threw) with not | done
      · exact .inl (congrArg Chip.contents not)
      · exact .inr (congrArg Chip.contents done)

end Line

/-! ## A chip -/

def commandOrder : List UInt8 → Order
  | [] => .reset
  | code :: rest =>
      if code = 0x68 then .block (rest.take (rest.length - 2))
      else
        match rest with
        | [_, _] =>
            if code = 0xa3 then .mode true
            else if code = 0xa4 then .mode false
            else if code = 0xa5 then .erase
            else .reset
        | [item, newValue, _, _] => .parameter item newValue
        | whichSpace :: count :: b0 :: b1 :: b2 :: _ =>
            let space :=
              if whichSpace = addrProgSpaceProgEnabled then .memory .flash
              else if whichSpace = addrEepromSpace then .memory .eeprom
              else if whichSpace = addrFuseSpace then .fuses
              else .lockBits
            let start := locationSize space * (decodeAddress b0 b1 b2).toNat
            let count := locationSize space * (count.toNat + 1)
            if code = 0x52 then .read space start count else .name space start count
        | _ => .reset

theorem commandOrder_bytes {device : Image.Device} (fits : FitsCommands device) {order : Order}
    (sayable : order.Sayable device) : commandOrder order.bytes = order := by
  have place {space : Space} {start count : Nat} (within : Within device space start count) :
      (if spaceCode space = addrProgSpaceProgEnabled then Space.memory .flash
        else if spaceCode space = addrEepromSpace then .memory .eeprom
        else if spaceCode space = addrFuseSpace then .fuses
        else .lockBits) = space ∧
        locationSize space * (decodeAddress (firstLocation space start >>> 16).toUInt8
          (firstLocation space start >>> 8).toUInt8 (firstLocation space start).toUInt8).toNat =
            start ∧
          locationSize space * ((locations space count - 1).toUInt8.toNat + 1) = count := by
    obtain ⟨startFilled, countFilled⟩ := locationSize_dvd fits within
    have number := toNat_locations fits within
    refine ⟨?_, ?_, ?_⟩
    · cases space with
      | memory memtype =>
          cases memtype with
          | flash => rfl
          | eeprom => rfl
          | ram => exact absurd rfl within.1.isPaged
      | fuses => rfl
      | lockBits => rfl
    · have small : start / locationSize space < 2 ^ 24 :=
        Nat.lt_of_le_of_lt (Nat.div_le_self _ _) (Nat.lt_trans within.start_lt (by decide))
      rw [decodeAddress_encodeAddress, toNat_firstLocation within, Nat.mod_eq_of_lt small]
      exact Nat.mul_div_cancel' startFilled
    · rw [toNat_count (number.symm ▸ locations_pos fits within)
        (number.symm ▸ locations_le fits within), number]
      exact Nat.mul_div_cancel' countFilled
  cases order with
  | mode programming => cases programming <;> rfl
  | erase => rfl
  | reset => rfl
  | parameter item newValue => rfl
  | read space start count =>
      obtain ⟨which, first, many⟩ := place sayable
      have notBlock : (0x52 : UInt8) ≠ 0x68 := by decide
      simp only [Order.bytes, readCommand, encodeAddress, jtagEom, List.cons_append,
        List.nil_append, commandOrder, if_neg notBlock, if_true, which, first, many]
  | name space start count =>
      obtain ⟨which, first, many⟩ := place sayable
      have notBlock : (0x57 : UInt8) ≠ 0x68 := by decide
      have notRead : (0x57 : UInt8) ≠ 0x52 := by decide
      simp only [Order.bytes, writeCommand, encodeAddress, jtagEom, List.cons_append,
        List.nil_append, commandOrder, if_neg notBlock, if_neg notRead, which, first, many]
  | block bytes => simp [Order.bytes, dataBlock, jtagEom, commandOrder]

def Kit.execute (cells : Cells) (kit : Kit) (command : List UInt8) : List UInt8 × Kit :=
  let order := commandOrder command
  (match order with
    | .read space start count =>
        jtagROk :: slice (kit.chip.contents space) start count ++ [0, jtagROk]
    | .name _ _ _ => [jtagROk]
    | _ => [jtagROk, jtagROk],
    order.effect false cells kit)

theorem Kit.keepsChip (cells : Cells) {device : Image.Device} (fits : FitsCommands device) :
    KeepsChip (Kit.execute cells) id device false cells where
  once kit order sayable _ := by
    rw [Kit.execute, commandOrder_bytes fits sayable]
    rfl
  quiet kit command member := by
    rcases List.mem_pair.mp member with rfl | rfl <;> rfl
  read kit space start count response rest within _ answer length _ := by
    rw [Kit.execute,
      commandOrder_bytes fits (show (Order.read space start count).Sayable device from within)]
      at answer
    have same := (List.cons.inj answer).2.symm
    have front := congrArg (List.take count) same
    rw [List.take_append_of_le_length (by omega)] at front
    rw [front]
    exact List.take_left' slice_length

def sessionWith (contents : Programming.Contents) : Jtag1 (Far Kit) where
  programmingEnabled := false
  ice := { ice := ⟨⟨false, contents⟩, none, fun _ => 0⟩, unread := [], count := 0 }

/-! ## Sessions -/

section Sessions

variable {Ice : Type} {execute : Ice → List UInt8 → List UInt8 × Ice} {kit : Ice → Kit}
  {device : Image.Device} {remembers : Bool} {cells : Cells} {fates : Nat → Fate}

end Sessions

end Avarice.Mk1.Memory

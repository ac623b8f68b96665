import Avarice.Mk2.PageCache
import Avarice.Mk2.Programming
import Avarice.Programming.Session

/-!
# Programming with a mkII

Memories, fuses and lock bits are written and read over a line that loses and delays
frames, or damages them so that their CRC is wrong.
-/

namespace Avarice.Mk2.Access

open PagedMemory Repetition Throwing Memory
open Image (maxImageSize)
open Programming (Cells Chip Drives Programmer Request Served Task View Within
  atmega16_supported pages usualCells usualCells_takes usualTasks usualTasks_bits usualTasks_fit)

/-- An ICE with a chip.  It may refuse commands; what it accepts has been done, and
a read that it accepts has the bytes. -/
structure KeepsChip {Ice : Type} (execute : Ice → List UInt8 → List UInt8 × Ice)
    (chip : Ice → Chip) (device : Image.Device) (cells : Cells)
    (effect : List UInt8 → Chip → Chip) : Prop where
  once : ∀ ice command, RequestCommand device command →
    chip (execute ice command).2 = effect command (chip ice)
  either : ∀ request held, Named device request → effect (requestCommand request) held = held ∨
    effect (requestCommand request) held = request.effect cells held
  accepted : ∀ ice request, Named device request →
    isPositive (execute ice (requestCommand request)).1 = true →
      effect (requestCommand request) (chip ice) = request.effect cells (chip ice)
  read : ∀ ice space start count, Within device space start count →
    (chip ice).programming = true →
      let response := (execute ice (requestCommand (.read space start count))).1
      isPositive response = true →
        (response.drop 1).take count = slice ((chip ice).contents space) start count

section Line

variable {Ice : Type} {execute : Ice → List UInt8 → List UInt8 × Ice} {chip : Ice → Chip}
  {device : Image.Device} {cells : Cells} {effect : List UInt8 → Chip → Chip}

theorem KeepsChip.repeatable (keeps : KeepsChip execute chip device cells effect) :
    AllRepeatable execute chip effect (RequestCommand device) where
  once := keeps.once
  again := by
    rintro command held ⟨request, named, rfl⟩
    rcases keeps.either request held named with same | done
    · rw [same, same]
    · rw [done]
      rcases keeps.either request (request.effect cells held) named with same | twice
      · exact same
      · rw [twice, request.effect_effect]

/-- A command that the ICE has accepted, before or behind its effect, has been
carried out. -/
theorem KeepsChip.effect_of_accepted (keeps : KeepsChip execute chip device cells effect)
    {request : Request} (named : Named device request) {ice : Ice} {held : Chip}
    (positive : isPositive (execute ice (requestCommand request)).1 = true)
    (before : chip ice = held ∨ chip ice = effect (requestCommand request) held) :
    effect (requestCommand request) held = request.effect cells held := by
  have accepted := keeps.accepted ice request named positive
  rcases before with same | already
  · rwa [same] at accepted
  · rcases keeps.either request held named with not | done
    · rw [already, not, not] at accepted
      exact not.trans accepted
    · exact done

/-- Whether the ICE has refused it or not, a command leaves what its request may leave. -/
theorem KeepsChip.left (keeps : KeepsChip execute chip device cells effect)
    {request : Request} (named : Named device request) {held after : Chip}
    (left : after = held ∨ after = effect (requestCommand request) held) :
    after = held ∨ after = request.effect cells held := by
  rcases left with not | done
  · exact .inl not
  · rw [done]
    exact keeps.either request held named

variable (execute) in
/-- The class `jtag2` over the line. -/
def lossyProgrammer2 (fates : Nat → List Happening) : Programmer (Jtag2 (Line Ice)) where
  toJtag := jtag2 (lossyAttempt execute fates)
  enableProgramming s := s.enableProgramming (lossyAttempt execute fates)
  disableProgramming s := s.disableProgramming (lossyAttempt execute fates)
  eraseProgramMemory s := s.eraseProgramMemory (lossyAttempt execute fates)
  setPageSizes _ s := ⟨some (), s⟩

variable (keeps : KeepsChip execute chip device cells effect) (fates : Nat → List Happening)
include keeps

theorem simpleCommand_ends {s : Jtag2 (Line Ice)}
    (line : s.ice.Ready execute chip effect (RequestCommand device)) {request : Request}
    {code : UInt8} (named : Named device request) (command : requestCommand request = [code]) :
    Called.Ends
      (fun _ after => after = { s with ice := after.ice } ∧
        after.ice.Ready execute chip effect (RequestCommand device) ∧
          chip after.ice.ice = request.effect cells (chip s.ice.ice))
      (fun after => chip after.ice.ice = chip s.ice.ice ∨
        chip after.ice.ice = request.effect cells (chip s.ice.ice))
      (s.simpleCommand (lossyAttempt execute fates) code) := by
  obtain ⟨start, calls, between⟩ := line
  have before := between.carriedOut
  have allowed : RequestCommand device [code] := ⟨request, named, command.symm⟩
  have tried := retry_simple keeps.repeatable allowed fates maxJtagCommAttemps
    (.inl before.symm) (.inl between)
  rw [← doSimpleJtagCommand_eq] at tried
  rw [Jtag2.simpleCommand]
  obtain ⟨returned, anyway⟩ := tried
  constructor
  · intro value same
    have confirmed : (doSimpleJtagCommand (lossyAttempt execute fates) code s.ice).result =
        some true := by
      by_contra not
      simp [not] at same
    obtain ⟨ready, done, ice, positive, accepted⟩ := returned confirmed
    rw [← command] at positive accepted done
    exact ⟨rfl, ready, done.trans (keeps.effect_of_accepted named positive accepted)⟩
  · intro _
    rw [← command] at anyway
    exact keeps.left named anyway

theorem checkedRequest_ends {l : Line Ice}
    (line : l.Ready execute chip effect (RequestCommand device)) {request : Request}
    (named : Named device request) :
    Called.Ends
      (fun response after => after.Ready execute chip effect (RequestCommand device) ∧
        chip after.ice = request.effect cells (chip l.ice) ∧
          ∃ ice, response = (execute ice (requestCommand request)).1 ∧
            isPositive response = true ∧
              (chip ice = chip l.ice ∨ chip ice = request.effect cells (chip l.ice)))
      (fun after => chip after.ice = chip l.ice ∨
        chip after.ice = request.effect cells (chip l.ice))
      (checkedCommand (lossyAttempt execute fates) (requestCommand request) l) := by
  have ends := checkedCommand_ends keeps.repeatable ⟨request, named, rfl⟩ fates line
  refine ends.imp ?_ fun _ => keeps.left named
  rintro response after ⟨ready, done, positive, ice, rfl, before⟩
  have effect := keeps.effect_of_accepted named positive before
  rw [effect] at done before
  exact ⟨ready, done, ice, rfl, positive, before⟩

theorem readRequest_ends {l : Line Ice}
    (line : l.Ready execute chip effect (RequestCommand device))
    (programming : (chip l.ice).programming = true) {space : Programming.Space}
    {start count : Nat} (within : Within device space start count) :
    Called.Ends
      (fun response after => after.Ready execute chip effect (RequestCommand device) ∧
        chip after.ice = chip l.ice ∧
          (response.drop 1).take count = slice ((chip l.ice).contents space) start count)
      (fun after => chip after.ice = chip l.ice)
      (checkedCommand (lossyAttempt execute fates) (requestCommand (.read space start count))
        l) := by
  have named : Named device (.read space start count) := within
  refine (checkedRequest_ends keeps fates line named).imp ?_ fun _ same => same.elim id id
  rintro response after ⟨ready, done, ice, rfl, positive, before⟩
  have unchanged : chip ice = chip l.ice := before.elim id id
  have answered := keeps.read ice space start count within (unchanged ▸ programming) positive
  rw [unchanged] at answered
  exact ⟨ready, done, answered⟩

end Line

/-! ## The class over the line -/

def keptPage (pageSize : Nat) (pageAddr : UInt32) : Option Nat :=
  if pageAddr.toNat % pageSize = 0 ∧ pageAddr.toNat < maxImageSize then some pageAddr.toNat
  else none

section Sessions

variable {Ice : Type} (execute : Ice → List UInt8 → List UInt8 × Ice) (chip : Ice → Chip)
  {d : DeviceDef} (supported : d ∈ deviceDefinitions) (cells : Cells)
  (effect : List UInt8 → Chip → Chip)

/-- Calls have returned, and both sides are in the same mode. -/
structure Jtag2.ChipReady (s : Jtag2 (Line Ice)) : Prop where
  jtag : s.useDebugWire = false
  device : s.device = d
  line : s.ice.Ready execute chip effect (RequestCommand (pages supported))
  mode : (chip s.ice.ice).programming = s.programmingEnabled

def lossyView2 : View (Jtag2 (Line Ice)) where
  chip s := chip s.ice.ice
  cached s space :=
    match space with
    | .memory .flash => keptPage (pages supported).flashPageSize s.flashCache.pageAddr
    | .memory .eeprom => keptPage (pages supported).eepromPageSize s.eepromCache.pageAddr
    | _ => none
  Ready s := s.ChipReady execute chip supported effect
  Paged _ := True

variable {execute chip supported cells effect}
  (keeps : KeepsChip execute chip (pages supported) cells effect)
  (fates : Nat → List Happening)

theorem kept_of_same {s after : Jtag2 (Line Ice)}
    (ready : s.ChipReady execute chip supported effect)
    (same : after = { s with
      programmingEnabled := after.programmingEnabled, ice := after.ice })
    (line : after.ice.Ready execute chip effect (RequestCommand (pages supported)))
    (mode : (chip after.ice.ice).programming = after.programmingEnabled) :
    (lossyView2 execute chip supported effect).Kept s after := by
  refine ⟨⟨?_, ?_, line, mode⟩, id, ?_⟩
  · rw [same]
    exact ready.jtag
  · rw [same]
    exact ready.device
  · rw [same]
    rfl

include keeps

theorem switch_ends {s : Jtag2 (Line Ice)} (ready : s.ChipReady execute chip supported effect)
    (mode : Bool) {request : Request} {code : UInt8} (named : Named (pages supported) request)
    (command : requestCommand request = [code])
    (switches : ∀ held, request.effect cells held = { held with programming := mode }) :
    Called.Ends
      (fun _ after => (lossyView2 execute chip supported effect).Kept s after ∧
        chip after.ice.ice = request.effect cells (chip s.ice.ice))
      (fun after => (chip after.ice.ice).contents = (chip s.ice.ice).contents)
      (Jtag2.simpleCommand (lossyAttempt execute fates) { s with programmingEnabled := mode }
        code) := by
  refine (@simpleCommand_ends _ _ _ _ _ _ keeps fates { s with programmingEnabled := mode }
    ready.line _ _ named command).imp ?_ ?_
  · rintro _ after ⟨same, line, done⟩
    refine ⟨kept_of_same ready ?_ line ?_, done⟩
    · rw [same]
    · rw [done, switches, same]
  · rintro after (not | done)
    · rw [not]
    · rw [done, switches]

variable (fits : FitsCaches (pages supported))
include fits

/-- The cache holds a page from now on, and it is that of the chip unless it was held
before. -/
theorem fetch_ends {n : Nat} {p : Paging (Line Ice) n}
    (line : p.ice.Ready execute chip effect (RequestCommand (pages supported)))
    (programming : (chip p.ice.ice).programming = true) {memtype : Image.BFDmemoryType}
    {start count : Nat} (within : Within (pages supported) (.memory memtype) start count)
    (fitsCache : count ≤ n) :
    Called.Ends
      (fun _ after => after.ice.Ready execute chip effect (RequestCommand (pages supported)) ∧
        chip after.ice.ice = chip p.ice.ice ∧ after.cache.pageAddr = start.toUInt32 ∧
          (p.cache.pageAddr ≠ start.toUInt32 → after.cache.page count =
            slice ((chip p.ice.ice).contents (.memory memtype)) start count))
      (fun after => chip after.ice.ice = chip p.ice.ice)
      (p.fetch (lossyAttempt execute fates) (memoryType (.memory memtype)) count.toUInt32
        start.toUInt32) := by
  rw [Paging.fetch]
  by_cases held : start.toUInt32 = p.cache.pageAddr
  · rw [if_pos held]
    exact Called.ends_return ⟨line, rfl, held.symm, fun other => absurd held.symm other⟩
  · rw [if_neg held]
    have ends := readRequest_ends keeps fates line programming within
    rw [requestCommand] at ends
    dsimp only
    cases outcome : (checkedCommand (lossyAttempt execute fates)
        (readCommand (memoryType (.memory memtype)) count.toUInt32 start.toUInt32)
        p.ice).value with
    | none =>
        refine ⟨fun _ returned => ?_, fun _ => ends.threw outcome⟩
        cases returned
    | some response =>
        obtain ⟨ready, same, bytes⟩ := ends.returned response outcome
        refine Called.ends_return ⟨ready, same, rfl, fun _ => ?_⟩
        dsimp only
        rw [toNat_size (count_le fits within), bytes]
        exact PageCache.load_page _ _ fitsCache _

theorem readPage_ends {n : Nat} {p : Paging (Line Ice) n}
    (line : p.ice.Ready execute chip effect (RequestCommand (pages supported)))
    (programming : (chip p.ice.ice).programming = true) {memtype : Image.BFDmemoryType}
    {start count : Nat} (within : Within (pages supported) (.memory memtype) start count)
    (fitsCache : count ≤ n) :
    Called.Ends
      (fun bytes after =>
        after.ice.Ready execute chip effect (RequestCommand (pages supported)) ∧
          chip after.ice.ice = chip p.ice.ice ∧ after.cache.pageAddr = start.toUInt32 ∧
            (p.cache.pageAddr ≠ start.toUInt32 →
              bytes = slice ((chip p.ice.ice).contents (.memory memtype)) start count))
      (fun after => chip after.ice.ice = chip p.ice.ice)
      (p.read (lossyAttempt execute fates) (memoryType (.memory memtype)) count.toUInt32
        start.toUInt64 count.toUInt32) := by
  rw [read_page fits p within]
  refine Called.Ends.andThen
    ((fetch_ends keeps fates fits line programming within fitsCache).imp (fun _ _ => id)
      fun _ => id) ?_
  rintro _ after ⟨ready, same, now, bytes⟩
  exact Called.ends_return ⟨ready, same, now, bytes⟩

omit keeps fits in
theorem keptPage_page {memtype : Image.BFDmemoryType} {start count : Nat}
    (within : Within (pages supported) (.memory memtype) start count) :
    keptPage ((pages supported).getPageSize memtype) start.toUInt32 = some start := by
  have place : start.toUInt32.toNat = start :=
    UInt32.toNat_ofNat_of_lt' (Nat.lt_trans within.start_lt (by decide))
  have positive := within.positive
  obtain ⟨⟨-, aligned, inside⟩, length, -⟩ := within
  rw [keptPage, place, if_pos ⟨aligned, by omega⟩]

theorem jtagRead_memory {s : Jtag2 (Line Ice)} (ready : s.ChipReady execute chip supported effect)
    (programming : (chip s.ice.ice).programming = true) {memtype : Image.BFDmemoryType}
    {start count : Nat} (within : Within (pages supported) (.memory memtype) start count) :
    let view := lossyView2 execute chip supported effect
    let space := Programming.Space.memory memtype
    Called.Ends
      (fun bytes after => view.KeptBut space s after ∧ view.chip after = view.chip s ∧
        view.cached after space = some start ∧ (view.cached s space ≠ some start →
          bytes = slice ((view.chip s).contents space) start count))
      (fun after => view.chip after = view.chip s)
      (s.jtagRead (lossyAttempt execute fates) (space.offset + start.toUInt64) count.toUInt32) := by
  intro view space
  have inMode : s.InMode d := ⟨ready.jtag, ready.device, ready.mode.symm.trans programming⟩
  have some := size_ne_zero within.positive (count_le fits within)
  have size : pageSizeOf s.device (memoryType (.memory memtype)) = count.toUInt32 := by
    rw [ready.device, pageSizeOf_memory supported within.1.isPaged, within.2.1]
  have kept := keptPage_page within
  rw [jtagRead_space inMode fits within]
  cases memtype with
  | flash =>
      have fitsCache : count ≤ maxFlashPageSize := within.2.1 ▸ fits.flash
      have ends := readPage_ends keeps fates fits (p := ⟨s.flashCache, s.ice, s.copies⟩)
        ready.line programming within fitsCache
      rw [memoryType, readSpace_flash size some]
      refine ⟨fun bytes returned => ?_, ends.threw⟩
      obtain ⟨line, same, now, read⟩ := ends.returned bytes returned
      refine ⟨⟨⟨ready.jtag, ready.device, line, ?_⟩, id, ?_⟩, same, ?_, fun other => read ?_⟩
      · exact (congrArg Chip.programming same).trans ready.mode
      · rintro (other | _ | _) different
        · cases other with
          | flash => exact absurd rfl different
          | eeprom => rfl
          | ram => rfl
        · rfl
        · rfl
      · exact (congrArg _ now).trans kept
      · rintro here
        exact other ((congrArg _ here).trans kept)
  | eeprom =>
      have fitsCache : count ≤ maxEepromPageSize := within.2.1 ▸ fits.eeprom
      have ends := readPage_ends keeps fates fits (p := ⟨s.eepromCache, s.ice, s.copies⟩)
        ready.line programming within fitsCache
      rw [memoryType, readSpace_eeprom size some]
      refine ⟨fun bytes returned => ?_, ends.threw⟩
      obtain ⟨line, same, now, read⟩ := ends.returned bytes returned
      refine ⟨⟨⟨ready.jtag, ready.device, line, ?_⟩, id, ?_⟩, same, ?_, fun other => read ?_⟩
      · exact (congrArg Chip.programming same).trans ready.mode
      · rintro (other | _ | _) different
        · cases other with
          | flash => rfl
          | eeprom => exact absurd rfl different
          | ram => rfl
        · rfl
        · rfl
      · exact (congrArg _ now).trans kept
      · rintro here
        exact other ((congrArg _ here).trans kept)
  | ram => exact absurd rfl within.1.isPaged

theorem bits_read {s : Jtag2 (Line Ice)} (ready : s.ChipReady execute chip supported effect)
    (programming : (chip s.ice.ice).programming = true) {space : Programming.Space}
    {start count : Nat} (within : Within (pages supported) space start count)
    (unpaged : space.Unpaged) :
    let view := lossyView2 execute chip supported effect
    Called.Ends
      (fun bytes after => view.KeptBut space s after ∧ view.chip after = view.chip s ∧
        (view.cached after space = view.cached s space ∨
          view.cached after space = some start) ∧
          (view.cached s space ≠ some start → ∀ buffer, bytes = some buffer →
            buffer.take count = slice ((view.chip s).contents space) start count))
      (fun after => (view.chip after).contents = (view.chip s).contents)
      ((lossyProgrammer2 execute fates).jtagRead s (space.offset + start.toUInt64)
        count.toUInt32) := by
  intro view
  have inMode : s.InMode d := ⟨ready.jtag, ready.device, ready.mode.symm.trans programming⟩
  have ends := readRequest_ends keeps fates ready.line programming within
  simp only [lossyProgrammer2, jtag2, jtagRead_unpaged inMode fits within unpaged]
  constructor
  · intro answer returned
    simp only [Option.map_map, Option.map_eq_some_iff] at returned
    obtain ⟨response, same, rfl⟩ := returned
    obtain ⟨line, done, answered⟩ := ends.returned response same
    have kept : view.Kept s { s with ice := (checkedCommand (lossyAttempt execute fates)
        (requestCommand (.read space start count)) s.ice).state } :=
      kept_of_same ready rfl line ((congrArg Chip.programming done).trans ready.mode)
    refine ⟨kept.but space, done, .inl (congrFun kept.cached space), ?_⟩
    rintro _ bytes ⟨⟩
    have long := congrArg List.length answered
    rw [slice_length, List.length_take] at long
    rw [moveDown, List.take_append_of_le_length (by omega)]
    exact answered
  · intro threw
    simp only [Option.map_map, Option.map_eq_none_iff] at threw
    exact congrArg Chip.contents (ends.threw threw)

theorem lossyProgrammer2_drives :
    Drives (lossyProgrammer2 execute fates) (pages supported) cells
      (lossyView2 execute chip supported effect) where
  uncached s space unpaged := by
    cases space with
    | memory memtype => exact absurd rfl (unpaged memtype)
    | fuses => rfl
    | lockBits => rfl
  enable s ready := by
    have jtag : ¬s.useDebugWire = true := Bool.eq_false_iff.mp ready.jtag
    simp only [lossyProgrammer2, Jtag2.enableProgramming, if_neg jtag]
    exact switch_ends keeps fates ready true trivial rfl fun _ => rfl
  disable s ready := by
    have jtag : ¬s.useDebugWire = true := Bool.eq_false_iff.mp ready.jtag
    simp only [lossyProgrammer2, Jtag2.disableProgramming, if_neg jtag]
    exact switch_ends keeps fates ready false trivial rfl fun _ => rfl
  erase s ready := by
    have named : Named (pages supported) .erase := trivial
    refine (simpleCommand_ends keeps fates ready.line named rfl).imp ?_ ?_
    · rintro _ after ⟨same, line, done⟩
      refine ⟨kept_of_same ready ?_ line ?_, done⟩
      · rw [same]
      · rw [done, same]
        exact ready.mode
    · rintro after (not | done)
      · exact .inl (congrArg Chip.contents not)
      · exact .inr (congrArg Chip.contents done)
  setPageSizes s ready := Called.ends_return ⟨.refl ready, trivial, rfl⟩
  read s space start count ready programming within := by
    have inMode : s.InMode d := ⟨ready.jtag, ready.device, ready.mode.symm.trans programming⟩
    cases space with
    | memory memtype =>
        have ends := jtagRead_memory keeps fates fits ready programming within
        constructor
        · intro answer returned
          obtain ⟨bytes, same, rfl⟩ := Option.map_eq_some_iff.mp returned
          obtain ⟨kept, still, now, read⟩ := ends.returned bytes same
          refine ⟨kept, still, .inr now, ?_⟩
          rintro fresh buffer ⟨⟩
          rw [read fresh]
          exact List.take_of_length_le (Nat.le_of_eq slice_length)
        · intro threw
          exact congrArg Chip.contents (ends.threw (Option.map_eq_none_iff.mp threw))
    | fuses => exact bits_read keeps fates fits ready programming within nofun
    | lockBits => exact bits_read keeps fates fits ready programming within nofun
  write s space start bytes ready programming within _ := by
    have mode : (chip s.ice.ice).programming = true := programming
    have inMode : s.InMode d := ⟨ready.jtag, ready.device, ready.mode.symm.trans mode⟩
    have ends := checkedRequest_ends keeps fates ready.line
      (show Named (pages supported) (.write space start bytes) from within)
    simp only [lossyProgrammer2, jtag2, jtagWrite_whole inMode fits within]
    constructor
    · intro written returned
      simp only [Option.map_map, Option.map_eq_some_iff] at returned
      obtain ⟨response, same, rfl⟩ := returned
      obtain ⟨line, done, -⟩ := ends.returned response same
      refine ⟨rfl, kept_of_same ready rfl line ?_, done⟩
      simp only [done, Request.effect, if_pos mode]
      exact ready.mode
    · intro threw
      simp only [Option.map_map, Option.map_eq_none_iff] at threw
      rcases ends.threw threw with not | done
      · exact .inl (congrArg Chip.contents not)
      · simp only [Request.effect, if_pos mode] at done
        exact .inr (congrArg Chip.contents done)

end Sessions

/-! ## A chip -/

def commandRequest : List UInt8 → Request
  | [code] =>
      if code = cmndEnterProgmode then .enter
      else if code = cmndChipErase then .erase
      else .leave
  | code :: memoryType :: n0 :: n1 :: n2 :: n3 :: b0 :: b1 :: b2 :: b3 :: bytes =>
      let space :=
        if memoryType = mtypeFlashPage then .memory .flash
        else if memoryType = mtypeEepromPage then .memory .eeprom
        else if memoryType = mtypeFuseBits then .fuses
        else .lockBits
      let start := (b4ToU32 b0 b1 b2 b3).toNat
      if code = cmndReadMemory then .read space start (b4ToU32 n0 n1 n2 n3).toNat
      else .write space start bytes
  | _ => .leave

theorem commandRequest_requestCommand {device : Image.Device} (fits : FitsCaches device)
    {request : Request} (named : Named device request) :
    commandRequest (requestCommand request) = request := by
  have place {space : Programming.Space} {start count : Nat}
      (within : Within device space start count) :
      (if memoryType space = mtypeFlashPage then Programming.Space.memory .flash
        else if memoryType space = mtypeEepromPage then .memory .eeprom
        else if memoryType space = mtypeFuseBits then .fuses
        else .lockBits) = space ∧
        start.toUInt32.toNat = start := by
    refine ⟨?_, UInt32.toNat_ofNat_of_lt' (Nat.lt_trans within.start_lt (by decide))⟩
    cases space with
    | memory memtype =>
        cases memtype with
        | flash => rfl
        | eeprom => rfl
        | ram => exact absurd rfl within.1.isPaged
    | fuses => rfl
    | lockBits => rfl
  cases request with
  | enter => rfl
  | leave => rfl
  | erase => rfl
  | read space start count =>
      obtain ⟨spaceBack, startBack⟩ := place named
      have number := b4ToU32_u32ToB4 count.toUInt32
      have address := b4ToU32_u32ToB4 start.toUInt32
      simp only [requestCommand, readCommand, u32ToB4, List.cons_append, List.nil_append,
        commandRequest, if_true, number, address, startBack, toNat_size (count_le fits named),
        spaceBack]
  | write space start bytes =>
      obtain ⟨spaceBack, startBack⟩ := place named
      have address := b4ToU32_u32ToB4 start.toUInt32
      have other : cmndWriteMemory ≠ cmndReadMemory := by decide
      simp only [requestCommand, writeCommand, u32ToB4, List.cons_append, List.nil_append,
        commandRequest, if_neg other, address, startBack, spaceBack]

def executeChip (cells : Cells) (chip : Chip) (command : List UInt8) : List UInt8 × Chip :=
  let request := commandRequest command
  (match request with
    | .read space start count => rspMemory :: slice (chip.contents space) start count
    | _ => [rspOk],
    request.effect cells chip)

def chipEffect (cells : Cells) (command : List UInt8) (chip : Chip) : Chip :=
  (commandRequest command).effect cells chip

theorem executeChip_keepsChip (cells : Cells) {device : Image.Device}
    (fits : FitsCaches device) :
    KeepsChip (executeChip cells) id device cells (chipEffect cells) where
  once _ _ _ := rfl
  either request held named := by
    right
    rw [chipEffect, commandRequest_requestCommand fits named]
  accepted ice request named _ := by
    rw [chipEffect, commandRequest_requestCommand fits named, id]
  read ice space start count within _ := by
    intro response _
    have named : Named device (.read space start count) := within
    simp only [response, executeChip, commandRequest_requestCommand fits named,
      List.drop_succ_cons, List.drop_zero]
    exact List.take_of_length_le (Nat.le_of_eq slice_length)

theorem atmega16_fitsCaches : FitsCaches (pages atmega16_supported) :=
  ⟨by decide, by decide⟩

def programmedFull : Jtag2 (Line Chip) :=
  .start ⟨"atmega16", 128, 128, 4, 128⟩ false false (.start ⟨false, fun _ _ => 0⟩)

theorem programmedFull_ready (cells : Cells) :
    programmedFull.ChipReady (executeChip cells) id atmega16_supported (chipEffect cells) :=
  ⟨rfl, rfl, ready_start _, rfl⟩

/-! ## Sessions -/

end Avarice.Mk2.Access

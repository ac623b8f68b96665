import Avarice.Mk2.CacheBounds
import Avarice.Mk2.PagedRead
import Avarice.Mk2.ProgrammingMode
import Avarice.Mk2.Registers

/-!
# Memory accesses to an ICE that answers

By commands and in machine arithmetic, reads, writes and erases are those of a session
with the memories of the device, if the ICE answers by them.
-/

namespace Avarice.Mk2.Access

open Memory Throwing

variable {Ice : Type} {attempt : List UInt8 → Ice → Attempt × Ice} {memory : Ice → Device}
  {t : Memory.Target}

/-- The answer to a command that changes the device, or that it refuses. -/
structure Does (answer : Attempt) (after : Option Device) (before left : Device) : Prop where
  responded : answer.responded = true
  positive : answer.positive = after.isSome
  left : left = after.getD before

/-- The ICE does what commands say in the memories of the device, and refuses what they do
not have. -/
structure AnswersByDevice (attempt : List UInt8 → Ice → Attempt × Ice) (memory : Ice → Device)
    (t : Memory.Target) : Prop where
  read : ∀ ice whichSpace numBytes addr,
    let reply := attempt (readCommand whichSpace numBytes addr) ice
    memory reply.2 = memory ice ∧
      match (memory ice).read t whichSpace numBytes.toNat addr with
      | some bytes => reply.1 = .response rspMemory bytes
      | none => reply.1.responded = true ∧ reply.1.positive = false
  write : ∀ ice whichSpace numBytes addr buffer, buffer.length = numBytes.toNat →
    let reply := attempt (writeCommand whichSpace numBytes addr buffer) ice
    Does reply.1 ((memory ice).write t whichSpace addr buffer) (memory ice) (memory reply.2)
  erase : ∀ ice,
    let reply := attempt [cmndChipErase] ice
    reply.1 = .response rspOk [] ∧ memory reply.2 = (memory ice).chipErase t
  erasePage : ∀ ice address,
    let reply := attempt (erasePageCommand address) ice
    Does reply.1 ((memory ice).erasePage t address) (memory ice) (memory reply.2)

theorem checkedCommand_answered {command : List UInt8} {ice : Ice}
    (responded : (attempt command ice).1.responded = true) :
    checkedCommand attempt command ice =
      ⟨if (attempt command ice).1.positive then some (attempt command ice).1.msg else none,
        (attempt command ice).2⟩ := by
  have verdict : commandVerdict true (attempt command ice).1 =
      some ((attempt command ice).1.positive, (attempt command ice).1) := by
    rw [commandVerdict, responded, Bool.true_or, if_pos rfl]
  simp only [checkedCommand, doJtagCommand_eq]
  rw [Retry.retry_settled verdict]
  rfl

theorem checkedCommand_read (answers : AnswersByDevice attempt memory t) (ice : Ice)
    (whichSpace : UInt8) (numBytes addr : UInt32) :
    let call := checkedCommand attempt (readCommand whichSpace numBytes addr) ice
    call.value = ((memory ice).read t whichSpace numBytes.toNat addr).map (rspMemory :: ·) ∧
      memory call.state = memory ice := by
  intro call
  obtain ⟨kept, answered⟩ := answers.read ice whichSpace numBytes addr
  revert answered
  cases (memory ice).read t whichSpace numBytes.toNat addr with
  | none =>
      rintro ⟨responded, refused⟩
      simp only [call, checkedCommand_answered responded, refused]
      exact ⟨rfl, kept⟩
  | some bytes =>
      intro given
      have responded : (attempt (readCommand whichSpace numBytes addr) ice).1.responded = true :=
        congrArg Attempt.responded given
      simp only [call, checkedCommand_answered responded]
      rw [given]
      exact ⟨rfl, kept⟩

/-- A command that does something to the device, or is refused. -/
theorem checkedCommand_does {command : List UInt8} {ice : Ice} {after : Option Device}
    (does : Does (attempt command ice).1 after (memory ice) (memory (attempt command ice).2)) :
    let call := checkedCommand attempt command ice
    call.value.map (fun _ => ()) = after.map (fun _ => ()) ∧
      memory call.state = after.getD (memory ice) := by
  obtain ⟨responded, positive, left⟩ := does
  simp only [checkedCommand_answered responded, positive]
  cases after with
  | none => exact ⟨rfl, left⟩
  | some device => exact ⟨rfl, left⟩

theorem length_of_read {d : Device} {whichSpace : UInt8} {numBytes : Nat} {addr : UInt32}
    {bytes : List UInt8} (read : d.read t whichSpace numBytes addr = some bytes) :
    bytes.length = numBytes := by
  unfold Device.read at read
  split at read
  next =>
    cases read
    exact PagedMemory.slice_length
  next => cases read

section Paged

variable {n : Nat} (answers : AnswersByDevice attempt memory t) (whichSpace : UInt8)
include answers

theorem fetch_agrees (p : Paging Ice n) (pageSize pageAddr : UInt32) :
    let call := p.fetch attempt whichSpace pageSize pageAddr
    let fetched :=
      if pageAddr = p.cache.pageAddr then some p.cache
      else ((memory p.ice).read t whichSpace pageSize.toNat pageAddr).map (p.cache.load pageAddr)
    call.value = fetched.map (fun _ => ()) ∧ call.state.cache = fetched.getD p.cache ∧
      memory call.state.ice = memory p.ice := by
  intro call fetched
  simp only [call, fetched, Paging.fetch]
  split
  · exact ⟨rfl, rfl, rfl⟩
  · obtain ⟨value, kept⟩ := checkedCommand_read answers p.ice whichSpace pageSize pageAddr
    cases read : (memory p.ice).read t whichSpace pageSize.toNat pageAddr with
    | none =>
        rw [read] at value
        rw [value]
        exact ⟨rfl, rfl, kept⟩
    | some bytes =>
        have length := length_of_read read
        rw [read] at value
        rw [value]
        refine ⟨rfl, ?_, kept⟩
        show p.cache.load pageAddr (bytes.take pageSize.toNat) = p.cache.load pageAddr bytes
        rw [List.take_of_length_le (Nat.le_of_eq length)]

theorem readPages_agrees {pageSize : UInt32} (positive : 0 < pageSize.toNat) (offset : UInt32)
    {rounds : Nat} (rounds' : Nat) (p : Paging Ice n)
    (numBytes chunksize targetOffset pageAddr : UInt32) (response : List UInt8)
    (few : numBytes.toNat ≤ rounds) (few' : numBytes.toNat ≤ rounds')
    (takes : numBytes ≠ 0 → 0 < chunksize.toNat) (whole : chunksize.toNat ≤ numBytes.toNat) :
    let call := p.readPages attempt whichSpace pageSize offset rounds' numBytes chunksize
      targetOffset pageAddr response
    let read := Memory.readPages ((memory p.ice).read t whichSpace pageSize.toNat) pageSize.toNat
      offset.toNat rounds p.cache numBytes.toNat chunksize.toNat pageAddr response
    call.value = read.2 ∧ call.state.cache = read.1 ∧ memory call.state.ice = memory p.ice := by
  induction rounds generalizing rounds' p numBytes chunksize targetOffset pageAddr response with
  | zero =>
      have none : numBytes = 0 := UInt32.toNat_inj.mp (Nat.le_zero.mp few)
      rw [none]
      cases rounds' with
      | zero => exact ⟨rfl, rfl, rfl⟩
      | succ rounds' => exact ⟨rfl, rfl, rfl⟩
  | succ rounds inductionHypothesis =>
      by_cases none : numBytes = 0
      · rw [none]
        cases rounds' with
        | zero => exact ⟨rfl, rfl, rfl⟩
        | succ rounds' => exact ⟨rfl, rfl, rfl⟩
      · have some : numBytes.toNat ≠ 0 := fun zero => none (UInt32.toNat_inj.mp zero)
        obtain ⟨rounds', rfl⟩ := Nat.exists_eq_succ_of_ne_zero (n := rounds') (by omega)
        obtain ⟨value, cache, kept⟩ := fetch_agrees answers whichSpace p pageSize pageAddr
        simp only [Paging.readPages, Memory.readPages, if_neg none, if_neg some]
        revert value cache
        generalize (if pageAddr = p.cache.pageAddr then Option.some p.cache
          else ((memory p.ice).read t whichSpace pageSize.toNat pageAddr).map
            (p.cache.load pageAddr)) = fetched
        intro value cache
        cases fetched with
        | none =>
            rw [Called.andThen_of_threw value]
            exact ⟨rfl, cache, kept⟩
        | some fetched =>
            rw [Called.andThen_of_returned value]
            have left : (numBytes - chunksize).toNat = numBytes.toNat - chunksize.toNat :=
              UInt32.toNat_sub_of_le _ _ (UInt32.le_iff_toNat_le.mpr whole)
            have next : (if pageSize < numBytes - chunksize then pageSize
                else numBytes - chunksize).toNat =
                  min (numBytes.toNat - chunksize.toNat) pageSize.toNat := by
              split
              next more => rw [UInt32.lt_iff_toNat_lt, left] at more; omega
              next enough => rw [UInt32.lt_iff_toNat_lt, left] at enough; rw [left]; omega
            have chunk := takes none
            have later := inductionHypothesis rounds'
              { (p.fetch attempt whichSpace pageSize pageAddr).state with
                copies := (p.fetch attempt whichSpace pageSize pageAddr).state.copies ++
                  [.take offset.toNat chunksize.toNat targetOffset.toNat] }
              (numBytes - chunksize)
              (if pageSize < numBytes - chunksize then pageSize else numBytes - chunksize)
              (targetOffset + chunksize) (pageAddr + pageSize)
              (response ++ (p.fetch attempt whichSpace pageSize pageAddr).state.cache.copy
                offset.toNat chunksize.toNat) (by omega) (by omega)
              (fun more => by
                have more : numBytes.toNat - chunksize.toNat ≠ 0 := fun zero =>
                  more (UInt32.toNat_inj.mp (left.trans zero))
                omega)
              (by omega)
            rw [next, left] at later
            simp only [kept, cache, Option.getD_some] at later ⊢
            rw [Nat.toUInt32_eq, UInt32.ofNat_toNat]
            exact later

omit answers in
theorem pageAddrOf_toUInt64 (pageSize addr : UInt32) :
    pageAddrOf pageSize addr.toUInt64 = pageAddress pageSize.toNat addr := by
  rw [pageAddrOf, pageAddress, Nat.toUInt32_eq, UInt32.ofNat_toNat, UInt32.toUInt32_toUInt64]

theorem read_agrees (p : Paging Ice n) {pageSize : UInt32} {k : Nat}
    (isSize : pageSize.toNat = 2 ^ k) (small : k ≤ 8) {addr : UInt32} (low : addr.toNat < 2 ^ 31)
    (numBytes : UInt32) :
    let call := p.read attempt whichSpace pageSize addr.toUInt64 numBytes
    let read := readPaged ((memory p.ice).read t whichSpace pageSize.toNat) pageSize.toNat p.cache
      addr numBytes.toNat
    call.value = read.2 ∧ call.state.cache = read.1 ∧ memory call.state.ice = memory p.ice := by
  intro call read
  have small' : k ≤ 9 := Nat.le_succ_of_le small
  have power : ∃ k, pageSize.toNat = 2 ^ k := ⟨k, isSize⟩
  have sizeSmall : 2 ^ k ≤ 2 ^ 8 := Nat.pow_le_pow_right (by decide) small
  have bound : pageSize.toNat ≤ maxFlashPageSize := isSize ▸ sizeSmall
  have positive : 0 < 2 ^ k := Nat.two_pow_pos k
  have place : addr.toUInt64.toNat = addr.toNat := UInt32.toNat_toUInt64 addr
  have page := toNat_pageAddrOf isSize small' addr.toUInt64
  have offset := toNat_offset isSize small' addr.toUInt64
  have chunk := toNat_firstChunk isSize small' addr.toUInt64 numBytes
  have inPage := Nat.mod_lt addr.toNat positive
  have parts := Nat.div_add_mod' addr.toNat (2 ^ k)
  have few := numBytes.toNat_lt
  rw [place, Nat.mod_eq_of_lt (Nat.lt_trans low (by decide))] at page
  rw [place, ← isSize] at offset
  have first : (firstChunk pageSize (pageAddrOf pageSize addr.toUInt64) addr.toUInt64
      numBytes).toNat = min numBytes.toNat (pageSize.toNat - addr.toNat % pageSize.toNat) := by
    rw [chunk, page, place, isSize]
    generalize 2 ^ k = size at *
    split <;> omega
  have agrees := readPages_agrees answers whichSpace (isSize ▸ positive)
    (addr.toUInt64 - (pageAddrOf pageSize addr.toUInt64).toUInt64).toUInt32 (2 ^ 32) p numBytes
    (firstChunk pageSize (pageAddrOf pageSize addr.toUInt64) addr.toUInt64 numBytes) 0
    (pageAddrOf pageSize addr.toUInt64) [] (Nat.le_refl numBytes.toNat) (Nat.le_of_lt few)
    (fun some => by
      have some : numBytes.toNat ≠ 0 := fun zero => some (UInt32.toNat_inj.mp zero)
      rw [first, isSize]
      omega)
    (first ▸ Nat.min_le_left _ _)
  rw [offset, first] at agrees
  have same : read = _ := readPaged_eq ((memory p.ice).read t whichSpace pageSize.toNat) p.cache
    power bound addr numBytes.toNat
  rw [same, ← pageAddrOf_toUInt64]
  exact agrees

end Paged

theorem ne_zero_of_toNat {size : UInt32} {k : Nat} (isSize : size.toNat = 2 ^ k) : size ≠ 0 := by
  intro zero
  rw [zero] at isSize
  exact absurd isSize.symm (Nat.two_pow_pos k).ne'

def Jtag2.session (memory : Ice → Device) (s : Jtag2 Ice) : Memory.Session where
  device := memory s.ice
  flashCache := s.flashCache
  eepromCache := s.eepromCache

/-- The device and the mode are those of a target. -/
structure Jtag2.Serves (s : Jtag2 Ice) (t : Memory.Target) : Prop where
  debugWire : s.useDebugWire = t.useDebugWire
  enabled : s.programmingEnabled = t.programmingEnabled
  flash : (pageSizeOf s.device mtypeFlashPage).toNat = t.flashPageSize
  eeprom : (pageSizeOf s.device mtypeEepromPage).toNat = t.eepromPageSize

section Settings

variable {s : Jtag2 Ice}

/-- What the calls leave alone. -/
structure SameSettings (s s' : Jtag2 Ice) : Prop where
  useDebugWire : s'.useDebugWire = s.useDebugWire
  programmingEnabled : s'.programmingEnabled = s.programmingEnabled
  device : s'.device = s.device

theorem Jtag2.Serves.of_same {s' : Jtag2 Ice} (serves : s.Serves t) (same : SameSettings s s') :
    s'.Serves t where
  debugWire := same.useDebugWire.trans serves.debugWire
  enabled := same.programmingEnabled.trans serves.enabled
  flash := same.device ▸ serves.flash
  eeprom := same.device ▸ serves.eeprom

theorem readSpace_settings (whichSpace : UInt8) (addr : UInt64) (numBytes : UInt32) :
    SameSettings s (s.readSpace attempt whichSpace addr numBytes).state := by
  simp only [Jtag2.readSpace, Jtag2.readUnpaged]
  split_ifs <;> exact ⟨rfl, rfl, rfl⟩

theorem writeSpace_settings (whichSpace : UInt8) (addr : UInt64) (buffer : List UInt8) :
    SameSettings s (s.writeSpace attempt whichSpace addr buffer).state := by
  simp only [Jtag2.writeSpace]
  split_ifs <;> exact ⟨rfl, rfl, rfl⟩

end Settings

section Session

variable {s : Jtag2 Ice} (serves : s.Serves t)
include serves

theorem jtagRead_readSpace {numBytes : UInt32} (some : numBytes ≠ 0) (addr : UInt64) :
    s.jtagRead attempt addr numBytes =
      let (whichSpace, addr) := memorySpace s.useDebugWire s.programmingEnabled addr
      s.readSpace attempt whichSpace addr numBytes := by
  rw [Jtag2.jtagRead, if_neg some]
  dsimp only
  cases wire : t.useDebugWire with
  | true =>
      exact inProgmode_of_debugWire _ (serves.debugWire.trans wire) (readSpace_useDebugWire _ _ _)
  | false =>
      refine inProgmode_of_enabled _ ?_
      rw [serves.enabled, Memory.Target.programmingEnabled, wire]
      rfl

/-- Both decode an address to the same place, and never to flash by words. -/
theorem memorySpace_agrees {addr : UInt32} (low : addr.toNat < 2 ^ 31) :
    ∃ whichSpace place, whichSpace ≠ mtypeSpm ∧ place.toNat < 2 ^ 31 ∧
      memorySpace s.useDebugWire s.programmingEnabled addr.toUInt64 =
        (whichSpace, place.toUInt64) ∧
      Memory.memorySpace t addr = (whichSpace, place) := by
  have below : (splitAddress addr.toUInt64).2.toNat ≤ addr.toNat := by
    rw [← UInt32.toNat_toUInt64 addr]
    exact splitAddress_le addr.toUInt64
  have bound : (splitAddress addr.toUInt64).2.toNat < 2 ^ 32 :=
    Nat.lt_of_le_of_lt below addr.toNat_lt
  have place : (splitAddress addr.toUInt64).2.toUInt32.toNat =
      (splitAddress addr.toUInt64).2.toNat := by
    rw [UInt64.toNat_toUInt32]
    exact Nat.mod_eq_of_lt bound
  refine ⟨(Memory.memorySpace t addr).1, (splitAddress addr.toUInt64).2.toUInt32, ?_,
    place ▸ Nat.lt_of_le_of_lt below low, ?_, rfl⟩
  · have paged : (t.useDebugWire || t.programmingEnabled) = true := by
      rw [Memory.Target.programmingEnabled, Bool.or_not_self]
    simp only [Memory.memorySpace, paged, if_true]
    split_ifs <;> decide
  · have wide : (splitAddress addr.toUInt64).2.toUInt32.toUInt64 =
        (splitAddress addr.toUInt64).2 := by
      rw [← UInt64.toNat_inj, UInt32.toNat_toUInt64, place]
    rw [wide, memorySpace, Memory.memorySpace, serves.debugWire, serves.enabled]

end Session

/-- A read is that of the session, but for what it leaves behind the bytes that are asked
for. -/
theorem jtagRead_agrees (answers : AnswersByDevice attempt memory t) {s : Jtag2 Ice}
    (serves : s.Serves t) {addr : UInt32} (low : addr.toNat < 2 ^ 31) (numBytes : UInt32) :
    let call := s.jtagRead attempt addr.toUInt64 numBytes
    let read := (s.session memory).jtagRead t addr numBytes
    call.state.session memory = read.1 ∧
      call.value.map (List.take numBytes.toNat) = read.2.map (List.take numBytes.toNat) := by
  intro call read
  by_cases none : numBytes = 0
  · have call' : call = ⟨some [0], s⟩ := if_pos none
    have read' : read = (s.session memory, some [0]) := if_pos none
    rw [call', read']
    exact ⟨rfl, rfl⟩
  · obtain ⟨whichSpace, place, notSpm, lowPlace, decoded, decoded'⟩ :=
      memorySpace_agrees serves low
    simp only [call, read, jtagRead_readSpace serves none, decoded, Memory.Session.jtagRead,
      if_neg none, decoded']
    by_cases flash : whichSpace = mtypeFlashPage
    · obtain ⟨k, isSize⟩ := t.flashPages
      have small := t.flashPageFits
      rw [isSize, show maxFlashPageSize = 2 ^ 8 from rfl,
        Nat.pow_le_pow_iff_right (by decide)] at small
      have size := serves.flash.trans isSize
      obtain ⟨value, cache, kept⟩ := read_agrees answers mtypeFlashPage
        ⟨s.flashCache, s.ice, s.copies⟩ size small lowPlace numBytes
      rw [serves.flash] at value cache
      simp only [flash, readSpace_flash rfl (ne_zero_of_toNat size), if_pos, Jtag2.session, value,
        cache, kept, and_self]
    · by_cases eeprom : whichSpace = mtypeEepromPage
      · obtain ⟨k, isSize⟩ := t.eepromPages
        have small := t.eepromPageFits
        rw [isSize, show maxEepromPageSize = 2 ^ 4 from rfl,
          Nat.pow_le_pow_iff_right (by decide)] at small
        have size := serves.eeprom.trans isSize
        obtain ⟨value, cache, kept⟩ := read_agrees answers mtypeEepromPage
          ⟨s.eepromCache, s.ice, s.copies⟩ size (Nat.le_trans small (by decide)) lowPlace numBytes
        rw [serves.eeprom] at value cache
        have noFlash : mtypeEepromPage ≠ mtypeFlashPage := by decide
        simp only [eeprom, readSpace_eeprom rfl (ne_zero_of_toNat size), if_neg noFlash, if_pos,
          Jtag2.session, value, cache, kept, and_self]
      · obtain ⟨value, kept⟩ := checkedCommand_read answers s.ice whichSpace numBytes place
        rw [readSpace_unpaged notSpm flash eeprom, Jtag2.readUnpaged, if_neg flash,
          if_neg eeprom, UInt32.toUInt32_toUInt64]
        simp only [Jtag2.session, kept, value, Option.map_map, true_and]
        cases given : (memory s.ice).read t whichSpace numBytes.toNat place with
        | none => rfl
        | some bytes =>
            have length := length_of_read given
            simp [moveDown, ← length]

/-! ## Writes -/

section Session

variable {s : Jtag2 Ice}

theorem jtagWrite_writeSpace (serves : s.Serves t) {buffer : List UInt8}
    (some : buffer.length ≠ 0) {addr place : UInt64} {whichSpace : UInt8}
    (decoded : memorySpace s.useDebugWire s.programmingEnabled addr = (whichSpace, place))
    (notSpm : whichSpace ≠ mtypeSpm) :
    s.jtagWrite attempt addr buffer = s.writeSpace attempt whichSpace place buffer := by
  rw [Jtag2.jtagWrite, if_neg some, decoded]
  dsimp only
  rw [if_neg fun start => notSpm start.1, Called.andThen_of_returned rfl]
  cases wire : t.useDebugWire with
  | true =>
      exact inProgmode_of_debugWire _ (serves.debugWire.trans wire)
        (writeSpace_settings _ _ _).useDebugWire
  | false =>
      refine inProgmode_of_enabled _ ?_
      rw [serves.enabled, Memory.Target.programmingEnabled, wire]
      rfl

theorem checkedCommand_session {command : List UInt8} {after : Option Device}
    (does : Does (attempt command s.ice).1 after (memory s.ice)
      (memory (attempt command s.ice).2)) :
    let call := checkedCommand attempt command s.ice
    let changed := after.map fun device => { s.session memory with device }
    { s with ice := call.state }.session memory = changed.getD (s.session memory) ∧
      call.value.map (fun _ => ()) = changed.map (fun _ => ()) := by
  intro call changed
  obtain ⟨value, left⟩ := checkedCommand_does does
  simp only [call, changed, Jtag2.session, value, left]
  cases after with
  | none => exact ⟨rfl, rfl⟩
  | some device => exact ⟨rfl, rfl⟩

theorem writeSpace_paged (answers : AnswersByDevice attempt memory t) {whichSpace : UInt8} {k : Nat}
    {pageSize : Nat} (isSize : (pageSizeOf s.device whichSpace).toNat = pageSize)
    (power : pageSize = 2 ^ k) (place : UInt32) {buffer : List UInt8}
    (short : buffer.length < 2 ^ 32) :
    let call := s.writeSpace attempt whichSpace place.toUInt64 buffer
    let written :=
      if buffer.length = pageSize then
        ((s.session memory).device.write t whichSpace (pageAddress pageSize place) buffer).map
          fun device => { s.session memory with device }
      else none
    call.state.session memory = written.getD (s.session memory) ∧
      call.value = written.map (fun _ => ()) := by
  intro call written
  have length : buffer.length.toUInt32.toNat = buffer.length := UInt32.toNat_ofNat_of_lt' short
  have positive : 0 < pageSizeOf s.device whichSpace := by
    rw [UInt32.lt_iff_toNat_lt, isSize, power]
    exact Nat.two_pow_pos k
  simp only [call, written, Jtag2.writeSpace, positive, true_and, if_true]
  by_cases whole : buffer.length = pageSize
  · have same : buffer.length.toUInt32 = pageSizeOf s.device whichSpace := by
      rw [← UInt32.toNat_inj, length, whole, isSize]
    rw [if_neg (not_not_intro same), if_pos whole, pageAddrOf_toUInt64, isSize]
    exact checkedCommand_session (answers.write s.ice whichSpace _ _ buffer
      (whole.trans isSize.symm))
  · have other : buffer.length.toUInt32 ≠ pageSizeOf s.device whichSpace := by
      intro same
      rw [← isSize, ← same, length] at whole
      exact whole rfl
    rw [if_pos other, if_neg whole]
    exact ⟨rfl, rfl⟩

end Session

/-- A write is that of the session. -/
theorem jtagWrite_agrees (answers : AnswersByDevice attempt memory t) {s : Jtag2 Ice}
    (serves : s.Serves t) {addr : UInt32} (low : addr.toNat < 2 ^ 31) {buffer : List UInt8}
    (short : buffer.length < 2 ^ 32) :
    let call := s.jtagWrite attempt addr.toUInt64 buffer
    let written := (s.session memory).jtagWrite t addr buffer
    call.state.session memory = written.getD (s.session memory) ∧
      call.value = written.map (fun _ => ()) := by
  intro call written
  by_cases none : buffer.length = 0
  · have call' : call = ⟨some (), s⟩ := if_pos none
    have written' : written = some (s.session memory) := if_pos none
    rw [call', written']
    exact ⟨rfl, rfl⟩
  · obtain ⟨whichSpace, place, notSpm, -, decoded, decoded'⟩ := memorySpace_agrees serves low
    have notStart : ¬ (whichSpace = mtypeSpm ∧ place = 0 ∧ 4 < buffer.length) :=
      fun start => notSpm start.1
    simp only [call, written, jtagWrite_writeSpace serves none decoded notSpm,
      Memory.Session.jtagWrite, if_neg none, decoded', if_neg notStart]
    by_cases flash : whichSpace = mtypeFlashPage
    · obtain ⟨k, power⟩ := t.flashPages
      subst flash
      exact writeSpace_paged answers serves.flash power place short
    · by_cases eeprom : whichSpace = mtypeEepromPage
      · obtain ⟨k, power⟩ := t.eepromPages
        subst eeprom
        exact writeSpace_paged answers serves.eeprom power place short
      · rw [writeSpace_unpaged flash eeprom, UInt32.toUInt32_toUInt64, Memory.Target.pageSize,
          if_neg flash, if_neg eeprom]
        exact checkedCommand_session (answers.write s.ice whichSpace _ place buffer
          (UInt32.toNat_ofNat_of_lt' short).symm)

/-! ## Runs -/

section Run

variable (attempt)

def Jtag2.perform (s : Jtag2 Ice) : MemoryOp → Jtag2 Ice
  | .jtagRead addr numBytes => (s.jtagRead attempt addr.toUInt64 numBytes).state
  | .jtagWrite addr buffer => (s.jtagWrite attempt addr.toUInt64 buffer).state
  | .eraseProgramMemory => (s.eraseProgramMemory attempt).state
  | .eraseProgramPage address => (s.eraseProgramPage attempt address).state

/-- Addresses are below the middle of their 32 bits, as all are that have been encoded. -/
def Encoded : MemoryOp → Prop
  | .jtagRead addr _ => addr.toNat < 2 ^ 31
  | .jtagWrite addr buffer => addr.toNat < 2 ^ 31 ∧ buffer.length < 2 ^ 32
  | .eraseProgramMemory => True
  | .eraseProgramPage _ => True

end Run

theorem perform_settings {s : Jtag2 Ice} (serves : s.Serves t) {op : MemoryOp}
    (encoded : Encoded op) :
    SameSettings s (s.perform attempt op) := by
  cases op with
  | jtagRead addr numBytes =>
      simp only [Jtag2.perform]
      by_cases none : numBytes = 0
      · rw [Jtag2.jtagRead, if_pos none]
        exact ⟨rfl, rfl, rfl⟩
      · rw [jtagRead_readSpace serves none]
        exact readSpace_settings _ _ _
  | jtagWrite addr buffer =>
      simp only [Jtag2.perform]
      by_cases none : buffer.length = 0
      · rw [Jtag2.jtagWrite, if_pos none]
        exact ⟨rfl, rfl, rfl⟩
      · obtain ⟨whichSpace, place, notSpm, -, decoded, -⟩ := memorySpace_agrees serves encoded.1
        rw [jtagWrite_writeSpace serves none decoded notSpm]
        exact writeSpace_settings _ _ _
  | eraseProgramMemory => exact ⟨rfl, rfl, rfl⟩
  | eraseProgramPage address => exact ⟨rfl, rfl, rfl⟩

theorem eraseProgramMemory_agrees (answers : AnswersByDevice attempt memory t) (s : Jtag2 Ice) :
    let call := s.eraseProgramMemory attempt
    call.value = some () ∧
      call.state.session memory = (s.session memory).eraseProgramMemory t := by
  obtain ⟨answered, erased⟩ := answers.erase s.ice
  have verdict : simpleVerdict (attempt [cmndChipErase] s.ice).1 = some true := by
    rw [answered]
    rfl
  simp only [Jtag2.eraseProgramMemory, Jtag2.simpleCommand, doSimpleJtagCommand_eq]
  rw [Retry.retry_settled verdict]
  refine ⟨rfl, ?_⟩
  simp only [Jtag2.session, Memory.Session.eraseProgramMemory, erased]

/-- A call does to the session what the operation does. -/
theorem perform_agrees (answers : AnswersByDevice attempt memory t) {s : Jtag2 Ice}
    (serves : s.Serves t) {op : MemoryOp} (encoded : Encoded op) :
    (s.perform attempt op).session memory = (s.session memory).apply t op := by
  cases op with
  | jtagRead addr numBytes => exact (jtagRead_agrees answers serves encoded numBytes).1
  | jtagWrite addr buffer => exact (jtagWrite_agrees answers serves encoded.1 encoded.2).1
  | eraseProgramMemory => exact (eraseProgramMemory_agrees answers s).2
  | eraseProgramPage address =>
      exact (checkedCommand_session (answers.erasePage s.ice address)).1

/-- A run of calls is a run of the session. -/
theorem run_agrees (answers : AnswersByDevice attempt memory t) {s : Jtag2 Ice}
    (serves : s.Serves t) {ops : List MemoryOp} (encoded : ∀ op ∈ ops, Encoded op) :
    (Transition.run (Jtag2.perform attempt) s ops).session memory =
      Transition.run (Memory.Session.apply t) (s.session memory) ops := by
  induction ops generalizing s with
  | nil => rfl
  | cons op ops inductionHypothesis =>
      have first := encoded op List.mem_cons_self
      rw [Transition.run_cons, Transition.run_cons, ← perform_agrees answers serves first]
      exact inductionHypothesis (serves.of_same (perform_settings serves first))
        fun later member => encoded later (List.mem_cons_of_mem op member)

/-! ## The device as ICE -/

/-- The answer to a command, by what it makes of the device. -/
def carriedOut (after : Option Device) (d : Device) : Attempt × Device :=
  match after with
  | some device => (.response rspOk [], device)
  | none => (.response rspFailed [], d)

/-- An ICE that has nothing but the memories. -/
def deviceIce (t : Memory.Target) (command : List UInt8) (d : Device) : Attempt × Device :=
  match command with
  | [_] => (.response rspOk [], d.chipErase t)
  | [_, b3, b2, b1, b0] => carriedOut (d.erasePage t (b4ToU32 b0 b1 b2 b3)) d
  | code :: whichSpace :: n0 :: n1 :: n2 :: n3 :: b0 :: b1 :: b2 :: b3 :: bytes =>
      if code = cmndReadMemory then
        ((d.read t whichSpace (b4ToU32 n0 n1 n2 n3).toNat (b4ToU32 b0 b1 b2 b3)).elim
          (.response rspFailed []) (.response rspMemory), d)
      else carriedOut (d.write t whichSpace (b4ToU32 b0 b1 b2 b3) bytes) d
  | _ => (.response rspFailed [], d)

theorem deviceIce_read (d : Device) (whichSpace : UInt8) (numBytes addr : UInt32) :
    deviceIce t (readCommand whichSpace numBytes addr) d =
      ((d.read t whichSpace numBytes.toNat addr).elim (.response rspFailed [])
        (.response rspMemory), d) := by
  have number := b4ToU32_u32ToB4 numBytes
  have address := b4ToU32_u32ToB4 addr
  simp only [readCommand, u32ToB4, List.cons_append, List.nil_append, deviceIce, if_true, number,
    address]

theorem deviceIce_write (d : Device) (whichSpace : UInt8) (numBytes addr : UInt32)
    (buffer : List UInt8) :
    deviceIce t (writeCommand whichSpace numBytes addr buffer) d =
      carriedOut (d.write t whichSpace addr buffer) d := by
  have address := b4ToU32_u32ToB4 addr
  have other : cmndWriteMemory ≠ cmndReadMemory := by decide
  simp only [writeCommand, u32ToB4, List.cons_append, List.nil_append, deviceIce, if_neg other,
    address]

theorem deviceIce_erasePage (d : Device) (address : UInt32) :
    deviceIce t (erasePageCommand address) d = carriedOut (d.erasePage t address) d := by
  have number := b4ToU32_u32ToB4 address
  simp only [erasePageCommand, u32ToB4, List.reverse_cons, List.reverse_nil, List.nil_append,
    List.cons_append, deviceIce, number]

theorem carriedOut_does (after : Option Device) (d : Device) :
    Does (carriedOut after d).1 after d (carriedOut after d).2 := by
  cases after with
  | none => exact ⟨rfl, rfl, rfl⟩
  | some device => exact ⟨rfl, rfl, rfl⟩

theorem deviceIce_answersByDevice : AnswersByDevice (deviceIce t) id t where
  read d whichSpace numBytes addr := by
    rw [deviceIce_read]
    refine ⟨rfl, ?_⟩
    show match d.read t whichSpace numBytes.toNat addr with
      | some bytes => _
      | none => _
    cases d.read t whichSpace numBytes.toNat addr with
    | none => exact ⟨rfl, rfl⟩
    | some bytes => rfl
  write d whichSpace numBytes addr buffer whole := by
    rw [deviceIce_write]
    exact carriedOut_does (d.write t whichSpace addr buffer) d
  erase d := ⟨rfl, rfl⟩
  erasePage d address := by
    rw [deviceIce_erasePage]
    exact carriedOut_does (d.erasePage t address) d

end Avarice.Mk2.Access

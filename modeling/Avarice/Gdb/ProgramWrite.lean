import Avarice.Gdb.Hex
import Avarice.Library.PagedMemory
import Avarice.Library.Transition

/-!
# Writes to program space

The `M` packets of GDB in `talkToGdb` of `remote.cc`.  Program space is written
in words, so the last byte of a packet with an odd number of them is kept back
and is to be written with the packet behind it.
-/

namespace Avarice.Gdb

open PagedMemory

abbrev dataSpaceAddrOffset : Int := 0x800000

/-! ## Packets -/

/-- What an `M` packet asks for.  The length is positive, and the data is all
that is in the buffer behind the colon. -/
structure Request where
  addr : Int
  length : Nat
  data : List Char

/-- The arguments of an `M` packet, by the tests that the source makes. -/
def parseWrite (ptr : List Char) : Option Request :=
  let (addrDigits, addr, ptr) := hexToInt ptr
  let (lengthDigits, length, data) := hexToInt (ptr.drop 1)
  if addrDigits ≠ 0 ∧ ptr.head? = some ',' ∧ lengthDigits ≠ 0 ∧ data.head? = some ':' ∧
      0 < length.toInt32.toInt then
    some ⟨addr.toInt32.toInt, length.toNat, data.drop 1⟩
  else
    none

/-- A packet, with what its bytes are unpacked into. -/
structure Packet where
  text : List Char
  /-- The memory from the allocated buffer on, as it is before the unpacking. -/
  heap : Nat → UInt8

def Packet.cmd (packet : Packet) : Char :=
  packet.text.headD '\x00'

def Packet.request (packet : Packet) : Option Request :=
  if packet.cmd = 'M' then parseWrite packet.text.tail else none

def Request.payload (request : Request) : List UInt8 :=
  hex2mem request.data request.length

/-- The data has two digits for each byte, and no more. -/
def Request.FullData (request : Request) : Prop :=
  (request.data.takeWhile fun ch => (hex ch).isSome).length = 2 * request.length

instance (request : Request) : Decidable request.FullData :=
  inferInstanceAs (Decidable (_ = _))

/-! ## The handler -/

structure Remote where
  lastCmd : Char
  lastOrphanPending : Bool
  lastOrphan : UInt8

def Remote.start : Remote := ⟨'\x00', false, 0xff⟩

/-- A call of `jtagWrite`, with the size of the buffer allocated for it and the
number of bytes from its start that the unpacking has reached. -/
structure Write where
  addr : Int
  bytes : List UInt8
  size : Nat
  filled : Nat

/-- A byte kept back from the last packet is to be written first. -/
def Remote.Leads (r : Remote) (request : Request) : Prop :=
  request.addr % 2 = 1 ∧ r.lastCmd = 'M' ∧ r.lastOrphanPending = true

instance (r : Remote) (request : Request) : Decidable (r.Leads request) :=
  inferInstanceAs (Decidable (_ ∧ _ ∧ _))

def Remote.write (r : Remote) (heap : Nat → UInt8) (request : Request) : Remote × Write :=
  let lead := if r.Leads request then 1 else 0
  let length := request.length + lead
  let addr := request.addr - lead
  let unpacked := overwrite heap lead (hex2mem request.data length)
  let jtagBuffer := if r.Leads request then overwrite unpacked 0 [r.lastOrphan] else unpacked
  if addr < dataSpaceAddrOffset ∧ length % 2 = 1 then
    -- the index is the length, so it is the byte behind the buffer that is kept
    ({ r with lastOrphanPending := true, lastOrphan := jtagBuffer length },
      ⟨addr, slice jtagBuffer 0 (length - 1), length, lead + length⟩)
  else
    ({ r with lastOrphanPending := false },
      ⟨addr, slice jtagBuffer 0 length, length, lead + length⟩)

def Remote.talkToGdb (r : Remote) (packet : Packet) : Remote × Option Write :=
  match packet.request with
  | none => ({ r with lastCmd := packet.cmd }, none)
  | some request =>
      let (next, write) := r.write packet.heap request
      ({ next with lastCmd := packet.cmd }, some write)

/-! ## What has been sent -/

/-- Bytes at consecutive addresses. -/
def place (addr : Int) : List UInt8 → List (Int × UInt8)
  | [] => []
  | byte :: rest => (addr, byte) :: place (addr + 1) rest

/-- The handler, and the byte sent last for each address. -/
structure Session where
  remote : Remote
  sent : Int → Option UInt8

def Session.start : Session := ⟨.start, fun _ => none⟩

def record (sent : Int → Option UInt8) (addr : Int) (bytes : List UInt8) : Int → Option UInt8 :=
  fun x => if addr ≤ x then (bytes[(x - addr).toNat]?).or (sent x) else sent x

def Session.apply (s : Session) (packet : Packet) : Session where
  remote := (s.remote.talkToGdb packet).1
  sent :=
    match packet.request with
    | none => s.sent
    | some request => record s.sent request.addr request.payload

def Write.placed (write : Write) : List (Int × UInt8) :=
  place write.addr write.bytes

/-- A write is right for what has been sent. -/
structure Write.Correct (sent : Int → Option UInt8) (write : Write) : Prop where
  mostRecent : ∀ x byte, (x, byte) ∈ write.placed → x < dataSpaceAddrOffset → sent x = some byte
  named : ∀ x byte, (x, byte) ∈ write.placed → sent x ≠ none
  unpacked : write.filled ≤ write.size

def WritesCorrectly (s : Session) (packet : Packet) : Prop :=
  ∀ write, (s.remote.talkToGdb packet).2 = some write → write.Correct (s.apply packet).sent

/-- Packets for program space, each for the addresses behind those of the one
before. -/
def Contiguous : Int → List Packet → Prop
  | _, [] => True
  | addr, packet :: rest =>
      ∃ request, packet.request = some request ∧ request.addr = addr ∧
        addr < dataSpaceAddrOffset ∧ Contiguous (addr + request.length) rest

def payloads (packets : List Packet) : List UInt8 :=
  packets.flatMap fun packet => (packet.request.map Request.payload).getD []

def handed (s : Session) : List Packet → List (Int × UInt8)
  | [] => []
  | packet :: rest =>
      ((s.remote.talkToGdb packet).2.map Write.placed).getD [] ++ handed (s.apply packet) rest

/-- All that has been sent is written, but for a last byte at an even address. -/
def Complete (addr : Int) (bytes : List UInt8) (written : List (Int × UInt8)) : Prop :=
  written = place addr bytes ∨ bytes.length % 2 = 1 ∧ written = place addr bytes.dropLast

instance (addr : Int) (bytes : List UInt8) (written : List (Int × UInt8)) :
    Decidable (Complete addr bytes written) :=
  inferInstanceAs (Decidable (_ ∨ _ ∧ _))

structure Correct (packets : List Packet) : Prop where
  writes : Transition.Along Session.apply WritesCorrectly .start packets
  loads : ∀ before load behind addr, packets = before ++ load ++ behind → addr % 2 = 0 →
    Contiguous addr load →
    Complete addr (payloads load)
      (handed (Transition.run Session.apply .start before) load)

def NoLead (s : Session) (packet : Packet) : Prop :=
  ∀ request ∈ packet.request, ¬ s.remote.Leads request

instance (s : Session) (packet : Packet) : Decidable (NoLead s packet) :=
  inferInstanceAs (Decidable (∀ request ∈ packet.request, _))

/-! ## Placed bytes -/

theorem place_append (addr : Int) (first second : List UInt8) :
    place addr (first ++ second) = place addr first ++ place (addr + first.length) second := by
  induction first generalizing addr with
  | nil => simp [place]
  | cons byte rest inductionHypothesis =>
      simp only [List.cons_append, place, inductionHypothesis, List.length_cons]
      rw [show addr + 1 + (rest.length : Int) = addr + ((rest.length + 1 : Nat) : Int) by omega]

theorem mem_place {addr x : Int} {byte : UInt8} {bytes : List UInt8}
    (placed : (x, byte) ∈ place addr bytes) : addr ≤ x ∧ bytes[(x - addr).toNat]? = some byte := by
  induction bytes generalizing addr with
  | nil => cases placed
  | cons first rest inductionHypothesis =>
      rcases List.mem_cons.mp placed with here | later
      · cases here
        simp
      · obtain ⟨after, found⟩ := inductionHypothesis later
        have index : (x - addr).toNat = (x - (addr + 1)).toNat + 1 := by omega
        rw [index]
        exact ⟨by omega, found⟩

theorem mem_place_dropLast {addr : Int} {bytes : List UInt8} {entry : Int × UInt8}
    (placed : entry ∈ place addr bytes.dropLast) : entry ∈ place addr bytes := by
  rcases List.eq_nil_or_concat bytes with rfl | ⟨kept, last, rfl⟩
  · exact placed
  · rw [List.concat_eq_append] at placed ⊢
    rw [List.dropLast_concat] at placed
    rw [place_append]
    exact List.mem_append_left _ placed

theorem record_of_mem_place {sent : Int → Option UInt8} {addr x : Int} {byte : UInt8}
    {bytes : List UInt8} (placed : (x, byte) ∈ place addr bytes) :
    record sent addr bytes x = some byte := by
  obtain ⟨after, found⟩ := mem_place placed
  rw [record, if_pos after, found]
  rfl

/-! ## One packet -/

section Step

variable {r : Remote} {s : Session} {packet : Packet} {request : Request}

@[simp]
theorem Request.payload_length (request : Request) : request.payload.length = request.length :=
  hex2mem_length _ _

theorem payload_of_data {bytes : List UInt8} {behind : List Char}
    (data : request.data = mem2hex bytes ++ behind) (length : request.length = bytes.length) :
    request.payload = bytes := by
  rw [Request.payload, data, length, hex2mem_mem2hex]

abbrev Request.LeavesOrphan (request : Request) : Prop :=
  request.addr < dataSpaceAddrOffset ∧ request.length % 2 = 1

def Request.words (request : Request) : List UInt8 :=
  if request.LeavesOrphan then request.payload.dropLast else request.payload

theorem write_of_not_leads (alone : ¬ r.Leads request) (heap : Nat → UInt8) :
    (r.write heap request).2 = ⟨request.addr, request.words, request.length, request.length⟩ ∧
      (r.write heap request).1.lastOrphanPending = decide request.LeavesOrphan := by
  have filled : slice (overwrite heap 0 request.payload) 0 request.length = request.payload := by
    have stored := slice_overwrite heap 0 request.payload
    rwa [Request.payload_length] at stored
  have address : request.addr - ((0 : Nat) : Int) = request.addr := Int.sub_zero _
  rw [Remote.write]
  have unpacked : hex2mem request.data request.length = request.payload := rfl
  simp only [if_neg alone, Nat.add_zero, Nat.zero_add, address, unpacked]
  by_cases orphan : request.LeavesOrphan
  · have shorter : slice (overwrite heap 0 request.payload) 0 (request.length - 1) =
        request.payload.dropLast := by
      rw [← slice_take _ (Nat.sub_le request.length 1), filled, List.dropLast_eq_take,
        Request.payload_length]
    rw [if_pos orphan, Request.words, if_pos orphan, ← shorter]
    exact ⟨rfl, (decide_eq_true orphan).symm⟩
  · rw [if_neg orphan, Request.words, if_neg orphan]
    exact ⟨by rw [filled], (decide_eq_false orphan).symm⟩

/-- A packet that a byte leads is unpacked past the end of its buffer. -/
theorem write_of_leads (leads : r.Leads request) (heap : Nat → UInt8) :
    (r.write heap request).2.size < (r.write heap request).2.filled := by
  rw [Remote.write]
  simp only [if_pos leads]
  split <;> simp only [] <;> omega

theorem talkToGdb_of_request (asks : packet.request = some request) :
    (r.talkToGdb packet).2 = some (r.write packet.heap request).2 ∧
      (r.talkToGdb packet).1.lastCmd = 'M' ∧
      (r.talkToGdb packet).1.lastOrphanPending =
        (r.write packet.heap request).1.lastOrphanPending := by
  have isWrite : packet.cmd = 'M' := by
    by_contra other
    rw [Packet.request, if_neg other] at asks
    cases asks
  simp only [Remote.talkToGdb, asks, isWrite, and_self]

theorem apply_sent (asks : packet.request = some request) :
    (s.apply packet).sent = record s.sent request.addr request.payload := by
  simp only [Session.apply, asks]

theorem writesCorrectly_iff : WritesCorrectly s packet ↔ NoLead s packet := by
  constructor
  · intro correct request asks leads
    have written := (talkToGdb_of_request (r := s.remote) asks).1
    exact absurd (correct _ written).unpacked
      (Nat.not_le.mpr (write_of_leads leads packet.heap))
  · intro noLead write written
    cases asks : packet.request with
    | none =>
        simp only [Remote.talkToGdb, asks] at written
        cases written
    | some request =>
        have made := (write_of_not_leads (noLead request asks) packet.heap).1
        rw [(talkToGdb_of_request asks).1, made] at written
        cases written
        have recorded : ∀ x byte, (x, byte) ∈ place request.addr request.words →
            (s.apply packet).sent x = some byte := by
          intro x byte placed
          rw [apply_sent asks]
          apply record_of_mem_place
          rw [Request.words] at placed
          split at placed
          · exact mem_place_dropLast placed
          · exact placed
        constructor
        · intro x byte placed _
          exact recorded x byte placed
        · intro x byte placed unsent
          rw [recorded x byte placed] at unsent
          cases unsent
        · exact Nat.le_refl _

end Step

/-! ## Runs of contiguous packets -/

theorem complete_of_noLead {s : Session} {load : List Packet} {addr : Int}
    (even : addr % 2 = 0) (contiguous : Contiguous addr load)
    (along : Transition.Along Session.apply NoLead s load) :
    Complete addr (payloads load) (handed s load) := by
  induction load generalizing s addr with
  | nil => exact Or.inl rfl
  | cons packet rest inductionHypothesis =>
      obtain ⟨request, asks, rfl, program, later⟩ := contiguous
      obtain ⟨noLead, alongRest⟩ := along
      obtain ⟨written, isWrite, pending⟩ := talkToGdb_of_request (r := s.remote) asks
      obtain ⟨made, orphan⟩ := write_of_not_leads (noLead request asks) packet.heap
      have sent : payloads (packet :: rest) = request.payload ++ payloads rest := by
        rw [payloads, List.flatMap_cons, asks]
        rfl
      have placed : handed s (packet :: rest) =
          place request.addr request.words ++ handed (s.apply packet) rest := by
        rw [handed, written, made]
        rfl
      rw [sent, placed]
      by_cases odd : request.length % 2 = 1
      · have last : rest = [] := by
          cases rest with
          | nil => rfl
          | cons next _ =>
              obtain ⟨request', asks', follows, _⟩ := later
              refine absurd ⟨?_, isWrite, ?_⟩ (alongRest.1 request' asks')
              · omega
              · show (s.remote.talkToGdb packet).1.lastOrphanPending = true
                rw [pending, orphan]
                exact decide_eq_true ⟨program, odd⟩
        subst last
        right
        rw [Request.words, if_pos ⟨program, odd⟩]
        simp [payloads, handed, odd]
      · rw [Request.words, if_neg fun leaves => odd leaves.2, Complete, place_append,
          Request.payload_length]
        have parity : (request.payload ++ payloads rest).length % 2 =
            (payloads rest).length % 2 := by
          rw [List.length_append, Request.payload_length]
          omega
        rcases inductionHypothesis (by omega) later alongRest with whole | ⟨oddRest, cut⟩
        · left
          rw [whole]
        · right
          have some : payloads rest ≠ [] := by
            intro none
            rw [none] at oddRest
            cases oddRest
          rw [parity, List.dropLast_append_of_ne_nil some, place_append,
            Request.payload_length, cut]
          exact ⟨oddRest, rfl⟩

/-- The packets are handled as they should be exactly when none of them is led
by a byte kept back. -/
theorem correct_iff (packets : List Packet) :
    Correct packets ↔ Transition.Along Session.apply NoLead .start packets := by
  have steps : Transition.Along Session.apply WritesCorrectly .start packets ↔
      Transition.Along Session.apply NoLead .start packets :=
    ⟨fun along => along.mono fun _ _ => writesCorrectly_iff.mp,
      fun along => along.mono fun _ _ => writesCorrectly_iff.mpr⟩
  constructor
  · exact fun correct => steps.mp correct.writes
  · intro noLeads
    constructor
    · exact steps.mpr noLeads
    · rintro before load behind addr rfl even contiguous
      rw [Transition.along_append, Transition.along_append] at noLeads
      exact complete_of_noLead even contiguous noLeads.1.2

/-- Three bytes for program space from address 0 on, and three for the addresses
behind them. -/
def oddPackets : List Packet :=
  [⟨"M0,3:aabbcc".toList, fun _ => 0⟩, ⟨"M3,3:ddeeff".toList, fun _ => 0⟩]

/-- In the place of the byte kept back, what lies behind the first buffer is
written. -/
theorem orphan_lost :
    (∀ packet ∈ oddPackets, ∀ request ∈ packet.request, request.FullData) ∧
      handed .start oddPackets = place 0 [0xaa, 0xbb, 0x00, 0xdd, 0xee, 0xff] ∧
      ¬ Transition.Along Session.apply WritesCorrectly .start oddPackets ∧
      ¬ Correct oddPackets := by
  have written : handed .start oddPackets = place 0 [0xaa, 0xbb, 0x00, 0xdd, 0xee, 0xff] := by
    decide +kernel
  have beyond : ¬ Transition.Along Session.apply WritesCorrectly .start oddPackets := by
    rintro ⟨_, second, _⟩
    have fits := (second _ rfl).unpacked
    revert fits
    decide +kernel
  refine ⟨by decide +kernel, written, beyond, ?_⟩
  intro correct
  exact beyond correct.writes

end Avarice.Gdb

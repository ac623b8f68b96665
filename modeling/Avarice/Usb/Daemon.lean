import Avarice.Library.Blocks
import Avarice.Library.Transition
import Avarice.Mk2.Exchange

/-!
# The USB daemon

`usb_daemon` of `jtag2usb.cc`: requests go from the AVaRICE socket to the ICE,
commands come over the control pipe, and what the ICE answers is read by bulk
transfers and written to the socket.  The first transfer of an answer tells how
long it is; a continuation loop reads the rest.  The stream of the ICE is a
list of bytes, and how many of them a transfer gets is an input.
-/

namespace Avarice.Usb

open Mk2

abbrev maxXfer : Nat := 65536

def frameLength (buf : Nat → UInt8) : UInt32 :=
  b4ToU32 (buf 3) (buf 4) (buf 5) (buf 6) + (8 + 2)

/-- The state of the daemon between two calls of `usb_bulk_read`.  It is in the
continuation loop while `pktLen` is positive; `wrapped` tells whether `pktLen`
has been lowered below zero, and `pending` is what the ICE still has to send. -/
structure Daemon where
  polling : Bool := false
  doRead : Bool := false
  pktLen : UInt32 := 0
  wrapped : Bool := false
  pending : List UInt8
  written : List UInt8 := []
  sent : List UInt8 := []
  deriving DecidableEq

/-- One round of the main loop, or one of the continuation loop.  A read gets a
number of bytes or nothing before its timeout; `stale` is what the buffer, which
is not initialised, holds before it. -/
inductive Event where
  | request (bytes : List UInt8)
  | round (command : Option Char) (read : Option Nat) (stale : Nat → UInt8)

/-- A command on the control pipe.  Clearing the endpoints loses no data. -/
def Daemon.obey (d : Daemon) : Option Char → Daemon
  | some 'r' => { d with polling := false, doRead := true }
  | some 'p' => { d with polling := true, doRead := false }
  | _ => { d with doRead := false }

def Daemon.forward (d : Daemon) (count : Nat) : Daemon :=
  { d with pending := d.pending.drop count, written := d.written ++ d.pending.take count }

def Daemon.buffer (d : Daemon) (count : Nat) (stale : Nat → UInt8) : Nat → UInt8 :=
  fun i => ((d.pending.take count)[i]?).getD (stale i)

def Daemon.lower (d : Daemon) (pktLen : UInt32) (count : Nat) : Daemon :=
  { d with
    pktLen := pktLen - UInt32.ofNat count
    wrapped := d.wrapped || decide (pktLen.toNat < count) }

def Daemon.firstTransfer (d : Daemon) (count : Nat) (stale : Nat → UInt8) : Daemon :=
  { d.forward count with polling := false }.lower (frameLength (d.buffer count stale)) count

def Daemon.Listens (d : Daemon) (command : Option Char) : Prop :=
  d.pktLen = 0 ∧ ((d.obey command).doRead || (d.obey command).polling) = true

instance (d : Daemon) (command : Option Char) : Decidable (d.Listens command) :=
  inferInstanceAs (Decidable (_ ∧ _))

def Daemon.apply (d : Daemon) : Event → Daemon
  | .request bytes => if d.pktLen = 0 then { d with sent := d.sent ++ bytes } else d
  | .round command read stale =>
      if d.pktLen = 0 then
        if d.Listens command then
          match read with
          | none => d.obey command
          | some count => (d.obey command).firstTransfer count stale
        else d.obey command
      else
        match read with
        | none => d
        | some count => (d.forward count).lower d.pktLen count

def Daemon.asked (d : Daemon) : Nat :=
  if d.pktLen = 0 then maxXfer else min d.pktLen.toNat maxXfer

/-- A transfer gets at least one byte and at most those asked for. -/
def Possible (d : Daemon) : Event → Prop
  | .round _ (some count) _ => 1 ≤ count ∧ count ≤ d.asked ∧ count ≤ d.pending.length
  | _ => True

instance (d : Daemon) (event : Event) : Decidable (Possible d event) :=
  match event with
  | .request _ => inferInstanceAs (Decidable True)
  | .round _ none _ => inferInstanceAs (Decidable True)
  | .round _ (some _) _ => inferInstanceAs (Decidable (_ ∧ _ ∧ _))

section Frames

variable (frames : List Frame)

def start : Daemon := { pending := (frames.map Frame.bytes).flatten }

/-- What has been written is what has been received, nothing was subtracted
that is larger than `pktLen`, and the continuation loop is left with the last
byte of a frame: it waits for the bytes missing of it. -/
structure Whole (d : Daemon) : Prop where
  inOrder : d.written ++ d.pending = (frames.map Frame.bytes).flatten
  lowered : d.wrapped = false
  waits : d.pktLen.toNat = Blocks.missing (frames.map Frame.bytes) d.written.length

/-- The first transfer of a frame gets nothing behind it, and where the size is
not complete in it, the stale bytes happen to be those of the size. -/
def Measures (frame : List UInt8) (count : Nat) (stale : Nat → UInt8) : Prop :=
  count ≤ frame.length ∧ frame.length < 2 ^ 32 ∧
    ∀ i ∈ [3, 4, 5, 6], count ≤ i → frame[i]? = some (stale i)

instance (frame : List UInt8) (count : Nat) (stale : Nat → UInt8) :
    Decidable (Measures frame count stale) :=
  inferInstanceAs (Decidable (_ ∧ _ ∧ _))

/-- Every answer is read from its beginning by a transfer that measures it. -/
def Framed (d : Daemon) : Event → Prop
  | .round command (some count) stale =>
      d.Listens command →
        Measures (Blocks.locate (frames.map Frame.bytes) d.written.length).2 count stale
  | _ => True

instance (d : Daemon) (event : Event) : Decidable (Framed frames d event) :=
  match event with
  | .request _ => inferInstanceAs (Decidable True)
  | .round _ none _ => inferInstanceAs (Decidable True)
  | .round _ (some _) _ => inferInstanceAs (Decidable (_ → _))

end Frames

/-! ## The size of a frame -/

theorem bytes_eq (f : Frame) :
    ∃ crc, f.bytes = frameHeader f.seqno f.payload.length.toUInt32 ++ f.payload ++ crc ∧
      crc.length = 2 := by
  rw [Frame.bytes, sendFrame_eq, crcappend, List.take_length]
  exact ⟨_, rfl, rfl⟩

theorem bytes_length (f : Frame) : f.bytes.length = f.payload.length + 10 := by
  obtain ⟨crc, layout, two⟩ := bytes_eq f
  rw [layout, List.length_append, List.length_append, frameHeader_length, two]
  omega

theorem bytes_size (f : Frame) :
    [f.bytes[3]?, f.bytes[4]?, f.bytes[5]?, f.bytes[6]?] =
      (u32ToB4 f.payload.length.toUInt32).map some := by
  obtain ⟨crc, layout, -⟩ := bytes_eq f
  simp [layout, frameHeader, u16ToB2, u32ToB4]

theorem frameLength_iff (f : Frame) (buf : Nat → UInt8) :
    (frameLength buf).toNat = f.bytes.length ↔
      f.bytes.length < 2 ^ 32 ∧ ∀ i ∈ [3, 4, 5, 6], f.bytes[i]? = some (buf i) := by
  have size := bytes_size f
  have length := bytes_length f
  have held : (∀ i ∈ [3, 4, 5, 6], f.bytes[i]? = some (buf i)) ↔
      b4ToU32 (buf 3) (buf 4) (buf 5) (buf 6) = f.payload.length.toUInt32 := by
    constructor
    · intro same
      simp only [List.forall_mem_cons, List.not_mem_nil, false_implies, implies_true,
        and_true] at same
      rw [same.1, same.2.1, same.2.2.1, same.2.2.2] at size
      simp only [u32ToB4, List.map_cons, List.map_nil, List.cons.injEq, Option.some.injEq,
        and_true] at size
      rw [size.1, size.2.1, size.2.2.1, size.2.2.2, b4ToU32_u32ToB4]
    · intro same
      rw [← same, u32ToB4_b4ToU32] at size
      simpa using size
  rw [held, frameLength, ← UInt32.toNat_inj, UInt32.toNat_add, length]
  have width := (b4ToU32 (buf 3) (buf 4) (buf 5) (buf 6)).toNat_lt
  have ten : (8 + 2 : UInt32).toNat = 10 := rfl
  have narrowed : f.payload.length.toUInt32.toNat = f.payload.length % 2 ^ 32 := by simp
  rw [ten, narrowed]
  omega

/-! ## Steps -/

section Steps

variable {frames : List Frame} {d : Daemon} {count : Nat}

theorem pending_eq (whole : Whole frames d) :
    d.pending = (frames.map Frame.bytes).flatten.drop d.written.length := by
  rw [← whole.inOrder, List.drop_left]

theorem written_forward (within : count ≤ d.pending.length) :
    (d.forward count).written.length = d.written.length + count := by
  simp [Daemon.forward, within]

theorem forward_inOrder (whole : Whole frames d) :
    (d.forward count).written ++ (d.forward count).pending =
      (frames.map Frame.bytes).flatten := by
  rw [← whole.inOrder]
  simp [Daemon.forward]

theorem lower_iff {length pktLen : UInt32} {before : Nat} (within : count ≤ before)
    (lowered : pktLen = length - UInt32.ofNat count) :
    decide (length.toNat < count) = false ∧ pktLen.toNat = before - count ↔
      length.toNat = before := by
  have width := length.toNat_lt
  rw [lowered, UInt32.toNat_sub, decide_eq_false_iff_not, Nat.not_lt]
  simp only [UInt32.toNat_ofNat']
  omega

theorem buffer_eq {frame : List UInt8} (onward : frame <+: d.pending)
    (stale : Nat → UInt8) {i : Nat} (inside : i < count) (within : i < frame.length) :
    frame[i]? = some (d.buffer count stale i) := by
  obtain ⟨rest, stream⟩ := onward
  simp [Daemon.buffer, ← stream, inside, List.getElem?_append_left within,
    List.getElem?_eq_getElem within]

theorem buffer_stale (stale : Nat → UInt8) {i : Nat} (outside : count ≤ i) :
    d.buffer count stale i = stale i := by
  simp [Daemon.buffer, Nat.not_lt.mpr outside]

theorem size_held_iff {frame : List UInt8} (onward : frame <+: d.pending)
    (within : count ≤ frame.length) (stale : Nat → UInt8) :
    (∀ i ∈ [3, 4, 5, 6], frame[i]? = some (d.buffer count stale i)) ↔
      ∀ i ∈ [3, 4, 5, 6], count ≤ i → frame[i]? = some (stale i) := by
  refine forall₂_congr fun i _ => ?_
  rcases Nat.lt_or_ge i count with inside | outside
  · have filled := buffer_eq onward stale inside (Nat.lt_of_lt_of_le inside within)
    simp [filled, Nat.not_le.mpr inside]
  · rw [buffer_stale stale outside]
    simp [outside]

theorem firstTransfer_iff (whole : Whole frames d) (idle : d.pktLen = 0)
    (nonempty : 1 ≤ count) (asked : count ≤ maxXfer) (within : count ≤ d.pending.length)
    (stale : Nat → UInt8) :
    Whole frames (d.firstTransfer count stale) ↔
      Measures (Blocks.locate (frames.map Frame.bytes) d.written.length).2 count stale := by
  have before : d.written.length < (frames.map Frame.bytes).flatten.length := by
    rw [← whole.inOrder, List.length_append]
    omega
  have more := Blocks.locate_snd_ne_nil before
  have first : (Blocks.locate (frames.map Frame.bytes) d.written.length).1 = [] := by
    apply Blocks.fst_nil_of_missing
    rw [← whole.waits, idle]
    rfl
  obtain ⟨f, -, frame⟩ := List.mem_map.mp (Blocks.mem_of_fst_nil first more)
  have onward := Blocks.locate_prefix (frames.map Frame.bytes) d.written.length
  have missing := @Blocks.missing_add _ (frames.map Frame.bytes) d.written.length count
    (Nat.ne_of_gt nonempty)
  rw [← pending_eq whole] at onward
  rw [← frame] at onward missing ⊢
  have long := bytes_length f
  rcases Nat.lt_or_ge f.bytes.length count with behind | inside
  · have short : f.bytes.length < 2 ^ 32 := by
      have limit : maxXfer < 2 ^ 32 := by decide
      omega
    have length : (frameLength (d.buffer count stale)).toNat = f.bytes.length := by
      refine (frameLength_iff f _).mpr ⟨short, ?_⟩
      simp only [List.forall_mem_cons, List.not_mem_nil, false_implies, implies_true, and_true]
      refine ⟨?_, ?_, ?_, ?_⟩ <;> exact buffer_eq onward stale (by omega) (by omega)
    constructor
    · intro later
      have lowered := later.lowered
      simp [Daemon.firstTransfer, Daemon.lower, length, behind] at lowered
    · exact fun measures => absurd measures.1 (Nat.not_le.mpr behind)
  · have exact_iff := lower_iff inside
      (rfl : frameLength (d.buffer count stale) - UInt32.ofNat count = _)
    rw [frameLength_iff, size_held_iff onward inside] at exact_iff
    have order := @forward_inOrder frames d count whole
    have position := written_forward within
    constructor
    · intro later
      have lowered := later.lowered
      have waits := later.waits
      simp only [Daemon.firstTransfer, Daemon.lower, Bool.or_eq_false_iff] at lowered waits
      rw [position, missing inside] at waits
      exact ⟨inside, exact_iff.mp ⟨lowered.2, waits⟩⟩
    · intro measures
      obtain ⟨lowered, waits⟩ := exact_iff.mpr measures.2
      refine ⟨order, ?_, ?_⟩
      · simp [Daemon.firstTransfer, Daemon.lower, Daemon.forward, whole.lowered, lowered]
      · simp only [Daemon.firstTransfer, Daemon.lower]
        rw [waits, position, missing inside]

theorem continue_whole (whole : Whole frames d) (busy : d.pktLen ≠ 0) (nonempty : 1 ≤ count)
    (asked : count ≤ d.pktLen.toNat) (within : count ≤ d.pending.length) :
    Whole frames ((d.forward count).lower d.pktLen count) := by
  have begun : Blocks.missing (frames.map Frame.bytes) d.written.length ≠ 0 := by
    rw [← whole.waits]
    exact fun zero => busy (UInt32.toNat_inj.mp zero)
  have left := Blocks.missing_of_fst (Blocks.fst_of_missing begun)
  rw [← whole.waits] at left
  obtain ⟨lowered, waits⟩ := (lower_iff asked (rfl : d.pktLen - UInt32.ofNat count = _)).mpr rfl
  refine ⟨forward_inOrder whole, ?_, ?_⟩
  · simp [Daemon.lower, Daemon.forward, whole.lowered, lowered]
  · have position := written_forward within
    simp only [Daemon.lower]
    rw [waits, position, Blocks.missing_add (Nat.ne_of_gt nonempty) (left ▸ asked), left]

theorem whole_of_same {other : Daemon} (whole : Whole frames d)
    (same : other.pktLen = d.pktLen ∧ other.wrapped = d.wrapped ∧
      other.pending = d.pending ∧ other.written = d.written) :
    Whole frames other := by
  obtain ⟨length, wrapped, pending, written⟩ := same
  refine ⟨?_, ?_, ?_⟩
  · rw [written, pending, whole.inOrder]
  · rw [wrapped, whole.lowered]
  · rw [length, written, whole.waits]

theorem obey_same (d : Daemon) (command : Option Char) :
    (d.obey command).pktLen = d.pktLen ∧ (d.obey command).wrapped = d.wrapped ∧
      (d.obey command).pending = d.pending ∧ (d.obey command).written = d.written := by
  unfold Daemon.obey
  split <;> exact ⟨rfl, rfl, rfl, rfl⟩

theorem start_whole (frames : List Frame) : Whole frames (start frames) :=
  ⟨rfl, rfl, by simp [start]⟩

theorem apply_whole_iff (event : Event) (whole : Whole frames d) (possible : Possible d event) :
    Whole frames (d.apply event) ↔ Framed frames d event := by
  have obeyed := fun command => whole_of_same whole (obey_same d command)
  cases event with
  | request bytes =>
      have kept : Whole frames (d.apply (.request bytes)) := by
        simp only [Daemon.apply]
        split
        · exact whole_of_same whole ⟨rfl, rfl, rfl, rfl⟩
        · exact whole
      exact iff_of_true kept trivial
  | round command read stale =>
      obtain ⟨length, -, pending, written⟩ := obey_same d command
      cases read with
      | none =>
          have kept : Whole frames (d.apply (.round command none stale)) := by
            simp only [Daemon.apply, ite_self]
            split
            · exact obeyed command
            · exact whole
          exact iff_of_true kept trivial
      | some count =>
          obtain ⟨nonempty, asked, within⟩ := possible
          by_cases idle : d.pktLen = 0
          · simp only [Daemon.asked, idle, if_true] at asked
            by_cases listens : d.Listens command
            · have first := firstTransfer_iff (obeyed command) (length.trans idle) nonempty asked
                (pending ▸ within) stale
              rw [written] at first
              simp only [Daemon.apply, idle, listens, if_true, Framed, true_implies]
              exact first
            · simp only [Daemon.apply, idle, listens, if_true, if_false, Framed, false_implies,
                iff_true]
              exact obeyed command
          · have kept : Whole frames (d.apply (.round command (some count) stale)) := by
              simp only [Daemon.asked, idle, if_false] at asked
              simp only [Daemon.apply, idle, if_false]
              exact continue_whole whole idle nonempty (by omega) within
            exact iff_of_true kept fun listens => absurd listens.1 idle

end Steps

/-- The daemon forwards frames whole if and only if the first transfer of every
frame measures it. -/
theorem forwards_whole_iff (frames : List Frame) (events : List Event)
    (possible : Transition.Along Daemon.apply Possible (start frames) events) :
    Transition.Always Daemon.apply (Whole frames) (start frames) events ↔
      Transition.Along Daemon.apply (Framed frames) (start frames) events :=
  Transition.always_iff_along_of_along (fun _ event whole may => apply_whole_iff event whole may)
    possible (start_whole frames)

/-- Two events, the first one cut in its payload and again before its end. -/
theorem forwards_whole_iff_cut :
    Transition.Always Daemon.apply (Whole [⟨0xffff, [0xe0, 1]⟩, ⟨0xffff, [0xe1]⟩])
      (start [⟨0xffff, [0xe0, 1]⟩, ⟨0xffff, [0xe1]⟩])
      [.round (some 'p') (some 9) 0, .round none (some 2) 0, .round none none 0,
        .round none (some 1) 0] :=
  (forwards_whole_iff _ _ (by decide +kernel)).mpr (by decide +kernel)

/-- Two events in one transfer are eleven bytes more than the first one is long. -/
theorem forwards_whole_fails :
    ¬∀ (frames : List Frame) (events : List Event),
      Transition.Along Daemon.apply Possible (start frames) events →
        Transition.Always Daemon.apply (Whole frames) (start frames) events := by
  intro always
  have run := always [⟨0xffff, [0xe0]⟩, ⟨0xffff, [0xe1]⟩] [.round (some 'r') (some 22) 0]
    (by decide +kernel)
  have lowered := run.2.lowered
  revert lowered
  decide +kernel

end Avarice.Usb

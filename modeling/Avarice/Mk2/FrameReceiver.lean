import Avarice.Mk2.FrameGrammar

/-!
# What the receiver hands out

`recvFrame` returns the size it has read last, so it reports a message when the
stream breaks off behind a size, and `recv` hands it out or reads where there is
none.  Apart from that, whatever it returns is a complete frame with a good CRC,
and so is what `recv` takes its payload from.
-/

namespace Avarice.Mk2

/-- A complete frame, with a CRC that verifies. -/
def IsFrame (frame : List UInt8) (seqno : UInt16) (payload : List UInt8) : Prop :=
  ∃ (msglen : UInt32) (c0 c1 : UInt8),
    msglen.toNat = payload.length ∧
      frame = frameHeader seqno msglen ++ payload ++ [c0, c1] ∧
        crcverify frame frame.length = true

/-- When a frame is returned, it is what the consumed bytes end with. -/
def Received.Sound (stream : List UInt8) (r : Received) : Prop :=
  0 < r.value → ∃ skipped frame seqno payload,
    stream = skipped ++ frame ++ r.rest ∧ IsFrame frame seqno payload ∧
      r.value = payload.length ∧ r.seqno = some seqno ∧ r.msg = some frame

/-- Nothing follows, a size has been read, and no frame is complete. -/
def Front.IsCut : Front → Prop
  | .starved _ msglen => 0 < msglen.toBitVec.toInt
  | .header _ msglen body => 0 < msglen.toNat ∧ body.length < msglen.toNat + 2

instance : DecidablePred Front.IsCut
  | .starved _ _ => inferInstanceAs (Decidable (_ < _))
  | .header _ _ _ => inferInstanceAs (Decidable (_ ∧ _))

/-- Silence falls before a frame is complete, while the last four bytes of a
size stand for a positive number. -/
def CutShort (stream : List UInt8) : Prop :=
  (front 0 0 stream).IsCut

instance : DecidablePred CutShort := fun stream =>
  inferInstanceAs (Decidable (front 0 0 stream).IsCut)

/-! ## One frame -/

theorem recvFrame_rest_lt {stream : List UInt8} (returned : 0 < (recvFrame stream).value) :
    (recvFrame stream).rest.length < stream.length := by
  rw [recvFrame_eq] at returned ⊢
  cases found : front 0 0 stream with
  | starved seqno msglen =>
      rw [found] at returned
      cases stream with
      | nil =>
          obtain ⟨rfl, rfl⟩ := Front.starved.inj found
          cases returned
      | cons c rest => exact Nat.zero_lt_succ _
  | header seqno msglen body =>
      obtain ⟨_, skipped, rfl⟩ := front_header found
      simp only [Front.receive]
      split_ifs <;> simp [checksumError] <;> omega

theorem isFrame_take {seqno : UInt16} {msglen : UInt32} {body : List UInt8}
    (whole : msglen.toNat + 2 ≤ body.length)
    (verified : crcverify (frameHeader seqno msglen ++ body.take (msglen.toNat + 2))
      (msglen.toNat + 10) = true) :
    IsFrame (frameHeader seqno msglen ++ body.take (msglen.toNat + 2)) seqno
      (body.take msglen.toNat) := by
  have size : (body.take msglen.toNat).length = msglen.toNat :=
    List.length_take_of_le (by omega)
  obtain ⟨c0, c1, checksum⟩ : ∃ c0 c1, (body.drop msglen.toNat).take 2 = [c0, c1] :=
    List.length_eq_two.mp (by rw [List.length_take_of_le]; rw [List.length_drop]; omega)
  refine ⟨msglen, c0, c1, size.symm, ?_, ?_⟩
  · rw [List.take_add, checksum, List.append_assoc]
  · rw [List.length_append, List.length_take_of_le whole, frameHeader_length,
      Nat.add_comm 8, Nat.add_assoc]
    exact verified

theorem isFrame_length {frame payload : List UInt8} {seqno : UInt16}
    (complete : IsFrame frame seqno payload) : frame.length = payload.length + 10 := by
  obtain ⟨msglen, c0, c1, size, rfl, _⟩ := complete
  simp
  omega

theorem recvFrame_of_whole {stream : List UInt8} (whole : ¬ CutShort stream) :
    (recvFrame stream).Sound stream := by
  rw [recvFrame_eq]
  unfold CutShort at whole
  cases found : front 0 0 stream with
  | starved seqno msglen =>
      rw [found] at whole
      exact fun returned => absurd returned whole
  | header seqno msglen body =>
      rw [found] at whole
      obtain ⟨_, skipped, stream_eq⟩ := front_header found
      rw [Front.IsCut, not_and_or, Nat.not_lt, Nat.not_lt] at whole
      intro returned
      simp only [Front.receive] at returned ⊢
      split_ifs at returned ⊢ with empty cut verified
      · cases returned
      · omega
      · refine ⟨skipped, _, seqno, _, ?_, isFrame_take (Nat.not_lt.mp cut) verified, ?_, rfl, rfl⟩
        · rw [stream_eq, List.append_assoc, List.append_assoc, List.take_append_drop]
        · rw [List.length_take_of_le (by omega)]
      · cases returned

theorem recvFrame_of_cutShort {stream : List UInt8} (cut : CutShort stream) :
    0 < (recvFrame stream).value ∧ (recvFrame stream).rest = [] ∧
      (∃ seqno, (recvFrame stream).seqno = some seqno) ∧
      ∀ buf, (recvFrame stream).msg = some buf →
        (buf.length : Int) < (recvFrame stream).value + 10 := by
  rw [recvFrame_eq]
  unfold CutShort at cut
  cases found : front 0 0 stream with
  | starved seqno msglen =>
      rw [found] at cut
      exact ⟨cut, rfl, ⟨seqno, rfl⟩, nofun⟩
  | header seqno msglen body =>
      rw [found] at cut
      obtain ⟨sized, short⟩ := cut
      have received : (Front.header seqno msglen body).receive =
          ⟨msglen.toNat, some (frameHeader seqno msglen ++ body), some seqno, []⟩ := by
        simp only [Front.receive, if_neg (Nat.ne_of_gt sized), if_pos short]
      rw [received]
      refine ⟨Int.natCast_pos.mpr sized, rfl, ⟨seqno, rfl⟩, fun buf stored => ?_⟩
      cases stored
      show ((frameHeader seqno msglen ++ body).length : Int) < msglen.toNat + 10
      rw [List.length_append, frameHeader_length]
      omega

theorem sound_recvFrame_iff (stream : List UInt8) :
    (recvFrame stream).Sound stream ↔ ¬ CutShort stream := by
  constructor
  · intro sound cut
    obtain ⟨returned, _, _, short⟩ := recvFrame_of_cutShort cut
    obtain ⟨_, frame, _, payload, _, complete, value, _, stored⟩ := sound returned
    have tooShort := short frame stored
    rw [isFrame_length complete] at tooShort
    omega
  · exact recvFrame_of_whole

/-! ## Until the reply comes -/

structure Reply where
  value : Int
  msg : Option (List UInt8)
  commandSequence : UInt16
  rest : List UInt8
  deriving DecidableEq, Repr

abbrev eventSeqno : UInt16 := 0xffff

def nextSequence (commandSequence : UInt16) : UInt16 :=
  if commandSequence + 1 = 0xffff then 0 else commandSequence + 1

def payloadFirst (msg : List UInt8) (size : Nat) : List UInt8 :=
  store msg 0 ((msg.drop 8).take size)

/-- What `recv` returns, unless it reads from a null pointer. -/
def recv (commandSequence : UInt16) (stream : List UInt8) : Option Reply :=
  let r := recvFrame stream
  if _returned : 0 < r.value then
    if r.seqno = some commandSequence then
      r.msg.map fun msg =>
        { value := r.value
          msg := some (payloadFirst msg r.value.toNat)
          commandSequence := nextSequence commandSequence
          rest := r.rest }
    -- msg[8] is printed for an event
    else if r.seqno = some eventSeqno ∧ r.msg = none then none
    -- an event, or a frame with the wrong sequence number
    else recv commandSequence r.rest
  else some ⟨r.value, r.msg, commandSequence, r.rest⟩
termination_by stream.length
decreasing_by exact recvFrame_rest_lt _returned

/-- When a message is handed out, it comes from a complete frame with the
sequence number of the command. -/
def Reply.Sound (commandSequence : UInt16) (stream : List UInt8) (r : Reply) : Prop :=
  0 < r.value → ∃ skipped frame payload,
    stream = skipped ++ frame ++ r.rest ∧ IsFrame frame commandSequence payload ∧
      r.value = payload.length ∧ r.msg = some (payload ++ frame.drop payload.length)

/-- `recv` returns, with a message from a complete frame or without one. -/
def ReceivesSoundly (commandSequence : UInt16) (stream : List UInt8) : Prop :=
  ∃ r, recv commandSequence stream = some r ∧ r.Sound commandSequence stream

inductive Passes (commandSequence : UInt16) : List UInt8 → List UInt8 → Prop where
  | here (stream : List UInt8) : Passes commandSequence stream stream
  | frame {stream body rest : List UInt8} {seqno : UInt16} {msglen : UInt32}
      (header : front 0 0 stream = .header seqno msglen body)
      (other : seqno ≠ commandSequence) (sized : 0 < msglen.toNat)
      (whole : msglen.toNat + 2 ≤ body.length)
      (verified : crcverify (frameHeader seqno msglen ++ body.take (msglen.toNat + 2))
        (msglen.toNat + 10) = true)
      (behind : Passes commandSequence (body.drop (msglen.toNat + 2)) rest) :
      Passes commandSequence stream rest

/-- The frame that is cut is taken for the reply, or it is taken for an event
and has no buffer. -/
def Front.Misleads (commandSequence : UInt16) : Front → Prop
  | .starved seqno _ => seqno = commandSequence ∨ seqno = eventSeqno
  | .header seqno _ _ => seqno = commandSequence

instance (commandSequence : UInt16) : DecidablePred (Front.Misleads commandSequence)
  | .starved _ _ => inferInstanceAs (Decidable (_ ∨ _))
  | .header _ _ _ => inferInstanceAs (Decidable (_ = _))

/-- The stream is cut in a frame that `recv` goes on with. -/
def CutInReply (commandSequence : UInt16) (stream : List UInt8) : Prop :=
  ∃ rest, Passes commandSequence stream rest ∧ CutShort rest ∧
    (front 0 0 rest).Misleads commandSequence

theorem recv_of_not_returned {commandSequence : UInt16} {stream : List UInt8}
    (nothing : ¬ 0 < (recvFrame stream).value) :
    recv commandSequence stream =
      some ⟨(recvFrame stream).value, (recvFrame stream).msg, commandSequence,
        (recvFrame stream).rest⟩ := by
  rw [recv]
  simp only [dif_neg nothing]

theorem recv_of_matching {commandSequence : UInt16} {stream : List UInt8}
    (returned : 0 < (recvFrame stream).value)
    (matching : (recvFrame stream).seqno = some commandSequence) :
    recv commandSequence stream = (recvFrame stream).msg.map fun msg =>
      { value := (recvFrame stream).value
        msg := some (payloadFirst msg (recvFrame stream).value.toNat)
        commandSequence := nextSequence commandSequence
        rest := (recvFrame stream).rest } := by
  rw [recv]
  simp only [dif_pos returned, if_pos matching]

theorem recv_of_null {commandSequence : UInt16} {stream : List UInt8}
    (returned : 0 < (recvFrame stream).value)
    (event : (recvFrame stream).seqno = some eventSeqno) (null : (recvFrame stream).msg = none) :
    recv commandSequence stream = none := by
  by_cases matching : (recvFrame stream).seqno = some commandSequence
  · rw [recv_of_matching returned matching, null]
    rfl
  · rw [recv]
    simp only [dif_pos returned, if_neg matching, if_pos (And.intro event null)]

theorem recv_of_other {commandSequence : UInt16} {stream : List UInt8}
    (returned : 0 < (recvFrame stream).value)
    (other : (recvFrame stream).seqno ≠ some commandSequence)
    (readable : (recvFrame stream).seqno = some eventSeqno → (recvFrame stream).msg ≠ none) :
    recv commandSequence stream = recv commandSequence (recvFrame stream).rest := by
  have notNull : ¬ ((recvFrame stream).seqno = some eventSeqno ∧ (recvFrame stream).msg = none) :=
    fun null => readable null.1 null.2
  rw [recv]
  simp only [dif_pos returned, if_neg other, if_neg notNull]

theorem payloadFirst_frame {frame payload : List UInt8} {seqno : UInt16}
    (complete : IsFrame frame seqno payload) :
    payloadFirst frame payload.length = payload ++ frame.drop payload.length := by
  obtain ⟨msglen, c0, c1, _, rfl, _⟩ := complete
  have taken : ((frameHeader seqno msglen ++ payload ++ [c0, c1]).drop 8).take payload.length =
      payload := by
    rw [List.append_assoc, List.drop_left' (frameHeader_length _ _), List.take_left' rfl]
  rw [payloadFirst, taken, store]
  simp

theorem payloadFirst_length (msg : List UInt8) (size : Nat) :
    (payloadFirst msg size).length = msg.length := by
  simp only [payloadFirst, store, List.take_zero, List.nil_append, List.length_append,
    List.length_take, List.length_drop]
  omega

theorem recvFrame_of_frame {stream body : List UInt8} {seqno : UInt16} {msglen : UInt32}
    (header : front 0 0 stream = .header seqno msglen body) (sized : 0 < msglen.toNat)
    (whole : msglen.toNat + 2 ≤ body.length)
    (verified : crcverify (frameHeader seqno msglen ++ body.take (msglen.toNat + 2))
      (msglen.toNat + 10) = true) :
    recvFrame stream =
      { value := msglen.toNat
        msg := some (frameHeader seqno msglen ++ body.take (msglen.toNat + 2))
        seqno := some seqno
        rest := body.drop (msglen.toNat + 2) } := by
  rw [recvFrame_eq, header, Front.receive]
  simp only [if_neg (Nat.ne_of_gt sized), if_neg (Nat.not_lt.mpr whole), if_pos verified]

/-- A stream that something is returned for breaks off in front of a header, breaks off
behind one, or starts with a frame. -/
theorem starved_or_cut_or_frame {stream : List UInt8} (returned : 0 < (recvFrame stream).value) :
    (∃ seqno msglen, front 0 0 stream = .starved seqno msglen ∧ CutShort stream ∧
        (recvFrame stream).seqno = some seqno ∧ (recvFrame stream).msg = none) ∨
      (∃ seqno msglen body, front 0 0 stream = .header seqno msglen body ∧ CutShort stream ∧
        (recvFrame stream).seqno = some seqno ∧ (recvFrame stream).msg ≠ none) ∨
      ∃ seqno msglen body, front 0 0 stream = .header seqno msglen body ∧ 0 < msglen.toNat ∧
        msglen.toNat + 2 ≤ body.length ∧
          crcverify (frameHeader seqno msglen ++ body.take (msglen.toNat + 2))
            (msglen.toNat + 10) = true := by
  rw [recvFrame_eq] at returned ⊢
  unfold CutShort
  cases found : front 0 0 stream with
  | starved seqno msglen =>
      rw [found] at returned
      exact .inl ⟨seqno, msglen, rfl, returned, rfl, rfl⟩
  | header seqno msglen body =>
      rw [found] at returned
      simp only [Front.receive] at returned ⊢
      split_ifs at returned ⊢ with empty cut verified
      · cases returned
      · exact .inr (.inl ⟨seqno, msglen, body, rfl, ⟨Nat.pos_of_ne_zero empty, cut⟩, rfl,
          Option.some_ne_none _⟩)
      · exact .inr (.inr ⟨seqno, msglen, body, rfl, Nat.pos_of_ne_zero empty, Nat.not_lt.mp cut,
          verified⟩)
      · cases returned

theorem not_cutShort_of_frame {stream body : List UInt8} {seqno : UInt16} {msglen : UInt32}
    (header : front 0 0 stream = .header seqno msglen body)
    (whole : msglen.toNat + 2 ≤ body.length) : ¬ CutShort stream := by
  intro cut
  rw [CutShort, header] at cut
  exact absurd cut.2 (Nat.not_lt.mpr whole)

theorem misleads_of_matching {commandSequence : UInt16} {stream : List UInt8}
    (returned : 0 < (recvFrame stream).value) (cut : CutShort stream)
    (matching : (recvFrame stream).seqno = some commandSequence) :
    (front 0 0 stream).Misleads commandSequence := by
  obtain ⟨seqno, msglen, header, _, sent, _⟩ | ⟨seqno, msglen, body, header, _, sent, _⟩ |
    ⟨_, _, _, header, _, whole, _⟩ := starved_or_cut_or_frame returned
  · rw [header]
    exact .inl (Option.some.inj (sent.symm.trans matching))
  · rw [header]
    exact Option.some.inj (sent.symm.trans matching)
  · exact absurd cut (not_cutShort_of_frame header whole)

theorem not_cutInReply_nil (commandSequence : UInt16) : ¬ CutInReply commandSequence [] := by
  rintro ⟨rest, passes, cut, _⟩
  cases passes with
  | here => exact absurd cut (by decide)
  | frame header => cases header

theorem cutInReply_of_rest {commandSequence : UInt16} {stream : List UInt8}
    (returned : 0 < (recvFrame stream).value)
    (other : (recvFrame stream).seqno ≠ some commandSequence)
    (cut : CutInReply commandSequence (recvFrame stream).rest) :
    CutInReply commandSequence stream := by
  by_cases cutHere : CutShort stream
  · rw [(recvFrame_of_cutShort cutHere).2.1] at cut
    exact absurd cut (not_cutInReply_nil commandSequence)
  · obtain ⟨_, _, _, here, _⟩ | ⟨_, _, _, _, here, _⟩ |
      ⟨seqno, msglen, body, header, sized, whole, verified⟩ := starved_or_cut_or_frame returned
    · exact absurd here cutHere
    · exact absurd here cutHere
    · rw [recvFrame_of_frame header sized whole verified] at cut other
      obtain ⟨rest, passes, cutThere, misleads⟩ := cut
      refine ⟨rest, .frame header (fun same => other ?_) sized whole verified passes, cutThere,
        misleads⟩
      rw [same]

theorem readable_of_whole {commandSequence : UInt16} {stream : List UInt8}
    (whole : ¬ CutInReply commandSequence stream) (returned : 0 < (recvFrame stream).value)
    (event : (recvFrame stream).seqno = some eventSeqno) : (recvFrame stream).msg ≠ none := by
  obtain ⟨seqno, msglen, header, cut, sent, _⟩ | ⟨_, _, _, _, _, _, readable⟩ |
    ⟨seqno, msglen, body, header, sized, complete, verified⟩ := starved_or_cut_or_frame returned
  · have misleads : (front 0 0 stream).Misleads commandSequence := by
      rw [header]
      exact .inr (Option.some.inj (sent.symm.trans event))
    exact absurd ⟨stream, .here stream, cut, misleads⟩ whole
  · exact readable
  · rw [recvFrame_of_frame header sized complete verified]
    exact Option.some_ne_none _

theorem recvFrame_suffix (stream : List UInt8) :
    ∃ consumed, stream = consumed ++ (recvFrame stream).rest := by
  rw [recvFrame_eq]
  cases found : front 0 0 stream with
  | starved seqno msglen => exact ⟨stream, (List.append_nil stream).symm⟩
  | header seqno msglen body =>
      obtain ⟨_, skipped, stream_eq⟩ := front_header found
      suffices ∃ taken, body = taken ++ (Front.header seqno msglen body).receive.rest by
        obtain ⟨taken, body_eq⟩ := this
        refine ⟨skipped ++ (frameHeader seqno msglen ++ taken), ?_⟩
        rw [List.append_assoc, List.append_assoc, ← body_eq, ← stream_eq]
      simp only [Front.receive]
      split_ifs
      · exact ⟨[], rfl⟩
      · exact ⟨body, (List.append_nil body).symm⟩
      · exact ⟨_, (List.take_append_drop _ body).symm⟩
      · exact ⟨_, (List.take_append_drop _ body).symm⟩

theorem recv_of_whole {commandSequence : UInt16} {stream : List UInt8}
    (whole : ¬ CutInReply commandSequence stream) : ReceivesSoundly commandSequence stream := by
  induction length : stream.length using Nat.strongRecOn generalizing stream with
  | _ n inductionHypothesis =>
      by_cases returned : 0 < (recvFrame stream).value
      swap
      · exact ⟨_, recv_of_not_returned returned, fun positive => absurd positive returned⟩
      by_cases matching : (recvFrame stream).seqno = some commandSequence
      · have notCut : ¬ CutShort stream := fun cut =>
          whole ⟨stream, .here stream, cut, misleads_of_matching returned cut matching⟩
        obtain ⟨skipped, frame, seqno, payload, consumed, complete, value, sent, stored⟩ :=
          recvFrame_of_whole notCut returned
        cases sent.symm.trans matching
        refine ⟨_, (recv_of_matching returned matching).trans (congrArg _ stored),
          fun _ => ⟨skipped, frame, payload, consumed, complete, value, ?_⟩⟩
        show some (payloadFirst frame (recvFrame stream).value.toNat) = _
        rw [value]
        exact congrArg some (payloadFirst_frame complete)
      · have other := recv_of_other returned matching (readable_of_whole whole returned)
        obtain ⟨r, behind, sound⟩ := inductionHypothesis _ (length ▸ recvFrame_rest_lt returned)
          (fun cut => whole (cutInReply_of_rest returned matching cut)) rfl
        refine ⟨r, other.trans behind, fun positive => ?_⟩
        obtain ⟨skipped, frame, payload, consumed, rest⟩ := sound positive
        obtain ⟨front, stream_eq⟩ := recvFrame_suffix stream
        refine ⟨front ++ skipped, frame, payload, ?_, rest⟩
        rw [List.append_assoc, List.append_assoc, ← List.append_assoc skipped, ← consumed]
        exact stream_eq

theorem recv_of_cutInReply {commandSequence : UInt16} {stream : List UInt8}
    (cut : CutInReply commandSequence stream) :
    ∀ r, recv commandSequence stream = some r →
      0 < r.value ∧ ∀ buf, r.msg = some buf → (buf.length : Int) < r.value + 10 := by
  obtain ⟨rest, passes, cutThere, misleads⟩ := cut
  induction passes with
  | here stream =>
      obtain ⟨returned, _, _, short⟩ := recvFrame_of_cutShort cutThere
      intro r received
      by_cases matching : (recvFrame stream).seqno = some commandSequence
      · rw [recv_of_matching returned matching] at received
        obtain ⟨msg, kept, rfl⟩ := Option.map_eq_some_iff.mp received
        refine ⟨returned, fun buf stored => ?_⟩
        cases stored
        rw [payloadFirst_length]
        exact short msg kept
      · obtain ⟨seqno, msglen, header, _, sent, null⟩ | ⟨seqno, _, _, header, _, sent, _⟩ |
          ⟨_, _, _, header, _, whole, _⟩ := starved_or_cut_or_frame returned
        · rw [header] at misleads
          have event : seqno = eventSeqno :=
            misleads.resolve_left fun same => matching (same ▸ sent)
          rw [recv_of_null returned (event ▸ sent) null] at received
          cases received
        · rw [header] at misleads
          exact absurd (sent.trans (congrArg some misleads)) matching
        · exact absurd cutThere (not_cutShort_of_frame header whole)
  | frame header other sized whole verified _ inductionHypothesis =>
      have received := recvFrame_of_frame header sized whole verified
      rw [recv_of_other]
      · rw [received]
        exact inductionHypothesis cutThere misleads
      · rw [received]
        exact Int.natCast_pos.mpr sized
      · rw [received]
        exact fun same => other (Option.some.inj same)
      · rw [received]
        exact fun _ => Option.some_ne_none _

theorem receivesSoundly_iff (commandSequence : UInt16) (stream : List UInt8) :
    ReceivesSoundly commandSequence stream ↔ ¬ CutInReply commandSequence stream := by
  constructor
  · rintro ⟨r, received, sound⟩ cut
    obtain ⟨positive, short⟩ := recv_of_cutInReply cut r received
    obtain ⟨_, frame, payload, _, complete, value, stored⟩ := sound positive
    have tooShort := short _ stored
    have length := isFrame_length complete
    simp only [List.length_append, List.length_drop] at tooShort
    omega
  · exact recv_of_whole

/-- A frame is returned as it was sent, and a payload is handed out from such a
frame, exactly when the stream is not cut behind a size. -/
theorem receiver_sound_iff (stream : List UInt8) :
    ((recvFrame stream).Sound stream ↔ ¬ CutShort stream) ∧
      ∀ commandSequence,
        ReceivesSoundly commandSequence stream ↔ ¬ CutInReply commandSequence stream :=
  ⟨sound_recvFrame_iff stream, fun commandSequence => receivesSoundly_iff commandSequence stream⟩

/-- A stream that breaks off behind the size of a reply: a message of five
bytes is reported, and there is none.  Where it breaks off in the payload, the
five bytes are handed out. -/
theorem recvFrame_cut :
    ¬ (recvFrame [0x1b, 0, 0, 5, 0, 0, 0]).Sound [0x1b, 0, 0, 5, 0, 0, 0] ∧
      ¬ ReceivesSoundly 0 [0x1b, 0, 0, 5, 0, 0, 0, 0x0e, 0x11, 0x22] := by
  have cut : CutShort [0x1b, 0, 0, 5, 0, 0, 0] := by decide
  have cutInPayload : CutShort [0x1b, 0, 0, 5, 0, 0, 0, 0x0e, 0x11, 0x22] := by decide
  constructor
  · exact fun sound => (sound_recvFrame_iff _).mp sound cut
  · exact fun sound => (receivesSoundly_iff 0 _).mp sound
      ⟨_, .here _, cutInPayload, by decide⟩

end Avarice.Mk2

import Avarice.Mk2.Frame

/-!
# What a stream of frames holds

A stream is noise and skipped headers, then a header that is accepted and what
follows it.  The byte machine of `recvFrame` is shown to read it so.
-/

namespace Avarice.Mk2

/-- The eight bytes in front of a payload. -/
def frameHeader (seqno : UInt16) (msglen : UInt32) : List UInt8 :=
  messageStart :: (u16ToB2 seqno ++ u32ToB4 msglen ++ [token])

@[simp]
theorem frameHeader_length (seqno : UInt16) (msglen : UInt32) :
    (frameHeader seqno msglen).length = 8 := rfl

/-- A frame is its header, the command and the CRC of both. -/
theorem sendFrame_eq (seqno : UInt16) (command : List UInt8) :
    sendFrame seqno command =
      crcappend (frameHeader seqno command.length.toUInt32 ++ command)
        (frameHeader seqno command.length.toUInt32 ++ command).length := by
  have size : (frameHeader seqno command.length.toUInt32 ++ command).length =
      command.length + 8 := by
    rw [List.length_append, frameHeader_length, Nat.add_comm]
  rw [size]
  rfl

/-- The front of a stream: either no header is accepted, and the numbers are
those of the last bytes that stood in their places, or one is. -/
inductive Front where
  | starved (seqno : UInt16) (msglen : UInt32)
  | header (seqno : UInt16) (msglen : UInt32) (body : List UInt8)
  deriving DecidableEq, Repr

def unfinishedSeqno (seqno : UInt16) : List UInt8 → UInt16
  | [] => seqno
  | [q0] => q0.toUInt16
  | q0 :: q1 :: _ => b2ToU16 q0 q1

def unfinishedMsglen (msglen : UInt32) (bytes : List UInt8) : UInt32 :=
  (bytes.drop 2).foldl shiftMsglen msglen

def front (seqno : UInt16) (msglen : UInt32) : List UInt8 → Front
  | [] => .starved seqno msglen
  | c :: rest =>
      if c = messageStart then
        match rest with
        | q0 :: q1 :: s0 :: s1 :: s2 :: s3 :: t :: body =>
            if t = token ∧ b4ToU32 s0 s1 s2 s3 ≤ maxMessage then
              .header (b2ToU16 q0 q1) (b4ToU32 s0 s1 s2 s3) body
            else front (b2ToU16 q0 q1) (b4ToU32 s0 s1 s2 s3) body
        | unfinished =>
            .starved (unfinishedSeqno seqno unfinished) (unfinishedMsglen msglen unfinished)
      else front seqno msglen rest

def Front.receive : Front → Received
  | .starved seqno msglen => ⟨msglen.toBitVec.toInt, none, some seqno, []⟩
  | .header seqno msglen body =>
      let n := msglen.toNat
      if n = 0 then ⟨0, some (frameHeader seqno msglen), some seqno, body⟩
      else if body.length < n + 2 then
        ⟨n, some (frameHeader seqno msglen ++ body), some seqno, []⟩
      else
        let message := frameHeader seqno msglen ++ body.take (n + 2)
        if crcverify message (n + 10) then
          ⟨n, some message, some seqno, body.drop (n + 2)⟩
        else checksumError (body.drop (n + 2))

/-! ## Numbers -/

theorem toNat_shiftMsglen (msglen : UInt32) (c : UInt8) :
    (shiftMsglen msglen c).toNat = msglen.toNat / 2 ^ 8 + c.toNat * 2 ^ 24 := by
  have bound := c.toNat_lt
  have width := msglen.toNat_lt
  have shifted : (c.toUInt32 <<< 24).toNat = 2 ^ 24 * c.toNat := by
    rw [UInt32.toNat_shiftLeft, UInt8.toNat_toUInt32, Nat.shiftLeft_eq]
    show c.toNat * 2 ^ 24 % 2 ^ 32 = _
    omega
  have old : (msglen >>> 8).toNat = msglen.toNat / 2 ^ 8 := by
    rw [UInt32.toNat_shiftRight, Nat.shiftRight_eq_div_pow]
    rfl
  rw [shiftMsglen, UInt32.toNat_or, shifted, old, Nat.or_comm,
    ← Nat.two_pow_add_eq_or_of_lt (by omega)]
  omega

theorem shiftMsglen_four (msglen : UInt32) (s0 s1 s2 s3 : UInt8) :
    shiftMsglen (shiftMsglen (shiftMsglen (shiftMsglen msglen s0) s1) s2) s3 =
      b4ToU32 s0 s1 s2 s3 := by
  have width := msglen.toNat_lt
  have first := s0.toNat_lt
  have second := s1.toNat_lt
  have third := s2.toNat_lt
  rw [← UInt32.toNat_inj]
  simp only [toNat_shiftMsglen, toNat_b4ToU32]
  omega

theorem seqno_eq (q0 q1 : UInt8) : q0.toUInt16 ||| q1.toUInt16 <<< 8 = b2ToU16 q0 q1 := by
  have low := q0.toNat_lt
  have high := q1.toNat_lt
  have shifted : (q1.toUInt16 <<< 8).toNat = 2 ^ 8 * q1.toNat := by
    rw [UInt16.toNat_shiftLeft, UInt8.toNat_toUInt16, Nat.shiftLeft_eq]
    show q1.toNat * 2 ^ 8 % 2 ^ 16 = _
    omega
  have combined : 2 ^ 8 * q1.toNat + q0.toNat = 2 ^ 8 * q1.toNat ||| q0.toNat :=
    Nat.two_pow_add_eq_or_of_lt low q1.toNat
  rw [← UInt16.toNat_inj, UInt16.toNat_or, shifted, UInt8.toNat_toUInt16, toNat_b2ToU16,
    Nat.or_comm, ← combined, Nat.add_comm, Nat.mul_comm]

/-! ## The machine, part by part -/

@[simp]
theorem loop_nil (r : Receiver) : r.loop [] = r.leave [] := by
  rw [Receiver.loop]
  simp [timeoutRead]

theorem loop_cons {r : Receiver} (c : UInt8) (rest : List UInt8)
    (reads : r.state ≠ .done ∧ r.state ≠ .data) :
    r.loop (c :: rest) =
      match r.accept c with
      | none => checksumError rest
      | some r => r.loop rest := by
  refine (Receiver.loop.eq_def r (c :: rest)).trans ?_
  exact (if_neg reads.1).trans (if_neg reads.2)

theorem loop_done {r : Receiver} (done : r.state = .done) (stream : List UInt8) :
    r.loop stream = r.leave stream := by
  rw [Receiver.loop.eq_def, if_pos done]

def betweenHeaders (seqno : UInt16) (msglen : UInt32) : Receiver :=
  { seqno, msglen }

def behindHeader (seqno : UInt16) (msglen : UInt32) : Receiver where
  state := .data
  seqno := seqno
  msglen := msglen
  header := frameHeader seqno msglen
  buf := some (frameHeader seqno msglen)

theorem loop_noise {c : UInt8} (noise : c ≠ messageStart) (seqno : UInt16) (msglen : UInt32)
    (rest : List UInt8) :
    (betweenHeaders seqno msglen).loop (c :: rest) = (betweenHeaders seqno msglen).loop rest := by
  simp [betweenHeaders, loop_cons, Receiver.accept, State.isHeader, noise]

theorem loop_unfinished (seqno : UInt16) (msglen : UInt32) {unfinished : List UInt8}
    (short : unfinished.length < 7) :
    (betweenHeaders seqno msglen).loop (messageStart :: unfinished) =
      { value := (unfinishedMsglen msglen unfinished).toBitVec.toInt
        msg := none
        seqno := some (unfinishedSeqno seqno unfinished)
        rest := [] } := by
  match unfinished, short with
  | [], _ | [_], _ | [_, _], _ | [_, _, _], _ | [_, _, _, _], _ | [_, _, _, _, _], _
  | [_, _, _, _, _, _], _ =>
      simp [betweenHeaders, loop_cons, Receiver.accept, State.isHeader, Receiver.leave,
        unfinishedMsglen, unfinishedSeqno, seqno_eq]

theorem loop_header (seqno : UInt16) (msglen : UInt32) (q0 q1 s0 s1 s2 s3 t : UInt8)
    (body : List UInt8) :
    (betweenHeaders seqno msglen).loop
        (messageStart :: q0 :: q1 :: s0 :: s1 :: s2 :: s3 :: t :: body) =
      if t = token ∧ b4ToU32 s0 s1 s2 s3 ≤ maxMessage then
        (behindHeader (b2ToU16 q0 q1) (b4ToU32 s0 s1 s2 s3)).loop body
      else (betweenHeaders (b2ToU16 q0 q1) (b4ToU32 s0 s1 s2 s3)).loop body := by
  simp only [betweenHeaders, loop_cons, Receiver.accept, State.isHeader, ne_eq, reduceCtorEq,
    not_false_eq_true, and_self, if_true, seqno_eq, shiftMsglen_four, List.nil_append,
    List.cons_append]
  by_cases tokenSent : t = token
  · subst tokenSent
    by_cases large : b4ToU32 s0 s1 s2 s3 > maxMessage
    · have notSmall : ¬ b4ToU32 s0 s1 s2 s3 ≤ maxMessage := UInt32.not_le.mpr large
      simp [large, notSmall]
    · have small : b4ToU32 s0 s1 s2 s3 ≤ maxMessage := UInt32.not_lt.mp large
      simp [large, small, behindHeader, frameHeader, u16ToB2_b2ToU16, u32ToB4_b4ToU32]
  · simp [tokenSent]

@[simp]
theorem store_length (buf bytes : List UInt8) : store buf buf.length bytes = buf ++ bytes := by
  simp [store]

theorem toInt_of_le_maxMessage {msglen : UInt32} (small : msglen ≤ maxMessage) :
    msglen.toBitVec.toInt = msglen.toNat := by
  have bound : msglen.toNat ≤ 100000 := UInt32.le_iff_toNat_le.mp small
  rw [BitVec.toInt_eq_toNat_cond, if_pos]
  · rfl
  · show 2 * msglen.toNat < 2 ^ 32
    omega

section Body

variable {seqno : UInt16} {msglen : UInt32} (small : msglen ≤ maxMessage)

def afterPayload (seqno : UInt16) (msglen : UInt32) (payload : List UInt8) : Receiver :=
  { behindHeader seqno msglen with
    buf := some (frameHeader seqno msglen ++ payload)
    l := msglen.toNat + 8
    state := .csum1 }

theorem loop_behindHeader (body : List UInt8) :
    (behindHeader seqno msglen).loop body =
      if (body.take msglen.toNat).length = 0 then
        (behindHeader seqno msglen).leave (body.drop msglen.toNat)
      else
        (afterPayload seqno msglen (body.take msglen.toNat)).loop (body.drop msglen.toNat) := by
  rw [Receiver.loop.eq_def]
  have stored := store_length (frameHeader seqno msglen) (body.take msglen.toNat)
  rw [frameHeader_length] at stored
  simp only [behindHeader, timeoutRead, afterPayload, reduceCtorEq, if_false, if_true,
    Option.map_some, stored]
  rfl

include small in
theorem loop_afterPayload (payload rest : List UInt8) (complete : payload.length = msglen.toNat) :
    (afterPayload seqno msglen payload).loop rest =
      match rest with
      | [] | [_] =>
          ⟨msglen.toNat, some (frameHeader seqno msglen ++ payload ++ rest), some seqno, []⟩
      | c0 :: c1 :: rest =>
          if crcverify (frameHeader seqno msglen ++ payload ++ [c0, c1]) (msglen.toNat + 10) then
            ⟨msglen.toNat, some (frameHeader seqno msglen ++ payload ++ [c0, c1]), some seqno, rest⟩
          else checksumError rest := by
  have first (c0 : UInt8) :
      store (frameHeader seqno msglen ++ payload) (msglen.toNat + 8) [c0] =
        frameHeader seqno msglen ++ (payload ++ [c0]) := by
    have stored := store_length (frameHeader seqno msglen ++ payload) [c0]
    rwa [List.length_append, frameHeader_length, complete, Nat.add_comm,
      List.append_assoc] at stored
  have second (c0 c1 : UInt8) :
      store (frameHeader seqno msglen ++ (payload ++ [c0])) (msglen.toNat + 8 + 1) [c1] =
        frameHeader seqno msglen ++ (payload ++ [c0, c1]) := by
    have stored := store_length (frameHeader seqno msglen ++ (payload ++ [c0])) [c1]
    rwa [List.length_append, frameHeader_length, List.length_append, complete,
      List.length_singleton, ← Nat.add_assoc, Nat.add_comm 8, List.append_assoc,
      List.append_assoc] at stored
  have value := toInt_of_le_maxMessage small
  match rest with
  | [] => simp [afterPayload, behindHeader, Receiver.leave, value]
  | [c0] =>
      simp [afterPayload, behindHeader, Receiver.leave, value, loop_cons, Receiver.accept,
        State.isHeader, first]
  | c0 :: c1 :: rest =>
      by_cases verified : crcverify (frameHeader seqno msglen ++ (payload ++ [c0, c1]))
          (msglen.toNat + 10) = true
      · simp [afterPayload, behindHeader, loop_cons, loop_done, Receiver.leave, Receiver.accept,
          State.isHeader, first, second, verified, value]
      · simp [afterPayload, behindHeader, loop_cons, Receiver.accept, State.isHeader, first, second,
          verified]

include small in
theorem loop_body (body : List UInt8) :
    (behindHeader seqno msglen).loop body = (Front.header seqno msglen body).receive := by
  have value := toInt_of_le_maxMessage small
  rw [loop_behindHeader, Front.receive]
  by_cases empty : msglen.toNat = 0
  · rw [if_pos (by rw [empty]; rfl), if_pos empty, empty]
    simp [behindHeader, Receiver.leave, value, empty]
  simp only [if_neg empty]
  rcases Nat.lt_or_ge body.length msglen.toNat with cut | complete
  · rw [List.take_of_length_le (Nat.le_of_lt cut), List.drop_of_length_le (Nat.le_of_lt cut),
      loop_nil, if_pos (show body.length < msglen.toNat + 2 by omega)]
    cases body with
    | nil => simp [behindHeader, Receiver.leave, value]
    | cons b body => simp [afterPayload, behindHeader, Receiver.leave, value]
  · obtain ⟨payload, rest, rfl, length⟩ :
        ∃ payload rest, body = payload ++ rest ∧ payload.length = msglen.toNat :=
      ⟨body.take msglen.toNat, body.drop msglen.toNat, (List.take_append_drop _ _).symm,
        List.length_take_of_le complete⟩
    rw [List.take_left' length, List.drop_left' length, length, if_neg empty,
      loop_afterPayload small payload rest length]
    match rest with
    | [] => simp [length]
    | [c0] => simp [length]
    | c0 :: c1 :: rest =>
        have notCut : ¬ (payload ++ c0 :: c1 :: rest).length < msglen.toNat + 2 := by
          simp [length]
        have message : (payload ++ c0 :: c1 :: rest).take (msglen.toNat + 2) =
            payload ++ [c0, c1] := by
          rw [List.take_append, List.take_of_length_le (by omega), length]
          simp
        have behind : (payload ++ c0 :: c1 :: rest).drop (msglen.toNat + 2) = rest := by
          rw [List.drop_append, List.drop_of_length_le (by omega), length]
          simp
        simp only [if_neg notCut, message, behind, List.append_assoc]

end Body

theorem loop_betweenHeaders (seqno : UInt16) (msglen : UInt32) (stream : List UInt8) :
    (betweenHeaders seqno msglen).loop stream = (front seqno msglen stream).receive := by
  fun_induction front seqno msglen stream with
  | case1 => rw [loop_nil]; rfl
  | case2 seqno msglen q0 q1 s0 s1 s2 s3 t body found =>
      rw [loop_header, if_pos found]
      exact loop_body found.2 body
  | case3 seqno msglen q0 q1 s0 s1 s2 s3 t body skipped inductionHypothesis =>
      rw [loop_header, if_neg skipped]
      exact inductionHypothesis
  | case4 seqno msglen unfinished short =>
      have few : unfinished.length < 7 := by
        match unfinished, short with
        | [], _ | [_], _ | [_, _], _ | [_, _, _], _ | [_, _, _, _], _ | [_, _, _, _, _], _
        | [_, _, _, _, _, _], _ => simp
        | q0 :: q1 :: s0 :: s1 :: s2 :: s3 :: t :: body, short =>
            exact (short q0 q1 s0 s1 s2 s3 t body rfl).elim
      exact loop_unfinished seqno msglen few
  | case5 seqno msglen c rest noise inductionHypothesis =>
      rw [loop_noise noise]
      exact inductionHypothesis

theorem recvFrame_eq (stream : List UInt8) : recvFrame stream = (front 0 0 stream).receive :=
  loop_betweenHeaders 0 0 stream

theorem front_header {seqno q : UInt16} {msglen n : UInt32} {stream body : List UInt8}
    (found : front seqno msglen stream = .header q n body) :
    n ≤ maxMessage ∧ ∃ skipped, stream = skipped ++ (frameHeader q n ++ body) := by
  fun_induction front seqno msglen stream with
  | case1 => cases found
  | case2 seqno msglen q0 q1 s0 s1 s2 s3 t body' taken =>
      obtain ⟨rfl, rfl, rfl⟩ := Front.header.inj found
      refine ⟨taken.2, [], ?_⟩
      rw [frameHeader, u16ToB2_b2ToU16, u32ToB4_b4ToU32, taken.1]
      rfl
  | case3 seqno msglen q0 q1 s0 s1 s2 s3 t body' skipped inductionHypothesis =>
      obtain ⟨small, before, rfl⟩ := inductionHypothesis found
      exact ⟨small, messageStart :: q0 :: q1 :: s0 :: s1 :: s2 :: s3 :: t :: before, rfl⟩
  | case4 => cases found
  | case5 seqno msglen c rest noise inductionHypothesis =>
      obtain ⟨small, before, rfl⟩ := inductionHypothesis found
      exact ⟨small, c :: before, rfl⟩

end Avarice.Mk2

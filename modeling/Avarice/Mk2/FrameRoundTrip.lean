import Avarice.Mk2.FrameGrammar

/-!
# The round trip of a frame

A frame that `sendFrame` writes is what `recvFrame` reads, whatever bytes the
payload has and whatever follows the frame.
-/

namespace Avarice.Mk2

theorem front_of_noise {noise : List UInt8} (absent : messageStart ∉ noise) (seqno : UInt16)
    (msglen : UInt32) (stream : List UInt8) :
    front seqno msglen (noise ++ stream) = front seqno msglen stream := by
  induction noise with
  | nil => rfl
  | cons c rest inductionHypothesis =>
      have notStart : c ≠ messageStart := fun same => absent (same ▸ List.mem_cons_self)
      rw [List.cons_append, front.eq_def]
      simp only [if_neg notStart]
      exact inductionHypothesis (List.not_mem_of_not_mem_cons absent)

theorem front_of_frameHeader {q : UInt16} {n : UInt32} (small : n ≤ maxMessage) (seqno : UInt16)
    (msglen : UInt32) (body : List UInt8) :
    front seqno msglen (frameHeader q n ++ body) = .header q n body := by
  have seqnoBack := b2ToU16_u16ToB2 q
  have msglenBack := b4ToU32_u32ToB4 n
  show front seqno msglen (messageStart :: _ :: _ :: _ :: _ :: _ :: _ :: token :: body) = _
  rw [front, if_pos rfl, seqnoBack, msglenBack]
  exact if_pos ⟨rfl, small⟩

/-- Noise without a start byte is skipped, and a frame behind it is taken whole. -/
theorem recvFrame_behind_noise (commandSequence : UInt16) {command noise : List UInt8}
    (rest : List UInt8) (nonempty : command ≠ []) (small : command.length ≤ maxMessage.toNat)
    (absent : messageStart ∉ noise) :
    recvFrame (noise ++ sendFrame commandSequence command ++ rest) =
      { value := command.length
        msg := some (sendFrame commandSequence command)
        seqno := some commandSequence
        rest := rest } := by
  have bound : command.length ≤ 100000 := small
  have size : command.length.toUInt32.toNat = command.length :=
    UInt32.toNat_ofNat_of_lt' (Nat.lt_of_le_of_lt bound (by decide))
  have fits : command.length.toUInt32 ≤ maxMessage := by
    rw [UInt32.le_iff_toNat_le, size]
    exact small
  have verified := crcverify_crcappend
    (frameHeader commandSequence command.length.toUInt32 ++ command)
  rw [sendFrame_eq]
  rw [crcappend, List.take_length] at verified ⊢
  generalize (crcsum _ _ crcInit &&& 0xff).toUInt8 = c0 at verified ⊢
  generalize ((crcsum _ _ crcInit >>> 8) &&& 0xff).toUInt8 = c1 at verified ⊢
  have positive : command.length ≠ 0 := fun none => nonempty (List.length_eq_zero_iff.mp none)
  rw [recvFrame_eq, List.append_assoc, front_of_noise absent, List.append_assoc,
    List.append_assoc, front_of_frameHeader fits, Front.receive, size]
  have notCut : ¬ (command ++ ([c0, c1] ++ rest)).length < command.length + 2 := by
    simp
  have body : (command ++ ([c0, c1] ++ rest)).take (command.length + 2) = command ++ [c0, c1] := by
    rw [← List.append_assoc, List.take_left' (by simp)]
  have behind : (command ++ ([c0, c1] ++ rest)).drop (command.length + 2) = rest := by
    rw [← List.append_assoc, List.drop_left' (by simp)]
  have total : (frameHeader commandSequence command.length.toUInt32 ++ command).length + 2 =
      command.length + 10 := by
    rw [List.length_append, frameHeader_length]
    omega
  rw [total, List.append_assoc] at verified
  simp only [if_neg positive, if_neg notCut, body, behind, verified, if_true, List.append_assoc]

theorem payload_of_sendFrame (commandSequence : UInt16) (command : List UInt8) :
    ((sendFrame commandSequence command).drop 8).take command.length = command := by
  rw [sendFrame_eq, crcappend, List.take_length, List.append_assoc,
    List.drop_left' (frameHeader_length _ _), List.take_left' rfl]

/-- Behind noise without a start byte, a frame is received as it has been sent. -/
theorem recvFrame_sendFrame (commandSequence : UInt16) (command noise rest : List UInt8)
    (nonempty : command ≠ []) (small : command.length ≤ maxMessage.toNat)
    (absent : messageStart ∉ noise) :
    recvFrame (noise ++ sendFrame commandSequence command ++ rest) =
      { value := command.length
        msg := some (sendFrame commandSequence command)
        seqno := some commandSequence
        rest := rest } ∧
    ((sendFrame commandSequence command).drop 8).take command.length = command :=
  ⟨recvFrame_behind_noise commandSequence rest nonempty small absent,
    payload_of_sendFrame commandSequence command⟩

/-- A payload with start and token bytes, behind noise and in front of another
start byte. -/
theorem recvFrame_sendFrame_markers :
    recvFrame ([0x00, 0x0e] ++ sendFrame 0x1b0e [0x1b, 0x0e] ++ [0x1b]) =
      { value := 2, msg := some (sendFrame 0x1b0e [0x1b, 0x0e]), seqno := some 0x1b0e,
        rest := [0x1b] } :=
  (recvFrame_sendFrame 0x1b0e [0x1b, 0x0e] [0x00, 0x0e] [0x1b] (by decide) (by decide)
    (by decide)).1

end Avarice.Mk2

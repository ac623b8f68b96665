import Mathlib.Data.UInt
import Avarice.Gdb.Hex

/-!
# Writing packets

`putpacket` of `remote.cc`, which sends a packet until it is acknowledged.  Each
character that is read instead has the packet sent again.  What is for the console
of GDB is sent in packets of its own.
-/

namespace Avarice.Gdb

abbrev bufMax : Nat := 400

abbrev dollar : UInt8 := 0x24
abbrev hash : UInt8 := 0x23
abbrev plus : UInt8 := 0x2b
abbrev minus : UInt8 := 0x2d
abbrev colon : UInt8 := 0x3a

/-- The characters of a packet as bytes, and back. -/
def toBytes (text : List Char) : List UInt8 := text.map Char.toUInt8

def ofBytes (text : List UInt8) : List Char := text.map Char.ofUInt8

/-- A console packet, of which `textbuf` holds the first 399 characters. -/
def gdbOut (text : List Char) : List Char :=
  'O' :: mem2hex ((text.take (bufMax - 1)).map Char.toUInt8)

/-- Take characters up to one that is waited for. -/
def skipPast (wanted : UInt8) : List UInt8 → Option (List UInt8)
  | [] => none
  | ch :: rest => if ch = wanted then some rest else skipPast wanted rest

def digit (n : UInt8) : UInt8 := Char.toUInt8 (hexchars.getD n.toNat '0')

/-- A packet with its start character and the digits of its checksum. -/
def frame (text : List UInt8) : List UInt8 :=
  dollar :: (text ++ hash :: [digit (text.sum >>> 4), digit (text.sum % 16)])

def putpacket (text : List UInt8) : (input : List UInt8) → List UInt8 × Option (List UInt8)
  | [] => (frame text, none)
  | ch :: rest =>
      if ch = plus then (frame text, some rest)
      else
        let (sent, left) := putpacket text rest
        (frame text ++ sent, left)

def putpackets : (packets : List (List UInt8)) → (input : List UInt8) →
    List UInt8 × Option (List UInt8)
  | [], input => ([], some input)
  | text :: packets, input =>
      match putpacket text input with
      | (sent, none) => (sent, none)
      | (sent, some rest) =>
          let (later, left) := putpackets packets rest
          (sent ++ later, left)

/-! ## Acknowledgements -/

/-- What is read for some packets: an acknowledgement for each, with other
characters in front of it. -/
def acknowledged (refused : Nat → List UInt8) : (packets : List (List UInt8)) → List UInt8
  | [] => []
  | _ :: packets => refused 0 ++ plus :: acknowledged (fun k => refused (k + 1)) packets

def copies (refused : Nat → List UInt8) : (packets : List (List UInt8)) → List UInt8
  | [] => []
  | text :: packets =>
      (List.replicate ((refused 0).length + 1) (frame text)).flatten ++
        copies (fun k => refused (k + 1)) packets

theorem putpacket_refused {refused : List UInt8} (absent : plus ∉ refused)
    (text rest : List UInt8) :
    putpacket text (refused ++ plus :: rest) =
      ((List.replicate (refused.length + 1) (frame text)).flatten, some rest) := by
  induction refused with
  | nil => simp [putpacket]
  | cons ch refused inductionHypothesis =>
      have other : ch ≠ plus := Ne.symm (List.ne_of_not_mem_cons absent)
      rw [List.cons_append, putpacket, if_neg other,
        inductionHypothesis (List.not_mem_of_not_mem_cons absent)]
      rfl

/-- Every packet is sent once more than it is refused. -/
theorem putpackets_acknowledged {refused : Nat → List UInt8} (absent : ∀ k, plus ∉ refused k)
    (packets : List (List UInt8)) (rest : List UInt8) :
    putpackets packets (acknowledged refused packets ++ rest) =
      (copies refused packets, some rest) := by
  induction packets generalizing refused with
  | nil => rfl
  | cons text packets inductionHypothesis =>
      have first := putpacket_refused (absent 0) text
        (acknowledged (fun k => refused (k + 1)) packets ++ rest)
      have later := inductionHypothesis fun k => absent (k + 1)
      simp only [acknowledged, List.append_assoc, List.cons_append, putpackets, first, later]
      rfl

/-! ## What is left of the input -/

theorem putpacket_left (text input : List UInt8) :
    (putpacket text input).2 = skipPast plus input := by
  induction input with
  | nil => rfl
  | cons ch rest inductionHypothesis =>
      rw [putpacket, skipPast]
      split
      · rfl
      · exact inductionHypothesis

theorem putpackets_left {packets others : List (List UInt8)} (same : packets.length = others.length)
    (input : List UInt8) : (putpackets packets input).2 = (putpackets others input).2 := by
  induction packets generalizing others input with
  | nil =>
      obtain rfl := List.length_eq_zero_iff.mp same.symm
      rfl
  | cons text packets inductionHypothesis =>
      obtain ⟨other, others, rfl⟩ := List.exists_cons_of_length_eq_add_one same.symm
      have left := (putpacket_left text input).trans (putpacket_left other input).symm
      rw [putpackets, putpackets]
      rcases first : putpacket text input with ⟨sent, rest⟩
      rcases second : putpacket other input with ⟨sent', rest'⟩
      rw [first, second] at left
      obtain rfl : rest = rest' := left
      cases rest with
      | none => rfl
      | some rest => exact inductionHypothesis (Nat.succ.inj same) rest

end Avarice.Gdb

import Mathlib.Data.List.Basic

/-!
# Hexadecimal text

The conversions of `utils.cc` between the text of a packet and numbers or
memory.  Text ends at its first character that is no digit, or with a null
character behind the list.
-/

namespace Avarice.Gdb

def hexchars : List Char := "0123456789abcdef".toList

def byteToHex (x : UInt8) : List Char :=
  [hexchars.getD (x >>> 4).toNat '0', hexchars.getD (x &&& 0xf).toNat '0']

/-- The value of a digit; nothing stands for -1. -/
def hex (ch : Char) : Option UInt8 :=
  if 'a' ≤ ch ∧ ch ≤ 'f' then some (UInt8.ofNat (ch.toNat - 'a'.toNat + 10))
  else if '0' ≤ ch ∧ ch ≤ '9' then some (UInt8.ofNat (ch.toNat - '0'.toNat))
  else if 'A' ≤ ch ∧ ch ≤ 'F' then some (UInt8.ofNat (ch.toNat - 'A'.toNat + 10))
  else none

/-- The number of digits, the value of an `int`, and the text behind them. -/
def hexToInt (text : List Char) : Nat × UInt32 × List Char :=
  let digits := text.takeWhile fun ch => (hex ch).isSome
  (digits.length,
    digits.foldl (fun intValue ch => intValue <<< 4 ||| ((hex ch).getD 0).toUInt32) 0,
    text.dropWhile fun ch => (hex ch).isSome)

def mem2hex (mem : List UInt8) : List Char :=
  mem.flatMap byteToHex

/-- A byte from two characters, in the arithmetic of `unsigned char`. -/
def hexPair (high low : Char) : UInt8 :=
  (hex high).getD 0xff <<< 4 + (hex low).getD 0xff

/-- The bytes that `hex2mem` stores, from as many pairs of characters.  Behind
the text it reads null characters. -/
def hex2mem (buf : List Char) : (count : Nat) → List UInt8
  | 0 => []
  | count + 1 =>
      hexPair (buf.getD 0 '\x00') (buf.getD 1 '\x00') :: hex2mem (buf.drop 2) count

@[simp]
theorem hex2mem_length (buf : List Char) (count : Nat) : (hex2mem buf count).length = count := by
  induction count generalizing buf with
  | zero => rfl
  | succ count inductionHypothesis => simp [hex2mem, inductionHypothesis]

theorem hexPair_byteToHex (x : UInt8) :
    byteToHex x = [hexchars.getD (x >>> 4).toNat '0', hexchars.getD (x &&& 0xf).toNat '0'] ∧
      hexPair (hexchars.getD (x >>> 4).toNat '0') (hexchars.getD (x &&& 0xf).toNat '0') = x := by
  refine ⟨rfl, ?_⟩
  have digit : ∀ n < 16, hex (hexchars.getD n '0') = some (UInt8.ofNat n) := by decide
  have width := x.toNat_lt
  have high : (x >>> 4).toNat < 16 := by
    rw [UInt8.toNat_shiftRight, Nat.shiftRight_eq_div_pow]
    show x.toNat / 2 ^ 4 < 16
    omega
  have low : (x &&& 0xf).toNat < 16 := by
    rw [UInt8.toNat_and]
    exact Nat.lt_of_le_of_lt Nat.and_le_right (by decide)
  rw [hexPair, digit _ high, digit _ low, Option.getD_some, Option.getD_some,
    UInt8.ofNat_toNat, UInt8.ofNat_toNat]
  have joined : ∀ n < 256,
      (UInt8.ofNat n >>> 4) <<< 4 + (UInt8.ofNat n &&& 0xf) = UInt8.ofNat n := by
    decide +kernel
  have := joined x.toNat width
  rwa [UInt8.ofNat_toNat] at this

theorem hex2mem_mem2hex (mem : List UInt8) (behind : List Char) :
    hex2mem (mem2hex mem ++ behind) mem.length = mem := by
  induction mem with
  | nil => rfl
  | cons x rest inductionHypothesis =>
      have pair := (hexPair_byteToHex x).2
      rw [List.length_cons, hex2mem]
      show hexPair _ _ :: hex2mem (mem2hex rest ++ behind) rest.length = _
      rw [inductionHypothesis]
      exact congrArg (· :: rest) pair

end Avarice.Gdb

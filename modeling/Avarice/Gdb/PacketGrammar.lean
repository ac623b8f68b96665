import Avarice.Gdb.PacketReader
import Mathlib.Data.List.TakeWhile

/-!
# The grammar of packets

What `getpacket` is to accept: a start character, up to 398 characters that are
neither a start character nor a `#`, the `#` and two digits of the sum of the
characters.  A packet may begin with a sequence number, two characters and a
colon, which is not part of what it says.
-/

namespace Avarice.Gdb

def hexValue (ch : UInt8) : Option UInt8 :=
  hex (Char.ofUInt8 ch)

structure IsPacket (p : List UInt8) (high low : UInt8) : Prop where
  short : p.length ≤ 398
  noStart : dollar ∉ p
  noHash : hash ∉ p
  sum : ∃ x y, hexValue high = some x ∧ hexValue low = some y ∧
    x.toNat * 16 + y.toNat = (p.map UInt8.toNat).sum % 256

/-- What a packet says, without its sequence number. -/
def packetText (p : List UInt8) : List UInt8 :=
  if p[2]? = some colon then p.drop 3 else p

/-- What has been read when a packet is returned, from some start character on. -/
def framed (before p : List UInt8) (high low : UInt8) (rest : List UInt8) : List UInt8 :=
  before ++ dollar :: (p ++ hash :: high :: low :: rest)

/-- The reader returns exactly what the grammar says, with one acknowledgement. -/
structure ReadsGrammar (stack : Nat → Nat → UInt8) (buffer : CArray UInt8 bufMax)
    (input : List UInt8) : Prop where
  sound : ∀ r, getpacket stack buffer input = some r → ∃ before p high low,
    input = framed before p high low r.rest ∧ IsPacket p high low ∧ r.text = packetText p
  complete : ∀ before p high low rest, dollar ∉ before → input = framed before p high low rest →
    IsPacket p high low → ∃ sequence, (sequence = [] ∨ sequence.length = 2) ∧
      getpacket stack buffer input = some ⟨packetText p, plus :: sequence, rest⟩

/-! ## Storing characters -/

theorem foldl_store (r : Reading) (stored : List UInt8) :
    stored.foldl .store r =
      ⟨r.buffer.pokeAll r.count stored, r.checksum + stored.sum, r.count + stored.length⟩ := by
  induction stored generalizing r with
  | nil => simp [CArray.pokeAll]
  | cons ch rest inductionHypothesis =>
      simp only [List.foldl_cons, inductionHypothesis, Reading.store, CArray.pokeAll,
        List.sum_cons, List.length_cons, UInt8.add_assoc, Nat.add_assoc, Nat.add_comm 1]

theorem collect_packet {r : Reading} {stored : List UInt8} (room : r.count + stored.length ≤ 398)
    (noStart : dollar ∉ stored) (noHash : hash ∉ stored) (rest : List UInt8) :
    r.collect (stored ++ hash :: rest) = some (.complete, stored.foldl .store r, rest) := by
  induction stored generalizing r with
  | nil =>
      have small : r.count < bufMax - 1 := Nat.lt_succ_of_le room
      rw [List.nil_append, Reading.collect, if_pos small]
      rfl
  | cons ch tail inductionHypothesis =>
      rw [List.length_cons] at room
      have small : r.count < bufMax - 1 := by
        show r.count < 399
        omega
      have notStart : ch ≠ dollar := fun same => noStart (same ▸ List.mem_cons_self)
      have notHash : ch ≠ hash := fun same => noHash (same ▸ List.mem_cons_self)
      have next : (r.store ch).count + tail.length ≤ 398 := by
        show r.count + 1 + tail.length ≤ 398
        omega
      rw [List.cons_append, Reading.collect, if_pos small]
      simp only [if_neg notStart, if_neg notHash]
      exact inductionHypothesis next (fun member => noStart (List.mem_cons_of_mem _ member))
        fun member => noHash (List.mem_cons_of_mem _ member)

def filled (buffer : CArray UInt8 bufMax) (p : List UInt8) : CArray UInt8 bufMax :=
  (buffer.pokeAll 0 p).poke p.length 0

section Filled

variable {buffer : CArray UInt8 bufMax} {p : List UInt8} (short : p.length ≤ 398)
include short

theorem filled_peek (i : Nat) :
    (filled buffer p).peek i =
      if i = p.length then 0 else (p[i]?).getD (buffer.peek i) := by
  have inside : ∀ j < p.length, 0 + j < bufMax := by
    intro j within
    show 0 + j < 400
    omega
  have room : p.length < bufMax := by
    show p.length < 400
    omega
  rw [filled, CArray.peek_poke, CArray.peek_pokeAll _ _ inside, if_pos (Nat.zero_le i),
    Nat.sub_zero]
  by_cases here : i = p.length
  · rw [if_pos here, if_pos ⟨here.symm, room⟩]
  · rw [if_neg here, if_neg fun both => here both.1.symm]

theorem filled_toList :
    (filled buffer p).toList = p ++ 0 :: buffer.toList.drop (p.length + 1) := by
  apply List.ext_getElem
  · simp only [Vector.length_toList, List.length_append, List.length_cons, List.length_drop]
    show 400 = p.length + (400 - (p.length + 1) + 1)
    omega
  · intro i inside inside'
    rw [CArray.peek_eq_toList inside, filled_peek short]
    rcases Nat.lt_trichotomy i p.length with before | rfl | behind
    · rw [if_neg (Nat.ne_of_lt before), List.getElem?_eq_getElem before,
        List.getElem_append_left before]
      rfl
    · simp
    · obtain ⟨j, rfl⟩ := Nat.exists_eq_add_of_lt behind
      have notEnd : p.length + j + 1 ≠ p.length := by omega
      have beyond : p.length ≤ p.length + j + 1 := by omega
      rw [if_neg notEnd, List.getElem?_eq_none beyond, List.getElem_append_right beyond]
      have position : p.length + j + 1 - p.length = j + 1 := by omega
      simp only [position, List.getElem_cons_succ, List.getElem_drop, Option.getD_none]
      rw [CArray.peek_eq_toList]
      congr 1
      omega

theorem cString_filled {start : Nat} (inside : start ≤ p.length) :
    cString (filled buffer p) start = (p.drop start).takeWhile (· ≠ 0) := by
  rw [cString, filled_toList short, List.drop_append_of_le_length inside, List.takeWhile_append]
  split
  next whole =>
      rw [List.takeWhile_cons_of_neg (by simp), List.append_nil]
      exact ((List.takeWhile_prefix _).eq_of_length whole).symm
  next => rfl

end Filled

/-! ## The packet that is accepted -/

structure Accepted.Holds (packet : Accepted) (buffer : CArray UInt8 bufMax) (p : List UInt8) :
    Prop where
  short : p.length ≤ 398
  noStart : dollar ∉ p
  noHash : hash ∉ p
  sum : p.sum = checkValue packet.high packet.low
  buffer : packet.buffer = filled buffer p
  count : packet.count = p.length

theorem attempt_eq_accepted {stack : Nat → UInt8} {buffer : CArray UInt8 bufMax}
    {input : List UInt8} {packet : Accepted}
    (accepted : attempt stack buffer input = .accepted packet) :
    ∃ p, input = p ++ hash :: packet.high :: packet.low :: packet.rest ∧
      packet.Holds buffer p := by
  rw [attempt] at accepted
  cases collected : Reading.collect ⟨buffer, 0, 0⟩ input with
  | none =>
      rw [collected] at accepted
      cases accepted
  | some outcome =>
      obtain ⟨ended, r, behind⟩ := outcome
      obtain ⟨p, noStart, noHash, stored, splits, bound⟩ := collect_splits collected
      rw [collected] at accepted
      cases ended with
      | restarted => cases accepted
      | full =>
          simp only [] at accepted
          split at accepted <;> cases accepted
      | complete =>
          rcases behind with _ | ⟨high, _ | ⟨low, rest⟩⟩
          · cases accepted
          · cases accepted
          · simp only [] at accepted
            split at accepted
            next equal =>
              cases accepted
              have small := bound rfl
              rw [foldl_store] at stored
              subst stored
              simp only [Nat.zero_add] at small equal ⊢
              have sum : p.sum = checkValue high low := by rw [← equal, UInt8.zero_add]
              exact ⟨p, splits, Nat.le_of_lt_succ small, noStart, noHash, sum,
                by simp [Reading.terminate, filled], rfl⟩
            next =>
              split at accepted
              · cases accepted
              · split at accepted <;> cases accepted

theorem attempt_packet {stack : Nat → UInt8} {buffer : CArray UInt8 bufMax} {p : List UInt8}
    {high low : UInt8}
    (short : p.length ≤ 398) (noStart : dollar ∉ p) (noHash : hash ∉ p)
    (sum : p.sum = checkValue high low) (rest : List UInt8) :
    attempt stack buffer (p ++ hash :: high :: low :: rest) =
      .accepted ⟨filled buffer p, p.length, high, low, rest⟩ := by
  have collected := collect_packet (r := ⟨buffer, 0, 0⟩) (by simpa using short) noStart noHash
    (high :: low :: rest)
  rw [attempt, collected, foldl_store]
  simp [sum, Reading.terminate, filled]

theorem scanPacket_eq_some {stack : Nat → Nat → UInt8} {buffer : CArray UInt8 bufMax}
    {input sent : List UInt8} {packet : Accepted}
    (scanned : scanPacket stack buffer input = some (sent, packet)) :
    ∃ before p stale, dollar :: input = framed before p packet.high packet.low packet.rest ∧
      packet.Holds stale p := by
  induction stack, buffer, input using scanPacket.induct generalizing sent with
  | case1 stack buffer input blocked =>
      rw [scanPacket_blocked blocked] at scanned
      cases scanned
  | case2 stack buffer input next rest sent' again inductionHypothesis =>
      rw [scanPacket_again again, Option.map_eq_some_iff] at scanned
      obtain ⟨⟨later, packet'⟩, scanned', same⟩ := scanned
      cases same
      obtain ⟨skipped, rfl⟩ := attempt_eq_again again
      obtain ⟨before, p, stale, split, holds⟩ := inductionHypothesis scanned'
      refine ⟨dollar :: skipped ++ before, p, stale, ?_, holds⟩
      rw [framed, List.append_assoc, List.cons_append]
      exact congrArg (dollar :: skipped ++ ·) split
  | case3 stack buffer input packet' accepted =>
      rw [scanPacket_accepted accepted] at scanned
      cases scanned
      obtain ⟨p, rfl, holds⟩ := attempt_eq_accepted accepted
      exact ⟨[], p, buffer, rfl, holds⟩

/-! ## Digits -/

theorem toNat_ofNat_lt {n : Nat} (small : n < 16) : (UInt8.ofNat n).toNat < 16 := by
  rwa [UInt8.toNat_ofNat_of_lt' (Nat.lt_of_lt_of_le small (by decide))]

theorem hex_lt {ch : Char} {x : UInt8} (digit : hex ch = some x) : x.toNat < 16 := by
  rw [hex] at digit
  split at digit
  next range =>
      cases digit
      have bounds : 97 ≤ ch.toNat ∧ ch.toNat ≤ 102 := range
      have small : ch.toNat - 97 + 10 < 16 := by omega
      exact toNat_ofNat_lt small
  next =>
      split at digit
      next range =>
          cases digit
          have bounds : 48 ≤ ch.toNat ∧ ch.toNat ≤ 57 := range
          have small : ch.toNat - 48 < 16 := by omega
          exact toNat_ofNat_lt small
      next =>
          split at digit
          next range =>
              cases digit
              have bounds : 65 ≤ ch.toNat ∧ ch.toNat ≤ 70 := range
              have small : ch.toNat - 65 + 10 < 16 := by omega
              exact toNat_ofNat_lt small
          next => cases digit

theorem toNat_sum (p : List UInt8) : p.sum.toNat = (p.map UInt8.toNat).sum % 256 := by
  induction p with
  | nil => rfl
  | cons ch rest inductionHypothesis =>
      rw [List.sum_cons, UInt8.toNat_add, inductionHypothesis, List.map_cons, List.sum_cons]
      exact Nat.add_mod_mod _ _ _

/-- Between digits, the comparison of the checksums is what the grammar asks. -/
theorem sum_eq_checkValue_iff {p : List UInt8} {high low x y : UInt8}
    (highDigit : hexValue high = some x) (lowDigit : hexValue low = some y) :
    p.sum = checkValue high low ↔ x.toNat * 16 + y.toNat = (p.map UInt8.toNat).sum % 256 := by
  have small := hex_lt highDigit
  have small' := hex_lt lowDigit
  rw [hexValue] at highDigit lowDigit
  rw [checkValue, hexPair, highDigit, lowDigit, ← UInt8.toNat_inj, toNat_sum, UInt8.toNat_add,
    Option.getD_some, Option.getD_some, UInt8.toNat_shiftLeft, Nat.shiftLeft_eq]
  show _ = (x.toNat * 2 ^ 4 % 2 ^ 8 + y.toNat) % 2 ^ 8 ↔ _
  omega

/-! ## The string that is returned -/

def Accepted.characters (packet : Accepted) : List UInt8 :=
  packet.buffer.toList.take packet.count

/-- Nothing but the characters of the packet decides what is returned: the sum
is given by digits, a colon that an earlier packet has left behind a short one
does not count, and no null character ends the string early. -/
def Accepted.Clean (packet : Accepted) : Prop :=
  (hexValue packet.high).isSome = true ∧ (hexValue packet.low).isSome = true ∧
    if packet.count < 2 ∧ packet.buffer.peek 2 = colon
    then cString packet.buffer 3 = packet.characters
    else 0 ∉ packetText packet.characters

/-- The packet that is accepted, if there is one, is clean. -/
def AcceptsClean (stack : Nat → Nat → UInt8) (buffer : CArray UInt8 bufMax) (input : List UInt8) :
    Prop :=
  ∀ rest, skipPast dollar input = some rest →
    ∀ sent packet, scanPacket stack buffer rest = some (sent, packet) → packet.Clean

theorem takeWhile_eq_iff (l : List UInt8) : l.takeWhile (· ≠ 0) = l ↔ 0 ∉ l := by
  rw [List.takeWhile_eq_self_iff]
  constructor
  · intro all member
    simpa using all 0 member
  · intro absent ch member
    simp only [ne_eq, decide_eq_true_eq]
    rintro rfl
    exact absent member

theorem reply_text (packet : Accepted) (sent : List UInt8) :
    (packet.reply sent).text =
      cString packet.buffer (if packet.buffer.peek 2 = colon then 3 else 0) := by
  rw [Accepted.reply]
  split <;> rfl

section Reply

variable {packet : Accepted} {stale : CArray UInt8 bufMax} {p : List UInt8}
  (holds : packet.Holds stale p)
include holds

theorem characters_eq : packet.characters = p := by
  rw [Accepted.characters, holds.buffer, holds.count, filled_toList holds.short, List.take_left]

theorem peek_two_iff (long : 2 ≤ p.length) : packet.buffer.peek 2 = colon ↔ p[2]? = some colon := by
  rw [holds.buffer, filled_peek holds.short]
  rcases Nat.lt_or_eq_of_le long with longer | exact
  · rw [if_neg (Nat.ne_of_lt longer), List.getElem?_eq_getElem longer, Option.getD_some,
      Option.some_inj]
  · rw [if_pos exact, List.getElem?_eq_none (Nat.le_of_eq exact.symm)]
    decide

theorem reply_text_iff (sent : List UInt8) :
    (packet.reply sent).text = packetText p ↔
      if packet.count < 2 ∧ packet.buffer.peek 2 = colon
      then cString packet.buffer 3 = packet.characters
      else 0 ∉ packetText packet.characters := by
  rw [characters_eq holds, reply_text, packetText]
  rcases Nat.lt_or_ge p.length 2 with short | long
  · have none : p[2]? ≠ some colon := by
      rw [List.getElem?_eq_none (Nat.le_of_lt short)]
      simp
    have count : packet.count < 2 := holds.count ▸ short
    rw [if_neg none]
    by_cases left : packet.buffer.peek 2 = colon
    · rw [if_pos left, if_pos (And.intro count left)]
    · have notBoth : ¬ (packet.count < 2 ∧ packet.buffer.peek 2 = colon) := fun both => left both.2
      rw [if_neg left, if_neg notBoth, holds.buffer,
        cString_filled holds.short (Nat.zero_le _), List.drop_zero, takeWhile_eq_iff]
  · have notBoth : ¬ (packet.count < 2 ∧ packet.buffer.peek 2 = colon) := by
      rw [holds.count]
      omega
    rw [if_neg notBoth]
    by_cases prefixed : p[2]? = some colon
    · have inside : 3 ≤ p.length := (List.getElem?_eq_some_iff.mp prefixed).1
      rw [if_pos ((peek_two_iff holds long).mpr prefixed), if_pos prefixed, holds.buffer,
        cString_filled holds.short inside, takeWhile_eq_iff]
    · have notColon : ¬ packet.buffer.peek 2 = colon :=
        fun found => prefixed ((peek_two_iff holds long).mp found)
      rw [if_neg notColon, if_neg prefixed, holds.buffer,
        cString_filled holds.short (Nat.zero_le _), List.drop_zero, takeWhile_eq_iff]

theorem isPacket_iff : IsPacket p packet.high packet.low ↔
    (hexValue packet.high).isSome = true ∧ (hexValue packet.low).isSome = true := by
  constructor
  · intro isPacket
    obtain ⟨x, y, high, low, _⟩ := isPacket.sum
    exact ⟨by rw [high]; rfl, by rw [low]; rfl⟩
  · rintro ⟨high, low⟩
    obtain ⟨x, high⟩ := Option.isSome_iff_exists.mp high
    obtain ⟨y, low⟩ := Option.isSome_iff_exists.mp low
    exact ⟨holds.short, holds.noStart, holds.noHash, x, y, high, low,
      (sum_eq_checkValue_iff high low).mp holds.sum⟩

theorem clean_iff (sent : List UInt8) :
    packet.Clean ↔ IsPacket p packet.high packet.low ∧
      (packet.reply sent).text = packetText p := by
  rw [Accepted.Clean, isPacket_iff holds, reply_text_iff holds sent, and_assoc]

end Reply

/-- The characters behind the last start character are determined by what has
been read. -/
theorem framed_inj {before before' p p' rest : List UInt8} {high high' low low' : UInt8}
    (noStart : dollar ∉ p) (noStart' : dollar ∉ p')
    (same : framed before p high low rest = framed before' p' high' low' rest) :
    p = p' ∧ high = high' ∧ low = low' := by
  have split : ∀ before p : List UInt8, ∀ high low,
      framed before p high low rest = (before ++ dollar :: p) ++ [hash, high, low] ++ rest := by
    intro before p high low
    simp [framed]
  rw [split, split] at same
  have read := List.append_cancel_right same
  obtain ⟨start, ends⟩ := List.append_inj' read rfl
  simp only [List.cons.injEq, and_true, true_and] at ends
  refine ⟨?_, ends⟩
  have last : ∀ before p : List UInt8, dollar ∉ p →
      ((before ++ dollar :: p).reverse.takeWhile (· ≠ dollar)) = p.reverse := by
    intro before p absent
    rw [List.reverse_append, List.reverse_cons, List.append_assoc,
      List.takeWhile_append_of_pos]
    · simp
    · intro ch member
      simp only [ne_eq, decide_eq_true_eq]
      rintro rfl
      exact absent (List.mem_reverse.mp member)
  have tails := congrArg (fun l => l.reverse.takeWhile (· ≠ dollar)) start
  rw [last before p noStart, last before' p' noStart'] at tails
  exact List.reverse_injective tails

theorem skipPast_of_not_mem {wanted : UInt8} {before : List UInt8} (absent : wanted ∉ before)
    (rest : List UInt8) : skipPast wanted (before ++ wanted :: rest) = some rest := by
  induction before with
  | nil => exact if_pos rfl
  | cons ch tail inductionHypothesis =>
      rw [List.cons_append, skipPast, if_neg (Ne.symm (List.ne_of_not_mem_cons absent))]
      exact inductionHypothesis (List.not_mem_of_not_mem_cons absent)

theorem getpacket_eq_some {stack : Nat → Nat → UInt8} {buffer : CArray UInt8 bufMax}
    {input : List UInt8} {r : Returned}
    (returned : getpacket stack buffer input = some r) :
    ∃ rest sent packet, skipPast dollar input = some rest ∧
      scanPacket stack buffer rest = some (sent, packet) ∧ packet.reply sent = r := by
  rw [getpacket, Option.bind_eq_some_iff] at returned
  obtain ⟨rest, skipped, scanned⟩ := returned
  obtain ⟨⟨sent, packet⟩, accepted, reply⟩ := Option.map_eq_some_iff.mp scanned
  exact ⟨rest, sent, packet, skipped, accepted, reply⟩

theorem reply_eq (packet : Accepted) (sent : List UInt8) :
    ∃ sequence, (sequence = [] ∨ sequence.length = 2) ∧
      packet.reply sent = ⟨(packet.reply sent).text, sent ++ plus :: sequence, packet.rest⟩ := by
  by_cases found : packet.buffer.peek 2 = colon
  · exact ⟨[packet.buffer.peek 0, packet.buffer.peek 1], Or.inr rfl,
      by rw [Accepted.reply, if_pos found]⟩
  · exact ⟨[], Or.inl rfl, by rw [Accepted.reply, if_neg found]⟩

theorem reply_rest (packet : Accepted) (sent : List UInt8) :
    (packet.reply sent).rest = packet.rest := by
  obtain ⟨_, _, shape⟩ := reply_eq packet sent
  rw [shape]

theorem framed_of_scanned {stack : Nat → Nat → UInt8} {buffer : CArray UInt8 bufMax}
    {input rest sent : List UInt8} {packet : Accepted} (skipped : skipPast dollar input = some rest)
    (scanned : scanPacket stack buffer rest = some (sent, packet)) :
    ∃ before p stale, input = framed before p packet.high packet.low packet.rest ∧
      packet.Holds stale p := by
  obtain ⟨noise, rfl⟩ := skipPast_eq_some skipped
  obtain ⟨before, p, stale, split, holds⟩ := scanPacket_eq_some scanned
  refine ⟨noise ++ before, p, stale, ?_, holds⟩
  rw [split, framed, framed, List.append_assoc]

theorem readsGrammar_iff (stack : Nat → Nat → UInt8) (buffer : CArray UInt8 bufMax)
    (input : List UInt8) : ReadsGrammar stack buffer input ↔ AcceptsClean stack buffer input := by
  constructor
  · intro reads rest skipped sent packet scanned
    obtain ⟨before, p, stale, split, holds⟩ := framed_of_scanned skipped scanned
    have returned : getpacket stack buffer input = some (packet.reply sent) := by
      rw [getpacket, skipped, Option.bind_some, scanned]
      rfl
    obtain ⟨before', p', high, low, split', isPacket, text⟩ := reads.sound _ returned
    rw [reply_rest, split] at split'
    obtain ⟨rfl, rfl, rfl⟩ := framed_inj holds.noStart isPacket.noStart split'
    exact (clean_iff holds sent).mpr ⟨isPacket, text⟩
  · intro clean
    constructor
    · intro r returned
      obtain ⟨rest, sent, packet, skipped, scanned, rfl⟩ := getpacket_eq_some returned
      obtain ⟨before, p, stale, split, holds⟩ := framed_of_scanned skipped scanned
      obtain ⟨isPacket, text⟩ := (clean_iff holds sent).mp (clean rest skipped sent packet scanned)
      exact ⟨before, p, packet.high, packet.low, by rw [reply_rest, split], isPacket, text⟩
    · intro before p high low rest noStart split isPacket
      obtain ⟨x, y, highDigit, lowDigit, sum⟩ := isPacket.sum
      have equal := (sum_eq_checkValue_iff highDigit lowDigit).mpr sum
      have skipped : skipPast dollar input = some (p ++ hash :: high :: low :: rest) := by
        rw [split]
        exact skipPast_of_not_mem noStart _
      have scanned := scanPacket_accepted
        (@attempt_packet (stack 0) buffer _ _ _ isPacket.short isPacket.noStart isPacket.noHash
          equal rest)
      have holds : Accepted.Holds ⟨filled buffer p, p.length, high, low, rest⟩ buffer p :=
        ⟨isPacket.short, isPacket.noStart, isPacket.noHash, equal, rfl, rfl⟩
      have text := ((clean_iff holds []).mp (clean _ skipped _ _ scanned)).2
      obtain ⟨sequence, short, shape⟩ :=
        reply_eq ⟨filled buffer p, p.length, high, low, rest⟩ []
      refine ⟨sequence, short, ?_⟩
      rw [getpacket, skipped, Option.bind_some, scanned, Option.map_some, ← text]
      exact congrArg some shape

/-! ## What earlier packets have left -/

/-- What a reading that has ended decides, the buffer apart. -/
def outcomeKey (outcome : Ended × Reading × List UInt8) : Ended × UInt8 × List UInt8 :=
  (outcome.1, outcome.2.1.checksum, outcome.2.2)

/-- Readings of the same characters into different buffers end alike. -/
theorem collect_alike {r r' : Reading} (checksum : r.checksum = r'.checksum)
    (count : r.count = r'.count) (input : List UInt8) :
    (r.collect input).map outcomeKey = (r'.collect input).map outcomeKey := by
  induction input generalizing r r' with
  | nil =>
      rw [Reading.collect, Reading.collect, count]
      split
      · rfl
      · simp [outcomeKey, checksum]
  | cons ch tail inductionHypothesis =>
      rw [Reading.collect, Reading.collect, count]
      split
      · split
        · simp [outcomeKey, checksum]
        · split
          · simp [outcomeKey, checksum]
          · exact inductionHypothesis (by rw [Reading.store, Reading.store, checksum])
              (by rw [Reading.store, Reading.store, count])
      · simp [outcomeKey, checksum]

def Attempt.key : Attempt → Option (Bool × List UInt8)
  | .blocked => none
  | .again _ rest _ => some (false, rest)
  | .accepted packet => some (true, packet.rest)

theorem attempt_alike (stack stack' : Nat → UInt8) (buffer other : CArray UInt8 bufMax)
    (input : List UInt8) : (attempt stack buffer input).key = (attempt stack' other input).key := by
  have alike := @collect_alike ⟨buffer, 0, 0⟩ ⟨other, 0, 0⟩ rfl rfl input
  rw [attempt, attempt]
  cases first : Reading.collect ⟨buffer, 0, 0⟩ input with
  | none =>
      rw [first, Option.map_none, eq_comm, Option.map_eq_none_iff] at alike
      rw [alike]
  | some outcome =>
      rw [first, Option.map_some, eq_comm, Option.map_eq_some_iff] at alike
      obtain ⟨outcome', second, same⟩ := alike
      obtain ⟨ended, r, behind⟩ := outcome
      obtain ⟨ended', r', behind'⟩ := outcome'
      rw [second]
      obtain ⟨rfl, checksum, rfl⟩ :
          ended' = ended ∧ r'.checksum = r.checksum ∧ behind' = behind := by
        simpa [outcomeKey] using same
      cases ended' with
      | restarted => rfl
      | full =>
          simp only []
          split <;> rfl
      | complete =>
          rcases behind' with _ | ⟨high, _ | ⟨low, rest⟩⟩
          · rfl
          · rfl
          · simp only [checksum]
            split
            · rfl
            · have left := @putpackets_left
                (reports stack r.checksum (checkValue high low) (cString r.terminate 0))
                (reports stack' r.checksum (checkValue high low) (cString r'.terminate 0)) rfl rest
              cases first : putpackets _ rest with
              | mk sent behind =>
                  cases second : putpackets _ rest with
                  | mk sent' behind' =>
                      rw [first, second] at left
                      obtain rfl : behind = behind' := left
                      cases behind with
                      | none => rfl
                      | some behind =>
                          simp only []
                          split <;> rfl

theorem scanPacket_alike (stack stack' : Nat → Nat → UInt8) (buffer other : CArray UInt8 bufMax)
    (input : List UInt8) :
    (scanPacket stack buffer input).map (fun outcome => outcome.2.rest) =
      (scanPacket stack' other input).map fun outcome => outcome.2.rest := by
  induction stack, buffer, input using scanPacket.induct generalizing stack' other with
  | case1 stack buffer input blocked =>
      have alike := attempt_alike (stack 0) (stack' 0) buffer other input
      rw [blocked] at alike
      cases second : attempt (stack' 0) other input with
      | blocked => rw [scanPacket_blocked blocked, scanPacket_blocked second]
      | again _ _ _ | accepted _ =>
          rw [second] at alike
          cases alike
  | case2 stack buffer input next rest sent again inductionHypothesis =>
      have alike := attempt_alike (stack 0) (stack' 0) buffer other input
      rw [again] at alike
      cases second : attempt (stack' 0) other input with
      | again next' rest' sent' =>
          rw [second] at alike
          cases alike
          have later := inductionHypothesis (fun k => stack' (k + 1)) next'
          rw [scanPacket_again again, scanPacket_again second, Option.map_map, Option.map_map]
          exact later
      | blocked | accepted _ =>
          rw [second] at alike
          cases alike
  | case3 stack buffer input packet accepted =>
      have alike := attempt_alike (stack 0) (stack' 0) buffer other input
      rw [accepted] at alike
      cases second : attempt (stack' 0) other input with
      | accepted packet' =>
          rw [second] at alike
          have same : packet.rest = packet'.rest := by simpa [Attempt.key] using alike
          rw [scanPacket_accepted accepted, scanPacket_accepted second, Option.map_some,
            Option.map_some, same]
      | blocked | again _ _ _ =>
          rw [second] at alike
          cases alike

theorem getpacket_alike (stack stack' : Nat → Nat → UInt8) (buffer other : CArray UInt8 bufMax)
    (input : List UInt8) :
    (getpacket stack buffer input).map Returned.rest =
      (getpacket stack' other input).map Returned.rest := by
  rw [getpacket, getpacket]
  cases skipPast dollar input with
  | none => rfl
  | some rest =>
      have alike := scanPacket_alike stack stack' buffer other rest
      rw [Option.bind_some, Option.bind_some, Option.map_map, Option.map_map]
      have same : (Returned.rest ∘ fun outcome : List UInt8 × Accepted =>
          outcome.2.reply outcome.1) = fun outcome => outcome.2.rest := by
        funext outcome
        exact reply_rest _ _
      rw [← same] at alike
      exact alike

theorem text_eq_of_readsGrammar {stack stack' : Nat → Nat → UInt8}
    {buffer other : CArray UInt8 bufMax} {input : List UInt8}
    (reads : ReadsGrammar stack buffer input) (reads' : ReadsGrammar stack' other input) :
    (getpacket stack buffer input).map Returned.text =
      (getpacket stack' other input).map Returned.text := by
  have alike := getpacket_alike stack stack' buffer other input
  cases first : getpacket stack buffer input with
  | none =>
      rw [first, Option.map_none, eq_comm, Option.map_eq_none_iff] at alike
      rw [alike]
  | some r =>
      rw [first, Option.map_some, eq_comm, Option.map_eq_some_iff] at alike
      obtain ⟨r', second, same⟩ := alike
      obtain ⟨before, p, high, low, split, isPacket, text⟩ := reads.sound r first
      obtain ⟨before', p', high', low', split', isPacket', text'⟩ := reads'.sound r' second
      rw [split, same] at split'
      obtain ⟨rfl, _⟩ := framed_inj isPacket.noStart isPacket'.noStart split'
      rw [second, Option.map_some, Option.map_some, text, text']

def usedBuffer : CArray UInt8 bufMax :=
  (CArray.fill _ 0).pokeAll 0 [0x30, 0x31, colon, 0x67]

def unusedBuffer : CArray UInt8 bufMax :=
  CArray.fill _ 0

def unusedStack : Nat → Nat → UInt8 :=
  fun _ _ => 0

structure Unnumbered (text : List UInt8) : Prop where
  short : text.length ≤ 398
  noStart : dollar ∉ text
  noHash : hash ∉ text
  noColon : text[2]? ≠ some colon

structure Plain (text : List UInt8) : Prop extends Unnumbered text where
  noNull : 0 ∉ text

theorem digits_value : ∀ n < 256,
    checkValue (digit (UInt8.ofNat n >>> 4)) (digit (UInt8.ofNat n % 16)) = UInt8.ofNat n := by
  decide +kernel

theorem checkValue_digit (checksum : UInt8) :
    checkValue (digit (checksum >>> 4)) (digit (checksum % 16)) = checksum := by
  have value := digits_value checksum.toNat checksum.toNat_lt
  rwa [UInt8.ofNat_toNat] at value

end Avarice.Gdb

import Avarice.Gdb.PacketWriter
import Avarice.Library.CArray

/-!
# Reading packets

`getpacket` of `remote.cc`.  It is given characters as bytes and reads them
into a buffer that keeps what earlier packets have left there.  A bad checksum is
reported by three console packets, each of which waits for its acknowledgement.
-/

namespace Avarice.Gdb

structure Reading where
  buffer : CArray UInt8 bufMax
  checksum : UInt8
  count : Nat

def Reading.store (r : Reading) (ch : UInt8) : Reading where
  buffer := r.buffer.poke r.count ch
  checksum := r.checksum + ch
  count := r.count + 1

inductive Ended where
  | restarted
  | complete
  | full

/-- Read until a start character, a `#` or the end of the buffer. -/
def Reading.collect (r : Reading) (input : List UInt8) :
    Option (Ended × Reading × List UInt8) :=
  if r.count < bufMax - 1 then
    match input with
    | [] => none
    | ch :: rest =>
        if ch = dollar then some (.restarted, r, rest)
        else if ch = hash then some (.complete, r, rest)
        else collect (r.store ch) rest
  else some (.full, r, input)

def Reading.terminate (r : Reading) : CArray UInt8 bufMax :=
  r.buffer.poke r.count 0

/-- A packet with the right checksum, in the buffer and with its digits. -/
structure Accepted where
  buffer : CArray UInt8 bufMax
  count : Nat
  high : UInt8
  low : UInt8
  rest : List UInt8

inductive Attempt where
  /-- The input ends. -/
  | blocked
  /-- Another start character has been read. -/
  | again (buffer : CArray UInt8 bufMax) (rest : List UInt8) (sent : List UInt8)
  | accepted (packet : Accepted)

def checkValue (high low : UInt8) : UInt8 :=
  hexPair (Char.ofUInt8 high) (Char.ofUInt8 low)

def cString (buffer : CArray UInt8 bufMax) (start : Nat) : List UInt8 :=
  (buffer.toList.drop start).takeWhile (· ≠ 0)

/-- The console packets for a bad checksum.  `mem2hex` makes text of four bytes from
the address of each number, three of which are whatever lies there on the stack. -/
def reports (stack : Nat → UInt8) (checksum xmitcsum : UInt8) (buffer : List UInt8) :
    List (List UInt8) :=
  let count := mem2hex [checksum, stack 0, stack 1, stack 2]
  let sentCount := mem2hex [xmitcsum, stack 3, stack 4, stack 5]
  [toBytes (gdbOut ("Bad checksum: my count = ".toList ++ count ++ ", ".toList)),
    toBytes (gdbOut ("sent count = ".toList ++ sentCount ++ "\n".toList)),
    toBytes (gdbOut (" -- Bad buffer: \"".toList ++ ofBytes buffer ++
      "\"\n".toList))]

/-- From behind one start character to behind the next one. -/
def attempt (stack : Nat → UInt8) (buffer : CArray UInt8 bufMax) (input : List UInt8) : Attempt :=
  match Reading.collect ⟨buffer, 0, 0⟩ input with
  | none => .blocked
  | some (.restarted, r, rest) => .again r.buffer rest []
  | some (.full, r, rest) =>
      match skipPast dollar rest with
      | none => .blocked
      | some rest => .again r.terminate rest []
  | some (.complete, r, high :: low :: rest) =>
      let xmitcsum := checkValue high low
      if r.checksum = xmitcsum then .accepted ⟨r.terminate, r.count, high, low, rest⟩
      else
        match putpackets (reports stack r.checksum xmitcsum (cString r.terminate 0)) rest with
        | (_, none) => .blocked
        | (sent, some rest) =>
            match skipPast dollar rest with
            | none => .blocked
            | some rest => .again r.terminate rest (sent ++ [minus])
  | some (.complete, _, _) => .blocked

theorem skipPast_eq_some {wanted : UInt8} {input rest : List UInt8}
    (skipped : skipPast wanted input = some rest) :
    ∃ before, input = before ++ wanted :: rest := by
  induction input with
  | nil => cases skipped
  | cons ch tail inductionHypothesis =>
      rw [skipPast] at skipped
      split at skipped
      next found =>
          cases skipped
          exact ⟨[], congrArg (· :: rest) found⟩
      next =>
          obtain ⟨before, split⟩ := inductionHypothesis skipped
          exact ⟨ch :: before, congrArg (ch :: ·) split⟩

def Ended.Splits (input stored rest : List UInt8) : Ended → Prop
  | .restarted => input = stored ++ dollar :: rest
  | .complete => input = stored ++ hash :: rest
  | .full => input = stored ++ rest

theorem collect_splits {r r' : Reading} {input rest : List UInt8} {ended : Ended}
    (collected : r.collect input = some (ended, r', rest)) :
    ∃ stored, dollar ∉ stored ∧ hash ∉ stored ∧ r' = stored.foldl .store r ∧
      ended.Splits input stored rest ∧ (ended = .complete → r'.count < bufMax - 1) := by
  induction input generalizing r with
  | nil =>
      rw [Reading.collect] at collected
      split at collected
      · cases collected
      · cases collected
        refine ⟨[], List.not_mem_nil, List.not_mem_nil, rfl, rfl, ?_⟩
        intro isEnd
        cases isEnd
  | cons ch tail inductionHypothesis =>
      rw [Reading.collect] at collected
      by_cases room : r.count < bufMax - 1
      · rw [if_pos room] at collected
        by_cases start : ch = dollar
        · rw [if_pos start] at collected
          cases collected
          subst start
          refine ⟨[], List.not_mem_nil, List.not_mem_nil, rfl, rfl, fun _ => room⟩
        · rw [if_neg start] at collected
          by_cases isEnd : ch = hash
          · rw [if_pos isEnd] at collected
            cases collected
            subst isEnd
            exact ⟨[], List.not_mem_nil, List.not_mem_nil, rfl, rfl, fun _ => room⟩
          · rw [if_neg isEnd] at collected
            obtain ⟨stored, noStart, noHash, same, splits, bound⟩ := inductionHypothesis collected
            refine ⟨ch :: stored, List.not_mem_cons_of_ne_of_not_mem (Ne.symm start) noStart,
              List.not_mem_cons_of_ne_of_not_mem (Ne.symm isEnd) noHash, same, ?_, bound⟩
            cases ended <;> exact congrArg (ch :: ·) splits
      · rw [if_neg room] at collected
        cases collected
        refine ⟨[], List.not_mem_nil, List.not_mem_nil, rfl, rfl, ?_⟩
        intro isEnd
        cases isEnd

theorem putpackets_eq_some {packets : List (List UInt8)} {input rest : List UInt8}
    (left : (putpackets packets input).2 = some rest) : ∃ before, input = before ++ rest := by
  induction packets generalizing input with
  | nil =>
      cases left
      exact ⟨[], rfl⟩
  | cons text packets inductionHypothesis =>
      have first := putpacket_left text input
      rw [putpackets] at left
      rcases one : putpacket text input with ⟨sent, _ | behind⟩
      · rw [one] at left
        cases left
      · rw [one] at first left
        obtain ⟨refused, rfl⟩ := skipPast_eq_some first.symm
        obtain ⟨before, rfl⟩ := inductionHypothesis left
        exact ⟨refused ++ plus :: before, by simp⟩

theorem attempt_eq_again {stack : Nat → UInt8} {buffer next : CArray UInt8 bufMax}
    {input rest sent : List UInt8}
    (again : attempt stack buffer input = .again next rest sent) :
    ∃ before, input = before ++ dollar :: rest := by
  rw [attempt] at again
  cases collected : Reading.collect ⟨buffer, 0, 0⟩ input with
  | none =>
      rw [collected] at again
      cases again
  | some outcome =>
      obtain ⟨ended, r, behind⟩ := outcome
      obtain ⟨stored, _, _, _, splits, _⟩ := collect_splits collected
      rw [collected] at again
      cases ended with
      | restarted =>
          cases again
          exact ⟨stored, splits⟩
      | full =>
          simp only [] at again
          split at again
          · cases again
          next later skipped =>
              cases again
              obtain ⟨before, rfl⟩ := skipPast_eq_some skipped
              exact ⟨stored ++ before, by rw [List.append_assoc]; exact splits⟩
      | complete =>
          have split : input = stored ++ hash :: behind := splits
          match behind with
          | [] | [_] => cases again
          | high :: low :: behind =>
              simp only [] at again
              split at again
              · cases again
              · split at again
                · cases again
                next sent' left put =>
                    split at again
                    · cases again
                    next later skipped =>
                        cases again
                        obtain ⟨before, rfl⟩ := putpackets_eq_some (congrArg Prod.snd put)
                        obtain ⟨noise, rfl⟩ := skipPast_eq_some skipped
                        exact ⟨stored ++ hash :: high :: low :: (before ++ noise), by simp [split]⟩

theorem attempt_again_lt {stack : Nat → UInt8} {buffer next : CArray UInt8 bufMax}
    {input rest sent : List UInt8}
    (again : attempt stack buffer input = .again next rest sent) : rest.length < input.length := by
  obtain ⟨before, rfl⟩ := attempt_eq_again again
  rw [List.length_append, List.length_cons]
  omega

/-- The loop over the attempts, with what has been sent before the packet that
is accepted.  Each attempt finds something else on the stack. -/
def scanPacket (stack : Nat → Nat → UInt8) (buffer : CArray UInt8 bufMax) (input : List UInt8) :
    Option (List UInt8 × Accepted) :=
  match _again : attempt (stack 0) buffer input with
  | .blocked => none
  | .again next rest sent =>
      (scanPacket (fun k => stack (k + 1)) next rest).map fun (later, packet) =>
        (sent ++ later, packet)
  | .accepted packet => some ([], packet)
termination_by input.length
decreasing_by exact attempt_again_lt _again

section Attempts

variable {stack : Nat → Nat → UInt8} {buffer next : CArray UInt8 bufMax}
  {input rest sent : List UInt8} {packet : Accepted}

theorem scanPacket_blocked (blocked : attempt (stack 0) buffer input = .blocked) :
    scanPacket stack buffer input = none := by
  rw [scanPacket]
  split <;> simp_all

theorem scanPacket_again (again : attempt (stack 0) buffer input = .again next rest sent) :
    scanPacket stack buffer input =
      (scanPacket (fun k => stack (k + 1)) next rest).map fun (later, packet) =>
        (sent ++ later, packet) := by
  rw [scanPacket]
  split <;> simp_all

theorem scanPacket_accepted (accepted : attempt (stack 0) buffer input = .accepted packet) :
    scanPacket stack buffer input = some ([], packet) := by
  rw [scanPacket]
  split <;> simp_all

end Attempts

structure Returned where
  text : List UInt8
  sent : List UInt8
  rest : List UInt8

def Accepted.reply (packet : Accepted) (sent : List UInt8) : Returned :=
  if packet.buffer.peek 2 = colon then
    ⟨cString packet.buffer 3, sent ++ [plus, packet.buffer.peek 0, packet.buffer.peek 1],
      packet.rest⟩
  else ⟨cString packet.buffer 0, sent ++ [plus], packet.rest⟩

def getpacket (stack : Nat → Nat → UInt8) (buffer : CArray UInt8 bufMax) (input : List UInt8) :
    Option Returned :=
  (skipPast dollar input).bind fun rest =>
    (scanPacket stack buffer rest).map fun (sent, packet) => packet.reply sent

end Avarice.Gdb

import Avarice.AddressSpace
import Avarice.Gdb.Hex
import Avarice.Library.Runs
import Avarice.Library.Transition
import Mathlib.Data.Nat.Count

/-!
# Queries for I/O registers

The query `qRavr.io_reg` of GDB in `talkToGdb` of `remote.cc`.  Registers are
read together where their addresses are consecutive and reading them has no side
effect.
-/

namespace Avarice.Gdb.IoRegisters

open Transition Runs

structure IoRegister where
  name : List Char
  regAddr : UInt8
  flags : UInt8

/-- Reading the register has a side effect. -/
abbrev ioRegRse : UInt8 := 0x01

instance : Inhabited IoRegister := ⟨⟨[], 0, 0⟩⟩

namespace IoRegister

/-- The address of a register that may be read together with others. -/
def plainAddr (r : IoRegister) : Option Nat :=
  if r.flags = 0 then some r.regAddr.toNat else none

def dataAddr (r : IoRegister) : Nat :=
  dataSpaceAddrOffset.toNat + r.regAddr.toNat

def flaggedText (r : IoRegister) : List Char :=
  "[-- ".toList ++ r.name ++ " --],00;".toList

def valueText (r : IoRegister) (value : UInt8) : List Char :=
  r.name ++ ",".toList ++ byteToHex value ++ ";".toList

end IoRegister

/-- The variables of the loop: the next register, how many are still to be
reported, and the text in `remcomOutBuffer`, which is taken to be large enough. -/
structure Query where
  i : Nat
  j : Nat
  reply : List Char
  /-- The calls of `jtagRead`, with their address and number of bytes. -/
  reads : List (Nat × Nat)
  /-- The registers that have been reported. -/
  handled : List Nat

namespace Query

def start (i j : Nat) : Query := ⟨i, j, [], [], []⟩

def report (q : Query) (text : List Char) : Query :=
  { q with i := q.i + 1, j := q.j - 1, reply := q.reply ++ text, handled := q.handled ++ [q.i] }

/-- The loop that reports what has been read. -/
def reportRead (ioRegDefs : List IoRegister) (jtagBuffer : List UInt8) :
    (count k : Nat) → Query → Query
  | 0, _, q => q
  | count + 1, k, q =>
      reportRead ioRegDefs jtagBuffer count (k + 1)
        (q.report ((ioRegDefs.getD q.i default).valueText (jtagBuffer.getD k 0)))

def pending (ioRegDefs : List IoRegister) (q : Query) : List IoRegister :=
  (ioRegDefs.drop q.i).take q.j

/-- The number of registers from the next one on that are read with it.  The
search ends with the table, or when enough of them have been found. -/
def count (ioRegDefs : List IoRegister) (q : Query) (r : IoRegister) : Nat :=
  runLength IoRegister.plainAddr r.regAddr.toNat (q.pending ioRegDefs)

def reading (ioRegDefs : List IoRegister) (q : Query) (r : IoRegister) : Query :=
  { q with reads := q.reads ++ [(r.dataAddr, q.count ioRegDefs r)] }

/-- One round of the loop.  The table has the registers before the null name that
ends it, and a read yields a buffer or nothing, depending on the number of reads
before, the address and the number of bytes. -/
def body (ioRegDefs : List IoRegister) (jtagRead : Nat → Nat → Nat → Option (List UInt8))
    (q : Query) : Control Query :=
  if 0 < q.j ∧ q.i < ioRegDefs.length then
    let r := ioRegDefs.getD q.i default
    if r.flags ≠ 0 then .again (q.report r.flaggedText)
    else if q.count ioRegDefs r ≠ 0 then
      match jtagRead q.reads.length r.dataAddr (q.count ioRegDefs r) with
      | some jtagBuffer =>
          .again ((q.reading ioRegDefs r).reportRead ioRegDefs jtagBuffer (q.count ioRegDefs r) 0)
      | none => .again (q.reading ioRegDefs r)
    else .again q
  else .leave q

end Query

/-- The numbers behind the colon of a packet. -/
def requested (ptr : List Char) : Int × Int :=
  let (_, i, ptr) := hexToInt ptr
  let j := if ptr.head? = some ',' then (hexToInt (ptr.drop 1)).2.1 else 0
  (i.toInt32.toInt, j.toInt32.toInt)

def twoDigits (n : Nat) : List Char :=
  if n < 16 then '0' :: Nat.toDigits 16 n else Nat.toDigits 16 n

/-- The table as the loop reads it.  A negative first number is an index in front of the
table: the memory there is read as entries, the first of them last. -/
def tableFrom (i : Int) (stray : Nat → IoRegister) (ioRegDefs : List IoRegister) :
    List IoRegister :=
  (List.range (-i).toNat).reverse.map stray ++ ioRegDefs

theorem tableFrom_nonneg {i : Int} (nonnegative : 0 ≤ i) (stray : Nat → IoRegister)
    (ioRegDefs : List IoRegister) : tableFrom i stray ioRegDefs = ioRegDefs := by
  rw [tableFrom, Int.toNat_of_nonpos (Int.neg_nonpos_of_nonneg nonnegative)]
  rfl

theorem tableFrom_replicate (i : Int) (r : IoRegister) (ioRegDefs : List IoRegister) :
    tableFrom i (fun _ => r) ioRegDefs = List.replicate (-i).toNat r ++ ioRegDefs := by
  rw [tableFrom, List.map_const', List.length_reverse, List.length_range]

/-- The loop ends, and reports no register twice. -/
structure Ends (ioRegDefs : List IoRegister) (outcomes : Nat → Option (List UInt8)) (i j : Nat) :
    Prop where
  ends : ∃ rounds last,
    loop (Query.body ioRegDefs fun call _ _ => outcomes call) rounds (.start i j) = some last
  once : ∀ q, Relation.ReflTransGen (Again (Query.body ioRegDefs fun call _ _ => outcomes call))
    (.start i j) q → q.handled.Nodup

/-! ## One round -/

namespace Query

variable {ioRegDefs : List IoRegister} {jtagRead : Nat → Nat → Nat → Option (List UInt8)}
  {q : Query}

theorem pending_eq_cons {r : IoRegister} {rest : List IoRegister}
    (more : q.pending ioRegDefs = r :: rest) :
    0 < q.j ∧ q.i < ioRegDefs.length ∧ ioRegDefs.getD q.i default = r := by
  have first : (q.pending ioRegDefs)[0]? = some r := by simp [more]
  have positive : 0 < q.j := by
    rw [Nat.pos_iff_ne_zero]
    intro zero
    simp [pending, zero] at more
  have found : ioRegDefs[q.i]? = some r := by
    simpa [pending, List.getElem?_take, positive] using first
  obtain ⟨inside, here⟩ := List.getElem?_eq_some_iff.mp found
  exact ⟨positive, inside, by simp [List.getD_eq_getElem?_getD, found]⟩

theorem pending_eq_nil_iff :
    q.pending ioRegDefs = [] ↔ ¬ (0 < q.j ∧ q.i < ioRegDefs.length) := by
  simp [pending, List.take_eq_nil_iff, List.drop_eq_nil_iff]
  omega

theorem body_of_pending_nil (done : q.pending ioRegDefs = []) :
    q.body ioRegDefs jtagRead = .leave q := by
  rw [body, if_neg (pending_eq_nil_iff.mp done)]

theorem body_flagged {r : IoRegister} {rest : List IoRegister}
    (more : q.pending ioRegDefs = r :: rest) (flagged : r.flags ≠ 0) :
    q.body ioRegDefs jtagRead = .again (q.report r.flaggedText) := by
  obtain ⟨positive, inside, here⟩ := pending_eq_cons more
  rw [body, if_pos ⟨positive, inside⟩]
  simp only [here]
  rw [if_pos flagged]

theorem count_pos {r : IoRegister} {rest : List IoRegister}
    (more : q.pending ioRegDefs = r :: rest) (plain : r.flags = 0) :
    0 < q.count ioRegDefs r := by
  rw [count, more, runLength_cons (by rw [IoRegister.plainAddr, if_pos plain])]
  exact Nat.succ_pos _

theorem body_plain {r : IoRegister} {rest : List IoRegister}
    (more : q.pending ioRegDefs = r :: rest) (plain : r.flags = 0) :
    q.body ioRegDefs jtagRead =
      match jtagRead q.reads.length r.dataAddr (q.count ioRegDefs r) with
      | some jtagBuffer =>
          .again ((q.reading ioRegDefs r).reportRead ioRegDefs jtagBuffer (q.count ioRegDefs r) 0)
      | none => .again (q.reading ioRegDefs r) := by
  obtain ⟨positive, inside, here⟩ := pending_eq_cons more
  have some := Nat.ne_of_gt (count_pos more plain)
  rw [body, if_pos ⟨positive, inside⟩]
  simp only [here]
  rw [if_neg (not_not.mpr plain), if_pos some]

/-- What a round that does not leave the loop can do. -/
inductive Round (ioRegDefs : List IoRegister) (jtagRead : Nat → Nat → Nat → Option (List UInt8))
    (q : Query) : Query → Prop where
  | flagged {r : IoRegister} {rest : List IoRegister} (more : q.pending ioRegDefs = r :: rest)
      (flagged : r.flags ≠ 0) : Round ioRegDefs jtagRead q (q.report r.flaggedText)
  | read {r : IoRegister} {rest : List IoRegister} (more : q.pending ioRegDefs = r :: rest)
      (plain : r.flags = 0) {jtagBuffer : List UInt8}
      (answered : jtagRead q.reads.length r.dataAddr (q.count ioRegDefs r) = some jtagBuffer) :
      Round ioRegDefs jtagRead q
        ((q.reading ioRegDefs r).reportRead ioRegDefs jtagBuffer (q.count ioRegDefs r) 0)
  | failed {r : IoRegister} {rest : List IoRegister} (more : q.pending ioRegDefs = r :: rest)
      (plain : r.flags = 0)
      (unanswered : jtagRead q.reads.length r.dataAddr (q.count ioRegDefs r) = none) :
      Round ioRegDefs jtagRead q (q.reading ioRegDefs r)

theorem round_of_again {after : Query} (again : q.body ioRegDefs jtagRead = .again after) :
    Round ioRegDefs jtagRead q after := by
  cases more : q.pending ioRegDefs with
  | nil =>
      rw [body_of_pending_nil more] at again
      cases again
  | cons r rest =>
      by_cases plain : r.flags = 0
      · rw [body_plain more plain] at again
        cases outcome : jtagRead q.reads.length r.dataAddr (q.count ioRegDefs r) with
        | some jtagBuffer =>
            simp only [outcome] at again
            cases again
            exact .read more plain outcome
        | none =>
            simp only [outcome] at again
            cases again
            exact .failed more plain outcome
      · rw [body_flagged more plain] at again
        cases again
        exact .flagged more plain

theorem pending_nil_of_leave {last : Query} (left : q.body ioRegDefs jtagRead = .leave last) :
    q.pending ioRegDefs = [] ∧ last = q := by
  cases more : q.pending ioRegDefs with
  | nil =>
      rw [body_of_pending_nil more] at left
      cases left
      exact ⟨rfl, rfl⟩
  | cons r rest =>
      by_cases plain : r.flags = 0
      · rw [body_plain more plain] at left
        split at left <;> cases left
      · rw [body_flagged more plain] at left
        cases left

theorem pending_report (text : List Char) :
    (q.report text).pending ioRegDefs = (q.pending ioRegDefs).drop 1 := by
  simp [pending, report, List.drop_take]

variable {jtagBuffer : List UInt8}

theorem pending_reportRead (count k : Nat) (q : Query) :
    (q.reportRead ioRegDefs jtagBuffer count k).pending ioRegDefs =
      (q.pending ioRegDefs).drop count := by
  induction count generalizing k q with
  | zero => rfl
  | succ count inductionHypothesis =>
      rw [reportRead, inductionHypothesis, pending_report, List.drop_drop, Nat.add_comm]

theorem pending_report_lt {r : IoRegister} {rest : List IoRegister}
    (more : q.pending ioRegDefs = r :: rest) (text : List Char) :
    ((q.report text).pending ioRegDefs).length < (q.pending ioRegDefs).length := by
  rw [pending_report, more]
  exact Nat.lt_succ_self _

theorem pending_reportRead_lt {r : IoRegister} {rest : List IoRegister}
    (more : q.pending ioRegDefs = r :: rest) (plain : r.flags = 0) (jtagBuffer : List UInt8)
    (k : Nat) :
    (((q.reading ioRegDefs r).reportRead ioRegDefs jtagBuffer (q.count ioRegDefs r) k).pending
      ioRegDefs).length < (q.pending ioRegDefs).length := by
  have positive := count_pos more plain
  have some : 0 < (q.pending ioRegDefs).length := by
    rw [more]
    exact Nat.succ_pos _
  rw [pending_reportRead, List.length_drop]
  exact Nat.sub_lt some positive

theorem reading_reads (r : IoRegister) :
    (q.reading ioRegDefs r).reads.length = q.reads.length + 1 := by
  simp [reading]

theorem reportRead_reads (count k : Nat) (q : Query) :
    (q.reportRead ioRegDefs jtagBuffer count k).reads = q.reads := by
  induction count generalizing k q with
  | zero => rfl
  | succ count inductionHypothesis =>
      rw [reportRead, inductionHypothesis]
      rfl

/-! ## Each register once -/

structure InOrder (first : Nat) (q : Query) : Prop where
  first_le : first ≤ q.i
  handled : q.handled = List.range' first (q.i - first)

theorem InOrder.report {first : Nat} (ordered : q.InOrder first) (text : List Char) :
    (q.report text).InOrder first where
  first_le := Nat.le_succ_of_le ordered.first_le
  handled := by
    have next : q.i + 1 - first = (q.i - first) + 1 := Nat.succ_sub ordered.first_le
    simp [Query.report, next, List.range'_1_concat, ordered.handled,
      Nat.add_sub_cancel' ordered.first_le]

theorem InOrder.reportRead {first : Nat} (count k : Nat) {q : Query} (ordered : q.InOrder first) :
    (q.reportRead ioRegDefs jtagBuffer count k).InOrder first := by
  induction count generalizing k q with
  | zero => exact ordered
  | succ count inductionHypothesis => exact inductionHypothesis (k + 1) (ordered.report _)

theorem InOrder.round {first : Nat} {after : Query} (ordered : q.InOrder first)
    (round : Round ioRegDefs jtagRead q after) : after.InOrder first := by
  cases round with
  | flagged more flagged => exact ordered.report _
  | read more plain answered =>
      apply InOrder.reportRead
      exact ⟨ordered.first_le, ordered.handled⟩
  | failed more plain unanswered => exact ⟨ordered.first_le, ordered.handled⟩

/-! ## Reads that the loop waits for -/

/-- The runs of registers that are still to be read. -/
def needed (ioRegDefs : List IoRegister) (q : Query) : Nat :=
  runs IoRegister.plainAddr none (q.pending ioRegDefs)

theorem needed_report {r : IoRegister} {rest : List IoRegister}
    (more : q.pending ioRegDefs = r :: rest) (flagged : r.flags ≠ 0) (text : List Char) :
    (q.report text).needed ioRegDefs = q.needed ioRegDefs := by
  have unkeyed : r.plainAddr = none := by rw [IoRegister.plainAddr, if_neg flagged]
  rw [needed, needed, pending_report, more, runs_of_key_none unkeyed]
  rfl

theorem needed_reportRead {r : IoRegister} {rest : List IoRegister}
    (more : q.pending ioRegDefs = r :: rest) (plain : r.flags = 0) (jtagBuffer : List UInt8)
    (k : Nat) :
    ((q.reading ioRegDefs r).reportRead ioRegDefs jtagBuffer (q.count ioRegDefs r) k).needed
      ioRegDefs + 1 = q.needed ioRegDefs := by
  have keyed : r.plainAddr = some r.regAddr.toNat := by rw [IoRegister.plainAddr, if_pos plain]
  have first := runs_of_run keyed rest
  rw [← more] at first
  rw [needed, needed, pending_reportRead, first]
  rfl

section Outcomes

variable {outcomes : Nat → Option (List UInt8)}

/-- The reads that have succeeded and the ones that are needed are always as many
together. -/
theorem balance {after : Query} (round : Round ioRegDefs (fun call _ _ => outcomes call) q after) :
    after.needed ioRegDefs + Nat.count (fun call => (outcomes call).isSome) after.reads.length =
      q.needed ioRegDefs + Nat.count (fun call => (outcomes call).isSome) q.reads.length := by
  cases round with
  | flagged more flagged =>
      rw [needed_report more flagged]
      rfl
  | @read r rest more plain jtagBuffer answered =>
      have one := needed_reportRead more plain jtagBuffer 0
      have counted : Nat.count (fun call => (outcomes call).isSome) (q.reads.length + 1) =
          Nat.count (fun call => (outcomes call).isSome) q.reads.length + 1 := by
        simp [Nat.count_succ, answered]
      rw [reportRead_reads, reading_reads, counted]
      omega
  | failed more plain unanswered =>
      rw [reading_reads]
      simp [Nat.count_succ, unanswered]
      rfl

theorem round_lowers {calls : Nat} {after : Query}
    (enough : q.needed ioRegDefs + Nat.count (fun call => (outcomes call).isSome) q.reads.length ≤
      Nat.count (fun call => (outcomes call).isSome) calls)
    (round : Round ioRegDefs (fun call _ _ => outcomes call) q after) :
    (after.pending ioRegDefs).length + (calls - after.reads.length) <
      (q.pending ioRegDefs).length + (calls - q.reads.length) := by
  cases round with
  | flagged more flagged => exact Nat.add_lt_add_right (pending_report_lt more _) _
  | @read r rest more plain jtagBuffer answered =>
      have fewer := pending_reportRead_lt more plain jtagBuffer 0
      rw [reportRead_reads, reading_reads]
      omega
  | @failed r rest more plain unanswered =>
      have waiting : 0 < q.needed ioRegDefs := by
        rw [← needed_reportRead more plain [] 0]
        exact Nat.succ_pos _
      have early : q.reads.length < calls := by
        by_contra late
        have all := Nat.count_monotone (fun call => (outcomes call).isSome)
          (Nat.le_of_not_lt late)
        omega
      have same : (q.reading ioRegDefs r).pending ioRegDefs = q.pending ioRegDefs := rfl
      rw [same, reading_reads]
      omega

end Outcomes

end Query

/-! ## The end of the loop -/

section Ends

variable {ioRegDefs : List IoRegister} {outcomes : Nat → Option (List UInt8)} {i j : Nat}

theorem balanced_of_reached {q : Query}
    (reached : Relation.ReflTransGen (Again (Query.body ioRegDefs fun call _ _ => outcomes call))
      (.start i j) q) :
    q.needed ioRegDefs + Nat.count (fun call => (outcomes call).isSome) q.reads.length =
      runs IoRegister.plainAddr none ((ioRegDefs.drop i).take j) := by
  induction reached with
  | refl => rfl
  | tail _ again inductionHypothesis =>
      exact (Query.balance (Query.round_of_again again)).trans inductionHypothesis

theorem enough_of_loop {rounds : Nat} {last : Query}
    (ended : loop (Query.body ioRegDefs fun call _ _ => outcomes call) rounds (.start i j) =
      some last) :
    ∃ calls, runs IoRegister.plainAddr none ((ioRegDefs.drop i).take j) ≤
      Nat.count (fun call => (outcomes call).isSome) calls := by
  obtain ⟨q, reached, left⟩ := leave_of_loop ended
  obtain ⟨done, _⟩ := Query.pending_nil_of_leave left
  have balanced := balanced_of_reached reached
  have nothing : q.needed ioRegDefs = 0 := by rw [Query.needed, done, runs]
  refine ⟨q.reads.length, ?_⟩
  rw [nothing, Nat.zero_add] at balanced
  exact Nat.le_of_eq balanced.symm

/-- The loop ends exactly where as many reads succeed as there are runs to read. -/
theorem query_ends_iff (ioRegDefs : List IoRegister) (outcomes : Nat → Option (List UInt8))
    (i j : Nat) :
    Ends ioRegDefs outcomes i j ↔
      ∃ calls, runs IoRegister.plainAddr none ((ioRegDefs.drop i).take j) ≤
        Nat.count (fun call => (outcomes call).isSome) calls := by
  constructor
  · intro ends
    obtain ⟨rounds, last, ended⟩ := ends.ends
    exact enough_of_loop ended
  · intro enough
    obtain ⟨calls, enough⟩ := enough
    constructor
    · apply @loop_ends _ _
        (fun q => q.needed ioRegDefs + Nat.count (fun call => (outcomes call).isSome)
          q.reads.length ≤ Nat.count (fun call => (outcomes call).isSome) calls)
        (fun q => (q.pending ioRegDefs).length + (calls - q.reads.length))
      · intro before after waiting again
        have round := Query.round_of_again again
        constructor
        · rw [Query.balance round]
          exact waiting
        · exact Query.round_lowers waiting round
      · exact enough
    · intro q reached
      have ordered : q.InOrder i :=
        invariant_of_again (fun _ _ ordered again => ordered.round (Query.round_of_again again))
          reached ⟨Nat.le_refl i, by simp [Query.start]⟩
      rw [ordered.handled]
      exact List.nodup_range'

/-- A query for a register that cannot be read does not end. -/
theorem query_unanswered : ¬ Ends [⟨"TWBR".toList, 0x20, 0⟩] (fun _ => none) 0 1 := by
  intro ends
  obtain ⟨rounds, last, ended⟩ := ends.ends
  obtain ⟨calls, enough⟩ := enough_of_loop ended
  have never : Nat.count (fun _ => (none : Option (List UInt8)).isSome = true) calls = 0 := by
    simp
  rw [never] at enough
  exact absurd enough (by decide)

end Ends

end Avarice.Gdb.IoRegisters

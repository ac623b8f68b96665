import Avarice.Gdb.IoRegisters
import Avarice.Library.PagedMemory

/-!
# Replies to queries for I/O registers

Reading registers together gives the same reply as reading each of them alone,
and touches none that must not be read, unless the first number is negative.
-/

namespace Avarice.Gdb.IoRegisters

open Transition Runs PagedMemory

def IoRegister.entry (data : Nat → UInt8) (r : IoRegister) : List Char :=
  if r.flags ≠ 0 then r.flaggedText else r.valueText (data r.regAddr.toNat)

/-- The entries of the registers `i` to `i + j` of the table, without the last. -/
def entries (ioRegDefs : List IoRegister) (data : Nat → UInt8) (i j : Int) : List Char :=
  (List.range' i.toNat (min (i + j).toNat ioRegDefs.length - i.toNat)).flatMap fun k =>
    (ioRegDefs.getD k default).entry data

/-- Reads of registers succeed, and yield the bytes of data space. -/
def ReadsData (jtagRead : Nat → Nat → Nat → Option (List UInt8)) (data : Nat → UInt8) : Prop :=
  ∀ call addr count, addr + count ≤ 0x100 →
    jtagRead call (dataSpaceAddrOffset.toNat + addr) count = some (slice data addr count)

def sliceData (data : Nat → UInt8) (_call addr count : Nat) : Option (List UInt8) :=
  some (slice data (addr - dataSpaceAddrOffset.toNat) count)

def Covers (read : Nat × Nat) (addr : Nat) : Prop :=
  read.1 ≤ addr ∧ addr < read.1 + read.2

variable {ioRegDefs : List IoRegister} {data : Nat → UInt8}

/-- The loop over the table ends with the right reply, whatever stands in front of it, and
has read no register with a side effect. -/
def Reports (ioRegDefs : List IoRegister) (jtagRead : Nat → Nat → Nat → Option (List UInt8))
    (data : Nat → UInt8) (i j : Int) : Prop :=
  ∀ stray, ∃ rounds last,
    loop (Query.body (tableFrom i stray ioRegDefs) jtagRead) rounds (.start i.toNat j.toNat) =
        some last ∧
      last.reply = entries ioRegDefs data i j ∧
      ∀ read ∈ last.reads, ∀ r ∈ ioRegDefs, r.flags &&& ioRegRse ≠ 0 → ¬ Covers read r.dataAddr

theorem entries_eq (i j : Int) :
    entries ioRegDefs data i j =
      ((ioRegDefs.drop i.toNat).take ((i + j).toNat - i.toNat)).flatMap
        (IoRegister.entry data) := by
  have registers : (List.range' i.toNat (min (i + j).toNat ioRegDefs.length - i.toNat)).map
      (ioRegDefs.getD · default) =
        (ioRegDefs.drop i.toNat).take ((i + j).toNat - i.toNat) := by
    apply List.ext_getElem
    · simp
      omega
    · intro k inside other
      have within : i.toNat + k < ioRegDefs.length := by
        simp at inside
        omega
      simp [within]
  rw [entries, ← registers, List.flatMap_map]

namespace Query

variable {jtagRead : Nat → Nat → Nat → Option (List UInt8)} {q : Query}

theorem pending_of_lt_count {r : IoRegister} {k : Nat} (inside : k < q.count ioRegDefs r) :
    ∃ other, (q.pending ioRegDefs)[k]? = some other ∧ other.flags = 0 ∧
      other.regAddr.toNat = r.regAddr.toNat + k := by
  obtain ⟨other, found, keyed⟩ := key_of_lt_runLength inside
  rw [IoRegister.plainAddr] at keyed
  split at keyed
  next plain => exact ⟨other, found, plain, Option.some.inj keyed⟩
  next => cases keyed

theorem run_inside {r : IoRegister} (some : 0 < q.count ioRegDefs r) :
    r.regAddr.toNat + q.count ioRegDefs r ≤ 0x100 := by
  obtain ⟨last, _, _, here⟩ := pending_of_lt_count (Nat.sub_lt some Nat.one_pos)
  have byte := last.regAddr.toNat_lt
  omega

theorem reportRead_reply {jtagBuffer : List UInt8} (count k : Nat) (q : Query)
    (entered : ∀ n < count, ∃ r, (q.pending ioRegDefs)[n]? = some r ∧
      r.valueText (jtagBuffer.getD (k + n) 0) = r.entry data) :
    (q.reportRead ioRegDefs jtagBuffer count k).reply =
      q.reply ++ ((q.pending ioRegDefs).take count).flatMap (IoRegister.entry data) := by
  induction count generalizing k q with
  | zero => simp [reportRead]
  | succ count inductionHypothesis =>
      obtain ⟨r, found, text⟩ := entered 0 (Nat.succ_pos _)
      cases more : q.pending ioRegDefs with
      | nil => simp [more] at found
      | cons first rest =>
          have same : first = r := by simpa [more] using found
          obtain ⟨_, _, here⟩ := pending_eq_cons more
          have later : (q.report ((ioRegDefs.getD q.i default).valueText
              (jtagBuffer.getD k 0))).pending ioRegDefs = rest := by
            rw [pending_report, more]
            rfl
          rw [reportRead, inductionHypothesis (k + 1)]
          · rw [later, here, same]
            simp only [report, ← text, List.take_succ_cons, List.flatMap_cons, List.append_assoc]
            rfl
          · intro n small
            obtain ⟨other, behind, entry⟩ := entered (n + 1) (Nat.succ_lt_succ small)
            refine ⟨other, ?_, ?_⟩
            · rw [later]
              simpa [more] using behind
            · rw [Nat.add_right_comm]
              exact entry

/-- The reply with the entries that are still to come, and what has been read. -/
structure Right (ioRegDefs : List IoRegister) (data : Nat → UInt8) (whole : List Char)
    (q : Query) : Prop where
  reply : q.reply ++ (q.pending ioRegDefs).flatMap (IoRegister.entry data) = whole
  reads : ∀ read ∈ q.reads, ∀ addr, Covers read addr →
    ∃ r ∈ ioRegDefs, r.flags = 0 ∧ r.dataAddr = addr

theorem mem_of_pending {r : IoRegister} {k : Nat} (found : (q.pending ioRegDefs)[k]? = some r) :
    r ∈ ioRegDefs :=
  List.mem_of_mem_drop (List.mem_of_mem_take (List.mem_of_getElem? found))

theorem right_report {whole : List Char} (right : q.Right ioRegDefs data whole) {r : IoRegister}
    {rest : List IoRegister} (more : q.pending ioRegDefs = r :: rest) (flagged : r.flags ≠ 0) :
    (q.report r.flaggedText).Right ioRegDefs data whole where
  reply := by
    have entry : r.entry data = r.flaggedText := if_pos flagged
    have before := right.reply
    rw [more, List.flatMap_cons, entry, ← List.append_assoc] at before
    rw [pending_report, more]
    exact before
  reads := right.reads

theorem right_reportRead {whole : List Char} (right : q.Right ioRegDefs data whole)
    (r : IoRegister) :
    ((q.reading ioRegDefs r).reportRead ioRegDefs (slice data r.regAddr.toNat (q.count ioRegDefs r))
      (q.count ioRegDefs r) 0).Right ioRegDefs data whole where
  reply := by
    have same : (q.reading ioRegDefs r).pending ioRegDefs = q.pending ioRegDefs := rfl
    rw [pending_reportRead, @reportRead_reply ioRegDefs data, same, ← right.reply,
      List.append_assoc, ← List.flatMap_append, List.take_append_drop]
    · rfl
    · intro n small
      obtain ⟨other, found, unflagged, here⟩ := pending_of_lt_count small
      refine ⟨other, found, ?_⟩
      simp [IoRegister.entry, unflagged, slice, small, here]
  reads := by
    rw [reportRead_reads, reading]
    intro read membership addr covers
    rcases List.mem_append.mp membership with before | new
    · exact right.reads read before addr covers
    · rw [List.mem_singleton.mp new] at covers
      obtain ⟨first, last⟩ := covers
      have inside : addr - r.dataAddr < q.count ioRegDefs r := Nat.sub_lt_left_of_lt_add first last
      obtain ⟨other, found, unflagged, here⟩ := pending_of_lt_count inside
      refine ⟨other, mem_of_pending found, unflagged, ?_⟩
      calc other.dataAddr = r.dataAddr + (addr - r.dataAddr) := by
            rw [IoRegister.dataAddr, here, ← Nat.add_assoc]
            rfl
        _ = addr := Nat.add_sub_cancel' first

variable (reads : ReadsData jtagRead data)
include reads

theorem read_succeeds {r : IoRegister} (some : 0 < q.count ioRegDefs r) (call : Nat) :
    jtagRead call r.dataAddr (q.count ioRegDefs r) =
      .some (slice data r.regAddr.toNat (q.count ioRegDefs r)) :=
  reads call _ _ (run_inside some)

theorem right_round {whole : List Char} {after : Query} (right : q.Right ioRegDefs data whole)
    (round : Round ioRegDefs jtagRead q after) :
    after.Right ioRegDefs data whole ∧
      (after.pending ioRegDefs).length < (q.pending ioRegDefs).length := by
  cases round with
  | flagged more flagged => exact ⟨right_report right more flagged, pending_report_lt more _⟩
  | read more plain answered =>
      rw [read_succeeds reads (count_pos more plain)] at answered
      cases answered
      exact ⟨right_reportRead right _, pending_reportRead_lt more plain _ 0⟩
  | failed more plain unanswered =>
      rw [read_succeeds reads (count_pos more plain)] at unanswered
      cases unanswered

end Query

/-! ## The reply -/

section Reply

variable {jtagRead : Nat → Nat → Nat → Option (List UInt8)}

theorem right_start (i j : Nat) :
    (Query.start i j).Right ioRegDefs data
      (((ioRegDefs.drop i).take j).flatMap (IoRegister.entry data)) where
  reply := rfl
  reads _ membership := absurd membership List.not_mem_nil

theorem right_of_ended (reads : ReadsData jtagRead data) {i j rounds : Nat} {last : Query}
    (ended : loop (Query.body ioRegDefs jtagRead) rounds (.start i j) = some last) :
    last.reply = ((ioRegDefs.drop i).take j).flatMap (IoRegister.entry data) ∧
      last.Right ioRegDefs data
        (((ioRegDefs.drop i).take j).flatMap (IoRegister.entry data)) := by
  obtain ⟨q, reached, left⟩ := leave_of_loop ended
  obtain ⟨done, rfl⟩ := Query.pending_nil_of_leave left
  have right := invariant_of_again (fun _ _ right again =>
      (Query.right_round reads right (Query.round_of_again again)).1) reached
    (@right_start ioRegDefs data i j)
  refine ⟨?_, right⟩
  have whole := right.reply
  rw [done, List.flatMap_nil, List.append_nil] at whole
  exact whole

theorem loop_reads (reads : ReadsData jtagRead data) (ioRegDefs : List IoRegister) (i j : Nat) :
    ∃ rounds last, loop (Query.body ioRegDefs jtagRead) rounds (.start i j) = some last :=
  @loop_ends _ (Query.body ioRegDefs jtagRead)
    (Query.Right ioRegDefs data (((ioRegDefs.drop i).take j).flatMap (IoRegister.entry data)))
    (fun q => (q.pending ioRegDefs).length)
    (fun _ _ right again => Query.right_round reads right (Query.round_of_again again))
    _ (right_start i j)

theorem not_covers_flagged {read : Nat × Nat} (distinct : (ioRegDefs.map IoRegister.regAddr).Nodup)
    (plain : ∀ addr, Covers read addr → ∃ r ∈ ioRegDefs, r.flags = 0 ∧ r.dataAddr = addr)
    {r : IoRegister} (membership : r ∈ ioRegDefs) (sideEffect : r.flags &&& ioRegRse ≠ 0) :
    ¬ Covers read r.dataAddr := by
  intro covers
  obtain ⟨other, member, unflagged, same⟩ := plain _ covers
  have address : other.regAddr = r.regAddr := UInt8.toNat_inj.mp (Nat.add_left_cancel same)
  have identical := List.inj_on_of_nodup_map distinct member membership address
  rw [← identical, unflagged] at sideEffect
  exact sideEffect UInt8.zero_and

theorem reports_of_nonneg (distinct : (ioRegDefs.map IoRegister.regAddr).Nodup)
    (reads : ReadsData jtagRead data) {i j : Int} (nonnegative : 0 ≤ i) :
    Reports ioRegDefs jtagRead data i j := by
  intro stray
  rw [tableFrom_nonneg nonnegative]
  obtain ⟨rounds, last, ended⟩ := loop_reads reads ioRegDefs i.toNat j.toNat
  obtain ⟨reply, right⟩ := right_of_ended reads ended
  refine ⟨rounds, last, ended, ?_, fun read membership r member sideEffect =>
    not_covers_flagged distinct (right.reads read membership) member sideEffect⟩
  have size : (i + j).toNat - i.toNat = j.toNat := by omega
  rw [entries_eq, size]
  exact reply

theorem reports_of_none {i j : Int} (none : j ≤ 0) : Reports ioRegDefs jtagRead data i j := by
  intro stray
  have pending : (Query.start i.toNat j.toNat).pending (tableFrom i stray ioRegDefs) = [] := by
    rw [Query.pending, Query.start, Int.toNat_of_nonpos none, List.take_zero]
  refine ⟨1, _, by rw [loop, Query.body_of_pending_nil pending], ?_,
    fun read membership => absurd membership List.not_mem_nil⟩
  have size : (i + j).toNat - i.toNat = 0 := by omega
  rw [entries_eq, size]
  rfl

/-- In front of the table, any entry can stand. -/
theorem not_reports (reads : ReadsData jtagRead data) {i j : Int} (negative : i < 0)
    (some : 0 < j) : ¬ Reports ioRegDefs jtagRead data i j := by
  intro reports
  obtain ⟨rounds, last, ended, same, _⟩ := reports fun _ => ⟨[], 0, ioRegRse⟩
  obtain ⟨reply, _⟩ := right_of_ended reads ended
  have start : i.toNat = 0 := Int.toNat_of_nonpos (Int.le_of_lt negative)
  have size : j.toNat - (-i).toNat = (i + j).toNat := by omega
  obtain ⟨m, few⟩ : ∃ m, min j.toNat (-i).toNat = m + 1 := ⟨min j.toNat (-i).toNat - 1, by omega⟩
  rw [same, entries_eq, start, Nat.sub_zero, List.drop_zero, List.drop_zero,
    tableFrom_replicate, List.take_append, List.length_replicate, List.take_replicate,
    List.flatMap_append, size, few,
    List.replicate_succ, List.flatMap_cons, List.append_assoc] at reply
  have shorter := congrArg List.length reply
  rw [List.length_append] at shorter
  have text : ((⟨[], 0, ioRegRse⟩ : IoRegister).entry data).length = 12 := rfl
  rw [text, List.length_append] at shorter
  omega

/-- The reply has the entries of the registers in order and no register with a side effect
has been read, exactly if the table is not read from in front of it. -/
theorem query_reply_iff (ioRegDefs : List IoRegister)
    (distinct : (ioRegDefs.map IoRegister.regAddr).Nodup) (data : Nat → UInt8)
    (jtagRead : Nat → Nat → Nat → Option (List UInt8)) (reads : ReadsData jtagRead data)
    (i j : Int) : Reports ioRegDefs jtagRead data i j ↔ 0 ≤ i ∨ j ≤ 0 := by
  constructor
  · intro reports
    by_contra failing
    rw [not_or, not_le, not_le] at failing
    exact not_reports reads failing.1 failing.2 reports
  · rintro (nonnegative | none)
    · exact reports_of_nonneg distinct reads nonnegative
    · exact reports_of_none none

theorem readsData_sliceData (data : Nat → UInt8) : ReadsData (sliceData data) data := by
  intro call addr count inside
  rw [sliceData, Nat.add_sub_cancel_left]

/-- The ADC data between other registers is not read. -/
theorem query_reply_adc :
    Reports [⟨"TWDR".toList, 0x23, 0⟩, ⟨"ADCL".toList, 0x24, ioRegRse⟩,
      ⟨"ADCSRA".toList, 0x26, 0⟩, ⟨"ADMUX".toList, 0x27, 0⟩] (sliceData UInt8.ofNat) UInt8.ofNat
      0 3 :=
  (query_reply_iff [⟨"TWDR".toList, 0x23, 0⟩, ⟨"ADCL".toList, 0x24, ioRegRse⟩,
    ⟨"ADCSRA".toList, 0x26, 0⟩, ⟨"ADMUX".toList, 0x27, 0⟩] (by decide) UInt8.ofNat
    (sliceData UInt8.ofNat) (readsData_sliceData _) 0 3).mpr (.inl (by decide))

/-- The packet is for the entry in front of the table. -/
theorem query_in_front :
    requested "ffffffff,1".toList = (-1, 1) ∧
      ¬ Reports [⟨"TWBR".toList, 0x20, 0⟩] (sliceData UInt8.ofNat) UInt8.ofNat (-1) 1 :=
  ⟨by decide, not_reports (readsData_sliceData _) (by decide) (by decide)⟩

end Reply

end Avarice.Gdb.IoRegisters

import Avarice.Gdb.IoRegisterReply
import Avarice.Gdb.PacketReader
import Avarice.Gdb.ProgramWrite
import Avarice.Library.Throwing

/-!
# The buffer for replies

What `talkToGdb` of `remote.cc` stores in `remcomOutBuffer` for a packet, in
every branch.  The calls of the target are part of the input: each yields some
result, or throws and so leaves the handler.
-/

namespace Avarice.Gdb.ReplyBuffer

open Transition Throwing IoRegisters

/-- The string in the buffer, and one more than the highest index that has been
written, that of its null included. -/
structure OutBuffer where
  text : List Char := []
  written : Nat := 0
  deriving DecidableEq, Repr

def OutBuffer.put (out : OutBuffer) (text : List Char) : OutBuffer :=
  { text, written := max out.written (text.length + 1) }

def OutBuffer.Fits (out : OutBuffer) : Prop := out.written ≤ bufMax

instance : DecidablePred OutBuffer.Fits := fun _ => inferInstanceAs (Decidable (_ ≤ _))

/-- The results of the calls; nothing stands for a throw.  Calls of `jtagRead`
are numbered, and yield a buffer or `NULL`. -/
structure Results where
  jtagRead : Nat → Option (Option (List UInt8))
  jtagWrite : Option Bool
  getProgramCounter : Option UInt32
  setProgramCounter : Option Bool
  resetProgram : Option Bool
  singleStep : Option Bool
  jtagContinue : Option Bool
  interruptProgram : Option Bool
  resumeProgram : Option Bool
  addBreakpoint : Option Bool
  deleteBreakpoint : Option Bool

abbrev Reply := Called OutBuffer Unit

def done (out : OutBuffer) : Reply := ⟨some (), out⟩

def after {Value : Type} (result : Option Value) (out : OutBuffer) (rest : Value → Reply) : Reply :=
  Called.andThen ⟨result, out⟩ fun value _ => rest value

def ok (out : OutBuffer) : Reply := done (out.put "OK".toList)

def error (n : UInt8) (out : OutBuffer) : Reply := done (out.put ('E' :: byteToHex n))

abbrev sigHup : UInt32 := 1
abbrev sigInt : UInt8 := 2
abbrev sigTrap : UInt8 := 5

abbrev pcInvalid : UInt32 := 0xffffffff

/-- The bytes of a program counter, low byte first. -/
def pcBytes (pc : UInt32) : List UInt8 :=
  [pc.toUInt8, (pc >>> 8).toUInt8, (pc >>> 16).toUInt8, (pc >>> 24).toUInt8]

/-- `T%02x20:%02x;21:%02x%02x;22:%02x%02x%02x%02x;`, which is cut off behind the
buffer. -/
def statusText (sigval : UInt8) (jtagBuffer : List UInt8) (pc : UInt32) : List Char :=
  let text := 'T' :: byteToHex sigval ++ "20:".toList ++ byteToHex (jtagBuffer.getD 2 0) ++
    ";21:".toList ++ byteToHex (jtagBuffer.getD 0 0) ++ byteToHex (jtagBuffer.getD 1 0) ++
    ";22:".toList ++ mem2hex (pcBytes pc) ++ ";".toList
  text.take (bufMax - 1)

def reportStatusExtended (results : Results) (sigval : UInt8) (out : OutBuffer) : Reply :=
  after results.getProgramCounter out fun pc =>
  after (results.jtagRead 0) out fun
    | some jtagBuffer => done (out.put (statusText sigval jtagBuffer pc))
    | none => error 1 out

def reportStatus (sigval : UInt8) (out : OutBuffer) : Reply :=
  done (out.put ('S' :: byteToHex sigval))

def repStatus (results : Results) (breaktime : Bool) (out : OutBuffer) : Reply :=
  if breaktime then reportStatusExtended results sigTrap out
  else after results.interruptProgram out fun _ => reportStatusExtended results sigInt out

def atAddress (results : Results) (ptr : List Char) (out : OutBuffer) (rest : Reply) : Reply :=
  if (hexToInt ptr).1 ≠ 0 then after results.setProgramCounter out fun _ => rest else rest

def parseRead (ptr : List Char) : Option (UInt32 × UInt32) :=
  let (addrDigits, addr, ptr) := hexToInt ptr
  let (lengthDigits, length, _) := hexToInt (ptr.drop 1)
  if addrDigits ≠ 0 ∧ ptr.head? = some ',' ∧ lengthDigits ≠ 0 then some (addr, length) else none

def memoryText (jtagBuffer : List UInt8) (length : UInt32) : List Char :=
  mem2hex ((List.range length.toInt32.toInt.toNat).map (jtagBuffer.getD · 0))

def readMemory (results : Results) (ptr : List Char) (out : OutBuffer) : Reply :=
  (error 1 out).andThen fun _ out =>
  match parseRead ptr with
  | none => done out
  | some (_, length) =>
      after (results.jtagRead 0) out fun
        | some jtagBuffer => done (out.put (memoryText jtagBuffer length))
        | none => done out

def regBuffer (registers stack : List UInt8) (newPC : UInt32) : List UInt8 :=
  (List.range 0x20).map (registers.getD · 0) ++
    [stack.getD 2 0, stack.getD 0 0, stack.getD 1 0] ++ pcBytes newPC

def readRegisters (results : Results) (out : OutBuffer) : Reply :=
  after (results.jtagRead 0) out fun
    | none => error 1 out
    | some registers =>
        after (results.jtagRead 1) out fun
          | none => error 1 out
          | some stack =>
              after results.getProgramCounter out fun newPC =>
                if newPC = pcInvalid then error 1 out
                else done (out.put (mem2hex (regBuffer registers stack newPC)))

/-- An answer to a call that succeeds or fails; the error stands there already. -/
def okIf (result : Option Bool) (out : OutBuffer) : Reply :=
  after result out fun success => if success then ok out else done out

def writeRegister (results : Results) (ptr : List Char) (out : OutBuffer) : Reply :=
  (error 1 out).andThen fun _ out =>
  let (digits, regno, ptr) := hexToInt ptr
  if digits ≠ 0 ∧ ptr.head? = some '=' then
    if regno ≤ 33 then okIf results.jtagWrite out
    else if regno = 34 then okIf results.setProgramCounter out
    else done out
  else done out

/-- The kind, the address and the length of a breakpoint. -/
def parseBreakpoint (ptr : List Char) : Option (UInt32 × UInt32 × UInt32) :=
  let (kindDigits, kind, ptr) := hexToInt ptr
  let (addrDigits, addr, behind) := hexToInt (ptr.drop 1)
  let (lengthDigits, length, _) := hexToInt (behind.drop 1)
  if kindDigits ≠ 0 ∧ ptr.head? = some ',' ∧ addrDigits ≠ 0 ∧ behind.head? = some ',' ∧
      lengthDigits ≠ 0 then some (kind, addr, length)
  else none

/-- Another kind ends the program. -/
def changeBreakpoint (result : Option Bool) (ptr : List Char) (out : OutBuffer) : Reply :=
  (error 1 out).andThen fun _ out =>
  match parseBreakpoint ptr with
  | none => done out
  | some (kind, _, _) => if kind ≤ 4 then okIf result out else ⟨none, out⟩

def continueSignal (results : Results) (ptr : List Char) (out : OutBuffer) : Reply :=
  let (digits, sig, _) := hexToInt ptr
  if digits ≠ 0 ∧ sig = sigHup then
    after results.resetProgram out fun success =>
      if success then reportStatusExtended results sigTrap out else done out
  else done out

def Results.read (results : Results) (call _addr _count : Nat) : Option (List UInt8) :=
  (results.jtagRead call).getD none

/-- Rounds of the loop of a query, with the end of the reply moving on. -/
def queryRounds (ioRegDefs : List IoRegister) (results : Results) :
    (rounds : Nat) → Query → OutBuffer → Reply
  | 0, _, out => done out
  | rounds + 1, q, out =>
      match q.body ioRegDefs results.read with
      | .leave _ => done out
      | .again next =>
          if next.reads ≠ q.reads ∧ results.jtagRead q.reads.length = none then ⟨none, out⟩
          else queryRounds ioRegDefs results rounds next (out.put next.reply)

def requestedRounds (results : Results) (ioRegDefs : List IoRegister) (stray : Nat → IoRegister)
    (rounds : Nat) (i j : Int) (out : OutBuffer) : Reply :=
  queryRounds (tableFrom i stray ioRegDefs) results rounds (.start i.toNat j.toNat) out

def queryRegisters (results : Results) (ioRegDefs : Option (List IoRegister))
    (stray : Nat → IoRegister) (rounds : Nat) (ptr : List Char) (out : OutBuffer) : Reply :=
  match ioRegDefs with
  | none => done out
  | some ioRegDefs =>
      match ptr with
      | [] => done (out.put (twoDigits (ioRegDefs.length % 2 ^ 32)))
      | ':' :: ptr =>
          let (i, j) := requested ptr
          requestedRounds results ioRegDefs stray rounds i j out
      | _ => done out

def queryName : List Char := "Ravr.io_reg".toList

/-- What a packet stores in the buffer; the loop of a query is left off after
so many rounds. -/
def talkToGdb (results : Results) (ioRegDefs : Option (List IoRegister))
    (stray : Nat → IoRegister) (rounds : Nat) (packet : List Char) : Reply :=
  let out : OutBuffer := ({} : OutBuffer).put []
  match packet with
  | '!' :: _ => ok out
  | 'M' :: ptr =>
      (error 1 out).andThen fun _ out =>
      if (parseWrite ptr).isSome then okIf results.jtagWrite out else done out
  | 'm' :: ptr => readMemory results ptr out
  | '?' :: _ => reportStatus sigTrap out
  | 'g' :: _ => readRegisters results out
  | 'q' :: ptr =>
      if ptr.take queryName.length = queryName then
        queryRegisters results ioRegDefs stray rounds (ptr.drop queryName.length) out
      else done out
  | 'P' :: ptr => writeRegister results ptr out
  | 'G' :: _ => error 1 out
  | 's' :: ptr =>
      atAddress results ptr out (after results.singleStep out (repStatus results · out))
  | 'C' :: ptr => continueSignal results ptr out
  | 'c' :: ptr =>
      atAddress results ptr out (after results.jtagContinue out (repStatus results · out))
  | 'D' :: _ =>
      after results.resumeProgram out fun success => if success then ok out else error 1 out
  | 'Z' :: ptr => changeBreakpoint results.addBreakpoint ptr out
  | 'z' :: ptr => changeBreakpoint results.deleteBreakpoint ptr out
  -- the program is killed, reset, or the packet is not known
  | _ => done out

/-! ## Which packets fit -/

def width (r : IoRegister) : Nat := r.name.length + if r.flags ≠ 0 then 12 else 4

def widths (registers : List IoRegister) : Nat := (registers.map width).sum

/-- A query is not for entries in front of the table, and the entries it is for
are together at most 399 characters long. -/
def EnoughForQuery (ioRegDefs : List IoRegister) (ptr : List Char) : Prop :=
  match ptr with
  | ':' :: ptr =>
      let (i, j) := requested ptr
      0 < j → 0 ≤ i ∧ widths ((ioRegDefs.drop i.toNat).take j.toNat) ≤ 399
  | _ => True

/-- The buffer is large enough for the reply: an `m` packet asks for at most 199
bytes, and a query for few registers. -/
def Enough (ioRegDefs : Option (List IoRegister)) (packet : List Char) : Prop :=
  match packet with
  | 'm' :: ptr => ∀ request ∈ parseRead ptr, request.2.toInt32.toInt ≤ 199
  | 'q' :: ptr =>
      ptr.take queryName.length = queryName →
        ∀ table ∈ ioRegDefs, EnoughForQuery table (ptr.drop queryName.length)
  | _ => True

section Fitting

variable {out : OutBuffer} {results : Results}

theorem fits_put (fits : out.Fits) {text : List Char} (short : text.length < bufMax) :
    (out.put text).Fits := by
  simp only [OutBuffer.Fits, OutBuffer.put] at fits ⊢
  omega

theorem not_fits_put {text : List Char} (long : bufMax ≤ text.length) : ¬(out.put text).Fits := by
  simp only [OutBuffer.Fits, OutBuffer.put]
  omega

theorem fits_after {Value : Type} {result : Option Value} {rest : Value → Reply}
    (fits : out.Fits) (later : ∀ value, (rest value).state.Fits) :
    (after result out rest).state.Fits := by
  cases result with
  | none => exact fits
  | some value => exact later value

theorem fits_ok (fits : out.Fits) : (ok out).state.Fits := fits_put fits (by decide)

theorem fits_error (fits : out.Fits) : (error 1 out).state.Fits := fits_put fits (by decide)

theorem mem2hex_length (mem : List UInt8) : (mem2hex mem).length = 2 * mem.length := by
  induction mem with
  | nil => rfl
  | cons byte rest inductionHypothesis =>
      simp only [mem2hex, List.flatMap_cons, List.length_append, List.length_cons] at *
      rw [inductionHypothesis]
      simp only [byteToHex, List.length_cons, List.length_nil]
      omega

theorem fits_okIf (fits : out.Fits) (result : Option Bool) : (okIf result out).state.Fits := by
  refine fits_after fits fun success => ?_
  cases success with
  | false => exact fits
  | true => exact fits_ok fits

theorem fits_reportStatusExtended (fits : out.Fits) (sigval : UInt8) :
    (reportStatusExtended results sigval out).state.Fits := by
  refine fits_after fits fun pc => fits_after fits fun read => ?_
  cases read with
  | none => exact fits_error fits
  | some jtagBuffer =>
      refine fits_put fits ?_
      rw [statusText]
      exact Nat.lt_of_le_of_lt (List.length_take_le _ _) (by decide)

theorem fits_repStatus (fits : out.Fits) (breaktime : Bool) :
    (repStatus results breaktime out).state.Fits := by
  cases breaktime with
  | true => exact fits_reportStatusExtended fits sigTrap
  | false => exact fits_after fits fun _ => fits_reportStatusExtended fits sigInt

theorem fits_atAddress (fits : out.Fits) (ptr : List Char) {rest : Reply}
    (later : rest.state.Fits) : (atAddress results ptr out rest).state.Fits := by
  unfold atAddress
  split
  · exact fits_after fits fun _ => later
  · exact later

theorem fits_readRegisters (fits : out.Fits) : (readRegisters results out).state.Fits := by
  refine fits_after fits fun read => ?_
  cases read with
  | none => exact fits_error fits
  | some registers =>
      refine fits_after fits fun read => ?_
      cases read with
      | none => exact fits_error fits
      | some stack =>
          refine fits_after fits fun newPC => ?_
          split
          · exact fits_error fits
          · refine fits_put fits ?_
            rw [mem2hex_length]
            simp [regBuffer, pcBytes, bufMax]

theorem fits_writeRegister (fits : out.Fits) (ptr : List Char) :
    (writeRegister results ptr out).state.Fits := by
  have error := fits_error fits
  simp only [writeRegister, Called.andThen, ReplyBuffer.error, done]
  split
  · split
    · exact fits_okIf error _
    · split
      · exact fits_okIf error _
      · exact error
  · exact error

theorem fits_changeBreakpoint (fits : out.Fits) (result : Option Bool) (ptr : List Char) :
    (changeBreakpoint result ptr out).state.Fits := by
  have error := fits_error fits
  simp only [changeBreakpoint, Called.andThen, ReplyBuffer.error, done]
  split
  · exact error
  · split
    · exact fits_okIf error _
    · exact error

theorem fits_continueSignal (fits : out.Fits) (ptr : List Char) :
    (continueSignal results ptr out).state.Fits := by
  simp only [continueSignal]
  split
  · refine fits_after fits fun success => ?_
    cases success with
    | false => exact fits
    | true => exact fits_reportStatusExtended fits sigTrap
  · exact fits

def succeeding : Results where
  jtagRead _ := some (some [])
  jtagWrite := some true
  getProgramCounter := some 0
  setProgramCounter := some true
  resetProgram := some true
  singleStep := some true
  jtagContinue := some true
  interruptProgram := some true
  resumeProgram := some true
  addBreakpoint := some true
  deleteBreakpoint := some true

theorem memoryText_length (jtagBuffer : List UInt8) (length : UInt32) :
    (memoryText jtagBuffer length).length = 2 * length.toInt32.toInt.toNat := by
  rw [memoryText, mem2hex_length, List.length_map, List.length_range]

theorem fits_readMemory_iff (fits : out.Fits) (ptr : List Char) :
    (∀ results, (readMemory results ptr out).state.Fits) ↔
      ∀ request ∈ parseRead ptr, request.2.toInt32.toInt ≤ 199 := by
  have error := fits_error fits
  cases parsed : parseRead ptr with
  | none =>
      refine iff_of_true (fun results => ?_) (by simp)
      simpa [readMemory, parsed, Called.andThen, ReplyBuffer.error, done] using error
  | some request =>
      simp only [readMemory, parsed, Called.andThen, ReplyBuffer.error, done, Option.mem_some_iff,
        forall_eq']
      constructor
      · intro always
        by_contra many
        refine not_fits_put ?_ (always succeeding)
        rw [memoryText_length, bufMax]
        omega
      · intro few results
        refine fits_after error fun read => ?_
        cases read with
        | none => exact error
        | some jtagBuffer =>
            refine fits_put error ?_
            rw [memoryText_length, bufMax]
            omega

end Fitting

/-! ## The entries of registers -/

section Entries

variable {ioRegDefs : List IoRegister} {q : Query}

/-- The length of the reply when all registers have been reported. -/
def total (ioRegDefs : List IoRegister) (q : Query) : Nat :=
  q.reply.length + widths (q.pending ioRegDefs)

theorem widths_cons (r : IoRegister) (rest : List IoRegister) :
    widths (r :: rest) = width r + widths rest := by
  simp [widths]

theorem flaggedText_length {r : IoRegister} (flagged : r.flags ≠ 0) :
    r.flaggedText.length = width r := by
  simp [IoRegister.flaggedText, width, flagged]

theorem valueText_length {r : IoRegister} (plain : r.flags = 0) (value : UInt8) :
    (r.valueText value).length = width r := by
  simp [IoRegister.valueText, width, plain, byteToHex]

theorem total_report {r : IoRegister} {rest : List IoRegister} {text : List Char}
    (more : q.pending ioRegDefs = r :: rest) (length : text.length = width r) :
    total ioRegDefs (q.report text) = total ioRegDefs q := by
  have reply : (q.report text).reply.length = q.reply.length + width r := by
    simp [Query.report, length]
  rw [total, total, Query.pending_report, more, reply, widths_cons, Nat.add_assoc]
  rfl

theorem total_reportRead {jtagBuffer : List UInt8} (count k : Nat) (q : Query)
    (plain : ∀ n < count, ∃ r, (q.pending ioRegDefs)[n]? = some r ∧ r.flags = 0) :
    total ioRegDefs (q.reportRead ioRegDefs jtagBuffer count k) = total ioRegDefs q := by
  induction count generalizing k q with
  | zero => rfl
  | succ count inductionHypothesis =>
      obtain ⟨r, found, unflagged⟩ := plain 0 (Nat.succ_pos _)
      cases more : q.pending ioRegDefs with
      | nil => simp [more] at found
      | cons first rest =>
          have same : first = r := by simpa [more] using found
          obtain ⟨_, _, here⟩ := Query.pending_eq_cons more
          rw [Query.reportRead, inductionHypothesis (k + 1)]
          · refine total_report more ?_
            rw [here, same]
            exact valueText_length unflagged _
          · intro n small
            obtain ⟨other, behind, unflagged⟩ := plain (n + 1) (Nat.succ_lt_succ small)
            refine ⟨other, ?_, unflagged⟩
            simpa [Query.pending_report, more] using behind

theorem total_round {jtagRead : Nat → Nat → Nat → Option (List UInt8)} {next : Query}
    (round : Query.Round ioRegDefs jtagRead q next) :
    total ioRegDefs next = total ioRegDefs q := by
  cases round with
  | flagged more flagged => exact total_report more (flaggedText_length flagged)
  | read more plain answered =>
      rename_i r _ _
      have same : total ioRegDefs (q.reading ioRegDefs r) = total ioRegDefs q := rfl
      rw [total_reportRead, same]
      intro n small
      obtain ⟨other, found, unflagged, _⟩ := Query.pending_of_lt_count small
      exact ⟨other, found, unflagged⟩
  | failed more plain unanswered => rfl

variable {results : Results} {out : OutBuffer}

theorem fits_queryRounds (rounds : Nat) (fits : out.Fits)
    (short : total ioRegDefs q < bufMax) :
    (queryRounds ioRegDefs results rounds q out).state.Fits := by
  induction rounds generalizing q out with
  | zero => exact fits
  | succ rounds inductionHypothesis =>
      rw [queryRounds]
      cases body : q.body ioRegDefs results.read with
      | leave last => exact fits
      | again next =>
          have same := total_round (Query.round_of_again body)
          dsimp only
          split
          · exact fits
          · refine inductionHypothesis (fits_put fits ?_) (same ▸ short)
            simp only [total] at same short
            omega

theorem not_fits_of_total (rounds : Nat) (enough : (q.pending ioRegDefs).length ≤ rounds)
    (written : q.reply.length < out.written) (long : bufMax ≤ total ioRegDefs q) :
    ¬(queryRounds ioRegDefs succeeding rounds q out).state.Fits := by
  induction rounds generalizing q out with
  | zero =>
      have done : q.pending ioRegDefs = [] := List.eq_nil_of_length_eq_zero (Nat.le_zero.mp enough)
      rw [total, done] at long
      simp only [queryRounds, ReplyBuffer.done, OutBuffer.Fits]
      exact Nat.not_le.mpr (Nat.lt_of_le_of_lt long written)
  | succ rounds inductionHypothesis =>
      rw [queryRounds]
      cases body : q.body ioRegDefs succeeding.read with
      | leave last =>
          rw [total, (Query.pending_nil_of_leave body).1] at long
          simp only [ReplyBuffer.done, OutBuffer.Fits]
          exact Nat.not_le.mpr (Nat.lt_of_le_of_lt long written)
      | again next =>
          have round := Query.round_of_again body
          have same := total_round round
          have fewer : (next.pending ioRegDefs).length < (q.pending ioRegDefs).length := by
            cases round with
            | flagged more flagged => exact Query.pending_report_lt more _
            | read more plain answered => exact Query.pending_reportRead_lt more plain _ 0
            | failed more plain unanswered =>
                simp [Results.read, succeeding] at unanswered
          simp only [succeeding, reduceCtorEq, and_false, if_false]
          refine inductionHypothesis (by omega) ?_ (same ▸ long)
          simp only [OutBuffer.put]
          omega

theorem twoDigits_length_lt (n : Nat) : (twoDigits (n % 2 ^ 32)).length < bufMax := by
  have digits : (Nat.toDigits 16 (n % 2 ^ 32)).length ≤ 8 :=
    (Nat.length_toDigits_le_iff (by decide) (by decide)).mpr (Nat.mod_lt _ (by decide))
  rw [twoDigits, bufMax]
  split
  · rw [List.length_cons]
    omega
  · omega

/-- An entry in front of the table whose name fills the buffer. -/
def longEntry : IoRegister := ⟨List.replicate bufMax 'a', 0, ioRegRse⟩

theorem fits_entries_iff (fits : out.Fits) (stored : 0 < out.written) (i j : Nat) :
    (∀ results rounds, (queryRounds ioRegDefs results rounds (.start i j) out).state.Fits) ↔
      widths ((ioRegDefs.drop i).take j) ≤ 399 := by
  have whole : total ioRegDefs (.start i j) = widths ((ioRegDefs.drop i).take j) := Nat.zero_add _
  constructor
  · intro always
    by_contra long
    refine not_fits_of_total _ (Nat.le_refl _) (q := .start i j) stored ?_ (always succeeding _)
    rw [whole, bufMax]
    omega
  · intro short results rounds
    refine fits_queryRounds rounds fits ?_
    rw [whole, bufMax]
    omega

theorem longEntry_widths (ioRegDefs : List IoRegister) {before j : Nat} (negative : 0 < before)
    (positive : 0 < j) :
    399 < widths (((List.replicate before longEntry ++ ioRegDefs).drop 0).take j) := by
  obtain ⟨before, rfl⟩ := Nat.exists_eq_succ_of_ne_zero (Nat.ne_of_gt negative)
  obtain ⟨j, rfl⟩ := Nat.exists_eq_succ_of_ne_zero (Nat.ne_of_gt positive)
  have long : 399 < width longEntry := by
    rw [width, longEntry, List.length_replicate, bufMax]
    exact Nat.lt_of_lt_of_le (by decide) (Nat.le_add_right _ _)
  rw [List.drop_zero, List.replicate_succ, List.cons_append, List.take_succ_cons, widths_cons]
  omega

theorem fits_requestedRounds_iff (fits : out.Fits) (stored : 0 < out.written)
    (ioRegDefs : List IoRegister) (i j : Int) :
    (∀ results stray rounds,
      (requestedRounds results ioRegDefs stray rounds i j out).state.Fits) ↔
      (0 < j → 0 ≤ i ∧ widths ((ioRegDefs.drop i.toNat).take j.toNat) ≤ 399) := by
  constructor
  · intro always positive
    have nonnegative : 0 ≤ i := by
      by_contra negative
      have start : i.toNat = 0 := by omega
      have short := (fits_entries_iff fits stored i.toNat j.toNat).mp
        fun results rounds => always results (fun _ => longEntry) rounds
      rw [tableFrom_replicate, start] at short
      have before : 0 < (-i).toNat := by omega
      have some : 0 < j.toNat := by omega
      exact absurd short (Nat.not_le.mpr (longEntry_widths ioRegDefs before some))
    refine ⟨nonnegative, (fits_entries_iff fits stored i.toNat j.toNat).mp fun results rounds => ?_⟩
    have here := always results (fun _ => longEntry) rounds
    rwa [requestedRounds, tableFrom_nonneg nonnegative] at here
  · intro enough results stray rounds
    refine (fits_entries_iff fits stored i.toNat j.toNat).mpr ?_ results rounds
    by_cases positive : 0 < j
    · obtain ⟨nonnegative, short⟩ := enough positive
      rw [tableFrom_nonneg nonnegative]
      exact short
    · have zero : j.toNat = 0 := by omega
      simp [zero, widths]

theorem fits_queryRegisters_iff (fits : out.Fits) (stored : 0 < out.written)
    (ioRegDefs : List IoRegister) (ptr : List Char) :
    (∀ results stray rounds,
      (queryRegisters results (some ioRegDefs) stray rounds ptr out).state.Fits) ↔
      EnoughForQuery ioRegDefs ptr := by
  cases ptr with
  | nil => exact iff_of_true (fun _ _ _ => fits_put fits (twoDigits_length_lt _)) trivial
  | cons c ptr =>
      by_cases colon : c = ':'
      · subst colon
        exact fits_requestedRounds_iff fits stored ioRegDefs _ _
      · refine iff_of_true (fun _ _ _ => ?_) ?_
        · simpa [queryRegisters, colon, done] using fits
        · simp [EnoughForQuery, colon]

end Entries

/-! ## Every packet -/

section Packets

variable {ioRegDefs : Option (List IoRegister)}

theorem fits_other {c : Char} (memory : c ≠ 'm') (query : c ≠ 'q') (ptr : List Char)
    (results : Results) (stray : Nat → IoRegister) (rounds : Nat) :
    (talkToGdb results ioRegDefs stray rounds (c :: ptr)).state.Fits := by
  have fits : (({} : OutBuffer).put []).Fits := by decide
  rw [talkToGdb.eq_def]
  split
  next => exact fits_ok fits
  next ptr same =>
    have error := fits_error fits
    simp only [Called.andThen, ReplyBuffer.error, done]
    split
    · exact fits_okIf error _
    · exact error
  next same => exact absurd (List.cons.inj same).1 memory
  next => exact fits_put fits (by decide)
  next => exact fits_readRegisters fits
  next same => exact absurd (List.cons.inj same).1 query
  next => exact fits_writeRegister fits _
  next => exact fits_error fits
  next =>
    exact fits_atAddress fits _ (fits_after fits fun breaktime => fits_repStatus fits breaktime)
  next => exact fits_continueSignal fits _
  next =>
    exact fits_atAddress fits _ (fits_after fits fun breaktime => fits_repStatus fits breaktime)
  next =>
    refine fits_after fits fun success => ?_
    cases success with
    | false => exact fits_error fits
    | true => exact fits_ok fits
  next => exact fits_changeBreakpoint fits _ _
  next => exact fits_changeBreakpoint fits _ _
  next => exact fits

theorem fits_query_iff (ioRegDefs : Option (List IoRegister)) (ptr : List Char) :
    (∀ results stray rounds, (talkToGdb results ioRegDefs stray rounds ('q' :: ptr)).state.Fits) ↔
      Enough ioRegDefs ('q' :: ptr) := by
  have fits : (({} : OutBuffer).put []).Fits := by decide
  by_cases named : ptr.take queryName.length = queryName
  · cases ioRegDefs with
    | none =>
        refine iff_of_true (fun _ _ _ => ?_) (by simp [Enough])
        simpa [talkToGdb, named, queryRegisters, done] using fits
    | some ioRegDefs =>
        simpa [talkToGdb, Enough, named] using
          fits_queryRegisters_iff fits (by decide) ioRegDefs (ptr.drop queryName.length)
  · refine iff_of_true (fun _ _ _ => ?_) (by simp [Enough, named])
    simpa [talkToGdb, named, done] using fits

/-- A reply stays in the buffer, whatever the calls yield, if and only if the
packet asks for little enough. -/
theorem fits_iff (ioRegDefs : Option (List IoRegister)) (packet : List Char) :
    (∀ results stray rounds, (talkToGdb results ioRegDefs stray rounds packet).state.Fits) ↔
      Enough ioRegDefs packet := by
  have fits : (({} : OutBuffer).put []).Fits := by decide
  cases packet with
  | nil => exact iff_of_true (fun _ _ _ => fits) trivial
  | cons c ptr =>
      by_cases memory : c = 'm'
      · subst memory
        refine Iff.trans ?_ (fits_readMemory_iff fits ptr)
        exact ⟨fun always results => always results (fun _ => default) 0,
          fun always results _ _ => always results⟩
      · by_cases query : c = 'q'
        · subst query
          exact fits_query_iff ioRegDefs ptr
        · refine iff_of_true (fits_other memory query ptr) ?_
          simp [Enough, memory, query]

/-- The reply to a request for 200 bytes ends behind the buffer. -/
theorem fits_fails :
    ¬∀ (ioRegDefs : Option (List IoRegister)) (packet : List Char), packet.length ≤ 398 →
      ∀ results stray rounds,
        (talkToGdb results ioRegDefs stray rounds packet).state.Fits := by
  intro always
  have fits : (({} : OutBuffer).put []).Fits := by decide
  have few := (fits_readMemory_iff fits "0,c8".toList).mp fun results =>
    always none "m0,c8".toList (by decide) results (fun _ => default) 0
  exact absurd (few (0, 200) (by decide)) (by decide)

end Packets

end Avarice.Gdb.ReplyBuffer

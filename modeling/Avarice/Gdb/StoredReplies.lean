import Avarice.Gdb.Handler

/-!
# Replies are what is stored

The handler calls the ICE, and replies with what its calls yield.  With these
results as input, the same reply is stored in the buffer for replies.  Over a
connection, every packet is handled once, in order, and this reply is sent.
-/

namespace Avarice.Gdb.Handler

open Throwing IoRegisters
open Registers (Stores okIf okIf_stores stores_text)
open ReplyBuffer (OutBuffer Results parseBreakpoint parseRead queryName sigHup sigInt sigTrap)

variable {State : Type} {env : Env} {target : Target State}

theorem andThen_eq_some {Value Other : Type} {call : Called State Value}
    {rest : Value → State → Called State Other} {result : Other}
    (returned : (call.andThen rest).value = some result) :
    ∃ value, call.value = some value ∧ (rest value call.state).value = some result := by
  cases outcome : call.value with
  | none =>
      rw [Called.andThen_of_threw outcome] at returned
      cases returned
  | some value =>
      rw [Called.andThen_of_returned outcome] at returned
      exact ⟨value, rfl, returned⟩

/-! ## The results of the calls -/

section Calls

def noResults : Results := Registers.readResults none none none

variable (target : Target State) (s : State)

def readMemoryResults (ptr : List Char) : Results :=
  match parseRead ptr with
  | none => noResults
  | some (addr, length) =>
      Registers.readResults (target.jtagRead s (toAddress addr) length).value none none

def stopResults (breaktime : Bool) : Results :=
  let interrupted := target.interruptProgram s
  { Registers.statusResults target.toJtag (if breaktime then s else interrupted.state) with
    interruptProgram := interrupted.value }

def atAddressResult (ptr : List Char) : Option Bool :=
  (target.setProgramCounter s (toAddress (hexToInt ptr).2.1)).value

def continueSignalResults : Results :=
  let reset := target.resetProgram s false
  { Registers.statusResults target.toJtag reset.state with resetProgram := reset.value }

def breakpointResult (change : State → UInt32 → BpType → UInt32 → Bool × State)
    (ptr : List Char) : Option Bool :=
  (parseBreakpoint ptr).bind fun (kind, addr, length) =>
    (breakpointType kind).map fun mode => (change s addr mode length).1

variable (ioRegDefs : List IoRegister)

/-- The variables of a query behind a read. -/
def behindRead (q : Query) (r : IoRegister) : Option (List UInt8) → Query
  | some jtagBuffer =>
      (q.reading ioRegDefs r).reportRead ioRegDefs jtagBuffer (q.count ioRegDefs r) 0
  | none => q.reading ioRegDefs r

def queryReads : (rounds : Nat) → Query → State → List (Option (List UInt8))
  | 0, _, _ => []
  | rounds + 1, q, s =>
      match q.pending ioRegDefs with
      | [] => []
      | r :: _ =>
          if r.flags = 0 then
            let read := target.jtagRead s r.dataAddr.toUInt64 (q.count ioRegDefs r).toUInt32
            match read.value with
            | none => []
            | some jtagBuffer =>
                jtagBuffer :: queryReads rounds (behindRead ioRegDefs q r jtagBuffer) read.state
          else queryReads rounds (q.report r.flaggedText) s

variable (env : Env)

def queryResults (ptr : List Char) : Results :=
  match env.ioRegDefs, ptr with
  | some ioRegDefs, ':' :: ptr =>
      let (i, j) := requested ptr
      let reads := queryReads target (tableFrom i env.stray ioRegDefs) env.rounds
        (.start i.toNat j.toNat) s
      { noResults with jtagRead := fun call => reads[call]? }
  | _, _ => noResults

/-- The results of the calls that the handler makes for a packet. -/
def results (write : Option Write) (packet : List Char) : Results :=
  match packet with
  | 'M' :: _ =>
      { noResults with
        jtagWrite := write.bind fun write =>
          (target.jtagWrite s (UInt64.ofInt write.addr) write.bytes).value }
  | 'm' :: ptr => readMemoryResults target s ptr
  | 'g' :: _ => Registers.registersResults target.toJtag s
  | 'q' :: ptr => queryResults target s env (ptr.drop queryName.length)
  | 'P' :: ptr =>
      Registers.writeResults target.toJtag s (hexToInt ptr).2.1 ((hexToInt ptr).2.2.drop 1)
  | 's' :: ptr =>
      let stepped := singleStep env target (atAddress target s ptr).state
      let breaktime := stepped.value.map Prod.snd
      { stopResults target stepped.state (breaktime.getD false) with
        setProgramCounter := atAddressResult target s ptr, singleStep := breaktime }
  | 'C' :: _ => continueSignalResults target s
  | 'c' :: ptr =>
      let continued := target.jtagContinue (atAddress target s ptr).state
      { stopResults target continued.state (continued.value.getD false) with
        setProgramCounter := atAddressResult target s ptr, jtagContinue := continued.value }
  | 'D' :: _ => { noResults with resumeProgram := (target.resumeProgram s).value }
  | 'Z' :: ptr => { noResults with addBreakpoint := breakpointResult s target.addBreakpoint ptr }
  | 'z' :: ptr =>
      { noResults with deleteBreakpoint := breakpointResult s target.deleteBreakpoint ptr }
  | _ => noResults

/-- What is in the buffer for replies behind a packet. -/
def storedFor (write : Option Write) (packet : List Char) : List Char :=
  (ReplyBuffer.talkToGdb (results target s env write packet) env.ioRegDefs env.stray env.rounds
    packet).state.text

end Calls

theorem stored_replied {call : Called State (List Char)} {stored : ReplyBuffer.Reply}
    (stores : Stores call.value stored) {replies : Replies}
    (returned : (replied call).value = some replies) {text : List Char}
    (heard : replies.reply = some text) : stored.state.text = text := by
  obtain ⟨reply, same, built⟩ := andThen_eq_some returned
  cases built
  cases heard
  exact stores _ same

section Branches

variable {out : OutBuffer}

theorem readMemory_stores (s : State) (ptr : List Char) :
    Stores (readMemory target s ptr).value
      (ReplyBuffer.readMemory (readMemoryResults target s ptr) ptr out) := by
  cases parsed : parseRead ptr with
  | none =>
      simp only [readMemory, ReplyBuffer.readMemory, parsed]
      exact stores_text _
  | some request =>
      obtain ⟨addr, length⟩ := request
      simp only [readMemory, ReplyBuffer.readMemory, readMemoryResults, parsed]
      refine Registers.stores_andThen fun buffer => ?_
      cases buffer with
      | none => exact fun _ same => Option.some.inj same
      | some buffer => exact stores_text _

theorem repStatus_stores (s : State) (breaktime : Bool)
    (setProgramCounter singleStep jtagContinue : Option Bool) :
    Stores (repStatus target s breaktime).value
      (ReplyBuffer.repStatus
        { stopResults target s breaktime with setProgramCounter, singleStep, jtagContinue }
        breaktime out) := by
  cases breaktime with
  | true => exact Registers.reportStatusExtended_stores s sigTrap
  | false =>
      refine Registers.stores_andThen fun _ => ?_
      exact Registers.reportStatusExtended_stores (target.interruptProgram s).state sigInt

theorem after_some {Value : Type} (value : Value) (rest : Value → ReplyBuffer.Reply) :
    ReplyBuffer.after (some value) out rest = rest value := rfl

theorem atAddress_stored {s : State} {ptr : List Char} {set : List (List Char)}
    (returned : (atAddress target s ptr).value = some set) {results : Results}
    (made : results.setProgramCounter = atAddressResult target s ptr) (rest : ReplyBuffer.Reply) :
    ReplyBuffer.atAddress results ptr out rest = rest := by
  rw [atAddress] at returned
  rw [ReplyBuffer.atAddress]
  split
  next given =>
    simp only [if_pos given] at returned
    obtain ⟨success, called, _⟩ := andThen_eq_some returned
    rw [made, atAddressResult, called]
    rfl
  next => rfl

theorem continueSignal_stores (s : State) (ptr : List Char) :
    Stores (continueSignal target s ptr).value
      (ReplyBuffer.continueSignal (continueSignalResults target s) ptr (out.put [])) := by
  simp only [continueSignal, ReplyBuffer.continueSignal]
  split
  · refine Registers.stores_andThen fun success => ?_
    cases success with
    | false => exact stores_text _
    | true =>
        exact Registers.reportStatusExtended_stores (target.resetProgram s false).state sigTrap
  · exact stores_text _

theorem breakpointType_isSome (kind : UInt32) : (breakpointType kind).isSome ↔ kind ≤ 4 := by
  unfold breakpointType
  grind

theorem changeBreakpoint_stores (change : State → UInt32 → BpType → UInt32 → Bool × State)
    (s : State) (ptr : List Char) :
    Stores (changeBreakpoint change s ptr).value
      (ReplyBuffer.changeBreakpoint (breakpointResult s change ptr) ptr out) := by
  cases parsed : parseBreakpoint ptr with
  | none =>
      simp only [changeBreakpoint, ReplyBuffer.changeBreakpoint, parsed]
      exact stores_text _
  | some request =>
      obtain ⟨kind, addr, length⟩ := request
      cases known : breakpointType kind with
      | none =>
          simp only [changeBreakpoint, parsed, known]
          rintro _ ⟨⟩
      | some mode =>
          have small := (breakpointType_isSome kind).mp (by rw [known]; rfl)
          simp only [changeBreakpoint, ReplyBuffer.changeBreakpoint, breakpointResult, parsed, known,
            ReplyBuffer.error, ReplyBuffer.done, Called.andThen, if_pos small, Option.bind_some,
            Option.map_some]
          exact okIf_stores ⟨some (change s addr mode length).1, _⟩

end Branches

/-! ## Queries -/

section Queries

variable {ioRegDefs : List IoRegister} {q : Query} {r : IoRegister} {rest : List IoRegister}

theorem body_read (more : q.pending ioRegDefs = r :: rest) (plain : r.flags = 0)
    (jtagRead : Nat → Nat → Nat → Option (List UInt8)) :
    q.body ioRegDefs jtagRead = .again (behindRead ioRegDefs q r
      (jtagRead q.reads.length r.dataAddr (q.count ioRegDefs r))) := by
  rw [Query.body_plain more plain]
  cases jtagRead q.reads.length r.dataAddr (q.count ioRegDefs r) <;> rfl

theorem behindRead_reads (jtagBuffer : Option (List UInt8)) :
    (behindRead ioRegDefs q r jtagBuffer).reads =
      q.reads ++ [(r.dataAddr, q.count ioRegDefs r)] := by
  cases jtagBuffer with
  | none => rfl
  | some jtagBuffer => exact Query.reportRead_reads _ 0 _

theorem queryLoop_read (more : q.pending ioRegDefs = r :: rest) (plain : r.flags = 0)
    (rounds : Nat) (s : State) :
    queryLoop target ioRegDefs (rounds + 1) q s =
      (target.jtagRead s r.dataAddr.toUInt64 (q.count ioRegDefs r).toUInt32).andThen
        fun jtagBuffer s =>
          queryLoop target ioRegDefs rounds (behindRead ioRegDefs q r jtagBuffer) s := by
  rw [queryLoop]
  simp only [body_read more plain, behindRead_reads]
  rw [if_neg (by simp), List.getLastD_concat]
  cases outcome :
      (target.jtagRead s r.dataAddr.toUInt64 (q.count ioRegDefs r).toUInt32).value with
  | none => rw [Called.andThen_of_threw outcome, Called.andThen_of_threw outcome]
  | some jtagBuffer =>
      rw [Called.andThen_of_returned outcome, Called.andThen_of_returned outcome]
      rfl

theorem queryRounds_read (more : q.pending ioRegDefs = r :: rest) (plain : r.flags = 0)
    {results : Results} {jtagBuffer : Option (List UInt8)}
    (read : results.jtagRead q.reads.length = some jtagBuffer) (rounds : Nat) (out : OutBuffer) :
    ReplyBuffer.queryRounds ioRegDefs results (rounds + 1) q out =
      ReplyBuffer.queryRounds ioRegDefs results rounds (behindRead ioRegDefs q r jtagBuffer)
        (out.put (behindRead ioRegDefs q r jtagBuffer).reply) := by
  have yielded : results.read q.reads.length r.dataAddr (q.count ioRegDefs r) = jtagBuffer := by
    rw [Results.read, read]
    rfl
  rw [ReplyBuffer.queryRounds]
  simp only [body_read more plain, yielded, read, reduceCtorEq, and_false, if_false]

theorem queryLoop_stores (ioRegDefs : List IoRegister) (rounds : Nat) (q : Query) (s : State)
    {out : OutBuffer} (same : out.text = q.reply) {results : Results}
    (made : ∀ k, results.jtagRead (q.reads.length + k) =
      (queryReads target ioRegDefs rounds q s)[k]?) :
    Stores (queryLoop target ioRegDefs rounds q s).value
      (ReplyBuffer.queryRounds ioRegDefs results rounds q out) := by
  induction rounds generalizing q s out with
  | zero => rintro _ ⟨⟩
  | succ rounds inductionHypothesis =>
      rw [queryReads] at made
      cases more : q.pending ioRegDefs with
      | nil =>
          intro text given
          rw [queryLoop, Query.body_of_pending_nil more] at given
          rw [ReplyBuffer.queryRounds, Query.body_of_pending_nil more]
          exact same.trans (Option.some.inj given)
      | cons r rest =>
          simp only [more] at made
          by_cases plain : r.flags = 0
          · simp only [if_pos plain] at made
            rw [queryLoop_read more plain]
            cases outcome :
                (target.jtagRead s r.dataAddr.toUInt64 (q.count ioRegDefs r).toUInt32).value with
            | none =>
                intro text given
                rw [Called.andThen_of_threw outcome] at given
                cases given
            | some jtagBuffer =>
                simp only [outcome] at made
                rw [Called.andThen_of_returned outcome, queryRounds_read more plain (made 0)]
                refine inductionHypothesis _ _ rfl fun k => ?_
                rw [behindRead_reads, List.length_append, List.length_singleton, Nat.add_assoc,
                  Nat.add_comm 1 k, made (k + 1), List.getElem?_cons_succ]
          · simp only [if_neg plain] at made
            have later := @inductionHypothesis (q.report r.flaggedText) s
              (out.put (q.report r.flaggedText).reply) rfl made
            rw [queryLoop, ReplyBuffer.queryRounds]
            have unread : (q.report r.flaggedText).reads = q.reads := rfl
            simpa only [Query.body_flagged more plain, unread, if_true, ne_eq, not_true_eq_false,
              false_and, if_false] using later

theorem queryRegisters_stores (s : State) (ptr : List Char) :
    Stores (queryRegisters env target s ptr).value
      (ReplyBuffer.queryRegisters (queryResults target s env ptr) env.ioRegDefs env.stray
        env.rounds ptr (({} : OutBuffer).put [])) := by
  cases table : env.ioRegDefs with
  | none =>
      simp only [queryRegisters, ReplyBuffer.queryRegisters, table]
      exact stores_text _
  | some ioRegDefs =>
      cases ptr with
      | nil =>
          simp only [queryRegisters, ReplyBuffer.queryRegisters, table]
          exact stores_text _
      | cons c ptr =>
          by_cases colon : c = ':'
          · subst colon
            simp only [queryRegisters, ReplyBuffer.queryRegisters, queryResults, table]
            refine queryLoop_stores _ env.rounds _ s rfl fun k => ?_
            show _ = (queryReads _ _ _ _ _)[k]?
            rw [show (Query.start _ _).reads.length = 0 from rfl, Nat.zero_add]
          · have nothing : Stores (some []) (ReplyBuffer.done (({} : OutBuffer).put [])) :=
              stores_text []
            simpa [queryRegisters, ReplyBuffer.queryRegisters, table, colon] using nothing

end Queries

/-! ## Every packet -/

theorem answer_stored {write : Option Write} {s : State} {packet : List Char}
    (put : packet.head? = some 'M' → write.isSome = (parseWrite packet.tail).isSome)
    {replies : Replies} (returned : (answer env target write s packet).value = some replies)
    {text : List Char} (heard : replies.reply = some text) :
    storedFor target s env write packet = text := by
  unfold answer at returned
  split at returned
  next =>
    cases returned
    cases heard
  next =>
    obtain ⟨_, _, built⟩ := andThen_eq_some returned
    cases built
    cases heard
  next =>
    cases returned
    cases heard
    rfl
  next ptr =>
    have parsed := put rfl
    rw [List.tail_cons] at parsed
    cases write with
    | none =>
        cases returned
        cases heard
        have invalid : ¬(parseWrite ptr).isSome := by simp [← parsed]
        simp [storedFor, ReplyBuffer.talkToGdb, ReplyBuffer.error, ReplyBuffer.done, Called.andThen,
          invalid, OutBuffer.put, Registers.error]
    | some write =>
        refine stored_replied ?_ returned heard
        have stores := @okIf_stores _ (({} : OutBuffer).put [])
          (target.jtagWrite s (UInt64.ofInt write.addr) write.bytes)
        simp only [ReplyBuffer.talkToGdb, ReplyBuffer.error, ReplyBuffer.done, Called.andThen,
          ← parsed, Option.isSome_some, if_true]
        exact stores
  next ptr => exact stored_replied (readMemory_stores s ptr) returned heard
  next =>
    cases returned
    cases heard
    rfl
  next => exact stored_replied (Registers.readRegisters_stores s) returned heard
  next ptr =>
    split at returned
    next named =>
      have stores := @queryRegisters_stores _ env target s (ptr.drop queryName.length)
      refine stored_replied ?_ returned heard
      rw [ReplyBuffer.talkToGdb, if_pos named]
      exact stores
    next other =>
      cases returned
      cases heard
      rw [storedFor, ReplyBuffer.talkToGdb, if_neg other]
      rfl
  next ptr => exact stored_replied (Registers.writeRegister_stores s ptr) returned heard
  next =>
    cases returned
    cases heard
    rfl
  next ptr =>
    obtain ⟨set, atPlace, rest⟩ := andThen_eq_some returned
    obtain ⟨⟨console, breaktime⟩, stepped, rest⟩ := andThen_eq_some rest
    obtain ⟨status, stop, built⟩ := andThen_eq_some rest
    cases built
    cases heard
    rw [storedFor, ReplyBuffer.talkToGdb, atAddress_stored atPlace rfl]
    simp only [results, stepped, Option.map_some, Option.getD_some, after_some]
    exact repStatus_stores _ breaktime _ _ _ _ stop
  next ptr => exact stored_replied (continueSignal_stores s ptr) returned heard
  next ptr =>
    obtain ⟨set, atPlace, rest⟩ := andThen_eq_some returned
    obtain ⟨breaktime, continued, rest⟩ := andThen_eq_some rest
    obtain ⟨status, stop, built⟩ := andThen_eq_some rest
    cases built
    cases heard
    rw [storedFor, ReplyBuffer.talkToGdb, atAddress_stored atPlace rfl]
    simp only [results, continued, Option.getD_some, after_some]
    exact repStatus_stores _ breaktime _ _ _ _ stop
  next =>
    obtain ⟨success, resumed, built⟩ := andThen_eq_some returned
    cases built
    cases heard
    rw [storedFor, ReplyBuffer.talkToGdb]
    simp only [results, resumed]
    cases success <;> rfl
  next ptr =>
    exact stored_replied (changeBreakpoint_stores target.addBreakpoint s ptr) returned heard
  next ptr =>
    exact stored_replied (changeBreakpoint_stores target.deleteBreakpoint s ptr) returned heard
  next =>
    cases returned
    cases heard
    rw [storedFor, ReplyBuffer.talkToGdb]
    rfl
    -- `k` and `R` have cases of their own in the handler only
    all_goals assumption

variable (env target) in
/-- What is in the buffer for replies behind a packet, for which the handler puts the
write together. -/
def GdbRemote.storedFor (s : GdbRemote State) (packet : List Char) : List Char :=
  Handler.storedFor target s.target env (s.remote.talkToGdb ⟨packet, env.heap⟩).2 packet

theorem talkToGdb_stored {s : GdbRemote State} {packet : List Char} {replies : Replies}
    (returned : (talkToGdb env target s packet).value = some replies) {text : List Char}
    (heard : replies.reply = some text) : s.storedFor env target packet = text := by
  refine @answer_stored _ env target _ _ _ ?_ _ returned _ heard
  intro write
  cases packet with
  | nil => cases write
  | cons c ptr =>
      obtain rfl := Option.some.inj write
      simp only [Packet.request, Packet.cmd, List.headD_cons, if_pos, List.tail_cons]
      cases parseWrite ptr <;> rfl

/-! ## Sessions -/

open Connection (Turn)

/-- What is sent during some turns, for the replies given in each of them.  Where
there are none any more, the packet has only been acknowledged. -/
def sentFor : (stack : Nat → Nat → Nat → UInt8) → List Turn → (log : List Replies) → List UInt8
  | _, [], _ => []
  | stack, turn :: _, [] => turn.received (stack 0)
  | stack, turn :: turns, replies :: log =>
      turn.received (stack 0) ++ (copies turn.refused (replies.packets.map toBytes) ++
        sentFor (fun k => stack (k + 1)) turns log)

variable (env target) in
/-- The packets of some turns are handled one behind the other, each of them once, until
a call throws or a loop is not over.  The reply to each is what is stored for it. -/
inductive Handled :
    GdbRemote State → List Turn → (log : List Replies) → Option (GdbRemote State) → Prop
  | ended (s : GdbRemote State) : Handled s [] [] (some s)
  | threw {s : GdbRemote State} {turn : Turn} (turns : List Turn)
      (threw : (talkToGdb env target s (ofBytes turn.text)).value = none) :
      Handled s (turn :: turns) [] none
  | answered {s : GdbRemote State} {turn : Turn} {turns : List Turn} {replies : Replies}
      {log : List Replies} {last : Option (GdbRemote State)}
      (returned : (talkToGdb env target s (ofBytes turn.text)).value = some replies)
      (stored : ∀ text, replies.reply = some text →
        s.storedFor env target (ofBytes turn.text) = text)
      (later : Handled (talkToGdb env target s (ofBytes turn.text)).state turns log last) :
      Handled s (turn :: turns) (replies :: log) last

theorem play_handled (stack : Nat → Nat → Nat → UInt8) (s : GdbRemote State) (turns : List Turn) :
    ∃ log, (Connection.play (handler env target) stack s turns).1 = sentFor stack turns log ∧
      Handled env target s turns log (Connection.play (handler env target) stack s turns).2 := by
  induction turns generalizing stack s with
  | nil => exact ⟨[], rfl, .ended s⟩
  | cons turn turns inductionHypothesis =>
      let call := talkToGdb env target s (ofBytes turn.text)
      cases outcome : call.value with
      | none =>
          have threw : (handler env target s turn.text).value = none := by
            rw [handler, Called.andThen_of_threw outcome]
          refine ⟨[], ?_, ?_⟩
          · simp only [Connection.play, threw]
            rfl
          · simp only [Connection.play, threw]
            exact .threw turns outcome
      | some replies =>
          have returned : handler env target s turn.text =
              ⟨some (replies.packets.map toBytes), call.state⟩ := by
            rw [handler, Called.andThen_of_returned outcome]
          obtain ⟨log, sent, handled⟩ := inductionHypothesis (fun k => stack (k + 1)) call.state
          refine ⟨replies :: log, ?_, ?_⟩
          · simp only [Connection.play, returned, sentFor, sent]
          · simp only [Connection.play, returned]
            exact .answered outcome (fun text heard => talkToGdb_stored outcome heard) handled

def idle : Target Unit where
  jtagRead s _ _ := ⟨some none, s⟩
  jtagWrite s _ _ := ⟨some true, s⟩
  getProgramCounter s := ⟨some 0, s⟩
  setProgramCounter s _ := ⟨some true, s⟩
  codeBreakpointAt _ _ := false
  addBreakpoint s _ _ _ := (true, s)
  deleteBreakpoint s _ _ _ := (true, s)
  jtagSingleStep s := ⟨some true, s⟩
  jtagContinue s := ⟨some true, s⟩
  interruptProgram s := ⟨some true, s⟩
  resumeProgram s := ⟨some true, s⟩
  resetProgram s _ := ⟨some true, s⟩

def plainEnv : Env := ⟨none, 0, false, fun _ => default, fun _ => 0, 0⟩

/-- The packet `?` arrives at the second time, and its reply is refused once. -/
def questionTurn : Turn where
  damaged := [⟨[], [0x3f], 0x33, 0x65, fun _ => []⟩]
  noise := [plus]
  text := [0x3f]
  high := 0x33
  low := 0x66
  refused _ := [minus]

theorem questionTurn_valid : questionTurn.Valid where
  damaged := by
    intro damaged member
    obtain rfl := List.mem_singleton.mp member
    exact ⟨by decide, ⟨by decide, by decide, by decide, by decide⟩, by decide,
      fun _ => List.not_mem_nil⟩
  noise := by decide
  plain := ⟨⟨by decide, by decide, by decide, by decide⟩, by decide⟩
  right := by decide
  refused _ := (by decide : plus ∉ [minus])

end Avarice.Gdb.Handler

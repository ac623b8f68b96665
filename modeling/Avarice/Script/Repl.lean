import Mathlib.Logic.Function.Basic
import Avarice.Library.CString
import Avarice.Library.Transition

/-!
# The console for scripts

The main loop of `main2.cc`, which polls the terminal and the TCP clients for lines
and evaluates the scripts that they make, and `JavaScript::eval` of `js.cc`.  What
the threads of the clients do comes in between.
-/

namespace Avarice.Script.Console

abbrev Text := List UInt8

def bytes (str : String) : Text := str.toList.map Char.toUInt8

/-! ## Evaluation -/

inductive Output where
  /-- `printTerminal`: to the listener that is polled. -/
  | print (str : Text)
  /-- `reportError`, and `load`: to all listeners. -/
  | report (message : Text)
  /-- Nothing more: the script does not come to its end. -/
  | loop

/-- What comes of a script: nothing if it fails, and then nothing if its value has
no string. -/
structure Evaluated (Js : Type) where
  outputs : List Output
  value : Option (Option Text)
  js : Js

structure Engine (Js : Type) where
  bufferIsCompilableUnit : Text → Bool
  evaluateScript : Js → Text → Evaluated Js
  /-- What `JS_ReportError` has reported of a message. -/
  reported : Text → Text

/-- `JavaScript::eval`, which returns a string. -/
def eval {Js : Type} (engine : Engine Js) (js : Js) (str : Text) : List Output × Text × Js :=
  let src := CString.content str
  let done := engine.evaluateScript js src
  match done.value with
  | none =>
      let message := bytes "Could not evaluate script :\n|" ++ src ++ bytes "|\n"
      (done.outputs ++ [.report (engine.reported message)], bytes "<error>\n", done.js)
  | some none => (done.outputs, bytes "<undefined>\n", done.js)
  | some (some ptr) => (done.outputs, CString.content ptr ++ bytes "\n", done.js)

/-! ## The main loop -/

/-- Where the main loop is: between two rounds, in a round with some listeners left,
blocked by the lock that it holds itself or by a script, or behind its end. -/
inductive Main (Id : Type) where
  | waiting
  | polling (left : List Id)
  | blocked
  | ended
  deriving DecidableEq, Repr

inductive Entry (Id : Type) where
  | connected (io : Id)
  | disconnected (io : Id)
  | noted (io : Id) (str : Text)
  | ran (io : Id) (script : Text)

/-- The listeners by their addresses, with the lines they have queued, the lines
that have been taken of them and what has been printed to them. -/
structure Repl (Id Js : Type) where
  listeners : List Id
  outputQueue : Id → List Text
  listenerBufs : Id → Text
  printed : Id → List Text
  currentIO : Id
  js : Js
  main : Main Id
  running : Bool
  taken : Id → List Text
  log : List (Entry Id)

def Repl.start {Id Js : Type} (terminal : Id) (js : Js) : Repl Id Js where
  listeners := [terminal]
  outputQueue _ := []
  listenerBufs _ := []
  printed _ := []
  currentIO := terminal
  js := js
  main := .waiting
  running := true
  taken _ := []
  log := []

inductive Action (Id : Type) where
  | connect (io : Id)
  | disconnect (io : Id)
  | line (io : Id) (str : Text)
  /-- A thread prints to the listener that has been polled last, if it is still there. -/
  | note (str : Text)
  | stopTerminal
  /-- The main loop goes on. -/
  | run

abbrev terminalBufSize : Nat := 4096

def welcome : Text := bytes "Welcome to AvariceJS\n"

section Program

variable {Id Js : Type} [DecidableEq Id]

def Repl.print (r : Repl Id Js) (io : Id) (str : Text) : Repl Id Js :=
  { r with printed := Function.update r.printed io (r.printed io ++ [str]) }

def Repl.printListeners (r : Repl Id Js) (message : Text) : Repl Id Js :=
  r.listeners.foldl (fun r io => r.print io (message.take (terminalBufSize - 1))) r

variable (relocks : Bool)

/-- What a script puts out, and whether it comes to its end.  Where a thread cannot
lock again what it holds, the first report blocks it. -/
def Repl.putOut : List Output → Repl Id Js → Repl Id Js × Bool
  | [], r => (r, true)
  | .print str :: later, r => putOut later (r.print r.currentIO str)
  | .report message :: later, r =>
      if relocks then putOut later (r.printListeners message) else (r, false)
  | .loop :: _, r => (r, false)

variable (engine : Engine Js)

/-- One round of the loop in `pollListener`. -/
def Repl.pollListener (r : Repl Id Js) (io : Id) (str : Text) (later : List Text) : Repl Id Js :=
  let buf := r.listenerBufs io ++ str
  let r := { r with
    currentIO := io
    outputQueue := Function.update r.outputQueue io later
    listenerBufs := Function.update r.listenerBufs io buf
    taken := Function.update r.taken io (r.taken io ++ [str]) }
  if engine.bufferIsCompilableUnit buf then
    let (outputs, res, js) := eval engine r.js buf
    let (r, whole) := { r with js, log := r.log ++ [Entry.ran io buf] }.putOut relocks outputs
    if whole then
      { r with listenerBufs := Function.update r.listenerBufs io [] }.print io res
    else { r with main := .blocked }
  else r

/-- The main loop up to its next access to something that others use. -/
def Repl.run (r : Repl Id Js) : Option (Repl Id Js) :=
  match r.main with
  | .waiting =>
      some { r with main := if r.running then .polling r.listeners else .ended }
  | .polling [] => some { r with main := .waiting }
  | .polling (io :: left) =>
      match r.outputQueue io with
      | [] => some { r with main := .polling left }
      | str :: later => some (r.pollListener relocks engine io str later)
  | .blocked => none
  | .ended => none

def Repl.Unlocked (r : Repl Id Js) : Prop := r.main = .waiting ∨ r.main = .ended

instance (r : Repl Id Js) : Decidable r.Unlocked := inferInstanceAs (Decidable (_ ∨ _))

def Repl.step (r : Repl Id Js) : Action Id → Option (Repl Id Js)
  | .connect io =>
      if r.Unlocked ∧ io ∉ r.listeners then
        -- the queue is new, but what is left in `listenerBufs` is not
        some ({ r with
          listeners := io :: r.listeners
          outputQueue := Function.update r.outputQueue io []
          log := r.log ++ [Entry.connected io] }.print io welcome)
      else none
  | .disconnect io =>
      if r.Unlocked ∧ io ∈ r.listeners then
        some { r with
          listeners := r.listeners.filter (· ≠ io)
          log := r.log ++ [Entry.disconnected io] }
      else none
  | .line io str =>
      if io ∈ r.listeners then
        some { r with outputQueue := Function.update r.outputQueue io (r.outputQueue io ++ [str]) }
      else none
  | .note str =>
      -- `currentIO` is not cleared when the listener is deleted
      if r.currentIO ∈ r.listeners then
        some ({ r with log := r.log ++ [Entry.noted r.currentIO str] }.print r.currentIO str)
      else none
  | .stopTerminal => some { r with running := false }
  | .run => r.run relocks engine

end Program

/-! ## One after another -/

/-- Lines are put together until they make a script: the scripts, and what is left. -/
def gather (isCompilable : Text → Bool) : (buf : Text) → List Text → List Text × Text
  | buf, [] => ([], buf)
  | buf, str :: later =>
      if isCompilable (buf ++ str) then
        let (scripts, left) := gather isCompilable [] later
        ((buf ++ str) :: scripts, left)
      else gather isCompilable (buf ++ str) later

theorem gather_concat (isCompilable : Text → Bool) (buf : Text) (strs : List Text) (str : Text) :
    gather isCompilable buf (strs ++ [str]) =
      let (scripts, left) := gather isCompilable buf strs
      if isCompilable (left ++ str) then (scripts ++ [left ++ str], [])
      else (scripts, left ++ str) := by
  induction strs generalizing buf with
  | nil =>
      by_cases whole : isCompilable (buf ++ str) <;> simp [gather, whole]
  | cons first strs inductionHypothesis =>
      by_cases whole : isCompilable (buf ++ first)
      · simp only [List.cons_append, gather, whole, if_true, inductionHypothesis]
        split <;> rfl
      · simp only [List.cons_append, gather, whole, inductionHypothesis]
        rfl

section Desk

variable {Id Js : Type} [DecidableEq Id]

def ranFor (io : Id) (log : List (Entry Id)) : List Text :=
  log.filterMap fun
    | .ran other script => if other = io then some script else none
    | _ => none

def sentTo (sent : List (Id × Text)) (io : Id) : List Text :=
  (sent.filter fun message => message.1 = io).map Prod.snd

def Output.addressed (io : Id) (listeners : List Id) : Output → List (Id × Text)
  | .print str => [(io, str)]
  | .report message => listeners.map fun other => (other, message.take (terminalBufSize - 1))
  | .loop => []

variable (relocks : Bool)

/-- Whether a script goes on behind what it puts out. -/
def Output.passes : Output → Bool
  | .print _ => true
  | .report _ => relocks
  | .loop => false

/-- What a script puts out before it is blocked. -/
def heard (outputs : List Output) : List Output := outputs.takeWhile (Output.passes relocks)

def whole (outputs : List Output) : Bool := outputs.all (Output.passes relocks)

/-- One interpreter that serves all listeners in turn. -/
structure Desk (Id Js : Type) where
  listeners : List Id
  js : Js
  sent : List (Id × Text)
  stuck : Bool

def Desk.start (terminal : Id) (js : Js) : Desk Id Js := ⟨[terminal], js, [], false⟩

variable (engine : Engine Js)

def Desk.serve (d : Desk Id Js) : Entry Id → Desk Id Js
  | .connected io =>
      { d with listeners := io :: d.listeners, sent := d.sent ++ [(io, welcome)] }
  | .disconnected io => { d with listeners := d.listeners.filter (· ≠ io) }
  | .noted io str => { d with sent := d.sent ++ [(io, str)] }
  | .ran io script =>
      let (outputs, res, js) := eval engine d.js script
      { d with
        js
        sent := d.sent ++ (heard relocks outputs).flatMap (Output.addressed io d.listeners) ++
          if whole relocks outputs then [(io, res)] else []
        stuck := d.stuck || !whole relocks outputs }

end Desk

section Printing

variable {Id Js : Type} [DecidableEq Id] (r : Repl Id Js)

theorem sentTo_append (first second : List (Id × Text)) (io : Id) :
    sentTo (first ++ second) io = sentTo first io ++ sentTo second io := by
  simp [sentTo]

def Repl.send (messages : List (Id × Text)) : Repl Id Js :=
  { r with printed := fun io => r.printed io ++ sentTo messages io }

theorem send_nil : r.send [] = r := by
  simp [Repl.send, sentTo]

theorem send_send (first second : List (Id × Text)) :
    (r.send first).send second = r.send (first ++ second) := by
  simp [Repl.send, sentTo_append]

theorem print_eq (io : Id) (str : Text) : r.print io str = r.send [(io, str)] := by
  simp only [Repl.print, Repl.send, Repl.mk.injEq, true_and, and_true]
  funext other
  by_cases same : io = other
  · subst same
    simp [sentTo]
  · simp [sentTo, same, Function.update_of_ne (Ne.symm same)]

theorem foldl_print (message : Text) (listeners : List Id) :
    listeners.foldl (fun r io => r.print io message) r =
      r.send (listeners.map fun io => (io, message)) := by
  induction listeners generalizing r with
  | nil => exact (send_nil r).symm
  | cons io listeners inductionHypothesis =>
      rw [List.foldl_cons, inductionHypothesis, print_eq, send_send]
      rfl

theorem heard_cons {relocks : Bool} {output : Output} (passes : output.passes relocks = true)
    (outputs : List Output) :
    heard relocks (output :: outputs) = output :: heard relocks outputs :=
  List.takeWhile_cons_of_pos passes

theorem whole_cons {relocks : Bool} {output : Output} (passes : output.passes relocks = true)
    (outputs : List Output) : whole relocks (output :: outputs) = whole relocks outputs := by
  rw [whole, List.all_cons, passes, Bool.true_and, whole]

theorem heard_of_blocks {relocks : Bool} {output : Output} (blocks : output.passes relocks = false)
    (outputs : List Output) : heard relocks (output :: outputs) = [] := by
  rw [heard, List.takeWhile_cons_of_neg (by simp [blocks])]

theorem whole_of_blocks {relocks : Bool} {output : Output} (blocks : output.passes relocks = false)
    (outputs : List Output) : whole relocks (output :: outputs) = false := by
  rw [whole, List.all_cons, blocks, Bool.false_and]

theorem putOut_eq (relocks : Bool) (outputs : List Output) :
    r.putOut relocks outputs =
      (r.send ((heard relocks outputs).flatMap (Output.addressed r.currentIO r.listeners)),
        whole relocks outputs) := by
  have none : r.send [] = r := send_nil r
  induction outputs generalizing r with
  | nil => simp [Repl.putOut, heard, whole, none]
  | cons output outputs inductionHypothesis =>
      cases output with
      | print str =>
          rw [Repl.putOut, inductionHypothesis _ (send_nil _), heard_cons rfl, whole_cons rfl,
            List.flatMap_cons, print_eq, send_send]
          rfl
      | report message =>
          cases relocks with
          | true =>
              rw [Repl.putOut, if_pos rfl, inductionHypothesis _ (send_nil _), heard_cons rfl,
                whole_cons rfl, Repl.printListeners, foldl_print, send_send]
              rfl
          | false =>
              rw [Repl.putOut, heard_of_blocks rfl, whole_of_blocks rfl, List.flatMap_nil, none]
              rfl
      | loop => rw [Repl.putOut, heard_of_blocks rfl, whole_of_blocks rfl, List.flatMap_nil, none]

end Printing

/-! ## Runs -/

section Runs

variable {Id Js : Type} [DecidableEq Id] (relocks : Bool) (engine : Engine Js) (terminal : Id)
  (js : Js)

def desk (log : List (Entry Id)) : Desk Id Js :=
  log.foldl (Desk.serve relocks engine) (.start terminal js)

/-- An entry for something that only prints. -/
def Entry.IsNote : Entry Id → Prop
  | .noted _ _ => True
  | _ => False

/-- The invariant: what has been done is what one interpreter does that serves all
listeners in turn. -/
structure Repl.InTurn (r : Repl Id Js) : Prop where
  state : r.js = (desk relocks engine terminal js r.log).js
  listeners : r.listeners = (desk relocks engine terminal js r.log).listeners
  printed : ∀ io, r.printed io = sentTo (desk relocks engine terminal js r.log).sent io
  blocked : (desk relocks engine terminal js r.log).stuck = true ↔ r.main = .blocked
  ended : r.main = .ended → r.running = false
  gathered : ∀ io, (gather engine.bufferIsCompilableUnit [] (r.taken io)).1 = ranFor io r.log
  buffered : r.main ≠ .blocked →
    ∀ io, (gather engine.bufferIsCompilableUnit [] (r.taken io)).2 = r.listenerBufs io
  behind : ∀ front back, r.log = front ++ back →
    (desk relocks engine terminal js front).stuck = true → ∀ entry ∈ back, entry.IsNote

variable {relocks engine terminal js}

theorem inTurn_start : (Repl.start terminal js).InTurn relocks engine terminal js where
  state := rfl
  listeners := rfl
  printed _ := rfl
  blocked := ⟨nofun, nofun⟩
  ended := nofun
  gathered _ := rfl
  buffered _ _ := rfl
  behind front back same stuck := by
    rw [(List.append_eq_nil_iff.mp same.symm).1] at stuck
    cases stuck

theorem desk_concat (log : List (Entry Id)) (entry : Entry Id) :
    desk relocks engine terminal js (log ++ [entry]) =
      (desk relocks engine terminal js log).serve relocks engine entry := by
  simp [desk]

theorem stuck_serve {d : Desk Id Js} (stuck : d.stuck = true) (entry : Entry Id) :
    (d.serve relocks engine entry).stuck = true := by
  cases entry with
  | ran io script => simp [Desk.serve, stuck]
  | _ => exact stuck

theorem stuck_append {front : List (Entry Id)}
    (stuck : (desk relocks engine terminal js front).stuck = true) (back : List (Entry Id)) :
    (desk relocks engine terminal js (front ++ back)).stuck = true := by
  rw [desk, List.foldl_append]
  change (List.foldl _ (desk relocks engine terminal js front) back).stuck = true
  generalize desk relocks engine terminal js front = d at stuck
  induction back generalizing d with
  | nil => exact stuck
  | cons entry back inductionHypothesis => exact inductionHypothesis _ (stuck_serve stuck entry)

/-- Behind a script that blocks there are only notes, also with one entry more that
is a note or comes while nothing is blocked. -/
theorem behind_concat {log : List (Entry Id)} {entry : Entry Id}
    (behind : ∀ front back, log = front ++ back →
      (desk relocks engine terminal js front).stuck = true → ∀ entry ∈ back, entry.IsNote)
    (fine : entry.IsNote ∨ ¬(desk relocks engine terminal js log).stuck = true)
    (front back : List (Entry Id)) (same : log ++ [entry] = front ++ back)
    (stuck : (desk relocks engine terminal js front).stuck = true) :
    ∀ entry ∈ back, entry.IsNote := by
  rcases List.eq_nil_or_concat' back with rfl | ⟨earlier, last, rfl⟩
  · exact nofun
  · rw [← List.append_assoc] at same
    obtain ⟨rfl, final⟩ := List.append_inj' same rfl
    cases final
    intro other member
    rcases List.mem_append.mp member with before | last
    · exact behind front earlier rfl stuck other before
    · rw [List.mem_singleton.mp last]
      exact fine.resolve_right fun free => free (stuck_append stuck earlier)

theorem ranFor_append (io : Id) (first second : List (Entry Id)) :
    ranFor io (first ++ second) = ranFor io first ++ ranFor io second := by
  simp [ranFor]

namespace Repl.InTurn

variable {r : Repl Id Js} (inTurn : r.InTurn relocks engine terminal js)
include inTurn

theorem move (free : r.main ≠ .blocked) {main : Main Id} (still : main ≠ .blocked)
    (ends : main = .ended → r.running = false) :
    Repl.InTurn relocks engine terminal js { r with main } :=
  { inTurn with
    blocked := ⟨fun stuck => absurd (inTurn.blocked.mp stuck) free, fun same => absurd same still⟩
    ended := ends
    buffered := fun _ => inTurn.buffered free }

theorem grow (entry : Entry Id) (fine : entry.IsNote ∨ r.main ≠ .blocked)
    (silent : ∀ io, ranFor io [entry] = []) {listeners : List Id} {messages : List (Id × Text)}
    (served : ∀ d : Desk Id Js, d.listeners = r.listeners →
      d.serve relocks engine entry = { d with listeners, sent := d.sent ++ messages })
    (outputQueue : Id → List Text) :
    Repl.InTurn relocks engine terminal js
      (({ r with listeners, outputQueue, log := r.log ++ [entry] } : Repl Id Js).send
        messages) := by
  have grown : desk relocks engine terminal js (r.log ++ [entry]) = _ :=
    (desk_concat r.log entry).trans (served _ inTurn.listeners.symm)
  exact
    { state := by rw [Repl.send, grown]; exact inTurn.state
      listeners := by rw [Repl.send, grown]
      printed := fun io => by simp only [Repl.send, grown, sentTo_append, inTurn.printed]
      blocked := by rw [Repl.send, grown]; exact inTurn.blocked
      ended := inTurn.ended
      gathered := fun io => by
        simp only [Repl.send, ranFor_append, inTurn.gathered, silent, List.append_nil]
      buffered := inTurn.buffered
      behind := behind_concat inTurn.behind (fine.imp_right (mt inTurn.blocked.mp)) }

theorem gather_taken (free : r.main ≠ .blocked) (io : Id) (str : Text) :
    gather engine.bufferIsCompilableUnit [] (r.taken io ++ [str]) =
      if engine.bufferIsCompilableUnit (r.listenerBufs io ++ str) then
        (ranFor io r.log ++ [r.listenerBufs io ++ str], [])
      else (ranFor io r.log, r.listenerBufs io ++ str) := by
  have before : gather engine.bufferIsCompilableUnit [] (r.taken io) =
      (ranFor io r.log, r.listenerBufs io) :=
    Prod.ext (inTurn.gathered io) (inTurn.buffered free io)
  rw [gather_concat, before]

theorem take {io : Id} {str : Text} (free : r.main ≠ .blocked)
    (more : engine.bufferIsCompilableUnit (r.listenerBufs io ++ str) = false)
    (outputQueue : Id → List Text) :
    Repl.InTurn relocks engine terminal js { r with
      currentIO := io
      outputQueue
      listenerBufs := Function.update r.listenerBufs io (r.listenerBufs io ++ str)
      taken := Function.update r.taken io (r.taken io ++ [str]) } := by
  have taken := inTurn.gather_taken free io str
  rw [more] at taken
  exact
    { inTurn with
      gathered := fun other => by
        by_cases same : other = io
        · subst same
          simp only [Function.update_self, taken]
          rfl
        · simp only [Function.update_of_ne same]
          exact inTurn.gathered other
      buffered := fun _ other => by
        by_cases same : other = io
        · subst same
          simp only [Function.update_self, taken]
          rfl
        · simp only [Function.update_of_ne same]
          exact inTurn.buffered free other }

theorem ran {io : Id} {str : Text} (free : r.main ≠ .blocked)
    (made : engine.bufferIsCompilableUnit (r.listenerBufs io ++ str) = true)
    (outputQueue : Id → List Text) {outputs : List Output} {res : Text} {after : Js}
    (evaluated : eval engine r.js (r.listenerBufs io ++ str) = (outputs, res, after)) :
    let script := r.listenerBufs io ++ str
    let printed := (heard relocks outputs).flatMap (Output.addressed io r.listeners)
    Repl.InTurn relocks engine terminal js
      (({ r with
        currentIO := io
        outputQueue
        listenerBufs := Function.update r.listenerBufs io
          (if whole relocks outputs then [] else script)
        taken := Function.update r.taken io (r.taken io ++ [str])
        js := after
        main := if whole relocks outputs then r.main else .blocked
        log := r.log ++ [Entry.ran io script] } : Repl Id Js).send
          (printed ++ if whole relocks outputs then [(io, res)] else [])) := by
  have taken := inTurn.gather_taken free io str
  rw [made, if_pos rfl] at taken
  have unstuck : (desk relocks engine terminal js r.log).stuck = false :=
    Bool.eq_false_iff.mpr (mt inTurn.blocked.mp free)
  have served : desk relocks engine terminal js
      (r.log ++ [Entry.ran io (r.listenerBufs io ++ str)]) = _ := desk_concat r.log _
  rw [Desk.serve, ← inTurn.state, ← inTurn.listeners, unstuck, evaluated] at served
  dsimp only at served ⊢
  have ranOther (other : Id) : ranFor other (r.log ++ [Entry.ran io (r.listenerBufs io ++ str)]) =
      if other = io then ranFor other r.log ++ [r.listenerBufs io ++ str]
      else ranFor other r.log := by
    by_cases same : io = other <;> simp [ranFor, same, eq_comm]
  exact
    { state := by rw [Repl.send, served]
      listeners := by rw [Repl.send, served]
      printed := fun other => by
        simp only [Repl.send, served, sentTo_append, inTurn.printed, List.append_assoc]
      blocked := by
        rw [Repl.send, served]
        cases whole relocks outputs with
        | true => exact ⟨nofun, fun same => absurd same free⟩
        | false => exact ⟨fun _ => rfl, fun _ => rfl⟩
      ended := fun ends => inTurn.ended (by
        simp only [Repl.send] at ends
        split at ends
        · exact ends
        · cases ends)
      gathered := fun other => by
        simp only [Repl.send, ranOther]
        by_cases same : other = io
        · subst same
          simp only [Function.update_self, taken, if_true]
        · simp only [Function.update_of_ne same, if_neg same]
          exact inTurn.gathered other
      buffered := fun notBlocked other => by
        simp only [Repl.send] at notBlocked ⊢
        split at notBlocked
        next unblocked =>
          by_cases same : other = io
          · subst same
            simp only [Function.update_self, taken, if_pos unblocked]
          · simp only [Function.update_of_ne same]
            exact inTurn.buffered free other
        next => exact absurd rfl notBlocked
      behind := behind_concat inTurn.behind (.inr (mt inTurn.blocked.mp free)) }

theorem pollListener (free : r.main ≠ .blocked) (io : Id) (str : Text) (later : List Text) :
    (r.pollListener relocks engine io str later).InTurn relocks engine terminal js := by
  cases made : engine.bufferIsCompilableUnit (r.listenerBufs io ++ str) with
  | false =>
      simp only [Repl.pollListener, made, Bool.false_eq_true, if_false]
      exact inTurn.take free made _
  | true =>
      rcases evaluated : eval engine r.js (r.listenerBufs io ++ str) with ⟨outputs, res, after⟩
      have ran := inTurn.ran free made (Function.update r.outputQueue io later) evaluated
      simp only [Repl.pollListener, made, if_true, evaluated, putOut_eq]
      cases comes : whole relocks outputs with
      | true => simpa [comes, print_eq, Repl.send, sentTo_append] using ran
      | false => simpa [comes, Repl.send] using ran

theorem run {after : Repl Id Js} (ran : r.run relocks engine = some after) :
    after.InTurn relocks engine terminal js := by
  unfold Repl.run at ran
  split at ran
  next waiting =>
    cases ran
    refine inTurn.move (by rw [waiting]; nofun) (by split <;> nofun) fun ends => ?_
    split at ends
    · cases ends
    next stopped => exact Bool.eq_false_iff.mpr stopped
  next polling =>
    cases ran
    exact inTurn.move (by rw [polling]; nofun) nofun nofun
  next io left polling =>
    have free : r.main ≠ .blocked := by rw [polling]; nofun
    split at ran
    · cases ran
      exact inTurn.move free nofun nofun
    next str later _ =>
      cases ran
      exact inTurn.pollListener free io str later
  next => cases ran
  next => cases ran

theorem step {action : Action Id} {after : Repl Id Js}
    (taken : r.step relocks engine action = some after) :
    after.InTurn relocks engine terminal js := by
  cases action with
  | connect io =>
      simp only [Repl.step] at taken
      split at taken
      next allowed =>
        cases taken
        have free : r.main ≠ .blocked := by
          rcases allowed.1 with same | same <;> rw [same] <;> exact nofun
        rw [print_eq]
        exact inTurn.grow (.connected io) (.inr free) (fun _ => rfl)
          (fun d same => by rw [Desk.serve, same]) _
      next => cases taken
  | disconnect io =>
      simp only [Repl.step] at taken
      split at taken
      next allowed =>
        cases taken
        have free : r.main ≠ .blocked := by
          rcases allowed.1 with same | same <;> rw [same] <;> exact nofun
        have grown := inTurn.grow (.disconnected io) (.inr free) (fun _ => rfl)
          (fun d same => by rw [Desk.serve, same, List.append_nil]) r.outputQueue
        rwa [send_nil] at grown
      next => cases taken
  | line io str =>
      simp only [Repl.step] at taken
      split at taken
      · cases taken
        exact { inTurn with }
      · cases taken
  | note str =>
      simp only [Repl.step] at taken
      split at taken
      · cases taken
        rw [print_eq]
        exact inTurn.grow (.noted r.currentIO str) (.inl trivial) (fun _ => rfl)
          (fun d same => by rw [Desk.serve, ← same]) _
      · cases taken
  | stopTerminal =>
      cases taken
      exact { inTurn with ended := fun _ => rfl }
  | run => exact inTurn.run taken

end Repl.InTurn

end Runs

def countingEngine : Engine Nat where
  bufferIsCompilableUnit buf := buf.getLast? = some 59
  evaluateScript js src :=
    { outputs := [.print src]
      value := if 33 ∈ src then none else some (some [UInt8.ofNat (48 + js)])
      js := js + 1 }
  reported message := message

/-- The terminal, which is `false`, and a client send lines in turn; the client's
script fails, and the message about it goes to both. -/
def twoClients : List (Action Bool) :=
  [.line false [97], .connect true, .line true [33, 59], .line false [98, 59]] ++
    List.replicate 8 .run

end Avarice.Script.Console

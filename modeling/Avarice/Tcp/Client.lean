import Avarice.Library.CString
import Avarice.Library.Lines
import Avarice.Library.Transition

/-!
# TCP clients

`TCPClient::doWork` of `tcp2.cc`: what has been queued for the client is
written to its socket, and what it sends is read into a buffer of 256 bytes and
put on the output queue as lines.
-/

namespace Avarice.Tcp

open Lines

abbrev newline : UInt8 := 10

abbrev bufferSize : Nat := 256

/-- The state of a client.  `received` is all that has been read, and `outside`
tells whether the read buffer has been accessed outside its bounds. -/
structure Client where
  line : List UInt8 := []
  outputQueue : List (List UInt8) := []
  sent : List UInt8 := []
  received : List UInt8 := []
  outside : Bool := false
  closed : Bool := false
  deriving DecidableEq, Repr

/-- What one pass through the loop meets: the strings in the input queue, each
with the result of its `write`, and what `read` gets if the socket is readable,
which is nothing at its end. -/
structure Pass where
  replies : List (List UInt8 × Int) := []
  readable : Option (List UInt8) := none

/-- The queued strings are written; the client is deleted if one of them is not
written whole, or is empty. -/
def Client.write (c : Client) : List (List UInt8 × Int) → Client
  | [] => c
  | (str, ret) :: later =>
      let text := CString.content str
      let c := { c with sent := c.sent ++ text.take ret.toNat }
      if ret ≤ 0 ∨ ret ≠ text.length then { c with closed := true } else c.write later

def prompt : List UInt8 := "repl> ".toList.map fun ch => ch.toNat.toUInt8

def Client.respond (c : Client) (replies : List (List UInt8 × Int)) : Client :=
  let c := c.write replies
  if c.closed ∨ replies = [] then c else { c with sent := c.sent ++ prompt }

/-- A piece is terminated in the buffer and added to the line, which is put on
the queue up to its last newline. -/
def Client.receive (c : Client) (piece : List UInt8) : Client :=
  let c := { c with
    received := c.received ++ piece
    outside := c.outside || decide (bufferSize ≤ piece.length) }
  let line := c.line ++ CString.content piece
  match findLast newline line with
  | none => { c with line }
  | some pos =>
      { c with outputQueue := c.outputQueue ++ [line.take pos], line := line.drop pos }

def Client.Reads (c : Client) (pass : Pass) : Prop :=
  c.closed = false ∧ (c.respond pass.replies).closed = false

instance (c : Client) (pass : Pass) : Decidable (c.Reads pass) :=
  inferInstanceAs (Decidable (_ ∧ _))

def Client.doWork (c : Client) (pass : Pass) : Client :=
  if c.closed then c
  else if c.Reads pass then
    match pass.readable with
    | none => c.respond pass.replies
    | some [] => { c.respond pass.replies with closed := true }
    | some piece => (c.respond pass.replies).receive piece
  else c.respond pass.replies

/-- A read gets what fits into the buffer; the client sends no nulls. -/
def Possible (_ : Client) (pass : Pass) : Prop :=
  ∀ piece ∈ pass.readable, piece.length ≤ bufferSize ∧ 0 ∉ piece

/-- The queue has got the lines of what has been received, the rest is kept,
and the buffer was accessed inside only. -/
structure Delivered (c : Client) : Prop where
  lines : c.outputQueue = (split newline c.received).1
  kept : c.line = (split newline c.received).2
  inside : c.outside = false

/-- No piece that is read ends a line or fills the buffer. -/
def Unterminated (c : Client) (pass : Pass) : Prop :=
  c.Reads pass → ∀ piece ∈ pass.readable, newline ∉ piece ∧ piece.length < bufferSize

/-! ## Passes -/

section Passes

variable {c : Client}

theorem write_same (c : Client) (replies : List (List UInt8 × Int)) :
    (c.write replies).line = c.line ∧ (c.write replies).outputQueue = c.outputQueue ∧
      (c.write replies).received = c.received ∧ (c.write replies).outside = c.outside := by
  induction replies generalizing c with
  | nil => exact ⟨rfl, rfl, rfl, rfl⟩
  | cons reply later inductionHypothesis =>
      simp only [Client.write]
      split
      · exact ⟨rfl, rfl, rfl, rfl⟩
      · exact inductionHypothesis _

theorem respond_delivered (replies : List (List UInt8 × Int)) :
    Delivered (c.respond replies) ↔ Delivered c := by
  obtain ⟨line, queue, received, outside⟩ := write_same c replies
  have same : (c.respond replies).line = c.line ∧
      (c.respond replies).outputQueue = c.outputQueue ∧
      (c.respond replies).received = c.received ∧
      (c.respond replies).outside = c.outside := by
    simp only [Client.respond]
    split <;> exact ⟨line, queue, received, outside⟩
  obtain ⟨line, queue, received, outside⟩ := same
  constructor <;> intro delivered
  · exact ⟨by rw [← queue, delivered.lines, received], by rw [← line, delivered.kept, received],
      outside ▸ delivered.inside⟩
  · exact ⟨by rw [queue, delivered.lines, received], by rw [line, delivered.kept, received],
      outside ▸ delivered.inside⟩

theorem receive_delivered (delivered : Delivered c) {piece : List UInt8}
    (nonzero : 0 ∉ piece) :
    Delivered (c.receive piece) ↔ newline ∉ piece ∧ piece.length < bufferSize := by
  have unterminated : newline ∉ c.line := by
    rw [delivered.kept]
    exact terminator_not_mem_rest List.not_mem_nil
  have string := CString.content_of_not_mem nonzero
  by_cases ends : newline ∈ piece
  · obtain ⟨index, found, behind⟩ :=
      findLast_of_mem (List.mem_append_right c.line ends)
    refine iff_of_false ?_ fun guarded => guarded.1 ends
    intro later
    have kept := later.kept
    simp only [Client.receive, string, found] at kept
    rw [kept] at behind
    exact terminator_not_mem_rest List.not_mem_nil behind
  · have absent : newline ∉ c.line ++ piece := by simp [unterminated, ends]
    have split : split newline (c.received ++ piece) =
        ((split newline c.received).1, (split newline c.received).2 ++ piece) := by
      simp [split, splitFrom_append, splitFrom_of_not_mem ends]
    have received : c.receive piece =
        { c with
          line := c.line ++ piece
          received := c.received ++ piece
          outside := c.outside || decide (bufferSize ≤ piece.length) } := by
      simp [Client.receive, string, findLast_eq_none absent]
    rw [received]
    constructor
    · intro later
      have inside := later.inside
      simp only [Bool.or_eq_false_iff, decide_eq_false_iff_not, Nat.not_le] at inside
      exact ⟨ends, inside.2⟩
    · intro guarded
      refine ⟨?_, ?_, ?_⟩
      · simp only [split]
        exact delivered.lines
      · simp only [split, delivered.kept]
      · simp [delivered.inside, Nat.not_le.mpr guarded.2]

theorem doWork_delivered_iff (pass : Pass) (delivered : Delivered c)
    (possible : Possible c pass) : Delivered (c.doWork pass) ↔ Unterminated c pass := by
  have responded := (respond_delivered pass.replies).mpr delivered
  simp only [Client.doWork, Unterminated]
  by_cases reads : c.Reads pass
  · simp only [reads.1, reads, if_true, Bool.false_eq_true, if_false, true_implies]
    cases got : pass.readable with
    | none => simpa using responded
    | some piece =>
        obtain ⟨-, nonzero⟩ := possible piece got
        cases piece with
        | nil =>
            refine iff_of_true ⟨responded.lines, responded.kept, responded.inside⟩ ?_
            intro piece membership
            cases membership
            exact ⟨List.not_mem_nil, by decide⟩
        | cons byte rest => simpa using receive_delivered responded nonzero
  · simp only [reads, if_false, false_implies, iff_true]
    split
    · exact delivered
    · exact responded

end Passes

/-- A client's input is delivered line by line if and only if it sends no line,
and no piece of it fills the buffer. -/
theorem delivered_iff (passes : List Pass)
    (possible : Transition.Along Client.doWork Possible {} passes) :
    Transition.Always Client.doWork Delivered {} passes ↔
      Transition.Along Client.doWork Unterminated {} passes :=
  Transition.always_iff_along_of_along
    (fun _ pass delivered may => doWork_delivered_iff pass delivered may)
    possible ⟨rfl, rfl, rfl⟩

/-- A line in two pieces, of which the client sends only the first. -/
theorem delivered_iff_part :
    Transition.Always Client.doWork Delivered {}
      [{ readable := some [97] }, { replies := [([62], 1)] }, { readable := some [98] }] :=
  (delivered_iff _ (by simp [Transition.Along, Possible, bufferSize])).mpr
    (by simp [Transition.Along, Unterminated, bufferSize, newline])

/-- Two lines in one piece are one string on the queue. -/
theorem delivered_fails :
    ¬∀ passes : List Pass, Transition.Along Client.doWork Possible {} passes →
      Transition.Always Client.doWork Delivered {} passes := by
  intro always
  have run := always [{ readable := some [97, 10, 98, 10] }]
    (by simp [Transition.Along, Possible, bufferSize])
  have lines := run.2.lines
  revert lines
  decide

end Avarice.Tcp

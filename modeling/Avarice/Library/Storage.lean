import Avarice.Library.PagedMemory
import Avarice.Library.Serving

/-!
# Memories as servers

Reads and writes of a memory as requests.  A memory may refuse a request, and
then does nothing.
-/

universe u

namespace Storage

open PagedMemory Serving

inductive Access (Byte : Type u) where
  | read (start count : Nat)
  | write (start : Nat) (bytes : List Byte)

variable {Byte : Type u}

def Access.effect (access : Access Byte) (memory : Nat → Byte) : Nat → Byte :=
  match access with
  | .read _ _ => memory
  | .write start bytes => overwrite memory start bytes

def Access.data (access : Access Byte) (memory : Nat → Byte) : List Byte :=
  match access with
  | .read start count => slice memory start count
  | .write _ _ => []

/-- The number of the first address that an access does not get to. -/
def Access.last : Access Byte → Nat
  | .read start count => start + count
  | .write start bytes => start + bytes.length

def Access.size : Access Byte → Nat
  | .read _ count => count
  | .write _ bytes => bytes.length

theorem Access.effect_effect (access : Access Byte) (memory : Nat → Byte) :
    access.effect (access.effect memory) = access.effect memory := by
  cases access with
  | read start count => rfl
  | write start bytes =>
      funext address
      simp only [effect, overwrite]
      split
      · cases bytes[address - start]? <;> rfl
      · rfl

/-- An access is carried out, or refused, for which nothing stands. -/
def Serves (memory : Nat → Byte) (access : Access Byte) (answer : Option (List Byte))
    (after : Nat → Byte) : Prop :=
  match answer with
  | some bytes => bytes = access.data memory ∧ after = access.effect memory
  | none => after = memory

def replay (memory : Nat → Byte) : List (Access Byte × Option (List Byte)) → Nat → Byte
  | [] => memory
  | (access, answer) :: rest =>
      replay (if answer.isSome then access.effect memory else memory) rest

/-- All data read is what the writes before it have left, and so is the memory
in the end.  The access behind the last answer may have been carried out. -/
structure Consistent (memory : Nat → Byte) (accesses : List (Access Byte))
    (answers : List (Option (List Byte))) (last : Nat → Byte) : Prop where
  few : answers.length ≤ accesses.length
  data : ∀ (k : Nat) (access : Access Byte) (bytes : List Byte), accesses[k]? = some access →
    answers[k]? = some (some bytes) →
      bytes = access.data (replay memory ((accesses.zip answers).take k))
  left : last = replay memory (accesses.zip answers) ∨
    ∃ access, accesses[answers.length]? = some access ∧
      last = access.effect (replay memory (accesses.zip answers))

theorem Serves.replay {memory after : Nat → Byte} {access : Access Byte}
    {answer : Option (List Byte)} (serves : Serves memory access answer after) :
    after = if answer.isSome then access.effect memory else memory := by
  cases answer with
  | none => exact serves
  | some bytes => exact serves.2

theorem consistent_of_explained {memory last : Nat → Byte} {accesses : List (Access Byte)}
    {answers : List (Option (List Byte))}
    (explained : Explained Serves memory accesses answers last) :
    Consistent memory accesses answers last := by
  induction explained with
  | ended memory =>
      refine ⟨Nat.le_refl 0, ?_, .inl rfl⟩
      intro k access bytes found
      simp at found
  | cut requests effect =>
      refine ⟨Nat.zero_le _, ?_, ?_⟩
      · intro k access bytes _ answered
        simp at answered
      · rcases effect with same | ⟨answer, served⟩
        · exact .inl same
        · cases answer with
          | none => exact .inl served
          | some bytes => exact .inr ⟨_, rfl, served.2⟩
  | @served memory next last request answer requests answers step later inductionHypothesis =>
      obtain rfl := step.replay
      obtain ⟨few, data, left⟩ := inductionHypothesis
      refine ⟨Nat.succ_le_succ few, ?_, ?_⟩
      · intro k access bytes found answered
        cases k with
        | zero =>
            cases found
            cases answered
            exact step.1
        | succ k => exact data k access bytes found answered
      · exact left

end Storage

import Mathlib.Data.List.TakeWhile
import Mathlib.Data.UInt

/-!
# Strings of C

A string is the bytes of an array before its first null.  Deleting a character
in place moves what is behind it; a comparison that ignores case compares the
lower-case letters.
-/

namespace CString

def content (array : List UInt8) : List UInt8 := array.takeWhile (· ≠ 0)

theorem content_of_not_mem {array : List UInt8} (absent : 0 ∉ array) : content array = array := by
  apply List.takeWhile_eq_self_iff.mpr
  intro byte membership
  have nonzero : byte ≠ 0 := fun zero => absent (zero ▸ membership)
  exact decide_eq_true nonzero

section Delete

variable {Symbol : Type} [DecidableEq Symbol] {symbol : Symbol}

theorem lt_of_idxOf? {text : List Symbol} {offset : Nat}
    (found : text.idxOf? symbol = some offset) : offset < text.length := by
  obtain ⟨inside, -⟩ := List.findIdx?_eq_some_iff_getElem.mp found
  exact inside

def deleteAll (symbol : Symbol) (text : List Symbol) (position : Nat) : List Symbol :=
  match _found : (text.drop position).idxOf? symbol with
  | none => text
  | some offset =>
      deleteAll symbol (text.eraseIdx (position + offset)) (position + offset)
termination_by text.length - position
decreasing_by
  have inside := lt_of_idxOf? _found
  rw [List.length_drop] at inside
  rw [List.length_eraseIdx_of_lt (by omega)]
  omega

theorem filter_of_idxOf? {text : List Symbol} {offset : Nat}
    (found : text.idxOf? symbol = some offset) :
    text.filter (· ≠ symbol) =
      text.take offset ++ (text.drop (offset + 1)).filter (· ≠ symbol) := by
  obtain ⟨inside, here, before⟩ := List.findIdx?_eq_some_iff_getElem.mp found
  have front : (text.take offset).filter (· ≠ symbol) = text.take offset := by
    apply List.filter_eq_self.mpr
    intro other membership
    obtain ⟨index, short, rfl⟩ := List.mem_take_iff_getElem.mp membership
    simpa using before index (by omega)
  have split : text = text.take offset ++ text[offset] :: text.drop (offset + 1) := by
    rw [← List.drop_eq_getElem_cons inside, List.take_append_drop]
  have same : text[offset] = symbol := by simpa using here
  calc text.filter (· ≠ symbol)
      = (text.take offset ++ text[offset] :: text.drop (offset + 1)).filter (· ≠ symbol) := by
        rw [← split]
    _ = _ := by rw [List.filter_append, front, same]; simp

theorem deleteAll_eq (text : List Symbol) (position : Nat) :
    deleteAll symbol text position =
      text.take position ++ (text.drop position).filter (· ≠ symbol) := by
  fun_induction deleteAll symbol text position with
  | case1 text position found =>
      have absent : symbol ∉ text.drop position := by
        simpa using found
      have kept : (text.drop position).filter (· ≠ symbol) = text.drop position := by
        apply List.filter_eq_self.mpr
        intro other membership
        have differs : other ≠ symbol := fun same => absent (same ▸ membership)
        exact decide_eq_true differs
      rw [kept, List.take_append_drop]
  | case2 text position offset found inductionHypothesis =>
      have inside := lt_of_idxOf? found
      rw [List.length_drop] at inside
      have front : (text.take (position + offset)).length = position + offset := by
        rw [List.length_take]
        omega
      rw [inductionHypothesis, filter_of_idxOf? found, ← List.append_assoc, ← List.take_add,
        List.eraseIdx_eq_take_drop_succ, List.take_left' front, List.drop_left' front,
        List.drop_drop, Nat.add_assoc]

end Delete

/-! ## Ignoring case -/

def lower (byte : UInt8) : UInt8 :=
  if 0x41 ≤ byte ∧ byte ≤ 0x5a then byte + 0x20 else byte

def sameIgnoringCase (first second : List UInt8) : Bool :=
  first.map lower == second.map lower

def EndsWith (text final : List UInt8) : Prop := final.map lower <:+ text.map lower

instance (text final : List UInt8) : Decidable (EndsWith text final) :=
  inferInstanceAs (Decidable (_ <:+ _))

theorem EndsWith.length_le {text final : List UInt8} (ends : EndsWith text final) :
    final.length ≤ text.length := by
  simpa using List.IsSuffix.length_le ends

theorem sameIgnoringCase_drop_iff {text final : List UInt8} :
    sameIgnoringCase (text.drop (text.length - final.length)) final = true ↔
      EndsWith text final := by
  simp only [sameIgnoringCase, EndsWith, beq_iff_eq, List.suffix_iff_eq_drop, List.length_map,
    List.map_drop]
  exact eq_comm

end CString

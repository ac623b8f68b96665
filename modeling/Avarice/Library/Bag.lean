import Avarice.Library.Serving
import Mathlib.Data.Multiset.AddSub

/-!
# Bags with limited room

A bag takes items as long as it has room for them, and gives back those that are
in it.
-/

universe u

namespace Bag

open Serving

inductive Request (Item : Type u) where
  | put (item : Item)
  | take (item : Item)
  deriving DecidableEq, Repr

variable {Item : Type u} [DecidableEq Item] (Room : Multiset Item → Item → Prop)

section Server

variable [∀ held, DecidablePred (Room held)]

/-- Whether a request is carried out, and the bag behind it. -/
def serve (held : Multiset Item) : Request Item → Bool × Multiset Item
  | .put item => (decide (Room held item), if Room held item then item ::ₘ held else held)
  | .take item => (decide (item ∈ held), held.erase item)

def Serves (held : Multiset Item) (request : Request Item) (answer : Bool)
    (after : Multiset Item) : Prop :=
  (answer, after) = serve Room held request

section Serves

variable {Room} {held after : Multiset Item} {item : Item}

theorem serves_put (room : Room held item) (added : after = item ::ₘ held) :
    Serves Room held (.put item) true after := by
  simp [Serves, serve, room, added]

theorem serves_put_full (full : ¬Room held item) : Serves Room held (.put item) false held := by
  simp [Serves, serve, full]

theorem serves_take (present : held = item ::ₘ after) :
    Serves Room held (.take item) true after := by
  simp [Serves, serve, present]

theorem serves_take_missing (missing : item ∉ held) :
    Serves Room held (.take item) false held := by
  simp [Serves, serve, missing]

end Serves

def run (held : Multiset Item) : List (Request Item) → List Bool × Multiset Item
  | [] => ([], held)
  | request :: requests =>
      let served := serve Room held request
      let later := run served.2 requests
      (served.1 :: later.1, later.2)

variable {Room} {held last : Multiset Item} {requests : List (Request Item)} {answers : List Bool}

theorem run_of_explained (explained : Explained (Serves Room) held requests answers last) :
    answers <+: (run Room held requests).1 ∧
      (answers.length = requests.length → (answers, last) = run Room held requests) := by
  induction explained with
  | ended held => exact ⟨List.prefix_refl _, fun _ => rfl⟩
  | cut requests effect => exact ⟨List.nil_prefix, fun none => by cases none⟩
  | @served held next last request answer requests answers step later inductionHypothesis =>
      obtain ⟨front, whole⟩ := inductionHypothesis
      rw [run, ← step]
      refine ⟨List.cons_prefix_cons.mpr ⟨rfl, front⟩, fun same => ?_⟩
      simp only [← whole (Nat.succ.inj same)]

def stored (item : Item) (requests : List (Request Item)) (answers : List Bool) : Nat :=
  (requests.zip answers).countP fun served => decide (served.1 = .put item) && served.2

def taken (item : Item) (requests : List (Request Item)) (answers : List Bool) : Nat :=
  (requests.zip answers).countP fun served => decide (served.1 = .take item) && served.2

theorem count_serve (item : Item) (held : Multiset Item) (request : Request Item) :
    (serve Room held request).2.count item + taken item [request] [(serve Room held request).1] =
      held.count item + stored item [request] [(serve Room held request).1] := by
  cases request with
  | put other =>
      by_cases room : Room held other
      · by_cases same : other = item
        · subst same
          simp [serve, taken, stored, room]
        · simp [serve, taken, stored, room, same, Multiset.count_cons_of_ne (Ne.symm same)]
      · simp [serve, taken, stored, room]
  | take other =>
      by_cases same : other = item
      · subst same
        by_cases present : other ∈ held
        · have some := Multiset.one_le_count_iff_mem.mpr present
          simp [serve, taken, stored, present, Multiset.count_erase_self]
          omega
        · simp [serve, taken, stored, present]
      · simp [serve, taken, stored, same, Multiset.count_erase_of_ne (Ne.symm same)]

theorem stored_cons (item : Item) (request : Request Item) (answer : Bool) :
    stored item (request :: requests) (answer :: answers) =
      stored item [request] [answer] + stored item requests answers := by
  simp [stored, List.countP_cons, Nat.add_comm]

theorem taken_cons (item : Item) (request : Request Item) (answer : Bool) :
    taken item (request :: requests) (answer :: answers) =
      taken item [request] [answer] + taken item requests answers := by
  simp [taken, List.countP_cons, Nat.add_comm]

/-- An item is in the bag as often as it has been put in and not taken out. -/
theorem count_run (item : Item) (held : Multiset Item) (requests : List (Request Item)) :
    (run Room held requests).2.count item + taken item requests (run Room held requests).1 =
      held.count item + stored item requests (run Room held requests).1 := by
  induction requests generalizing held with
  | nil => rfl
  | cons request requests inductionHypothesis =>
      have first := @count_serve _ _ Room _ item held request
      have later := inductionHypothesis (serve Room held request).2
      rw [run, taken_cons, stored_cons]
      dsimp only
      omega

end Server

end Bag

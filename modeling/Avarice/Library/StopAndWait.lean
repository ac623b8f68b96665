import Mathlib.Data.List.Basic
import Mathlib.Data.List.Pairwise

/-!
# Stop and wait

A sender that starts a request only when the one before has been answered, and
a pipeline that delivers in order and may lose messages.  What is in flight
then belongs to the request that is pending or to the one before it, and what
belongs to the one before comes out first.
-/

namespace StopAndWait

def Settled (k : Nat) (inFlight : List Nat) : Prop :=
  ∀ n ∈ inFlight, n + 1 = k

/-- The messages in flight, the oldest first, belong to the request before `k`
and then to `k` itself. -/
structure Pending (k : Nat) (inFlight : List Nat) : Prop where
  ordered : inFlight.Pairwise (· ≤ ·)
  near : ∀ n ∈ inFlight, n = k ∨ n + 1 = k

variable {k : Nat} {inFlight : List Nat}

theorem Settled.sublist {fewer : List Nat} (settled : Settled k inFlight)
    (lost : fewer.Sublist inFlight) : Settled k fewer :=
  fun n membership => settled n (lost.subset membership)

theorem Pending.sublist {fewer : List Nat} (pending : Pending k inFlight)
    (lost : fewer.Sublist inFlight) : Pending k fewer where
  ordered := pending.ordered.sublist lost
  near n membership := pending.near n (lost.subset membership)

theorem Settled.pending (settled : Settled k inFlight) : Pending k inFlight where
  ordered := by
    apply List.pairwise_of_forall_mem_list
    intro n here m there
    exact Nat.le_of_eq (Nat.succ.inj ((settled n here).trans (settled m there).symm))
  near n membership := .inr (settled n membership)

theorem Pending.send (pending : Pending k inFlight) : Pending k (inFlight ++ [k]) where
  ordered := by
    rw [List.pairwise_append]
    refine ⟨pending.ordered, List.pairwise_singleton _ _, fun n here m last => ?_⟩
    obtain rfl := List.mem_singleton.mp last
    rcases pending.near n here with rfl | before
    · exact Nat.le_refl n
    · omega
  near n membership := by
    rcases List.mem_append.mp membership with here | last
    · exact pending.near n here
    · exact .inl (List.mem_singleton.mp last)

theorem Pending.answered (pending : Pending k (k :: inFlight)) : Settled (k + 1) inFlight := by
  intro n membership
  have behind : k ≤ n := List.rel_of_pairwise_cons pending.ordered membership
  rcases pending.near n (List.mem_cons_of_mem k membership) with rfl | before <;> omega

end StopAndWait

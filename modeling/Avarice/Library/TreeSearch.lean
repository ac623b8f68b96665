import Mathlib.Data.List.Basic
import Mathlib.Data.List.ReduceOption

/-!
# Searching trees of any shape

A node is looked at itself, and then its children are searched, the first of
which in that something is found decides.  A search knows the way to where it is,
as the indices of the children on it.
-/

universe u v w

namespace TreeSearch

variable {Node : Type u} {Found : Type v}

section Ways

variable (children : Node → List Node)

def descend : Node → List Nat → Option Node
  | node, [] => some node
  | node, index :: rest => ((children node)[index]?).bind fun child => descend child rest

/-- The node at the end of a way that begins above some nodes. -/
def walk (nodes : List Node) : List Nat → Option Node
  | [] => none
  | index :: rest => (nodes[index]?).bind fun node => descend children node rest

variable {children}

theorem descend_append (node : Node) (way rest : List Nat) :
    descend children node (way ++ rest) =
      (descend children node way).bind fun middle => descend children middle rest := by
  induction way generalizing node with
  | nil => rfl
  | cons index way inductionHypothesis =>
      simp only [List.cons_append, descend]
      cases (children node)[index]? with
      | none => rfl
      | some child => exact inductionHypothesis child

theorem walk_append {nodes : List Node} {way : List Nat} {node : Node}
    (reached : walk children nodes way = some node) (rest : List Nat) :
    walk children nodes (way ++ rest) = descend children node rest := by
  cases way with
  | nil => cases reached
  | cons index way =>
      obtain ⟨root, found, below⟩ := Option.bind_eq_some_iff.mp reached
      simp only [List.cons_append, walk, found, Option.bind_some, descend_append, below]

end Ways

section Related

variable {Other : Type w} {children : Node → List Node} {others : Other → List Other}
  {relates : List Nat → Node → Other → Prop}

/-- What relates two nodes relates their children, one by one. -/
def Inherited (children : Node → List Node) (others : Other → List Other)
    (relates : List Nat → Node → Other → Prop) : Prop :=
  ∀ way node other, relates way node other → ∀ index,
    Option.Rel (relates (way ++ [index])) (children node)[index]? (others other)[index]?

theorem Inherited.descend (inherited : Inherited children others relates) {way : List Nat}
    {node : Node} {other : Other} (related : relates way node other) (rest : List Nat) :
    Option.Rel (relates (way ++ rest)) (descend children node rest)
      (TreeSearch.descend others other rest) := by
  induction rest generalizing way node other with
  | nil =>
      rw [List.append_nil]
      exact .some related
  | cons index rest inductionHypothesis =>
      have below := inherited way node other related index
      simp only [TreeSearch.descend]
      generalize (children node)[index]? = child, (others other)[index]? = otherChild at below
      cases below with
      | none => exact .none
      | some also =>
          have ends := inductionHypothesis also
          rwa [List.append_assoc] at ends

theorem Inherited.walk (inherited : Inherited children others relates) {nodes : List Node}
    {otherNodes : List Other}
    (roots : ∀ index, Option.Rel (relates [index]) nodes[index]? otherNodes[index]?)
    (way : List Nat) :
    Option.Rel (relates way) (walk children nodes way)
      (TreeSearch.walk others otherNodes way) := by
  cases way with
  | nil => exact .none
  | cons index rest =>
      have root := roots index
      simp only [TreeSearch.walk]
      generalize nodes[index]? = node, otherNodes[index]? = other at root
      cases root with
      | none => exact .none
      | some related => exact inherited.descend related rest

end Related

/-- What is found in the first node in which something is, where the nodes are the
last ones of those at the end of a way. -/
def first (search : List Nat → Node → Option Found) (way : List Nat) (index : Nat) :
    List Node → Option Found
  | [] => none
  | node :: later => (search (way ++ [index]) node).or (first search way (index + 1) later)

section First

variable {search : List Nat → Node → Option Found} {way : List Nat}

theorem first_eq_head? (index : Nat) (nodes : List Node) :
    first search way index nodes =
      (nodes.mapIdx fun offset node =>
        search (way ++ [index + offset]) node).reduceOption.head? := by
  induction nodes generalizing index with
  | nil => rfl
  | cons node later inductionHypothesis =>
      have shifted : (fun offset node => search (way ++ [index + (offset + 1)]) node) =
          fun offset node => search (way ++ [index + 1 + offset]) node := by
        funext offset node
        rw [Nat.add_assoc, Nat.add_comm 1]
      rw [first, inductionHypothesis, List.mapIdx_cons, shifted, Nat.add_zero]
      cases search (way ++ [index]) node with
      | none => rw [Option.none_or, List.reduceOption_cons_of_none]
      | some found => rw [Option.some_or, List.reduceOption_cons_of_some, List.head?_cons]

theorem exists_of_first {index : Nat} {nodes : List Node} {found : Found}
    (result : first search way index nodes = some found) :
    ∃ offset node, nodes[offset]? = some node ∧
      search (way ++ [index + offset]) node = some found := by
  induction nodes generalizing index with
  | nil => cases result
  | cons node later inductionHypothesis =>
      rcases Option.or_eq_some_iff.mp result with here | ⟨-, behind⟩
      · exact ⟨0, node, rfl, here⟩
      · obtain ⟨offset, other, inside, there⟩ := inductionHypothesis behind
        refine ⟨offset + 1, other, inside, ?_⟩
        rwa [Nat.add_comm offset, ← Nat.add_assoc]

theorem first_isSome {index offset : Nat} {nodes : List Node} {node : Node}
    (inside : nodes[offset]? = some node)
    (found : (search (way ++ [index + offset]) node).isSome) :
    (first search way index nodes).isSome := by
  induction nodes generalizing index offset with
  | nil => cases inside
  | cons head later inductionHypothesis =>
      rw [first, Option.isSome_or, Bool.or_eq_true]
      cases offset with
      | zero =>
          obtain rfl := Option.some.inj inside
          exact .inl found
      | succ offset =>
          rw [Nat.add_comm offset, ← Nat.add_assoc] at found
          exact .inr (inductionHypothesis inside found)

end First

/-! ## Results -/

/-- The result of a search in the nodes that can be reached: what is found in one of
them, and nothing only if there is nothing in any. -/
structure Finds (reach : List Nat → Option Node) (here : List Nat → Node → Option Found)
    (result : Option Found) : Prop where
  sound : ∀ found, result = some found →
    ∃ way node, reach way = some node ∧ here way node = some found
  complete : ∀ way node, reach way = some node → (here way node).isSome → result.isSome

namespace Finds

variable {reach : List Nat → Option Node} {here other : List Nat → Node → Option Found}
  {result second : Option Found}

theorem eq_none (finds : Finds reach here result)
    (nowhere : ∀ way node, reach way = some node → here way node = none) : result = none := by
  cases outcome : result with
  | none => rfl
  | some found =>
      obtain ⟨way, node, reached, hit⟩ := finds.sound found outcome
      rw [nowhere way node reached] at hit
      cases hit

theorem eq_some (finds : Finds reach here result) {way : List Nat} {node : Node} {found : Found}
    (reached : reach way = some node) (hit : here way node = some found)
    (only : ∀ way node another, reach way = some node → here way node = some another →
      another = found) : result = some found := by
  obtain ⟨another, outcome⟩ :=
    Option.isSome_iff_exists.mp (finds.complete way node reached (Option.isSome_of_eq_some hit))
  obtain ⟨there, holder, reachedThere, hitThere⟩ := finds.sound another outcome
  rw [outcome, only there holder another reachedThere hitThere]

theorem or (finds : Finds reach here result) (findsOther : Finds reach other second) :
    Finds reach (fun way node => (here way node).or (other way node)) (result.or second) := by
  constructor
  · intro found outcome
    rcases Option.or_eq_some_iff.mp outcome with early | ⟨nothing, late⟩
    · obtain ⟨way, node, reached, hit⟩ := finds.sound found early
      exact ⟨way, node, reached, by rw [hit, Option.some_or]⟩
    · obtain ⟨way, node, reached, hit⟩ := findsOther.sound found late
      refine ⟨way, node, reached, ?_⟩
      have missed : here way node = none := by
        rw [← Option.not_isSome_iff_eq_none]
        intro hitHere
        have found := finds.complete way node reached hitHere
        rw [nothing] at found
        cases found
      rw [missed, Option.none_or, hit]
  · intro way node reached hit
    rw [Option.isSome_or, Bool.or_eq_true] at hit ⊢
    exact hit.imp (finds.complete way node reached) (findsOther.complete way node reached)

variable {children : Node → List Node} {search : List Nat → Node → Option Found}

theorem first {way : List Nat} {nodes : List Node}
    (each : ∀ index node, nodes[index]? = some node →
      Finds (descend children node) (fun rest => here (way ++ index :: rest))
        (search (way ++ [index]) node)) :
    Finds (walk children nodes) (fun rest => here (way ++ rest))
      (TreeSearch.first search way 0 nodes) := by
  constructor
  · intro found outcome
    obtain ⟨index, node, inside, searched⟩ := exists_of_first outcome
    rw [Nat.zero_add] at searched
    obtain ⟨rest, below, reached, hit⟩ := (each index node inside).sound found searched
    refine ⟨index :: rest, below, ?_, hit⟩
    rw [walk, inside, Option.bind_some, reached]
  · intro rest below reached hit
    cases rest with
    | nil => cases reached
    | cons index rest =>
        obtain ⟨node, inside, deeper⟩ := Option.bind_eq_some_iff.mp reached
        apply first_isSome inside
        rw [Nat.zero_add]
        exact (each index node inside).complete rest below deeper hit

end Finds

/-- A search of a node and of everything below it. -/
structure Searches (children : Node → List Node) (here search : List Nat → Node → Option Found) :
    Prop where
  finite : WellFounded fun child node => child ∈ children node
  search_eq : ∀ (way : List Nat) (node : Node),
    search way node = (here way node).or (first search way 0 (children node))

section Searches

variable {children : Node → List Node} {here search : List Nat → Node → Option Found}

theorem Searches.finds (searches : Searches children here search) (way : List Nat) (node : Node) :
    Finds (descend children node) (fun rest => here (way ++ rest)) (search way node) := by
  induction node using searches.finite.induction generalizing way with
  | _ node inductionHypothesis =>
      have below : Finds (walk children (children node)) (fun rest => here (way ++ rest))
          (first search way 0 (children node)) := by
        refine Finds.first fun index child inside => ?_
        have deeper := inductionHypothesis child (List.mem_of_getElem? inside) (way ++ [index])
        simpa only [List.append_assoc, List.singleton_append] using deeper
      rw [searches.search_eq]
      constructor
      · intro found outcome
        rcases Option.or_eq_some_iff.mp outcome with hit | ⟨-, deeper⟩
        · exact ⟨[], node, rfl, by rwa [List.append_nil]⟩
        · obtain ⟨rest, other, reached, hit⟩ := below.sound found deeper
          cases rest with
          | nil => cases reached
          | cons index rest => exact ⟨index :: rest, other, reached, hit⟩
      · intro rest other reached hit
        rw [Option.isSome_or, Bool.or_eq_true]
        cases rest with
        | nil =>
            obtain rfl := Option.some.inj reached
            rw [List.append_nil] at hit
            exact .inl hit
        | cons index rest => exact .inr (below.complete (index :: rest) other reached hit)

theorem Searches.finds_first (searches : Searches children here search) (nodes : List Node) :
    Finds (walk children nodes) here (first search [] 0 nodes) := by
  apply @Finds.first _ _ here _ _ []
  intro index node _
  exact searches.finds [index] node

end Searches

end TreeSearch

import Avarice.Library.TreeSearch
import Avarice.Script.Nodes

/-!
# Objects by their offsets

The searches of `dwarf.js` for a node or an attribute with an offset, in a subtree
and in all units.  What the children yield is mapped, `undefined` is left out, and
the first one taken.
-/

namespace Avarice.Script

open TreeSearch

/-! ## The units -/

/-- `getNodeWithOffset` of the `Dwarf` that has these units. -/
def Dwarf.getNodeWithOffset (cus : List DwarfNode) (offset : Nat) : Option Ref :=
  (cus.mapIdx fun index cu => cu.getNodeWithOffset [index] offset).reduceOption.head?

def Dwarf.getObjectWithOffset (cus : List DwarfNode) (offset : Nat) : Option Ref :=
  (cus.mapIdx fun index cu => cu.getObjectWithOffset [index] offset).reduceOption.head?

def DwarfNode.offset : DwarfNode → Nat
  | .node _ _ offset _ _ _ _ => offset

/-- Offsets by which a node is told from all other nodes and from attributes. -/
structure OffsetsDiffer (cus : List DwarfNode) : Prop where
  nonzero : ∀ (path : List Nat) (node : DwarfNode), nodeAt cus path = some node → node.offset ≠ 0
  nodes : ∀ (path other : List Nat) (node otherNode : DwarfNode), nodeAt cus path = some node →
    nodeAt cus other = some otherNode → node.offset = otherNode.offset → path = other
  attributes : ∀ (path other : List Nat) (node holder : DwarfNode), nodeAt cus path = some node →
    nodeAt cus other = some holder → ∀ attr ∈ holder.attributes, attr.offset ≠ some node.offset

section Specification

variable (cus : List DwarfNode) (path : List Nat) (offset : Nat) (result : Option Ref)

def NoNode : Prop :=
  ∀ (rest : List Nat) (node : DwarfNode), nodeAt cus (path ++ rest) = some node →
    node.offset ≠ offset

/-- The node with the offset, or `undefined`. -/
structure FindsNode : Prop where
  node : ∀ (rest : List Nat) (node : DwarfNode), nodeAt cus (path ++ rest) = some node →
    node.offset = offset → result = some (.node (path ++ rest))
  missing : NoNode cus path offset → result = none

/-- The node with the offset, an attribute that has it if no node does, or
`undefined`. -/
structure FindsObject : Prop where
  node : ∀ (rest : List Nat) (node : DwarfNode), nodeAt cus (path ++ rest) = some node →
    node.offset = offset → result = some (.node (path ++ rest))
  attr : NoNode cus path offset →
    ∀ (rest : List Nat) (holder : DwarfNode), nodeAt cus (path ++ rest) = some holder →
      ∀ attr ∈ holder.attributes, attr.offset = some offset →
        ∃ (way : List Nat) (found : DwarfNode) (index : Nat) (attr : DwarfAttribute),
          nodeAt cus (path ++ way) = some found ∧ found.attributes[index]? = some attr ∧
            attr.offset = some offset ∧ result = some (.attribute (path ++ way) index)
  missing : NoNode cus path offset →
    (∀ (rest : List Nat) (holder : DwarfNode), nodeAt cus (path ++ rest) = some holder →
      ∀ attr ∈ holder.attributes, attr.offset ≠ some offset) → result = none

end Specification

/-! ## The searches -/

def nodeHere (offset : Nat) (path : List Nat) (node : DwarfNode) : Option Ref :=
  if node.offset ≠ 0 ∧ node.offset = offset then some (.node path) else none

def attributeHere (offset : Nat) (path : List Nat) (node : DwarfNode) : Option Ref :=
  (node.attributes.findIdx? (·.offset = some offset)).map (.attribute path)

theorem sizeOf_child {child node : DwarfNode} (membership : child ∈ node.children) :
    sizeOf child < sizeOf node := by
  cases node with
  | node tagName name offset parent file attributes children =>
      have smaller := List.sizeOf_lt_of_mem membership
      simp only [DwarfNode.children] at smaller
      simp only [DwarfNode.node.sizeOf_spec]
      omega

theorem children_finite : WellFounded fun child node : DwarfNode => child ∈ node.children :=
  Subrelation.wf sizeOf_child (measure (sizeOf : DwarfNode → Nat)).wf

theorem nodeWithOffset_eq_first (path : List Nat) (index offset : Nat) (nodes : List DwarfNode) :
    nodeWithOffset path index offset nodes =
      first (fun path node => node.getNodeWithOffset path offset) path index nodes := by
  induction nodes generalizing index with
  | nil => rw [nodeWithOffset, first]
  | cons node later inductionHypothesis => rw [nodeWithOffset, first, inductionHypothesis]

theorem attributeWithOffset_eq_first (path : List Nat) (index offset : Nat)
    (nodes : List DwarfNode) :
    attributeWithOffset path index offset nodes =
      first (fun path node => node.getAttributeWithOffset path offset) path index nodes := by
  induction nodes generalizing index with
  | nil => rw [attributeWithOffset, first]
  | cons node later inductionHypothesis => rw [attributeWithOffset, first, inductionHypothesis]

theorem objectWithOffset_eq (cus : List DwarfNode) (offset : Nat) :
    objectWithOffset 0 offset cus = Dwarf.getObjectWithOffset cus offset := by
  have units : ∀ index, objectWithOffset index offset cus =
      first (fun path node => node.getObjectWithOffset path offset) [] index cus := by
    induction cus with
    | nil => exact fun _ => rfl
    | cons cu later inductionHypothesis =>
        intro index
        rw [objectWithOffset, first, inductionHypothesis]
        rfl
  simp only [units, first_eq_head?, Nat.zero_add, List.nil_append]
  rfl

theorem searches_nodes (offset : Nat) :
    Searches DwarfNode.children (nodeHere offset)
      (fun path node => node.getNodeWithOffset path offset) where
  finite := children_finite
  search_eq path node := by
    cases node with
    | node tagName name here parent file attributes children =>
        rw [DwarfNode.getNodeWithOffset, nodeWithOffset_eq_first]
        show _ = (if here ≠ 0 ∧ here = offset then some (Ref.node path) else none).or _
        by_cases found : here ≠ 0 ∧ here = offset
        · rw [if_pos found, if_pos found, Option.some_or]
        · rw [if_neg found, if_neg found, Option.none_or]
          rfl

theorem searches_attributes (offset : Nat) :
    Searches DwarfNode.children (attributeHere offset)
      (fun path node => node.getAttributeWithOffset path offset) where
  finite := children_finite
  search_eq path node := by
    cases node with
    | node tagName name here parent file attributes children =>
        rw [DwarfNode.getAttributeWithOffset, attributeWithOffset_eq_first, attributeHere]
        simp only [DwarfNode.attributes, DwarfNode.children]
        cases attributes.findIdx? (·.offset = some offset) with
        | none => rw [Option.map_none, Option.none_or]
        | some index => rw [Option.map_some, Option.some_or]

theorem DwarfNode.getNodeWithOffset_eq (path : List Nat) (offset : Nat) (node : DwarfNode) :
    node.getNodeWithOffset path offset =
      if node.offset ≠ 0 ∧ node.offset = offset then some (.node path)
      else (node.children.mapIdx fun index child =>
        child.getNodeWithOffset (path ++ [index]) offset).reduceOption.head? := by
  rw [(searches_nodes offset).search_eq, first_eq_head?, nodeHere]
  simp only [Nat.zero_add]
  split
  · exact Option.some_or
  · exact Option.none_or

theorem DwarfNode.getAttributeWithOffset_eq (path : List Nat) (offset : Nat) (node : DwarfNode) :
    node.getAttributeWithOffset path offset =
      ((node.attributes.findIdx? (·.offset = some offset)).map (.attribute path)).or
        (node.children.mapIdx fun index child =>
          child.getAttributeWithOffset (path ++ [index]) offset).reduceOption.head? := by
  rw [(searches_attributes offset).search_eq, first_eq_head?, attributeHere]
  simp only [Nat.zero_add]

theorem nodeAt_eq_walk (nodes : List DwarfNode) (path : List Nat) :
    nodeAt nodes path = walk DwarfNode.children nodes path := by
  induction path generalizing nodes with
  | nil => rfl
  | cons index rest inductionHypothesis =>
      cases rest with
      | nil =>
          show nodes[index]? = (nodes[index]?).bind some
          rw [Option.bind_fun_some]
      | cons next rest =>
          show (nodes[index]?).bind (fun node => nodeAt node.children (next :: rest)) = _
          simp only [inductionHypothesis]
          rfl

/-! ## Results -/

section Results

variable {cus : List DwarfNode} {path : List Nat} {offset : Nat} {result : Option Ref}

theorem nodeHere_eq_some_iff {node : DwarfNode} (nonzero : offset ≠ 0) {found : Ref} :
    nodeHere offset path node = some found ↔ node.offset = offset ∧ found = .node path := by
  unfold nodeHere
  constructor
  · intro hit
    by_cases here : node.offset ≠ 0 ∧ node.offset = offset
    · rw [if_pos here, Option.some_inj] at hit
      exact ⟨here.2, hit.symm⟩
    · rw [if_neg here] at hit
      cases hit
  · rintro ⟨here, rfl⟩
    rw [if_pos ⟨here ▸ nonzero, here⟩]

theorem exists_of_attributeHere {node : DwarfNode} {found : Ref}
    (hit : attributeHere offset path node = some found) :
    ∃ index attr, node.attributes[index]? = some attr ∧ attr.offset = some offset ∧
      found = .attribute path index := by
  obtain ⟨index, first, rfl⟩ := Option.map_eq_some_iff.mp hit
  obtain ⟨inside, same, -⟩ := List.findIdx?_eq_some_iff_getElem.mp first
  exact ⟨index, _, List.getElem?_eq_getElem inside, of_decide_eq_true same, rfl⟩

theorem attributeHere_isSome {node : DwarfNode} {attr : DwarfAttribute}
    (membership : attr ∈ node.attributes) (same : attr.offset = some offset) :
    (attributeHere offset path node).isSome := by
  rw [attributeHere, Option.isSome_map, List.findIdx?_isSome, List.any_eq_true]
  exact ⟨attr, membership, decide_eq_true same⟩

theorem findsNode (differ : OffsetsDiffer cus) (nonzero : offset ≠ 0)
    (finds : Finds (fun rest => nodeAt cus (path ++ rest))
      (fun rest => nodeHere offset (path ++ rest)) result) :
    FindsNode cus path offset result where
  node rest node reached same := by
    apply finds.eq_some reached ((nodeHere_eq_some_iff nonzero).mpr ⟨same, rfl⟩)
    intro way other found reachedOther hit
    obtain ⟨sameOther, rfl⟩ := (nodeHere_eq_some_iff nonzero).mp hit
    rw [differ.nodes _ _ _ _ reachedOther reached (sameOther.trans same.symm)]
  missing noNode := by
    apply finds.eq_none
    intro rest node reached
    cases hit : nodeHere offset (path ++ rest) node with
    | none => rfl
    | some found =>
        exact absurd ((nodeHere_eq_some_iff nonzero).mp hit).1 (noNode rest node reached)

theorem findsObject (differ : OffsetsDiffer cus) (nonzero : offset ≠ 0)
    (finds : Finds (fun rest => nodeAt cus (path ++ rest))
      (fun rest node => (nodeHere offset (path ++ rest) node).or
        (attributeHere offset (path ++ rest) node)) result) :
    FindsObject cus path offset result where
  node rest node reached same := by
    have here : nodeHere offset (path ++ rest) node = some (.node (path ++ rest)) :=
      (nodeHere_eq_some_iff nonzero).mpr ⟨same, rfl⟩
    apply finds.eq_some reached (by rw [here, Option.some_or])
    intro way other found reachedOther hit
    rcases Option.or_eq_some_iff.mp hit with hitNode | ⟨-, hitAttribute⟩
    · obtain ⟨sameOther, rfl⟩ := (nodeHere_eq_some_iff nonzero).mp hitNode
      rw [differ.nodes _ _ _ _ reachedOther reached (sameOther.trans same.symm)]
    · obtain ⟨index, attr, inside, sameAttr, -⟩ := exists_of_attributeHere hitAttribute
      exact absurd (sameAttr.trans (congrArg some same.symm))
        (differ.attributes _ _ _ _ reached reachedOther attr (List.mem_of_getElem? inside))
  attr noNode rest holder reached attr membership same := by
    have hit : ((nodeHere offset (path ++ rest) holder).or
        (attributeHere offset (path ++ rest) holder)).isSome := by
      rw [Option.isSome_or, attributeHere_isSome membership same, Bool.or_true]
    obtain ⟨found, outcome⟩ := Option.isSome_iff_exists.mp (finds.complete rest holder reached hit)
    obtain ⟨way, node, reachedNode, there⟩ := finds.sound found outcome
    rcases Option.or_eq_some_iff.mp there with hitNode | ⟨-, hitAttribute⟩
    · exact absurd ((nodeHere_eq_some_iff nonzero).mp hitNode).1 (noNode way node reachedNode)
    · obtain ⟨index, attr, inside, sameAttr, rfl⟩ := exists_of_attributeHere hitAttribute
      exact ⟨way, node, index, attr, reachedNode, inside, sameAttr, outcome⟩
  missing noNode noAttribute := by
    apply finds.eq_none
    intro rest node reached
    cases hit : (nodeHere offset (path ++ rest) node).or
        (attributeHere offset (path ++ rest) node) with
    | none => rfl
    | some found =>
        rcases Option.or_eq_some_iff.mp hit with hitNode | ⟨-, hitAttribute⟩
        · exact absurd ((nodeHere_eq_some_iff nonzero).mp hitNode).1 (noNode rest node reached)
        · obtain ⟨index, attr, inside, sameAttr, -⟩ := exists_of_attributeHere hitAttribute
          exact absurd sameAttr (noAttribute rest node reached attr (List.mem_of_getElem? inside))

theorem reach_eq {root : DwarfNode} (reached : nodeAt cus path = some root) :
    (fun rest => nodeAt cus (path ++ rest)) = descend DwarfNode.children root := by
  funext rest
  rw [nodeAt_eq_walk] at reached ⊢
  exact walk_append reached rest

theorem finds_nodes (cus : List DwarfNode) (offset : Nat) :
    Finds (nodeAt cus) (nodeHere offset) (Dwarf.getNodeWithOffset cus offset) := by
  have finds := (searches_nodes offset).finds_first cus
  simp only [first_eq_head?, Nat.zero_add, List.nil_append] at finds
  rw [funext (nodeAt_eq_walk cus)]
  exact finds

theorem finds_objects (cus : List DwarfNode) (offset : Nat) :
    Finds (nodeAt cus)
      (fun path node => (nodeHere offset path node).or (attributeHere offset path node))
      (Dwarf.getObjectWithOffset cus offset) := by
  have finds : Finds (walk DwarfNode.children cus)
      (fun path node => (nodeHere offset path node).or (attributeHere offset path node))
      (first (fun path node => node.getObjectWithOffset path offset) [] 0 cus) := by
    apply @Finds.first _ _
      (fun path node => (nodeHere offset path node).or (attributeHere offset path node)) _ _ []
    intro index cu _
    exact ((searches_nodes offset).finds [index] cu).or
      ((searches_attributes offset).finds [index] cu)
  simp only [first_eq_head?, Nat.zero_add, List.nil_append] at finds
  rw [funext (nodeAt_eq_walk cus)]
  exact finds

end Results

/-- What is looked up by an offset is found, in all units and in every subtree. -/
theorem offset_lookup (cus : List DwarfNode) (differ : OffsetsDiffer cus) (offset : Nat)
    (nonzero : offset ≠ 0) :
    FindsNode cus [] offset (Dwarf.getNodeWithOffset cus offset) ∧
      FindsObject cus [] offset (Dwarf.getObjectWithOffset cus offset) ∧
      ∀ (path : List Nat) (root : DwarfNode), nodeAt cus path = some root →
        FindsNode cus path offset (root.getNodeWithOffset path offset) ∧
          FindsObject cus path offset (root.getObjectWithOffset path offset) := by
  refine ⟨findsNode differ nonzero (finds_nodes cus offset),
    findsObject differ nonzero (finds_objects cus offset), fun path root reached => ?_⟩
  constructor
  · apply findsNode differ nonzero
    rw [reach_eq reached]
    exact (searches_nodes offset).finds path root
  · apply findsObject differ nonzero
    rw [reach_eq reached]
    exact ((searches_nodes offset).finds path root).or
      ((searches_attributes offset).finds path root)

def unitWithType : List DwarfNode :=
  [.node "compile_unit" "main.c" 11 .dwarf .dwarf
    [⟨"language", some 12, ⟨false, "data1", .number 1, .attribute ([0]) 0, .dwarf⟩, .node [0], .dwarf⟩]
    [.node "base_type" "int" 30 (.node [0]) .dwarf [] []]]

theorem unitWithType_ways {path : List Nat} {node : DwarfNode}
    (reached : nodeAt unitWithType path = some node) :
    (path = [0] ∧ node.offset = 11 ∧ node.attributes.map (·.offset) = [some 12]) ∨
      (path = [0, 0] ∧ node.offset = 30 ∧ node.attributes.map (·.offset) = []) := by
  rw [nodeAt_eq_walk] at reached
  rcases path with _ | ⟨_ | first, _ | ⟨_ | second, _ | ⟨third, rest⟩⟩⟩
  · cases reached
  · cases reached
    exact .inl ⟨rfl, rfl, rfl⟩
  · cases reached
    exact .inr ⟨rfl, rfl, rfl⟩
  all_goals cases reached

theorem unitWithType_differ : OffsetsDiffer unitWithType where
  nonzero path node reached := by
    rcases unitWithType_ways reached with ⟨-, offset, -⟩ | ⟨-, offset, -⟩
    all_goals simp [offset]
  nodes path other node otherNode reached reachedOther same := by
    rcases unitWithType_ways reached with ⟨rfl, offset, -⟩ | ⟨rfl, offset, -⟩
    all_goals
      rcases unitWithType_ways reachedOther with ⟨rfl, offsetOther, -⟩ | ⟨rfl, offsetOther, -⟩
    all_goals simp_all
  attributes path other node holder reached reachedOther attr membership := by
    have listed := List.mem_map_of_mem (f := (·.offset)) membership
    rcases unitWithType_ways reachedOther with ⟨-, -, offsets⟩ | ⟨-, -, offsets⟩
    all_goals rw [offsets] at listed
    · rcases unitWithType_ways reached with ⟨-, offset, -⟩ | ⟨-, offset, -⟩
      all_goals simp_all
    · cases listed

/-- The type is found in its unit, and no node where only an attribute is. -/
theorem offset_lookup_type :
    (∃ root, nodeAt unitWithType [0] = some root ∧
      root.getNodeWithOffset [0] 30 = some (.node [0, 0])) ∧
      Dwarf.getNodeWithOffset unitWithType 12 = none := by
  obtain ⟨-, -, subtrees⟩ := offset_lookup unitWithType unitWithType_differ 30 (by decide)
  obtain ⟨nodes, -, -⟩ := offset_lookup unitWithType unitWithType_differ 12 (by decide)
  refine ⟨⟨_, rfl, (subtrees [0] _ rfl).1.node [0] _ rfl rfl⟩, nodes.missing ?_⟩
  intro rest node reached
  rcases unitWithType_ways reached with ⟨-, offset, -⟩ | ⟨-, offset, -⟩
  all_goals simp [offset]

end Avarice.Script

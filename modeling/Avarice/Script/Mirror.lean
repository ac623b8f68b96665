import Mathlib.Data.List.Forall2
import Avarice.Script.Offsets

/-!
# The units of a file as objects

The objects that `dwarf.js` makes of a file are those of its DIEs, at the same
places, and are found by the offsets of the DIEs.
-/

namespace Avarice.Script

open TreeSearch

def Die.tagName : Die → String
  | .die tagName _ _ _ _ => tagName

def Die.name : Die → Option String
  | .die _ name _ _ _ => name

def DwarfNode.tagName : DwarfNode → String
  | .node tagName _ _ _ _ _ _ => tagName

def DwarfNode.name : DwarfNode → Option String
  | .node _ name _ _ _ _ _ => name

/-- What a script sees of an attribute. -/
structure DwarfAttribute.Shows (made : DwarfAttribute) (name : String) (offset : Option Nat)
    (formName : String) (value : JsValue) : Prop where
  name : made.name = name
  offset : made.offset = offset
  form : made.value.formName = formName
  value : made.value.value = value
  isRef : made.value.isRef = true ↔ formName.toList.take 3 = ['r', 'e', 'f']

/-- An attribute of a DIE, or the error in its place if something has been thrown. -/
def Attr.Mirrored (attr : Attr) (made : DwarfAttribute) : Prop :=
  match attr.value with
  | .ok value => made.Shows attr.name (some attr.offset) attr.form.name value
  | .error s => made.Shows "error" none "string" (.text s)

/-- A DIE with its attributes, in order. -/
structure Die.Mirrored (die : Die) (node : DwarfNode) : Prop where
  tagName : node.tagName = die.tagName
  name : node.name = die.name
  offset : node.offset = die.offset
  attributes : ∀ index : Nat,
    Option.Rel Attr.Mirrored die.attributes[index]? node.attributes[index]?

/-- Offsets by which a DIE is told from all others and from attributes. -/
structure DiesDiffer (dies : List Die) : Prop where
  nonzero : ∀ (path : List Nat) (die : Die), dieAt dies path = some die → die.offset ≠ 0
  places : ∀ (path other : List Nat) (die otherDie : Die), dieAt dies path = some die →
    dieAt dies other = some otherDie → die.offset = otherDie.offset → path = other
  attributes : ∀ (path other : List Nat) (die holder : Die), dieAt dies path = some die →
    dieAt dies other = some holder → ∀ attr ∈ holder.attributes, attr.offset ≠ die.offset

/-- An attribute with an offset, for which nothing has been thrown. -/
def AttributeAt (dies : List Die) (path : List Nat) (index offset : Nat) : Prop :=
  ∃ die attr value, dieAt dies path = some die ∧ die.attributes[index]? = some attr ∧
    attr.value = .ok value ∧ attr.offset = offset

/-- A node has been made of what has been dumped of a DIE. -/
def MadeOf (globalFile : Ref) (path : List Nat) (die : Die) (node : DwarfNode) : Prop :=
  ∃ file, node = newDwarfNode globalFile path (dwarfDie die) callbackThis globalFile file

section Construction

variable {globalFile : Ref} {path : List Nat} {die : Die} {node : DwarfNode}

theorem dieAt_eq_walk (dies : List Die) (path : List Nat) :
    dieAt dies path = walk Die.children dies path := by
  induction path generalizing dies with
  | nil => rfl
  | cons index rest inductionHypothesis =>
      cases rest with
      | nil =>
          show dies[index]? = (dies[index]?).bind some
          rw [Option.bind_fun_some]
      | cons next rest =>
          show (dies[index]?).bind (fun die => dieAt die.children (next :: rest)) = _
          simp only [inductionHypothesis]
          rfl

theorem dwarfDies_eq_map (dies : List Die) : dwarfDies dies = dies.map dwarfDie := by
  induction dies with
  | nil => rw [dwarfDies, List.map_nil]
  | cons die later inductionHypothesis => rw [dwarfDies, inductionHypothesis, List.map_cons]

theorem rel_map {α β : Type} {relates : α → β → Prop} {make : α → β}
    (related : ∀ value, relates value (make value)) (value : Option α) :
    Option.Rel relates value (value.map make) := by
  cases value with
  | none => exact .none
  | some value => exact .some (related value)

theorem madeOf_inherited : Inherited Die.children DwarfNode.children (MadeOf globalFile) := by
  rintro path die node ⟨file, rfl⟩ index
  cases die with
  | die tagName name offset attributes children =>
      rw [dwarfDie, newDwarfNode]
      simp only [Die.children, DwarfNode.children, mapChildren_getElem?, dwarfDies_eq_map,
        List.getElem?_map, Option.map_map, Nat.zero_add]
      exact rel_map (fun child => ⟨_, rfl⟩) _

theorem madeOf_roots (units : List CompilationUnit) (index : Nat) :
    Option.Rel (MadeOf globalFile [index]) (units.map (·.die))[index]?
      (newDwarf globalFile units)[index]? := by
  rw [newDwarf, mapUnits_getElem?]
  simp only [List.getElem?_map, Option.map_map, Nat.zero_add]
  cases units[index]? with
  | none => exact .none
  | some unit => exact .some ⟨_, rfl⟩

theorem shows_attribute (this : Ref) (hash : NativeAttribute) (parent file : Ref) :
    (newDwarfAttribute this hash parent file).Shows hash.name hash.offset hash.value.formName
      hash.value.value where
  name := rfl
  offset := rfl
  form := rfl
  value := rfl
  isRef := decide_eq_true_iff

theorem mirrored_of_madeOf (made : MadeOf globalFile path die node) : die.Mirrored node := by
  obtain ⟨file, rfl⟩ := made
  cases die with
  | die tagName name offset attributes children =>
      rw [dwarfDie, newDwarfNode]
      refine ⟨rfl, rfl, rfl, fun index => ?_⟩
      simp only [DwarfNode.attributes, Die.attributes, mapAttributes, List.getElem?_mapIdx,
        List.getElem?_map, Option.map_map]
      refine rel_map (fun attr => ?_) _
      rw [Attr.Mirrored, Function.comp_apply, dieAttribute, dwarfAttribute]
      cases attr.value with
      | ok value => exact shows_attribute _ _ _ _
      | error s => exact shows_attribute _ _ _ _

theorem nodeAt_mirrors (globalFile : Ref) (units : List CompilationUnit) (path : List Nat) :
    Option.Rel Die.Mirrored (dieAt (units.map (·.die)) path)
      (nodeAt (newDwarf globalFile units) path) := by
  have ends := (@madeOf_inherited globalFile).walk (madeOf_roots units) path
  rw [dieAt_eq_walk, nodeAt_eq_walk]
  generalize walk Die.children (units.map (·.die)) path = die,
    walk DwarfNode.children (newDwarf globalFile units) path = node at ends
  cases ends with
  | none => exact .none
  | some made => exact .some (mirrored_of_madeOf made)

variable {units : List CompilationUnit}

theorem mirrored_of_nodeAt (reached : nodeAt (newDwarf globalFile units) path = some node) :
    ∃ die, dieAt (units.map (·.die)) path = some die ∧ die.Mirrored node := by
  have ends := nodeAt_mirrors globalFile units path
  rw [reached] at ends
  generalize dieAt (units.map (·.die)) path = die at ends
  cases ends with
  | some mirrored => exact ⟨_, rfl, mirrored⟩

theorem mirrored_of_dieAt (globalFile : Ref) (reached : dieAt (units.map (·.die)) path = some die) :
    ∃ node, nodeAt (newDwarf globalFile units) path = some node ∧ die.Mirrored node := by
  have ends := nodeAt_mirrors globalFile units path
  rw [reached] at ends
  generalize nodeAt (newDwarf globalFile units) path = node at ends
  cases ends with
  | some mirrored => exact ⟨_, rfl, mirrored⟩

theorem Attr.Mirrored.offset_iff {attr : Attr} {made : DwarfAttribute}
    (mirrored : attr.Mirrored made) (offset : Nat) :
    made.offset = some offset ↔ (∃ value, attr.value = .ok value) ∧ attr.offset = offset := by
  rw [Attr.Mirrored] at mirrored
  cases converted : attr.value with
  | ok value =>
      rw [converted] at mirrored
      simp [mirrored.offset]
  | error s =>
      rw [converted] at mirrored
      simp [mirrored.offset]

theorem attributeAt_iff (globalFile : Ref) (units : List CompilationUnit) (path : List Nat)
    (index offset : Nat) :
    AttributeAt (units.map (·.die)) path index offset ↔
      ∃ node made, nodeAt (newDwarf globalFile units) path = some node ∧
        node.attributes[index]? = some made ∧ made.offset = some offset := by
  constructor
  · rintro ⟨die, attr, value, reached, here, converted, same⟩
    obtain ⟨node, found, mirrored⟩ := mirrored_of_dieAt globalFile reached
    have both := mirrored.attributes index
    rw [here] at both
    generalize there : node.attributes[index]? = made at both
    cases both with
    | some mirrors =>
        exact ⟨node, _, found, there, (mirrors.offset_iff offset).mpr ⟨⟨value, converted⟩, same⟩⟩
  · rintro ⟨node, made, reached, here, same⟩
    obtain ⟨die, found, mirrored⟩ := mirrored_of_nodeAt reached
    have both := mirrored.attributes index
    rw [here] at both
    generalize there : die.attributes[index]? = attr at both
    cases both with
    | some mirrors =>
        obtain ⟨⟨value, converted⟩, offset⟩ := (mirrors.offset_iff offset).mp same
        exact ⟨die, _, value, found, there, converted, offset⟩

theorem offsetsDiffer_newDwarf (globalFile : Ref) (differ : DiesDiffer (units.map (·.die))) :
    OffsetsDiffer (newDwarf globalFile units) where
  nonzero path node reached := by
    obtain ⟨die, found, mirrored⟩ := mirrored_of_nodeAt reached
    rw [mirrored.offset]
    exact differ.nonzero path die found
  nodes path other node otherNode reached reachedOther same := by
    obtain ⟨die, found, mirrored⟩ := mirrored_of_nodeAt reached
    obtain ⟨otherDie, foundOther, mirroredOther⟩ := mirrored_of_nodeAt reachedOther
    refine differ.places path other die otherDie found foundOther ?_
    rw [← mirrored.offset, ← mirroredOther.offset, same]
  attributes path other node holder reached reachedOther made member same := by
    obtain ⟨die, found, mirrored⟩ := mirrored_of_nodeAt reached
    obtain ⟨index, here⟩ := List.getElem?_of_mem member
    obtain ⟨holderDie, attr, _, foundOther, there, _, equal⟩ :=
      (attributeAt_iff globalFile units other index node.offset).mpr
        ⟨holder, made, reachedOther, here, same⟩
    exact differ.attributes path other die holderDie found foundOther attr
      (List.mem_of_getElem? there) (equal.trans mirrored.offset)

end Construction

/-- A script sees the DIEs of a file, each at its place with its attributes, and
finds it by its offset.  Where no DIE has an offset, an attribute is found that has it. -/
theorem script_mirrors (globalFile : Ref) (units : List CompilationUnit)
    (differ : DiesDiffer (units.map (·.die))) :
    (∀ path, Option.Rel Die.Mirrored (dieAt (units.map (·.die)) path)
      (nodeAt (newDwarf globalFile units) path)) ∧
      (∀ path die, dieAt (units.map (·.die)) path = some die →
        Dwarf.getNodeWithOffset (newDwarf globalFile units) die.offset = some (.node path) ∧
          Dwarf.getObjectWithOffset (newDwarf globalFile units) die.offset =
            some (.node path)) ∧
        ∀ offset, offset ≠ 0 →
          (∀ path die, dieAt (units.map (·.die)) path = some die → die.offset ≠ offset) →
            Dwarf.getNodeWithOffset (newDwarf globalFile units) offset = none ∧
              ((∃ path index, AttributeAt (units.map (·.die)) path index offset) →
                ∃ path index, AttributeAt (units.map (·.die)) path index offset ∧
                  Dwarf.getObjectWithOffset (newDwarf globalFile units) offset =
                    some (.attribute path index)) ∧
              ((∀ path index, ¬AttributeAt (units.map (·.die)) path index offset) →
                Dwarf.getObjectWithOffset (newDwarf globalFile units) offset = none) := by
  have differs := offsetsDiffer_newDwarf globalFile differ
  refine ⟨nodeAt_mirrors globalFile units, ?_, ?_⟩
  · intro path die reached
    obtain ⟨node, found, mirrored⟩ := mirrored_of_dieAt globalFile reached
    have nonzero := differ.nonzero path die reached
    have nodes : FindsNode (newDwarf globalFile units) [] die.offset _ :=
      findsNode differs nonzero (finds_nodes _ _)
    have objects : FindsObject (newDwarf globalFile units) [] die.offset _ :=
      findsObject differs nonzero (finds_objects _ _)
    exact ⟨nodes.node path node found mirrored.offset, objects.node path node found mirrored.offset⟩
  · intro offset nonzero absent
    have nodes : FindsNode (newDwarf globalFile units) [] offset _ :=
      findsNode differs nonzero (finds_nodes _ _)
    have objects : FindsObject (newDwarf globalFile units) [] offset _ :=
      findsObject differs nonzero (finds_objects _ _)
    have noNode : NoNode (newDwarf globalFile units) [] offset := by
      intro rest node reached
      obtain ⟨die, found, mirrored⟩ := mirrored_of_nodeAt reached
      rw [mirrored.offset]
      exact absent rest die found
    refine ⟨nodes.missing noNode, ?_, ?_⟩
    · rintro ⟨path, index, there⟩
      obtain ⟨holder, made, reached, here, same⟩ :=
        (attributeAt_iff globalFile units path index offset).mp there
      obtain ⟨way, node, found, attr, reachedNode, inside, sameAttr, outcome⟩ :=
        objects.attr noNode path holder reached made (List.mem_of_getElem? here) same
      exact ⟨way, found, (attributeAt_iff globalFile units way found offset).mpr
        ⟨node, attr, reachedNode, inside, sameAttr⟩, outcome⟩
    · intro none
      refine objects.missing noNode fun rest holder reached made member same => ?_
      obtain ⟨index, here⟩ := List.getElem?_of_mem member
      exact none rest index ((attributeAt_iff globalFile units rest index offset).mpr
        ⟨holder, made, reached, here, same⟩)

def languageUnit : List CompilationUnit :=
  [⟨0, .die "compile_unit" "main.c" 11 [⟨"language", 12, .other "data1", .ok (.text "C89")⟩]
    [.die "base_type" "int" 30 [] []]⟩]

theorem languageUnit_ways {path : List Nat} {die : Die}
    (reached : dieAt (languageUnit.map (·.die)) path = some die) :
    (path = [0] ∧ die.offset = 11 ∧ die.attributes.map (·.offset) = [12]) ∨
      (path = [0, 0] ∧ die.offset = 30 ∧ die.attributes.map (·.offset) = []) := by
  rw [dieAt_eq_walk] at reached
  rcases path with _ | ⟨_ | first, _ | ⟨_ | second, _ | ⟨third, rest⟩⟩⟩
  · cases reached
  · cases reached
    exact .inl ⟨rfl, rfl, rfl⟩
  · cases reached
    exact .inr ⟨rfl, rfl, rfl⟩
  all_goals cases reached

theorem languageUnit_differ : DiesDiffer (languageUnit.map (·.die)) where
  nonzero path die reached := by
    rcases languageUnit_ways reached with ⟨-, offset, -⟩ | ⟨-, offset, -⟩
    all_goals simp [offset]
  places path other die otherDie reached reachedOther same := by
    rcases languageUnit_ways reached with ⟨rfl, offset, -⟩ | ⟨rfl, offset, -⟩
    all_goals
      rcases languageUnit_ways reachedOther with ⟨rfl, offsetOther, -⟩ | ⟨rfl, offsetOther, -⟩
    all_goals simp_all
  attributes path other die holder reached reachedOther attr member := by
    have listed : attr.offset ∈ holder.attributes.map (·.offset) := List.mem_map_of_mem member
    rcases languageUnit_ways reachedOther with ⟨-, -, offsets⟩ | ⟨-, -, offsets⟩
    all_goals rw [offsets] at listed
    · rcases languageUnit_ways reached with ⟨-, offset, -⟩ | ⟨-, offset, -⟩
      all_goals simp_all
    · cases listed

theorem script_mirrors_language :
    Dwarf.getNodeWithOffset (newDwarf .undefined languageUnit) 30 = some (.node [0, 0]) :=
  ((script_mirrors .undefined languageUnit languageUnit_differ).2.1 [0, 0] _ rfl).1

end Avarice.Script

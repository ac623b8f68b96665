import Mathlib.Data.List.Basic

/-!
# Nodes, attributes and references

What `dwarf.cc` dumps of the compilation units of an ELF file, and the objects
that `dwarf.js` makes of it.  `dwarf_dieoffset` and `dwarf_global_formref` yield
offsets in the section, `dwarf_formref` one relative to the compilation unit.
-/

namespace Avarice.Script

/-! ## The native dump -/

/-- The forms of references; all others are known by their names. -/
inductive Form where
  | refAddr | ref1 | ref2 | ref4 | ref8 | refUdata
  | other (name : String)
  deriving DecidableEq, Repr

def Form.name : Form → String
  | .refAddr => "ref_addr"
  | .ref1 => "ref1"
  | .ref2 => "ref2"
  | .ref4 => "ref4"
  | .ref8 => "ref8"
  | .refUdata => "ref_udata"
  | .other name => name

structure Location where
  op : Nat
  opName : String
  opd1 : Option Int
  opd2 : Option Int
  deriving DecidableEq, Repr

structure LocDesc where
  lowpc : Nat
  highpc : Nat
  locations : List Location
  deriving DecidableEq, Repr

/-- The values of attributes: numbers, names, blocks and what else `libdwarf` yields. -/
inductive JsValue where
  | number (n : Int)
  | text (s : String)
  | boolean (b : Bool)
  | block (bytes : List UInt8)
  | locations (list : List LocDesc)
  | undefined
  deriving DecidableEq, Repr

/-- An attribute, with what `dwarfAttributeValue` makes of it or the text that is
thrown.  For the form of a reference that is the number that is stored. -/
structure Attr where
  name : String
  offset : Nat
  form : Form
  value : Except String JsValue

inductive Die where
  | die (tagName : String) (name : Option String) (offset : Nat) (attributes : List Attr)
      (children : List Die)

/-- A compilation unit, with the offset in the section where it starts. -/
structure CompilationUnit where
  start : Nat
  die : Die

structure NativeValue where
  formName : String
  value : JsValue
  deriving DecidableEq, Repr

structure NativeAttribute where
  name : String
  offset : Option Nat
  value : NativeValue
  deriving DecidableEq, Repr

inductive NativeDie where
  | die (tagName : String) (name : Option String) (offset : Nat)
      (attributes : List NativeAttribute) (children : List NativeDie)

def dwarfAttribute (attr : Attr) : Except String NativeAttribute :=
  attr.value.map fun value =>
    { name := attr.name
      offset := some attr.offset
      value := { formName := attr.form.name, value } }

/-- What stands in the place of an attribute for which something is thrown. -/
def errorAttribute (s : String) : NativeAttribute :=
  { name := "error"
    offset := none
    value := { formName := "string", value := .text s } }

/-- A round of the loop over the attributes in `dwarfDieData`. -/
def dieAttribute (attr : Attr) : NativeAttribute :=
  match dwarfAttribute attr with
  | .ok native => native
  | .error s => errorAttribute s

mutual

def dwarfDie : Die → NativeDie
  | .die tagName name offset attributes children =>
      .die tagName name offset (attributes.map dieAttribute) (dwarfDies children)

def dwarfDies : List Die → List NativeDie
  | [] => []
  | die :: later => dwarfDie die :: dwarfDies later

end

/-! ## Objects -/

/-- The objects there are: the global one, the file, and what it is made of.  A
node is known by the indices on the way to it. -/
inductive Ref where
  | undefined
  | global
  | dwarf
  | node (path : List Nat)
  | attribute (path : List Nat) (index : Nat)
  | value (path : List Nat) (index : Nat)
  | other
  deriving DecidableEq, Repr

def Ref.or (first second : Ref) : Ref := if first = .undefined then second else first

def Ref.and (first second : Ref) : Ref := if first = .undefined then first else second

/-- A value; only those of reference forms are `DwarfRefValue`s. -/
structure DwarfValue where
  isRef : Bool
  formName : String
  value : JsValue
  parent : Ref
  file : Ref
  deriving DecidableEq, Repr

structure DwarfAttribute where
  name : String
  offset : Option Nat
  value : DwarfValue
  parent : Ref
  file : Ref
  deriving DecidableEq, Repr

inductive DwarfNode where
  | node (tagName : String) (name : Option String) (offset : Nat) (parent file : Ref)
      (attributes : List DwarfAttribute) (children : List DwarfNode)

/-- What `this` is in a callback of `map`, which is called without a context. -/
abbrev callbackThis : Ref := .global

def newDwarfValue (isRef : Bool) (hash : NativeValue) (parent parentFile : Ref) :
    DwarfValue :=
  { isRef
    formName := hash.formName
    value := hash.value
    parent
    file := parent.and parentFile }

def newDwarfAttribute (this : Ref) (hash : NativeAttribute) (parent parentFile : Ref) :
    DwarfAttribute :=
  let file := parent.and parentFile
  let isRef : Bool := hash.value.formName.toList.take 3 = ['r', 'e', 'f']
  { name := hash.name
    offset := hash.offset
    value := newDwarfValue isRef hash.value this file
    parent
    file }

section Environment

-- the property `file` of the global object, which a script may have set
variable (globalFile : Ref)

def mapAttributes (path : List Nat) (hashes : List NativeAttribute) :
    List DwarfAttribute :=
  hashes.mapIdx fun index hash =>
    newDwarfAttribute (.attribute path index) hash callbackThis globalFile

mutual

def newDwarfNode (path : List Nat) :
    NativeDie → (parent parentFile file : Ref) → DwarfNode
  | .die tagName name offset attributes children, parent, parentFile, file =>
      .node tagName name offset parent (file.or (parent.and parentFile))
        (mapAttributes globalFile path attributes)
        (mapChildren path 0 children)

def mapChildren (path : List Nat) (index : Nat) : List NativeDie → List DwarfNode
  | [] => []
  | hash :: later =>
      newDwarfNode (path ++ [index]) hash callbackThis globalFile .undefined ::
        mapChildren path (index + 1) later

end

def mapUnits (index : Nat) : List NativeDie → List DwarfNode
  | [] => []
  | hash :: later =>
      newDwarfNode globalFile [index] hash callbackThis globalFile callbackThis ::
        mapUnits (index + 1) later

/-- `new Dwarf(filename)`, as the list of its compilation units. -/
def newDwarf (units : List CompilationUnit) : List DwarfNode :=
  mapUnits globalFile 0 (units.map fun unit => dwarfDie unit.die)

end Environment

/-! ## Searching -/

mutual

/-- An offset of zero is never found. -/
def DwarfNode.getNodeWithOffset (path : List Nat) (offset : Nat) : DwarfNode → Option Ref
  | .node _ _ here _ _ _ children =>
      if here ≠ 0 ∧ here = offset then some (.node path)
      else nodeWithOffset path 0 offset children

def nodeWithOffset (path : List Nat) (index offset : Nat) : List DwarfNode → Option Ref
  | [] => none
  | child :: later =>
      (child.getNodeWithOffset (path ++ [index]) offset).or
        (nodeWithOffset path (index + 1) offset later)

end

mutual

def DwarfNode.getAttributeWithOffset (path : List Nat) (offset : Nat) : DwarfNode → Option Ref
  | .node _ _ _ _ _ attributes children =>
      match attributes.findIdx? (·.offset = some offset) with
      | some index => some (.attribute path index)
      | none => attributeWithOffset path 0 offset children

def attributeWithOffset (path : List Nat) (index offset : Nat) : List DwarfNode → Option Ref
  | [] => none
  | child :: later =>
      (child.getAttributeWithOffset (path ++ [index]) offset).or
        (attributeWithOffset path (index + 1) offset later)

end

def DwarfNode.getObjectWithOffset (path : List Nat) (offset : Nat) (node : DwarfNode) :
    Option Ref :=
  (node.getNodeWithOffset path offset).or (node.getAttributeWithOffset path offset)

def objectWithOffset (index offset : Nat) : List DwarfNode → Option Ref
  | [] => none
  | cu :: later =>
      (cu.getObjectWithOffset [index] offset).or (objectWithOffset (index + 1) offset later)

/-- `this.file && this.file.getObjectWithOffset(this.value)`; other files have
objects of their own.  Only numbers are offsets. -/
def DwarfValue.getReferencedObject (cus : List DwarfNode) (value : DwarfValue) : Ref :=
  match value.file with
  | .undefined => .undefined
  | .dwarf =>
      match value.value with
      | .number (.ofNat offset) => (objectWithOffset 0 offset cus).getD .undefined
      | _ => .undefined
  | _ => .other

/-! ## Resolution -/

def Form.IsReference (form : Form) : Prop :=
  match form with
  | .other _ => False
  | _ => True

/-- The offset in the section of what is referred to by the number stored. -/
def CompilationUnit.target (unit : CompilationUnit) (form : Form) (stored : Nat) : Nat :=
  match form with
  | .refAddr => stored
  | _ => unit.start + stored

def Die.offset : Die → Nat
  | .die _ _ offset _ _ => offset

def Die.attributes : Die → List Attr
  | .die _ _ _ attributes _ => attributes

def Die.children : Die → List Die
  | .die _ _ _ _ children => children

def DwarfNode.parent : DwarfNode → Ref
  | .node _ _ _ parent _ _ _ => parent

def DwarfNode.file : DwarfNode → Ref
  | .node _ _ _ _ file _ _ => file

def DwarfNode.attributes : DwarfNode → List DwarfAttribute
  | .node _ _ _ _ _ attributes _ => attributes

def DwarfNode.children : DwarfNode → List DwarfNode
  | .node _ _ _ _ _ _ children => children

def dieAt : List Die → List Nat → Option Die
  | _, [] => none
  | dies, [index] => dies[index]?
  | dies, index :: rest => (dies[index]?).bind fun die => dieAt die.children rest

def nodeAt : List DwarfNode → List Nat → Option DwarfNode
  | _, [] => none
  | nodes, [index] => nodes[index]?
  | nodes, index :: rest => (nodes[index]?).bind fun node => nodeAt node.children rest

def containing (path : List Nat) : Ref :=
  if path.dropLast = [] then .dwarf else .node path.dropLast

structure Placed (path : List Nat) (node : DwarfNode) : Prop where
  parent : node.parent = containing path
  file : node.file = .dwarf
  attributes : ∀ (index : Nat) (attr : DwarfAttribute), node.attributes[index]? = some attr →
    attr.parent = .node path ∧ attr.file = .dwarf ∧
      attr.value.parent = .attribute path index ∧ attr.value.file = .dwarf

/-- Every object is placed, and every reference yields the node of the DIE that
it refers to. -/
structure Resolves (globalFile : Ref) (units : List CompilationUnit) : Prop where
  placed : ∀ (path : List Nat) (node : DwarfNode),
    nodeAt (newDwarf globalFile units) path = some node → Placed path node
  resolved : ∀ (number : Nat) (unit : CompilationUnit) (path : List Nat) (die : Die)
    (index : Nat) (attr : Attr) (stored : Nat), units[number]? = some unit →
      dieAt (units.map (·.die)) (number :: path) = some die →
      die.attributes[index]? = some attr → attr.form.IsReference →
      attr.value = .ok (.number stored) →
        ∃ node made, nodeAt (newDwarf globalFile units) (number :: path) = some node ∧
          node.attributes[index]? = some made ∧
          ∃ goal found, dieAt (units.map (·.die)) goal = some found ∧
            found.offset = unit.target attr.form stored ∧
            made.value.getReferencedObject (newDwarf globalFile units) = .node goal

section Construction

variable {globalFile : Ref}

theorem getElem?_of_indexed {Hash Object : Type} {build : Nat → Hash → Object}
    {all : Nat → List Hash → List Object} (nil : ∀ index, all index [] = [])
    (cons : ∀ index hash later,
      all index (hash :: later) = build index hash :: all (index + 1) later)
    (index offset : Nat) (hashes : List Hash) :
    (all index hashes)[offset]? = (hashes[offset]?).map (build (index + offset)) := by
  induction hashes generalizing index offset with
  | nil => simp [nil]
  | cons hash later inductionHypothesis =>
      cases offset with
      | zero => simp [cons]
      | succ offset => simp [cons, inductionHypothesis, Nat.add_assoc, Nat.add_comm 1]

theorem mapUnits_getElem? (index offset : Nat) (hashes : List NativeDie) :
    (mapUnits globalFile index hashes)[offset]? =
      (hashes[offset]?).map fun hash =>
        newDwarfNode globalFile [index + offset] hash callbackThis globalFile
          callbackThis :=
  @getElem?_of_indexed _ _
    (fun index hash => newDwarfNode globalFile [index] hash callbackThis globalFile callbackThis)
    (mapUnits globalFile) (fun _ => rfl) (fun _ _ _ => rfl) index offset hashes

theorem mapChildren_getElem? (path : List Nat) (index offset : Nat)
    (hashes : List NativeDie) :
    (mapChildren globalFile path index hashes)[offset]? =
      (hashes[offset]?).map fun hash =>
        newDwarfNode globalFile (path ++ [index + offset]) hash callbackThis globalFile
          .undefined :=
  @getElem?_of_indexed _ _
    (fun index hash => newDwarfNode globalFile (path ++ [index]) hash callbackThis globalFile
      .undefined)
    (mapChildren globalFile path) (fun _ => by rw [mapChildren])
    (fun _ _ _ => by rw [mapChildren]) index offset hashes

def Made (globalFile : Ref) (node : DwarfNode) : Prop :=
  ∃ path hash file, node = newDwarfNode globalFile path hash .global globalFile file

theorem made_children {node : DwarfNode} (made : Made globalFile node) {index : Nat}
    {child : DwarfNode} (found : node.children[index]? = some child) : Made globalFile child := by
  obtain ⟨path, hash, file, rfl⟩ := made
  cases hash with
  | die tagName name offset attributes children =>
      simp only [newDwarfNode, DwarfNode.children, mapChildren_getElem?,
        Option.map_eq_some_iff] at found
      obtain ⟨hash, -, same⟩ := found
      exact ⟨_, hash, _, same.symm⟩

theorem made_nodeAt {nodes : List DwarfNode}
    (all : ∀ (index : Nat) (node : DwarfNode), nodes[index]? = some node → Made globalFile node)
    {path : List Nat} {node : DwarfNode} (found : nodeAt nodes path = some node) :
    Made globalFile node := by
  induction path generalizing nodes with
  | nil => cases found
  | cons index rest inductionHypothesis =>
      cases rest with
      | nil => exact all index node found
      | cons next rest =>
          obtain ⟨first, here, later⟩ := Option.bind_eq_some_iff.mp found
          exact inductionHypothesis (fun _ _ child => made_children (all index first here) child)
            later

theorem made_attributes {node : DwarfNode} (made : Made globalFile node) :
    node.parent = .global ∧ ∀ attr ∈ node.attributes,
      attr.parent = .global ∧ attr.file = globalFile ∧ attr.value.file = globalFile := by
  obtain ⟨path, hash, file, rfl⟩ := made
  cases hash with
  | die tagName name offset attributes children =>
      refine ⟨rfl, fun attr membership => ?_⟩
      obtain ⟨index, inside, rfl⟩ := List.mem_mapIdx.mp membership
      exact ⟨rfl, rfl, rfl⟩

variable {units : List CompilationUnit}

theorem made_of_nodeAt {path : List Nat} {node : DwarfNode}
    (found : nodeAt (newDwarf globalFile units) path = some node) : Made globalFile node := by
  refine made_nodeAt (fun index node here => ?_) found
  rw [newDwarf, mapUnits_getElem?, Option.map_eq_some_iff] at here
  obtain ⟨hash, -, same⟩ := here
  exact ⟨_, hash, _, same.symm⟩

theorem referenced_undefined {path : List Nat} {node : DwarfNode} {attr : DwarfAttribute}
    (found : nodeAt (newDwarf .undefined units) path = some node)
    (membership : attr ∈ node.attributes) :
    attr.value.getReferencedObject (newDwarf .undefined units) = .undefined := by
  obtain ⟨-, attributes⟩ := made_attributes (made_of_nodeAt found)
  rw [DwarfValue.getReferencedObject, (attributes attr membership).2.2]

end Construction

/-- References resolve if and only if there is no compilation unit. -/
theorem resolves_iff (globalFile : Ref) (units : List CompilationUnit) :
    Resolves globalFile units ↔ units = [] := by
  constructor
  · intro resolves
    cases units with
    | nil => rfl
    | cons unit later =>
        have first : nodeAt (newDwarf globalFile (unit :: later)) [0] =
            some (newDwarfNode globalFile [0] (dwarfDie unit.die) callbackThis globalFile
              callbackThis) := rfl
        have placed := resolves.placed [0] _ first
        have parent := (made_attributes (made_of_nodeAt first)).1
        exact absurd (parent.symm.trans placed.parent) (by decide)
  · rintro rfl
    have none : ∀ path, nodeAt (newDwarf globalFile []) path = none := by
      intro path
      rcases path with _ | ⟨index, _ | ⟨next, rest⟩⟩ <;> rfl
    refine ⟨fun path node found => ?_, fun number unit path die index attr stored found => ?_⟩
    · rw [none] at found
      cases found
    · cases found

theorem resolves_fails :
    ¬∀ (globalFile : Ref) (units : List CompilationUnit), Resolves globalFile units := by
  intro resolves
  have placed := (resolves .undefined [⟨0, .die "compile_unit" "main.c" 11 []
    [.die "base_type" "int" 30 [] [],
      .die "variable" "x" 40 [⟨"type", 42, .ref4, .ok (.number 30)⟩] []]⟩]).placed [0] _ rfl
  exact absurd placed.parent (by decide)

end Avarice.Script

import Avarice.Library.Handles

/-!
# Handles of libdwarf

The walk over the DIEs of a compilation unit in `dwarf.cc`, with all handles
and lists that it obtains and gives back.  Whether a call of libdwarf or the
conversion of an attribute or a line throws is part of the input.  A DIE
without attributes has an empty list of them.
-/

namespace Avarice.Dwarf

open Handles Throwing

/-- What `dwarf_dealloc` is given. -/
inductive Kind where
  | attr | attrList | die | lineList | fileList
  deriving DecidableEq, Repr

abbrev DwarfPool := Pool Kind

/-- What a call that lists something yields; of every entry, whether it can be
converted. -/
inductive Listed where
  | error
  | noEntry
  | list (entries : List Bool)
  deriving DecidableEq, Repr

/-- What libdwarf knows of a DIE: whether each of the calls that name and place
it succeeds, its attributes, unless that call fails, and its lines. -/
structure DieData where
  diename : Bool := true
  tag : Bool := true
  dieoffset : Bool := true
  cuOffset : Bool := true
  attrlist : Option (List Bool) := some []
  srclines : Listed := .noEntry
  deriving DecidableEq, Repr

/-- What `dwarf_child` or `dwarf_siblingof` yields: with a DIE, what these two
yield for it in turn. -/
inductive Link where
  | error
  | noEntry
  | die (data : DieData) (child sibling : Link)
  deriving Repr

def check (succeeds : Bool) (pool : DwarfPool) : Called DwarfPool Unit :=
  ⟨if succeeds then some () else none, pool⟩

/-- The loop over the attributes of a DIE.  What is caught when one of them
cannot be converted is followed by what comes behind the conversion. -/
def dwarfAttributes (die list : Nat) : List Bool → Nat → DwarfPool → DwarfPool
  | [], _, pool => pool
  | converts :: later, attr, pool =>
      let pool := ((pool.use list).use die).use attr
      let pool := if converts then pool else pool.release attr
      dwarfAttributes die list later (attr + 1) (pool.release attr)

def dwarfAttrlist (die : Nat) (attrs : List Bool) (pool : DwarfPool) : DwarfPool :=
  let list := pool.next
  let attr := list + 1
  let pool := (pool.acquire .attrList).acquireAll .attr attrs.length
  (dwarfAttributes die list attrs attr pool).release list

def dwarfDieData (data : DieData) (die : Nat) (pool : DwarfPool) : Called DwarfPool Unit :=
  (check data.diename (pool.use die)).andThen fun _ pool =>
  (check data.tag (pool.use die)).andThen fun _ pool =>
  (check data.dieoffset (pool.use die)).andThen fun _ pool =>
  (check data.cuOffset (pool.use die)).andThen fun _ pool =>
  match data.attrlist with
  | none => ⟨none, pool.use die⟩
  | some attrs => ⟨some (), dwarfAttrlist die attrs (pool.use die)⟩

/-- The loop over the lines, which one that cannot be converted leaves. -/
def dwarfLines (list : Nat) : List Bool → DwarfPool → Called DwarfPool Unit
  | [], pool => ⟨some (), pool⟩
  | converts :: later, pool =>
      (check converts (pool.use list)).andThen fun _ pool => dwarfLines list later pool

def dwarfDieLines (data : DieData) (die : Nat) (pool : DwarfPool) : Called DwarfPool Unit :=
  let pool := pool.use die
  match data.srclines with
  | .error => ⟨none, pool⟩
  | .noEntry => ⟨some (), pool⟩
  | .list lines =>
      (dwarfLines pool.next lines (pool.acquire .lineList)).andThen fun _ after =>
        ⟨some (), after.release pool.next⟩

/-- The walk over a DIE, with that over its children. -/
def dwarfDie (children : Nat → DwarfPool → Called DwarfPool Unit) (data : DieData)
    (die : Nat) (pool : DwarfPool) : Called DwarfPool Unit :=
  (dwarfDieData data die pool).andThen fun _ pool =>
  (dwarfDieLines data die pool).andThen fun _ pool =>
  children die pool

mutual

def dwarfChild : Link → Nat → DwarfPool → Called DwarfPool Unit
  | .error, parent, pool => ⟨none, pool.use parent⟩
  | .noEntry, parent, pool => ⟨some (), pool.use parent⟩
  | .die data grandchild sibling, parent, pool =>
      let pool := pool.use parent
      let child := pool.next
      let walk := (dwarfDie (dwarfChild grandchild) data child (pool.acquire .die)).andThen
        fun _ pool => dwarfSiblings sibling child child pool
      -- released where the walk is left by a throw, and behind it
      ⟨walk.value, walk.state.release child⟩

/-- The loop over the siblings: the first child is released behind it, the one
before the current one in it. -/
def dwarfSiblings : Link → Nat → Nat → DwarfPool → Called DwarfPool Unit
  | .error, _, cur, pool => ⟨none, pool.use cur⟩
  | .noEntry, _, cur, pool => ⟨some (), pool.use cur⟩
  | .die data child later, first, cur, pool =>
      let pool := pool.use cur
      let sib := pool.next
      let walk := dwarfDie (dwarfChild child) data sib (pool.acquire .die)
      let pool := if cur ≠ first then walk.state.release cur else walk.state
      match walk.value with
      | none => ⟨none, pool⟩
      | some _ => dwarfSiblings later first sib pool

end

/-- A compilation unit: its files, unless that call fails, and its DIE. -/
structure CompilationUnit where
  srcfiles : Option (List String)
  data : DieData
  child : Link

/-- The list of the files is released behind the walk. -/
def dwarfCu (cu : CompilationUnit) (die : Nat) (pool : DwarfPool) : Called DwarfPool Unit :=
  let pool := pool.use die
  match cu.srcfiles with
  | none => ⟨none, pool⟩
  | some _ =>
      let list := pool.next
      (dwarfDie (dwarfChild cu.child) cu.data die ((pool.acquire .fileList).use list)).andThen
        fun _ pool => ⟨some (), pool.release list⟩

def cuPool : DwarfPool :=
  { next := 1
    kind := fun handle => if handle = 0 then some .die else none
    releases := fun _ => 0
    misused := false }

/-! ## The clean case -/

def DieData.Named (data : DieData) : Prop :=
  data.diename = true ∧ data.tag = true ∧ data.dieoffset = true ∧ data.cuOffset = true

def DieData.Completes (data : DieData) : Prop :=
  (data.Named ∧ data.attrlist.isSome) ∧
    match data.srclines with
    | .error => False
    | .noEntry => True
    | .list lines => ∀ converts ∈ lines, converts = true

def Link.Completes : Link → Prop
  | .error => False
  | .noEntry => True
  | .die data child sibling => (data.Completes ∧ child.Completes) ∧ sibling.Completes

/-- Which lists count as lists of handles, besides those of the attributes. -/
structure Lists where
  lines : Bool
  files : Bool

def Lists.counted (lists : Lists) : Kind → Prop
  | .attr | .attrList | .die => True
  | .lineList => lists.lines = true
  | .fileList => lists.files = true

variable (lists : Lists)

/-- All attributes of a DIE can be converted, and its lines if their list
counts. -/
def DieData.Clean (data : DieData) : Prop :=
  (data.Named → ∀ attrs ∈ data.attrlist, ∀ converts ∈ attrs, converts = true) ∧
    (data.Named ∧ data.attrlist.isSome → lists.lines = true →
      ∀ lines, data.srclines = .list lines → ∀ converts ∈ lines, converts = true)

def Link.isDie : Link → Bool
  | .die _ _ _ => true
  | _ => false

/-- Where the walk gets, DIEs are clean and have at most one child. -/
def Link.Clean : Link → Prop
  | .error => True
  | .noEntry => True
  | .die data child sibling =>
      (data.Clean lists ∧ (data.Completes → child.Clean)) ∧
        (data.Completes ∧ child.Completes → sibling.isDie = false)

/-- So it is in a compilation unit, which the walk does not leave by a throw if
the list of its files counts. -/
def CompilationUnit.Clean (cu : CompilationUnit) : Prop :=
  cu.srcfiles.isSome →
    (cu.data.Clean lists ∧ (cu.data.Completes → cu.child.Clean lists)) ∧
      (lists.files = true → cu.data.Completes ∧ cu.child.Completes)

/-! ## One DIE -/

section Die

variable {lists} {pool : DwarfPool} {die list attr : Nat} {data : DieData}

theorem dwarfAttributes_same (attrs : List Bool) (attr : Nat) (pool : DwarfPool) :
    (dwarfAttributes die list attrs attr pool).next = pool.next ∧
      (dwarfAttributes die list attrs attr pool).kind = pool.kind ∧
      (∀ handle < attr,
        (dwarfAttributes die list attrs attr pool).releases handle = pool.releases handle) ∧
      ((dwarfAttributes die list attrs attr pool).misused = false → pool.misused = false) := by
  induction attrs generalizing attr pool with
  | nil => exact ⟨rfl, rfl, fun _ _ => rfl, id⟩
  | cons converts later inductionHypothesis =>
      obtain ⟨next, kind, releases, misused⟩ := inductionHypothesis (attr + 1)
        ((if converts then ((pool.use list).use die).use attr
          else (((pool.use list).use die).use attr).release attr).release attr)
      refine ⟨next.trans ?_, kind.trans ?_, ?_, fun fine => ?_⟩
      · cases converts <;> rfl
      · cases converts <;> rfl
      · intro handle before
        refine (releases handle (Nat.lt_succ_of_lt before)).trans ?_
        rw [Pool.release_releases_ne (Nat.ne_of_lt before)]
        cases converts
        · exact Pool.release_releases_ne (Nat.ne_of_lt before)
        · rfl
      · have fine := misused fine
        cases converts <;>
          simp only [Pool.release, Pool.use, Bool.or_eq_false_iff, if_true, if_false,
            Bool.false_eq_true] at fine
        · exact fine.1.1.1.1.1
        · exact fine.1.1.1.1

theorem dwarfAttributes_iff {attrs : List Bool}
    (listHeld : pool.Held list) (dieHeld : pool.Held die)
    (held : ∀ offset < attrs.length, pool.Held (attr + offset))
    (older : list < attr ∧ die < attr) :
    ((dwarfAttributes die list attrs attr pool).misused = false ↔
      pool.misused = false ∧ ∀ converts ∈ attrs, converts = true) ∧
      ((∀ converts ∈ attrs, converts = true) → ∀ offset < attrs.length,
        (dwarfAttributes die list attrs attr pool).releases (attr + offset) = 1) := by
  induction attrs generalizing attr pool with
  | nil => simp [dwarfAttributes]
  | cons converts later inductionHypothesis =>
      have first : pool.Held attr := held 0 (Nat.zero_lt_succ _)
      have used : ((pool.use list).use die).use attr = pool := by
        rw [Pool.use_of_held listHeld, Pool.use_of_held dieHeld, Pool.use_of_held first]
      simp only [dwarfAttributes, used, List.forall_mem_cons]
      cases converts with
      | false =>
          have misused := Pool.release_release_misused first
          obtain ⟨-, -, -, kept⟩ := @dwarfAttributes_same die list later (attr + 1)
            ((pool.release attr).release attr)
          simp only [Bool.false_eq_true, if_false, false_and, and_false, false_implies, and_true,
            iff_false]
          intro fine
          exact Bool.false_ne_true ((kept fine).symm.trans misused)
      | true =>
          have rest : ∀ offset < later.length, (pool.release attr).Held (attr + 1 + offset) := by
            intro offset inside
            have next := held (offset + 1) (Nat.succ_lt_succ inside)
            rw [Nat.add_comm offset, ← Nat.add_assoc] at next
            exact Pool.held_release next (by omega)
          obtain ⟨misused, once⟩ := @inductionHypothesis (pool.release attr) (attr + 1)
            (Pool.held_release listHeld (Nat.ne_of_lt older.1))
            (Pool.held_release dieHeld (Nat.ne_of_lt older.2)) rest
            ⟨Nat.lt_succ_of_lt older.1, Nat.lt_succ_of_lt older.2⟩
          obtain ⟨-, -, releases, -⟩ := @dwarfAttributes_same die list later (attr + 1)
            (pool.release attr)
          rw [Pool.release_misused first] at misused
          simp only [if_true, true_and]
          refine ⟨misused, fun all offset inside => ?_⟩
          cases offset with
          | zero =>
              exact (releases attr (Nat.lt_succ_self attr)).trans
                (Pool.release_releases_self first)
          | succ offset =>
              rw [Nat.add_comm offset, ← Nat.add_assoc]
              exact once all offset (Nat.lt_of_succ_lt_succ inside)

variable {counted : Kind → Prop}

theorem does_attrlist (held : pool.Held die) (attrs : List Bool) :
    Does counted pool ⟨some (), dwarfAttrlist die attrs pool⟩
      (∀ converts ∈ attrs, converts = true) True := by
  have acquired := Pool.keeps_acquireAll Kind.attr attrs.length (pool.acquire .attrList)
  have next := Pool.acquireAll_next Kind.attr attrs.length (pool.acquire .attrList)
  have clean := @dwarfAttributes_iff _ die pool.next (pool.next + 1) attrs
    (acquired.held (Pool.held_acquire _ _))
    (acquired.held ((Pool.keeps_acquire _ _).held held))
    (fun offset inside => Pool.held_acquireAll Kind.attr (pool.acquire .attrList) inside)
    ⟨Nat.lt_succ_self _, Nat.lt_succ_of_lt held.1⟩
  obtain ⟨nextSame, kindSame, releasesSame, misused⟩ := @dwarfAttributes_same die pool.next attrs
    (pool.next + 1) ((pool.acquire .attrList).acquireAll .attr attrs.length)
  have inner : Pool.Keeps (pool.acquire .attrList)
      (dwarfAttributes die pool.next attrs (pool.next + 1)
        ((pool.acquire .attrList).acquireAll .attr attrs.length)) :=
    { next_le := nextSame ▸ acquired.next_le
      kind_eq := fun handle old => by rw [kindSame, acquired.kind_eq handle old]
      releases_eq := fun handle old => by
        rw [releasesSame handle old, acquired.releases_eq handle old]
      misused := fun fine => acquired.misused (misused fine) }
  have started : ((pool.acquire Kind.attrList).acquireAll .attr attrs.length).misused =
      pool.misused := Pool.acquireAll_misused _ _ _
  rw [started] at clean
  refine ⟨Pool.keeps_release inner, ?_, by simp⟩
  refine (Pool.returned_release_iff inner).trans ⟨fun returned => clean.1.mp returned.1, ?_⟩
  intro fine
  refine ⟨clean.1.mpr fine, fun handle since below _ _ _ => ?_⟩
  rw [nextSame, next] at below
  obtain ⟨offset, rfl⟩ := Nat.exists_eq_add_of_le since
  have inside : offset < attrs.length := by
    simp only [Pool.acquire] at below
    omega
  exact clean.2 fine.2 offset inside

theorem does_check_andThen {rest : DwarfPool → Called DwarfPool Unit} {clean completes : Prop}
    (succeeds : Bool)
    (second : ∀ pool : DwarfPool, pool.Held die → Does counted pool (rest pool) clean completes)
    (pool : DwarfPool) (held : pool.Held die) :
    Does counted pool ((check succeeds (pool.use die)).andThen fun _ pool => rest pool)
      (succeeds = true → clean) (succeeds = true ∧ completes) := by
  rw [Pool.use_of_held held]
  have first : Does counted pool (check succeeds pool) True (succeeds = true) :=
    does_check succeeds
  have whole := first.andThen (fun _ pool => rest pool) fun _ => second pool held
  exact whole.congr (by simp) Iff.rfl

theorem does_dieData (held : pool.Held die) (data : DieData) :
    Does counted pool (dwarfDieData data die pool)
      (data.Named → ∀ attrs ∈ data.attrlist, ∀ converts ∈ attrs, converts = true)
      (data.Named ∧ data.attrlist.isSome) := by
  have attributes : ∀ pool : DwarfPool, pool.Held die →
      Does counted pool
        (match data.attrlist with
          | none => ⟨none, pool.use die⟩
          | some attrs => ⟨some (), dwarfAttrlist die attrs (pool.use die)⟩)
        (∀ attrs ∈ data.attrlist, ∀ converts ∈ attrs, converts = true)
        (data.attrlist.isSome = true) := by
    intro pool held
    rw [Pool.use_of_held held]
    cases data.attrlist with
    | none => exact (does_check false).congr (by simp) (by simp)
    | some attrs => exact (does_attrlist held attrs).congr (by simp) (by simp)
  have does := does_check_andThen data.diename (does_check_andThen data.tag
    (does_check_andThen data.dieoffset (does_check_andThen data.cuOffset attributes))) pool held
  refine does.congr ?_ ?_
  · simp only [DieData.Named, and_imp]
  · simp only [DieData.Named, and_assoc]

theorem does_lines {rows : List Bool} (held : pool.Held list) :
    Does counted pool (dwarfLines list rows pool) True (∀ converts ∈ rows, converts = true) := by
  induction rows with
  | nil => exact (does_check true).congr Iff.rfl (by simp)
  | cons converts later inductionHypothesis =>
      simp only [dwarfLines, Pool.use_of_held held]
      cases converts with
      | false => exact (does_check false).congr Iff.rfl (by simp)
      | true => exact inductionHypothesis.congr Iff.rfl (by simp)

theorem does_dieLines (held : pool.Held die) (data : DieData) :
    Does counted pool (dwarfDieLines data die pool)
      (counted .lineList →
        ∀ lines, data.srclines = .list lines → ∀ converts ∈ lines, converts = true)
      (match data.srclines with
        | .error => False
        | .noEntry => True
        | .list lines => ∀ converts ∈ lines, converts = true) := by
  simp only [dwarfDieLines, Pool.use_of_held held]
  cases data.srclines with
  | error => exact (does_check false).congr (by simp) (by simp)
  | noEntry => exact (does_check true).congr (by simp) (by simp)
  | list rows =>
      have acquired := Pool.held_acquire Kind.lineList pool
      have lines := @does_lines _ pool.next counted rows (Pool.held_acquire Kind.lineList pool)
      refine lines.releasing.congr ?_ Iff.rfl
      simp

theorem does_die {children : Nat → DwarfPool → Called DwarfPool Unit} {clean completes : Prop}
    (inner : ∀ (die : Nat) (pool : DwarfPool), pool.Held die →
      Does lists.counted pool (children die pool) clean completes)
    (data : DieData) (held : pool.Held die) :
    Does lists.counted pool (dwarfDie children data die pool)
      (data.Clean lists ∧ (data.Completes → clean)) (data.Completes ∧ completes) := by
  have named := @does_dieData pool die lists.counted held data
  have held' := named.keeps.held held
  have lines := @does_dieLines _ die lists.counted held' data
  have later := lines.andThen (fun _ pool => children die pool)
    fun _ => inner die _ (lines.keeps.held held')
  have does := named.andThen
    (fun _ pool => (dwarfDieLines data die pool).andThen fun _ pool => children die pool)
    fun _ => later
  refine does.congr ?_ ?_
  · simp only [DieData.Clean, DieData.Completes, Lists.counted]
    constructor
    · rintro ⟨attributes, later⟩
      exact ⟨⟨attributes, fun called => (later called).1⟩, fun all => (later all.1).2 all.2⟩
    · rintro ⟨⟨attributes, counts⟩, later⟩
      exact ⟨attributes, fun called => ⟨counts called, fun all => later ⟨called, all⟩⟩⟩
  · simp only [DieData.Completes, and_assoc]

/-! ## Children -/

/-- What the two loops do with what a call yields: with the children, with the
sibling of a first child, and with that of a later one, which is not released
by then. -/
structure Walked (lists : Lists) (link : Link) : Prop where
  children : ∀ (die : Nat) (pool : DwarfPool), pool.Held die →
    Does lists.counted pool (dwarfChild link die pool) (link.Clean lists) link.Completes
  second : ∀ (first : Nat) (pool : DwarfPool), pool.Held first →
    Does lists.counted pool (dwarfSiblings link first first pool) (link.isDie = false)
      link.Completes
  later : ∀ (first : Nat) (outer pool : DwarfPool), Pool.Keeps (outer.acquire .die) pool →
    first < outer.next →
      Pool.Keeps outer (dwarfSiblings link first outer.next pool).state ∧
        ¬Pool.Returned lists.counted outer.next
          (dwarfSiblings link first outer.next pool).state ∧
        ((dwarfSiblings link first outer.next pool).value = some () ↔ link.Completes)

theorem walked_error : Walked lists .error where
  children die pool held := by
    simp only [dwarfChild, Pool.use_of_held held]
    exact (does_check false).congr (by simp [Link.Clean]) (by simp [Link.Completes])
  second first pool held := by
    simp only [dwarfSiblings, Pool.use_of_held held]
    exact (does_check false).congr (by simp [Link.isDie]) (by simp [Link.Completes])
  later first outer pool inner older := by
    simp only [dwarfSiblings, Pool.use_of_held (Pool.held_of_inner inner)]
    exact ⟨Pool.keeps_of_inner inner, Pool.not_returned_of_inner inner trivial,
      by simp [Link.Completes]⟩

theorem walked_noEntry : Walked lists .noEntry where
  children die pool held := by
    simp only [dwarfChild, Pool.use_of_held held]
    exact (does_check true).congr (by simp [Link.Clean]) (by simp [Link.Completes])
  second first pool held := by
    simp only [dwarfSiblings, Pool.use_of_held held]
    exact (does_check true).congr (by simp [Link.isDie]) (by simp [Link.Completes])
  later first outer pool inner older := by
    simp only [dwarfSiblings, Pool.use_of_held (Pool.held_of_inner inner)]
    exact ⟨Pool.keeps_of_inner inner, Pool.not_returned_of_inner inner trivial,
      by simp [Link.Completes]⟩

theorem walked_die {data : DieData} {child sibling : Link} (below : Walked lists child)
    (beside : Walked lists sibling) : Walked lists (.die data child sibling) where
  children die pool held := by
    simp only [dwarfChild, Pool.use_of_held held]
    have walk := (does_die below.children data (Pool.held_acquire Kind.die pool)).andThen
      (fun _ after => dwarfSiblings sibling pool.next pool.next after)
      fun _ => beside.second pool.next _ ?_
    · refine ⟨Pool.keeps_release walk.keeps, ?_, walk.value.trans ?_⟩
      · rw [Pool.returned_release_iff walk.keeps]
        exact walk.returned
      · simp only [Link.Completes]
    · exact Pool.held_of_inner
        (does_die below.children data (Pool.held_acquire Kind.die pool)).keeps
  second first pool held := by
    have walk := does_die below.children data (Pool.held_acquire Kind.die pool)
    simp only [dwarfSiblings, Pool.use_of_held held, ne_eq, not_true_eq_false, if_false]
    cases outcome : (dwarfDie (dwarfChild child) data pool.next (pool.acquire .die)).value with
    | none =>
        have threw : ¬(data.Completes ∧ child.Completes) := by
          rw [← walk.value, outcome]
          exact (Option.some_ne_none _ ·.symm)
        refine ⟨Pool.keeps_of_inner walk.keeps, ?_, ?_⟩
        · simpa [Link.isDie] using Pool.not_returned_of_inner walk.keeps trivial
        · exact iff_of_false (Option.some_ne_none _ ·.symm) fun all => threw all.1
    | some _ =>
        obtain ⟨keeps, missing, value⟩ := beside.later first pool _ walk.keeps held.1
        refine ⟨keeps, ?_, value.trans ?_⟩
        · simpa [Link.isDie] using missing
        · simp [Link.Completes, walk.value.mp outcome]
  later first outer pool inner older := by
    have held := Pool.held_of_inner inner
    have walk := does_die below.children data (Pool.held_acquire Kind.die pool)
    have chain := inner.trans (Pool.keeps_of_inner walk.keeps)
    have apart : outer.next ≠ first := Nat.ne_of_gt older
    simp only [dwarfSiblings, Pool.use_of_held held, ne_eq, apart, not_false_eq_true, if_true]
    cases outcome : (dwarfDie (dwarfChild child) data pool.next (pool.acquire .die)).value with
    | none =>
        have threw : ¬(data.Completes ∧ child.Completes) := by
          rw [← walk.value, outcome]
          exact (Option.some_ne_none _ ·.symm)
        refine ⟨Pool.keeps_release chain, ?_, ?_⟩
        · have sib := Pool.held_of_inner walk.keeps
          have known := walk.keeps.kind_eq pool.next (Nat.lt_succ_self _)
          simp only [Pool.acquire, if_true] at known
          exact Pool.not_returned_of_held (Pool.held_release sib (Nat.ne_of_gt held.1))
            (Nat.le_of_lt held.1) known trivial
        · exact iff_of_false (Option.some_ne_none _ ·.symm) fun all => threw all.1
    | some _ =>
        have inner' : Pool.Keeps ((pool.release outer.next).acquire .die)
            ((dwarfDie (dwarfChild child) data pool.next (pool.acquire .die)).state.release
              outer.next) := by
          rw [Pool.acquire_release _ held]
          exact walk.keeps.release ((Pool.keeps_acquire _ _).held held)
        obtain ⟨keeps, missing, value⟩ :=
          beside.later first _ _ inner' (Nat.lt_trans older held.1)
        refine ⟨(Pool.keeps_release inner).trans keeps, ?_, value.trans ?_⟩
        · intro returned
          have started : outer.next ≤ (pool.release outer.next).next := Nat.le_of_lt held.1
          exact missing ((Pool.returned_iff_split started keeps).mp returned).2
        · simp [Link.Completes, walk.value.mp outcome]

theorem walked (link : Link) : Walked lists link := by
  induction link with
  | error => exact walked_error
  | noEntry => exact walked_noEntry
  | die data child sibling below beside => exact walked_die below beside

end Die

/-- During `dwarfCu`, the handles and their lists are released once if and only
if, where the walk gets, every attribute can be converted and no DIE has two
children; and where other lists count, their lines can be converted and no
call throws behind that for the files. -/
theorem returned_iff (lists : Lists) (cu : CompilationUnit) :
    Pool.Returned lists.counted 1 (dwarfCu cu 0 cuPool).state ↔ cu.Clean lists := by
  have held : cuPool.Held 0 := by decide
  simp only [dwarfCu, Pool.use_of_held held, CompilationUnit.Clean]
  cases cu.srcfiles with
  | none => exact iff_of_true (Pool.returned_next.mpr rfl) (by simp)
  | some files =>
      have acquired := Pool.held_acquire Kind.fileList cuPool
      have die := (Pool.keeps_acquire Kind.fileList cuPool).held held
      have walk := (does_die (walked cu.child : Walked lists _).children cu.data die).releasing
      have fine : cuPool.misused = false := rfl
      simp only [Pool.use_of_held acquired]
      exact walk.returned.trans (by simp [fine, Lists.counted])

/-- An attribute that cannot be converted is released twice. -/
theorem not_returned :
    ¬∀ cu : CompilationUnit,
      Pool.Returned (Lists.counted ⟨false, false⟩) 1 (dwarfCu cu 0 cuPool).state := by
  intro always
  have returned := always
    { srcfiles := some ["main.c"], data := { attrlist := some [false] }, child := .noEntry }
  exact Bool.false_ne_true (returned.1.symm.trans (by decide))

end Avarice.Dwarf

import Avarice.Mk1.BreakpointBag

/-!
# Agreement between the tables and the comparators of the mkI

An update gives every breakpoint a comparator, code breakpoints first.  It
writes the mode of the comparators X and Y only when X is given one, so what
was armed in them before stays armed otherwise.
-/

namespace Avarice.Mk1

def Entry.Current (t : BreakpointTable) : Entry → Prop
  | .code i => i < t.numBreakpointsCode
  | .data i => i < t.numBreakpointsData

/-- The address of a breakpoint in its space: of a flash location, or of a byte of data
memory, which stands behind the offset of the data space. -/
def Entry.ownAddress (t : BreakpointTable) : Entry → Int
  | .code i => (t.bpCode.peek i).address.toNat
  | .data i => (t.bpData.peek i).address.toNat - dataSpaceAddrOffset.toNat

/-- What the field "BP Mode" of `avrIceProtocol.txt` can say. -/
inductive BpMode where
  | dataRead | dataWrite | dataAccess | programRead
  deriving DecidableEq, Repr

def BpMode.ofBits : Nat → BpMode
  | 0b00 => .dataRead
  | 0b01 => .dataWrite
  | 0b10 => .dataAccess
  | _ => .programRead

def BpMode.ofType (type : BpType) : Option BpMode :=
  if type = .readData then some .dataRead
  else if type = .writeData then some .dataWrite
  else if type = .accessData then some .dataAccess
  else if type = .code then some .programRead
  else none

/-- Every breakpoint has a comparator of its own that compares with its
address, and X and Y are armed as the breakpoints they carry say. -/
structure Session.Agrees (s : Session) : Prop where
  assigned : ∀ e, e.Current s.table →
    ∃ c, (e, c) ∈ s.assigned ∧ ∀ other, (e, other) ∈ s.assigned → other = c
  current : ∀ e c, (e, c) ∈ s.assigned → e.Current s.table
  alone : ∀ e other c, (e, c) ∈ s.assigned → (other, c) ∈ s.assigned → e = other
  address : ∀ e c, (e, c) ∈ s.assigned →
    (s.ice.address c).map Int.ofNat = some (e.ownAddress s.table)
  xActive : s.ice.xActive = true ↔ ∃ e, (e, .x) ∈ s.assigned
  yActive : s.ice.yActive = true ↔ ∃ e, (e, .y) ∈ s.assigned
  xMode : ∀ e, (e, .x) ∈ s.assigned →
    BpMode.ofType (s.table.get e).type = some (.ofBits s.ice.xMode)
  yMode : ∀ e, (e, .y) ∈ s.assigned →
    BpMode.ofType (s.table.get e).type = some (.ofBits s.ice.yMode)

/-! ## What the commands do -/

section Commands

variable (ice : Ice)

@[simp]
theorem execute_xHigh (value : UInt8) :
    ice.execute (.setParameter jtagPBpXHigh value) = { ice with xHigh := value } := rfl

@[simp]
theorem execute_xLow (value : UInt8) :
    ice.execute (.setParameter jtagPBpXLow value) = { ice with xLow := value } := rfl

@[simp]
theorem execute_yHigh (value : UInt8) :
    ice.execute (.setParameter jtagPBpYHigh value) = { ice with yHigh := value } := rfl

@[simp]
theorem execute_yLow (value : UInt8) :
    ice.execute (.setParameter jtagPBpYLow value) = { ice with yLow := value } := rfl

@[simp]
theorem execute_bpMode (value : UInt8) :
    ice.execute (.setParameter jtagPBpMode value) = { ice with bpMode := value } := rfl

/-- Where a write to the breakpoint space for a flash location ends up. -/
def breakpointAddress (location : UInt32) : Option Nat :=
  let (whichSpace, addr) := memorySpace (breakpointSpaceAddrOffset + location.toUInt64)
  if whichSpace = addrBreakpointSpace then some (decodeAddress (encodeAddress addr)) else none

theorem execute_jtagWriteByte (programmingEnabled : Bool) (location : UInt32) (value : UInt8) :
    ((jtagWriteByte programmingEnabled (breakpointSpaceAddrOffset + location.toUInt64)
        value).map ice.execute).getD ice =
      match breakpointAddress location with
      | none => ice
      | some address =>
          if value = 0 then { ice with z0 := some address }
          else if value = 1 then { ice with z1 := some address }
          else ice := by
  unfold jtagWriteByte breakpointAddress
  generalize memorySpace (breakpointSpaceAddrOffset + location.toUInt64) = decoded
  obtain ⟨whichSpace, addr⟩ := decoded
  by_cases inSpace : whichSpace = addrBreakpointSpace
  · subst inSpace
    simp [Ice.execute, addrBreakpointSpace]
  · by_cases program : whichSpace = 0
    · subst program
      by_cases odd : addr &&& 1 = 0
      · cases programmingEnabled <;> simp [odd, Ice.execute, addrBreakpointSpace]
      · simp [odd, addrBreakpointSpace]
    · simp [program, inSpace, Ice.execute]

end Commands

/-! ## The update, entry by entry -/

def xEntry (t : BreakpointTable) : Option Entry :=
  if 2 < t.numBreakpointsCode then some (.code 2)
  else if 0 < t.numBreakpointsData then some (.data 0)
  else none

def yEntry (t : BreakpointTable) : Option Entry :=
  if 3 < t.numBreakpointsCode then some (.code 3)
  else if t.numBreakpointsCode = 3 then
    if 0 < t.numBreakpointsData then some (.data 0) else none
  else if 1 < t.numBreakpointsData then some (.data 1)
  else none

def Ice.loadX (bp : Breakpoint) (ice : Ice) : Ice :=
  { ice with xHigh := (bp.address >>> 8).toUInt8, xLow := (bp.address &&& 0xff).toUInt8 }

def Ice.loadY (bp : Breakpoint) (ice : Ice) : Ice :=
  { ice with yHigh := (bp.address >>> 8).toUInt8, yLow := (bp.address &&& 0xff).toUInt8 }

def xBits (type : BpType) : UInt8 := (0x20 : UInt8) ||| modeBits type <<< 2

section Update

variable (programmingEnabled : Bool) (t : BreakpointTable) (ice : Ice)

/-- The state after the breakpoints that are written to breakpoint space. -/
def afterZ : UpdateState :=
  writeBreakpoint programmingEnabled t 1 .z1
    (writeBreakpoint programmingEnabled t 0 .z0 { bpC := 0, bpD := 0, ice, assigned := [] })

def loadZ : Ice :=
  { ice with
    z0 := if 0 < t.numBreakpointsCode then
        (breakpointAddress (t.bpCode.peek 0).address).or ice.z0 else ice.z0
    z1 := if 1 < t.numBreakpointsCode then
        (breakpointAddress (t.bpCode.peek 1).address).or ice.z1 else ice.z1 }

theorem afterZ_eq :
    afterZ programmingEnabled t ice =
      { bpC := min t.numBreakpointsCode 2
        bpD := 0
        ice := loadZ t ice
        assigned :=
          (if 0 < t.numBreakpointsCode then [(.code 0, .z0)] else []) ++
            if 1 < t.numBreakpointsCode then [(.code 1, .z1)] else [] } := by
  unfold afterZ writeBreakpoint loadZ
  simp only [execute_jtagWriteByte]
  rcases Nat.lt_or_ge 0 t.numBreakpointsCode with one | none
  · rcases Nat.lt_or_ge 1 t.numBreakpointsCode with two | single
    · have count : min t.numBreakpointsCode 2 = 2 := Nat.min_eq_right two
      cases breakpointAddress (t.bpCode.peek 0).address <;>
        cases second : breakpointAddress (t.bpCode.peek 1).address <;>
          simp [one, two, count, second]
    · have count : t.numBreakpointsCode = 1 := Nat.le_antisymm single one
      cases breakpointAddress (t.bpCode.peek 0).address <;> simp [count]
  · have count : t.numBreakpointsCode = 0 := Nat.le_zero.mp none
    simp [count]

theorem updateBreakpoints_eq :
    updateBreakpoints programmingEnabled t ice =
      match xEntry t with
      | none => (loadZ t ice, (afterZ programmingEnabled t ice).assigned)
      | some x =>
          match yEntry t with
          | none =>
              ({ (loadZ t ice).loadX (t.get x) with bpMode := xBits (t.get x).type },
                (afterZ programmingEnabled t ice).assigned ++ [(x, .x)])
          | some y =>
              ({ ((loadZ t ice).loadX (t.get x)).loadY (t.get y) with
                  bpMode := xBits (t.get x).type ||| 0x10 ||| modeBits (t.get y).type },
                (afterZ programmingEnabled t ice).assigned ++ [(x, .x)] ++ [(y, .y)]) := by
  have after := afterZ_eq programmingEnabled t ice
  rw [after]
  unfold afterZ at after
  unfold updateBreakpoints
  dsimp only
  rw [after]
  unfold nextBreakpoint xEntry yEntry
  rcases Nat.lt_or_ge 2 t.numBreakpointsCode with three | two
  · have count : min t.numBreakpointsCode 2 = 2 := Nat.min_eq_right (Nat.le_of_lt three)
    rcases Nat.lt_or_ge 3 t.numBreakpointsCode with four | three'
    · simp [count, three, four, Ice.loadX, Ice.loadY, xBits]
    · have exact3 : t.numBreakpointsCode = 3 := Nat.le_antisymm three' three
      cases t.numBreakpointsData <;> simp [exact3, Ice.loadX, Ice.loadY, xBits]
  · have count : min t.numBreakpointsCode 2 = t.numBreakpointsCode := Nat.min_eq_left two
    have short : ¬ 2 < t.numBreakpointsCode := Nat.not_lt.mpr two
    have small : ¬ 3 < t.numBreakpointsCode := Nat.not_lt.mpr (Nat.le_succ_of_le two)
    have other : t.numBreakpointsCode ≠ 3 := (Nat.lt_succ_of_le two).ne
    rcases Nat.lt_or_ge 0 t.numBreakpointsData with data | none
    · rcases Nat.lt_or_ge 1 t.numBreakpointsData with data' | single
      · simp [count, short, small, other, data, data', Ice.loadX, Ice.loadY, xBits]
      · have exact1 : t.numBreakpointsData = 1 := Nat.le_antisymm single data
        simp [count, short, small, other, exact1, Ice.loadX, xBits]
    · have exact0 : t.numBreakpointsData = 0 := Nat.le_zero.mp none
      simp [count, short, exact0]

def entryOf (t : BreakpointTable) : Comparator → Option Entry
  | .z0 => if 0 < t.numBreakpointsCode then some (.code 0) else none
  | .z1 => if 1 < t.numBreakpointsCode then some (.code 1) else none
  | .x => xEntry t
  | .y => yEntry t

theorem yEntry_of_no_xEntry (none : xEntry t = none) : yEntry t = .none := by
  unfold xEntry at none
  unfold yEntry
  split at none
  · cases none
  split at none
  · cases none
  next few empty =>
    rw [if_neg (by omega), if_neg (by omega), if_neg (by omega)]

theorem mem_assigned (e : Entry) (c : Comparator) :
    (e, c) ∈ (updateBreakpoints programmingEnabled t ice).2 ↔ entryOf t c = some e := by
  rw [updateBreakpoints_eq, afterZ_eq]
  cases x : xEntry t with
  | none =>
      have y := yEntry_of_no_xEntry t x
      cases c <;> simp [entryOf, x, y, eq_comm]
  | some ex =>
      cases y : yEntry t with
      | none => cases c <;> simp [entryOf, x, y, eq_comm]
      | some ey => cases c <;> simp [entryOf, x, y, eq_comm]

end Update

/-! ## Addresses -/

theorem decodeAddress_encodeAddress (x : UInt64) :
    decodeAddress (encodeAddress x) = x.toNat % 2 ^ 24 := by
  have high : ((encodeAddress x).peek 0).toNat = x.toNat / 2 ^ 16 % 256 := by
    show (x >>> 16).toUInt8.toNat = _
    rw [UInt64.toNat_toUInt8, UInt64.toNat_shiftRight]
    simp [Nat.shiftRight_eq_div_pow]
  have middle : ((encodeAddress x).peek 1).toNat = x.toNat / 2 ^ 8 % 256 := by
    show (x >>> 8).toUInt8.toNat = _
    rw [UInt64.toNat_toUInt8, UInt64.toNat_shiftRight]
    simp [Nat.shiftRight_eq_div_pow]
  have low : ((encodeAddress x).peek 2).toNat = x.toNat % 256 := by
    show x.toUInt8.toNat = _
    rw [UInt64.toNat_toUInt8]
  rw [decodeAddress, high, middle, low]
  omega

theorem registers_eq (address : UInt32) :
    (address >>> 8).toUInt8.toNat * 0x100 + (address &&& 0xff).toUInt8.toNat =
      address.toNat % 0x10000 := by
  have low : (address &&& 0xff).toUInt8.toNat = address.toNat % 256 := by
    rw [UInt32.toNat_toUInt8, UInt32.toNat_and]
    have mask : address.toNat &&& 255 = address.toNat % 256 :=
      Nat.and_two_pow_sub_one_eq_mod address.toNat 8
    show (address.toNat &&& 255) % 256 = _
    rw [mask, Nat.mod_mod]
  have high : (address >>> 8).toUInt8.toNat = address.toNat / 256 % 256 := by
    rw [UInt32.toNat_toUInt8, UInt32.toNat_shiftRight]
    simp [Nat.shiftRight_eq_div_pow]
  rw [high, low]
  omega

/-- A location that needs no bit of the address space, nor more than three
bytes. -/
def Plain (location : UInt32) : Prop :=
  location.toUInt64 &&& addrSpaceMask = 0 ∧ location.toNat < 2 ^ 24

instance : DecidablePred Plain := fun _ => inferInstanceAs (Decidable (_ ∧ _))

theorem breakpointAddress_of_free {location : UInt32}
    (free : location.toUInt64 &&& addrSpaceMask = 0) :
    breakpointAddress location = some (location.toNat % 2 ^ 24) := by
  have split := @splitAddress_add breakpointSpaceAddrOffset _ (by decide) (by decide) free
  unfold breakpointAddress memorySpace
  rw [split]
  show some (decodeAddress (encodeAddress location.toUInt64)) = _
  rw [decodeAddress_encodeAddress, UInt32.toNat_toUInt64]

theorem plain_of_breakpointAddress {location written : UInt32}
    (stored : breakpointAddress location = some written.toNat) : Plain written := by
  unfold breakpointAddress at stored
  by_cases data : (breakpointSpaceAddrOffset + location.toUInt64) &&& dataSpaceAddrOffset ≠ 0
  swap
  · have program : memorySpace (breakpointSpaceAddrOffset + location.toUInt64) =
        (0, breakpointSpaceAddrOffset + location.toUInt64) := by
      unfold memorySpace splitAddress
      rw [if_neg data]
      rfl
    rw [program] at stored
    cases stored
  have offset : (memorySpace (breakpointSpaceAddrOffset + location.toUInt64)).2 =
      (breakpointSpaceAddrOffset + location.toUInt64) &&& ~~~addrSpaceMask := by
    unfold memorySpace splitAddress
    rw [if_pos data]
  dsimp only at stored
  split at stored
  swap
  · cases stored
  rw [offset, decodeAddress_encodeAddress] at stored
  have value := (Option.some.inj stored).symm
  refine ⟨?_, by rw [value]; exact Nat.mod_lt _ (by decide)⟩
  rw [← UInt64.toNat_inj, UInt64.toNat_and, UInt32.toNat_toUInt64, value]
  apply Nat.eq_of_testBit_eq
  intro bit
  rw [Nat.testBit_and, Nat.testBit_mod_two_pow, UInt64.toNat_and, Nat.testBit_and]
  have disjoint : ((~~~addrSpaceMask).toNat.testBit bit && addrSpaceMask.toNat.testBit bit) =
      false := by
    rw [← Nat.testBit_and, ← UInt64.toNat_and]
    have none : ~~~addrSpaceMask &&& addrSpaceMask = 0 := by decide
    rw [none]
    simp
  rw [Bool.and_assoc, Bool.and_assoc, disjoint]
  simp

theorem breakpointAddress_eq_iff (location : UInt32) :
    breakpointAddress location = some location.toNat ↔ Plain location := by
  constructor
  · exact plain_of_breakpointAddress
  · intro plain
    rw [breakpointAddress_of_free plain.1, Nat.mod_eq_of_lt plain.2]

/-! ## Invariants of runs -/

/-- What holds between two calls: the tables are sound, and only plain locations have been
written to the breakpoint space. -/
structure Session.Bounded (s : Session) : Prop where
  sound : s.table.Sound
  z0 : ∀ location : UInt32, s.ice.z0 = some location.toNat → Plain location
  z1 : ∀ location : UInt32, s.ice.z1 = some location.toNat → Plain location

theorem deleteAllBreakpoints_sound {t : BreakpointTable} : (deleteAllBreakpoints t).Sound where
  numCode := Nat.zero_le _
  numData := Nat.zero_le _
  total := Nat.zero_le _
  codeType _ member := absurd member List.not_mem_nil
  dataType _ member := absurd member List.not_mem_nil

theorem updateBreakpoints_z (programmingEnabled : Bool) (t : BreakpointTable) (ice : Ice) :
    (updateBreakpoints programmingEnabled t ice).1.z0 = (loadZ t ice).z0 ∧
      (updateBreakpoints programmingEnabled t ice).1.z1 = (loadZ t ice).z1 := by
  rw [updateBreakpoints_eq]
  cases xEntry t with
  | none => exact ⟨rfl, rfl⟩
  | some x => cases yEntry t <;> exact ⟨rfl, rfl⟩

theorem plain_of_or {location written : UInt32} {before : Option Nat}
    (kept : ∀ location : UInt32, before = some location.toNat → Plain location)
    (stored : (breakpointAddress location).or before = some written.toNat) : Plain written := by
  cases sent : breakpointAddress location with
  | none =>
      rw [sent, Option.none_or] at stored
      exact kept written stored
  | some address =>
      rw [sent, Option.some_or] at stored
      exact plain_of_breakpointAddress (sent.trans stored)

theorem plain_of_load {location written : UInt32} {before : Option Nat} {loaded : Prop}
    [Decidable loaded] (kept : ∀ location : UInt32, before = some location.toNat → Plain location)
    (stored : (if loaded then (breakpointAddress location).or before else before) =
      some written.toNat) : Plain written := by
  split at stored
  · exact plain_of_or kept stored
  · exact kept written stored

theorem Session.Bounded.apply {s : Session} (bounded : s.Bounded) (programmingEnabled : Bool)
    (op : BreakpointOp) : (s.apply programmingEnabled op).Bounded := by
  obtain ⟨sound, z0, z1⟩ := bounded
  cases op with
  | addBreakpoint address type length =>
      exact ⟨(addBreakpoint_serves sound address type length).1, z0, z1⟩
  | deleteBreakpoint address type length =>
      exact ⟨(deleteBreakpoint_serves sound address type length).1, z0, z1⟩
  | deleteAllBreakpoints => exact ⟨deleteAllBreakpoints_sound, z0, z1⟩
  | updateBreakpoints =>
      obtain ⟨sameZ0, sameZ1⟩ := updateBreakpoints_z programmingEnabled s.table s.ice
      refine ⟨sound, fun location stored => ?_, fun location stored => ?_⟩
      · exact plain_of_load z0 (sameZ0.symm.trans stored)
      · exact plain_of_load z1 (sameZ1.symm.trans stored)

theorem Session.bounded_run (programmingEnabled : Bool) (ops : List BreakpointOp) :
    (Transition.run (Session.apply programmingEnabled) .start ops).Bounded := by
  have start : Session.start.Bounded := ⟨BreakpointTable.empty_sound, nofun, nofun⟩
  exact Transition.invariant_of_run (fun s op bounded => bounded.apply programmingEnabled op) start

/-! ## When an update agrees -/

/-- The breakpoints have addresses that reach their comparators: plain ones where they are
written to breakpoint space, 16 bits for X and Y, of data memory for data breakpoints. -/
structure InReach (t : BreakpointTable) : Prop where
  code : ∀ i < t.numBreakpointsCode,
    if i < 2 then Plain (t.bpCode.peek i).address
    else (t.bpCode.peek i).address.toNat < 0x10000
  data : ∀ i < t.numBreakpointsData,
    0x800000 ≤ (t.bpData.peek i).address.toNat ∧ (t.bpData.peek i).address.toNat < 0x810000

def HaveModes (t : BreakpointTable) : Prop :=
  ∀ i < t.numBreakpointsData, (BpMode.ofType (t.bpData.peek i).type).isSome

def GivesX (t : BreakpointTable) : Prop :=
  2 < t.numBreakpointsCode ∨ 0 < t.numBreakpointsData

theorem xEntry_eq_none (t : BreakpointTable) : xEntry t = none ↔ ¬ GivesX t := by
  unfold xEntry GivesX
  split
  · simp [*]
  · split <;> simp [*]

theorem entryOf_current {t : BreakpointTable} {e : Entry} {c : Comparator}
    (given : entryOf t c = some e) : e.Current t := by
  cases c <;> simp only [entryOf, xEntry, yEntry] at given <;> grind [Entry.Current]

theorem entryOf_injective {t : BreakpointTable} {e : Entry} {c other : Comparator}
    (given : entryOf t c = some e) (again : entryOf t other = some e) : other = c := by
  cases c <;> cases other <;> simp only [entryOf, xEntry, yEntry] at given again <;> grind

theorem exists_entryOf {t : BreakpointTable} (sound : t.Sound) {e : Entry}
    (current : e.Current t) : ∃ c, entryOf t c = some e := by
  have numCode : t.numBreakpointsCode ≤ 4 := sound.numCode
  have numData : t.numBreakpointsData ≤ 2 := sound.numData
  have total : t.numBreakpointsCode + t.numBreakpointsData ≤ 4 := sound.total
  cases e with
  | code i =>
      have counted : i < t.numBreakpointsCode := current
      obtain rfl | rfl | rfl | rfl : i = 0 ∨ i = 1 ∨ i = 2 ∨ i = 3 := by omega
      · exact ⟨.z0, if_pos counted⟩
      · exact ⟨.z1, if_pos counted⟩
      · exact ⟨.x, if_pos counted⟩
      · exact ⟨.y, if_pos counted⟩
  | data i =>
      have counted : i < t.numBreakpointsData := current
      obtain rfl | rfl : i = 0 ∨ i = 1 := by omega
      · rcases Nat.lt_or_ge 2 t.numBreakpointsCode with three | few
        · have exactly : t.numBreakpointsCode = 3 := by omega
          exact ⟨.y, by simp [entryOf, yEntry, exactly, counted]⟩
        · exact ⟨.x, by simp [entryOf, xEntry, Nat.not_lt.mpr few, counted]⟩
      · have few : ¬ 3 < t.numBreakpointsCode := by omega
        have other : t.numBreakpointsCode ≠ 3 := by omega
        exact ⟨.y, by simp [entryOf, yEntry, few, other, counted]⟩

theorem xy_of_data {t : BreakpointTable} {i : Nat} {c : Comparator}
    (given : entryOf t c = some (.data i)) : c = .x ∨ c = .y := by
  cases c <;> simp only [entryOf] at given <;> grind

theorem or_eq_own_iff {location : UInt32} {before : Option Nat}
    (kept : ∀ location : UInt32, before = some location.toNat → Plain location) :
    (breakpointAddress location).or before = some location.toNat ↔ Plain location := by
  constructor
  · exact plain_of_or kept
  · intro plain
    rw [(breakpointAddress_eq_iff location).mpr plain, Option.some_or]

def loadXY (t : BreakpointTable) (ice : Ice) (x : Entry) : Option Entry → Ice
  | none => { (loadZ t ice).loadX (t.get x) with bpMode := xBits (t.get x).type }
  | some y =>
      { ((loadZ t ice).loadX (t.get x)).loadY (t.get y) with
        bpMode := xBits (t.get x).type ||| 0x10 ||| modeBits (t.get y).type }

theorem updateBreakpoints_ice (programmingEnabled : Bool) (t : BreakpointTable) (ice : Ice) :
    (updateBreakpoints programmingEnabled t ice).1 =
      match xEntry t with
      | none => loadZ t ice
      | some x => loadXY t ice x (yEntry t) := by
  rw [updateBreakpoints_eq]
  cases xEntry t with
  | none => rfl
  | some x => cases yEntry t <;> rfl

section Mode

variable (x y : BpType)

theorem modeBits_cases :
    modeBits x = 0 ∨ modeBits x = 1 ∨ modeBits x = 2 ∨ modeBits x = 3 := by
  unfold modeBits
  split_ifs <;> simp

theorem ofType_modeBits (known : (BpMode.ofType x).isSome) :
    BpMode.ofType x = some (.ofBits (modeBits x).toNat) := by
  unfold BpMode.ofType modeBits at *
  split_ifs at known ⊢ <;> first | rfl | cases known

theorem xBits_mode :
    active (xBits x) = 0b10 ∧ (xBits x).toNat / 4 % 4 = (modeBits x).toNat := by
  unfold xBits
  rcases modeBits_cases x with bits | bits | bits | bits <;> rw [bits] <;> decide

theorem xyBits_mode :
    active (xBits x ||| 0x10 ||| modeBits y) = 0b11 ∧
      (xBits x ||| 0x10 ||| modeBits y).toNat / 4 % 4 = (modeBits x).toNat ∧
      (xBits x ||| 0x10 ||| modeBits y).toNat % 4 = (modeBits y).toNat := by
  unfold xBits
  rcases modeBits_cases x with bits | bits | bits | bits <;>
    rcases modeBits_cases y with other | other | other | other <;>
      rw [bits, other] <;> decide

end Mode

theorem loadXY_mode (t : BreakpointTable) (ice : Ice) (x : Entry) (y : Option Entry) :
    (loadXY t ice x y).xActive = true ∧
      ((loadXY t ice x y).yActive = true ↔ y.isSome = true) ∧
      (loadXY t ice x y).xMode = (modeBits (t.get x).type).toNat ∧
      ∀ e, y = some e → (loadXY t ice x y).yMode = (modeBits (t.get e).type).toNat := by
  cases y with
  | none =>
      obtain ⟨armed, mode⟩ := xBits_mode (t.get x).type
      have xActive : (loadXY t ice x none).xActive = true := by
        show (active (xBits (t.get x).type) == 0b10 || _) = true
        rw [armed]
        rfl
      have yActive : (loadXY t ice x none).yActive = false := by
        show (active (xBits (t.get x).type) == 0b11) = false
        rw [armed]
        rfl
      exact ⟨xActive, by simp [yActive], mode, nofun⟩
  | some e =>
      obtain ⟨armed, xMode, yMode⟩ := xyBits_mode (t.get x).type (t.get e).type
      have xActive : (loadXY t ice x (some e)).xActive = true := by
        show (active (_ ||| 0x10 ||| _) == 0b10 || active (_ ||| 0x10 ||| _) == 0b11) = true
        rw [armed]
        rfl
      have yActive : (loadXY t ice x (some e)).yActive = true := by
        show (active (_ ||| 0x10 ||| _) == 0b11) = true
        rw [armed]
        rfl
      refine ⟨xActive, by simp [yActive], xMode, fun other same => ?_⟩
      cases same
      exact yMode

theorem loadXY_address (t : BreakpointTable) (ice : Ice) (x : Entry) (y : Option Entry) :
    (loadXY t ice x y).address .x = some ((t.get x).address.toNat % 0x10000) ∧
      ∀ e, y = some e →
        (loadXY t ice x y).address .y = some ((t.get e).address.toNat % 0x10000) := by
  have loaded (bp : Breakpoint) := congrArg some (registers_eq bp.address)
  cases y with
  | none => exact ⟨loaded _, nofun⟩
  | some e =>
      refine ⟨loaded _, fun other same => ?_⟩
      cases same
      exact loaded _

section Updated

variable {s : Session} (bounded : s.Bounded) (programmingEnabled : Bool)

def Session.updated (s : Session) (programmingEnabled : Bool) : Ice :=
  (updateBreakpoints programmingEnabled s.table s.ice).1

theorem updated_xy {x : Entry} (given : xEntry s.table = some x) :
    s.updated programmingEnabled = loadXY s.table s.ice x (yEntry s.table) := by
  unfold Session.updated
  rw [updateBreakpoints_ice, given]

theorem updated_none (none : xEntry s.table = none) :
    s.updated programmingEnabled = loadZ s.table s.ice := by
  unfold Session.updated
  rw [updateBreakpoints_ice, none]

include bounded in
theorem updated_z0_iff (one : 0 < s.table.numBreakpointsCode) :
    (s.updated programmingEnabled).address .z0 =
        some (s.table.bpCode.peek 0).address.toNat ↔
      Plain (s.table.bpCode.peek 0).address := by
  have stored : (s.updated programmingEnabled).z0 =
      (breakpointAddress (s.table.bpCode.peek 0).address).or s.ice.z0 := by
    rw [Session.updated, (updateBreakpoints_z programmingEnabled s.table s.ice).1]
    exact if_pos one
  show (s.updated programmingEnabled).z0 = _ ↔ _
  rw [stored]
  exact or_eq_own_iff bounded.z0

include bounded in
theorem updated_z1_iff (two : 1 < s.table.numBreakpointsCode) :
    (s.updated programmingEnabled).address .z1 =
        some (s.table.bpCode.peek 1).address.toNat ↔
      Plain (s.table.bpCode.peek 1).address := by
  have stored : (s.updated programmingEnabled).z1 =
      (breakpointAddress (s.table.bpCode.peek 1).address).or s.ice.z1 := by
    rw [Session.updated, (updateBreakpoints_z programmingEnabled s.table s.ice).2]
    exact if_pos two
  show (s.updated programmingEnabled).z1 = _ ↔ _
  rw [stored]
  exact or_eq_own_iff bounded.z1

theorem updated_xy_address {e : Entry} {c : Comparator} (wide : c = .x ∨ c = .y)
    (given : entryOf s.table c = some e) :
    (s.updated programmingEnabled).address c =
      some ((s.table.get e).address.toNat % 0x10000) := by
  rcases wide with rfl | rfl
  · rw [updated_xy programmingEnabled given]
    exact (loadXY_address s.table s.ice e (yEntry s.table)).1
  · cases x : xEntry s.table with
    | none => cases (yEntry_of_no_xEntry s.table x).symm.trans given
    | some other =>
        rw [updated_xy programmingEnabled x]
        exact (loadXY_address s.table s.ice other (yEntry s.table)).2 e given

theorem updated_code_iff {i : Nat} {c : Comparator} (wide : c = .x ∨ c = .y)
    (given : entryOf s.table c = some (.code i)) :
    (s.updated programmingEnabled).address c =
        some (s.table.bpCode.peek i).address.toNat ↔
      (s.table.bpCode.peek i).address.toNat < 0x10000 := by
  rw [updated_xy_address programmingEnabled wide given, Option.some_inj]
  exact Nat.mod_eq_iff_lt (by decide)

theorem updated_data_iff {i : Nat} {c : Comparator}
    (given : entryOf s.table c = some (.data i)) :
    ((s.updated programmingEnabled).address c).map Int.ofNat =
        some (Entry.ownAddress s.table (.data i)) ↔
      0x800000 ≤ (s.table.bpData.peek i).address.toNat ∧
        (s.table.bpData.peek i).address.toNat < 0x810000 := by
  rw [updated_xy_address programmingEnabled (xy_of_data given) given, Option.map_some,
    Option.some_inj]
  show ((s.table.bpData.peek i).address.toNat % 0x10000 : Int) =
    (s.table.bpData.peek i).address.toNat - 0x800000 ↔ _
  omega

theorem own_code_iff {ice : Ice} {t : BreakpointTable} {i : Nat} {c : Comparator} :
    (ice.address c).map Int.ofNat = some (Entry.ownAddress t (.code i)) ↔
      ice.address c = some (t.bpCode.peek i).address.toNat :=
  (Option.map_injective fun _ _ => Int.ofNat.inj).eq_iff (b := some _)

include bounded in
theorem updated_address_iff :
    (∀ e c, entryOf s.table c = some e →
        ((s.updated programmingEnabled).address c).map Int.ofNat =
          some (e.ownAddress s.table)) ↔
      InReach s.table := by
  have code : s.table.numBreakpointsCode ≤ 4 := bounded.sound.numCode
  constructor
  · intro own
    refine ⟨fun i counted => ?_, fun i counted => ?_⟩
    swap
    · obtain ⟨c, given⟩ := @exists_entryOf s.table bounded.sound (.data i) counted
      exact (updated_data_iff programmingEnabled given).mp (own _ _ given)
    have own (e : Nat) (c : Comparator) (given : entryOf s.table c = some (.code e)) :=
      own_code_iff.mp (own (.code e) c given)
    obtain rfl | rfl | rfl | rfl : i = 0 ∨ i = 1 ∨ i = 2 ∨ i = 3 := by omega
    · exact (updated_z0_iff bounded programmingEnabled counted).mp
        (own 0 .z0 (if_pos counted))
    · exact (updated_z1_iff bounded programmingEnabled counted).mp
        (own 1 .z1 (if_pos counted))
    · have given : entryOf s.table .x = some (.code 2) := if_pos counted
      exact (updated_code_iff programmingEnabled (.inl rfl) given).mp (own _ _ given)
    · have given : entryOf s.table .y = some (.code 3) := if_pos counted
      exact (updated_code_iff programmingEnabled (.inr rfl) given).mp (own _ _ given)
  · intro inReach e c given
    have current := entryOf_current given
    cases e with
    | code i =>
        have reach := inReach.code i current
        rw [own_code_iff]
        cases c with
        | z0 =>
            have first : i = 0 := by simp only [entryOf] at given; grind
            subst first
            exact (updated_z0_iff bounded programmingEnabled current).mpr reach
        | z1 =>
            have second : i = 1 := by simp only [entryOf] at given; grind
            subst second
            exact (updated_z1_iff bounded programmingEnabled current).mpr reach
        | x =>
            have beyond : ¬ i < 2 := by simp only [entryOf, xEntry] at given; grind
            rw [if_neg beyond] at reach
            exact (updated_code_iff programmingEnabled (.inl rfl) given).mpr reach
        | y =>
            have beyond : ¬ i < 2 := by simp only [entryOf, yEntry] at given; grind
            rw [if_neg beyond] at reach
            exact (updated_code_iff programmingEnabled (.inr rfl) given).mpr reach
    | data i => exact (updated_data_iff programmingEnabled given).mpr (inReach.data i current)

/-- The mode register tells what X and Y carry, unless X is armed from before
and gets no breakpoint now. -/
theorem updated_xActive_iff :
    ((s.updated programmingEnabled).xActive = true ↔ ∃ e, entryOf s.table .x = some e) ↔
      (GivesX s.table ∨ s.ice.xActive = false) := by
  cases x : xEntry s.table with
  | none =>
      have nothing := (xEntry_eq_none s.table).mp x
      rw [updated_none programmingEnabled x]
      show (s.ice.xActive = true ↔ _) ↔ _
      simp [entryOf, x, nothing]
  | some e =>
      have given : GivesX s.table := by
        by_contra nothing
        cases ((xEntry_eq_none s.table).mpr nothing).symm.trans x
      rw [updated_xy programmingEnabled x, (loadXY_mode s.table s.ice e (yEntry s.table)).1]
      simp [entryOf, x, given]

theorem yActive_imp_xActive (ice : Ice) (armed : ice.yActive = true) : ice.xActive = true := by
  simp only [Ice.yActive, Ice.xActive] at armed ⊢
  simp [armed]

theorem updated_yActive (fresh : GivesX s.table ∨ s.ice.xActive = false) :
    (s.updated programmingEnabled).yActive = true ↔ ∃ e, entryOf s.table .y = some e := by
  cases x : xEntry s.table with
  | none =>
      have idle := fresh.resolve_left ((xEntry_eq_none s.table).mp x)
      have quiet : ¬ s.ice.yActive = true := fun armed => by
        rw [yActive_imp_xActive s.ice armed] at idle
        cases idle
      rw [updated_none programmingEnabled x]
      show s.ice.yActive = true ↔ _
      simp [entryOf, yEntry_of_no_xEntry s.table x, quiet]
  | some e =>
      rw [updated_xy programmingEnabled x, (loadXY_mode s.table s.ice e (yEntry s.table)).2.1]
      exact Option.isSome_iff_exists

theorem updated_xMode {e : Entry} (given : entryOf s.table .x = some e) :
    (s.updated programmingEnabled).xMode = (modeBits (s.table.get e).type).toNat := by
  rw [updated_xy programmingEnabled given]
  exact (loadXY_mode s.table s.ice e (yEntry s.table)).2.2.1

theorem updated_yMode {e : Entry} (given : entryOf s.table .y = some e) :
    (s.updated programmingEnabled).yMode = (modeBits (s.table.get e).type).toNat := by
  cases x : xEntry s.table with
  | none => cases (yEntry_of_no_xEntry s.table x).symm.trans given
  | some other =>
      rw [updated_xy programmingEnabled x]
      exact (loadXY_mode s.table s.ice other (yEntry s.table)).2.2.2 e given

include bounded in
theorem known_mode (modes : HaveModes s.table) {e : Entry} (current : e.Current s.table) :
    (BpMode.ofType (s.table.get e).type).isSome := by
  cases e with
  | code i =>
      have member : s.table.bpCode.peek i ∈ s.table.code :=
        List.mem_map_of_mem (List.mem_range.mpr current)
      have type : (s.table.get (.code i)).type = .code := bounded.sound.codeType _ member
      rw [type]
      rfl
  | data i => exact modes i current

include bounded in
theorem agrees_apply_update_iff :
    (s.apply programmingEnabled .updateBreakpoints).Agrees ↔
      InReach s.table ∧ HaveModes s.table ∧ (GivesX s.table ∨ s.ice.xActive = false) := by
  have mem (e : Entry) (c : Comparator) :
      (e, c) ∈ (s.apply programmingEnabled .updateBreakpoints).assigned ↔
        entryOf s.table c = some e :=
    mem_assigned programmingEnabled s.table s.ice e c
  constructor
  · intro agrees
    constructor
    · apply (updated_address_iff bounded programmingEnabled).mp
      intro e c given
      exact agrees.address e c ((mem e c).mpr given)
    constructor
    · intro i counted
      obtain ⟨c, given⟩ := @exists_entryOf s.table bounded.sound (.data i) counted
      rcases xy_of_data given with rfl | rfl
      · exact Option.isSome_of_eq_some (agrees.xMode _ ((mem _ _).mpr given))
      · exact Option.isSome_of_eq_some (agrees.yMode _ ((mem _ _).mpr given))
    · apply (updated_xActive_iff programmingEnabled).mp
      have armed := agrees.xActive
      simp only [mem] at armed
      exact armed
  · rintro ⟨inReach, modes, fresh⟩
    refine
      { assigned := ?_
        current := fun e c given => entryOf_current ((mem e c).mp given)
        alone := ?_
        address := ?_
        xActive := ?_
        yActive := ?_
        xMode := fun e given => ?_
        yMode := fun e given => ?_ }
    · intro e current
      obtain ⟨c, given⟩ := exists_entryOf bounded.sound current
      refine ⟨c, (mem e c).mpr given, fun other again => ?_⟩
      exact entryOf_injective given ((mem e other).mp again)
    · intro e other c given again
      exact Option.some_inj.mp (((mem e c).mp given).symm.trans ((mem other c).mp again))
    · intro e c given
      exact (updated_address_iff bounded programmingEnabled).mpr inReach e c
        ((mem e c).mp given)
    · simp only [mem]
      exact (updated_xActive_iff programmingEnabled).mpr fresh
    · simp only [mem]
      exact updated_yActive programmingEnabled fresh
    · have known := known_mode bounded modes (entryOf_current ((mem e .x).mp given))
      exact (ofType_modeBits _ known).trans
        (congrArg _ (congrArg _ (updated_xMode programmingEnabled ((mem e .x).mp given)).symm))
    · have known := known_mode bounded modes (entryOf_current ((mem e .y).mp given))
      exact (ofType_modeBits _ known).trans
        (congrArg _ (congrArg _ (updated_yMode programmingEnabled ((mem e .y).mp given)).symm))

end Updated

/-- The counts stay in their limits, and an update agrees with the tables
exactly when the addresses reach their comparators, the types have modes, and X is
given a breakpoint or is not armed. -/
theorem update_agrees_iff (programmingEnabled : Bool) (ops : List BreakpointOp) :
    let s := Transition.run (Session.apply programmingEnabled) .start ops
    s.table.numBreakpointsCode ≤ 4 ∧ s.table.numBreakpointsData ≤ 2 ∧
      s.table.numBreakpointsCode + s.table.numBreakpointsData ≤ 4 ∧
        ((s.apply programmingEnabled .updateBreakpoints).Agrees ↔
          InReach s.table ∧ HaveModes s.table ∧
            (GivesX s.table ∨ s.ice.xActive = false)) := by
  have bounded := Session.bounded_run programmingEnabled ops
  exact ⟨bounded.sound.numCode, bounded.sound.numData, bounded.sound.total,
    agrees_apply_update_iff bounded programmingEnabled⟩

/-- A deleted watchpoint stays armed in X. -/
theorem update_leaves_armed :
    ¬ ((Transition.run (Session.apply false) .start
        [.addBreakpoint 0x800100 .writeData 1, .updateBreakpoints,
          .deleteBreakpoint 0x800100 .writeData 1]).apply false .updateBreakpoints).Agrees := by
  intro agrees
  obtain ⟨e, given⟩ := agrees.xActive.mp (by decide)
  exact absurd (show (e, .x) ∈ ([] : List (Entry × Comparator)) from given) List.not_mem_nil

end Avarice.Mk1

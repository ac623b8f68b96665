import Avarice.Library.Bag
import Avarice.Mk1.Breakpoint

/-!
# The breakpoints of the mkI as a bag

Which breakpoints the tables hold, without the places they have there.  A
breakpoint may be held several times.
-/

namespace Avarice.Mk1

open Bag (Request Serves serve)

/-- A breakpoint as it is kept: the JTAG box sees program memory as 16-bit wide
locations. -/
def kept (address : UInt32) (type : BpType) : Breakpoint :=
  ⟨if type = .code then address / 2 else address, type⟩

def Room (held : Multiset Breakpoint) (bp : Breakpoint) : Prop :=
  held.card < maxBreakpoints ∧
    (bp.type ≠ .code → held.countP (fun bp => bp.type ≠ .code) < maxBreakpointsData)

instance (held : Multiset Breakpoint) : DecidablePred (Room held) := fun _ =>
  inferInstanceAs (Decidable (_ ∧ _))

namespace BreakpointTable

def code (t : BreakpointTable) : List Breakpoint := t.bpCode.front t.numBreakpointsCode

def data (t : BreakpointTable) : List Breakpoint := t.bpData.front t.numBreakpointsData

def bag (t : BreakpointTable) : Multiset Breakpoint := ↑t.code + ↑t.data

/-- The limits of `jtag1.h`, and that each breakpoint is in the table for its
type. -/
structure Sound (t : BreakpointTable) : Prop where
  numCode : t.numBreakpointsCode ≤ maxBreakpointsCode
  numData : t.numBreakpointsData ≤ maxBreakpointsData
  total : t.numBreakpointsCode + t.numBreakpointsData ≤ maxBreakpoints
  codeType : ∀ bp ∈ t.code, bp.type = .code
  dataType : ∀ bp ∈ t.data, bp.type ≠ .code

variable {t : BreakpointTable}

theorem card_bag (t : BreakpointTable) :
    t.bag.card = t.numBreakpointsCode + t.numBreakpointsData := by
  simp [bag, code, data, CArray.front_length]

theorem Sound.countP_data (sound : t.Sound) :
    t.bag.countP (fun bp => bp.type ≠ .code) = t.numBreakpointsData := by
  have none : t.code.countP (fun bp => bp.type ≠ .code) = 0 :=
    List.countP_eq_zero.mpr fun bp member => by simp [sound.codeType bp member]
  have all : t.data.countP (fun bp => bp.type ≠ .code) = t.data.length :=
    List.countP_eq_length.mpr fun bp member => by simp [sound.dataType bp member]
  rw [bag, Multiset.countP_add, Multiset.coe_countP, Multiset.coe_countP, none, all, Nat.zero_add]
  exact CArray.front_length _ _

theorem Sound.mem_code (sound : t.Sound) {bp : Breakpoint} (type : bp.type = .code) :
    bp ∈ t.bag ↔ bp ∈ t.code := by
  have other : bp ∉ t.data := fun member => sound.dataType bp member type
  rw [bag, Multiset.mem_add, Multiset.mem_coe, Multiset.mem_coe]
  exact or_iff_left other

theorem Sound.mem_data (sound : t.Sound) {bp : Breakpoint} (type : bp.type ≠ .code) :
    bp ∈ t.bag ↔ bp ∈ t.data := by
  have other : bp ∉ t.code := fun member => type (sound.codeType bp member)
  rw [bag, Multiset.mem_add, Multiset.mem_coe, Multiset.mem_coe]
  exact or_iff_right other

theorem empty_sound : BreakpointTable.empty.Sound where
  numCode := Nat.zero_le _
  numData := Nat.zero_le _
  total := Nat.zero_le _
  codeType _ member := absurd member List.not_mem_nil
  dataType _ member := absurd member List.not_mem_nil

end BreakpointTable

/-! ## Removal -/

section Squash

variable {n numBp : Nat} {bp : CArray Breakpoint n} {address : UInt32} {type : BpType}

theorem squash_none (missing : squash bp numBp address type = none) :
    ⟨address, type⟩ ∉ bp.front numBp := by
  unfold squash at missing
  split at missing
  next notFound =>
    intro member
    obtain ⟨i, inside, same⟩ := List.mem_map.mp member
    exact List.find?_eq_none.mp notFound i inside (beq_iff_eq.mpr same)
  next => cases missing

theorem squash_some (within : numBp ≤ n) {count : Nat} {after : CArray Breakpoint n}
    (found : squash bp numBp address type = some (count, after)) :
    count + 1 = numBp ∧ List.Perm (bp.front numBp) (⟨address, type⟩ :: after.front count) := by
  unfold squash at found
  split at found
  next => cases found
  next i reached =>
    obtain ⟨rfl, rfl⟩ := Prod.mk.inj (Option.some.inj found)
    have inside : i < numBp := List.mem_range.mp (List.mem_of_find?_eq_some reached)
    have same := List.find?_some reached
    have here : bp.peek i = ⟨address, type⟩ := beq_iff_eq.mp same
    have bound : i < (bp.front numBp).length := by rwa [CArray.front_length]
    have element : (bp.front numBp)[i] = ⟨address, type⟩ := by
      rw [← Option.some_inj, ← List.getElem?_eq_getElem bound, CArray.getElem?_front bp inside,
        here]
    refine ⟨Nat.sub_add_cancel (Nat.lt_of_le_of_lt (Nat.zero_le i) inside), ?_⟩
    rw [CArray.front_moveDown bp inside within, ← element]
    exact (List.getElem_cons_eraseIdx_perm bound).symm

end Squash

/-! ## The operations -/

section Tables

variable {t : BreakpointTable} (sound : t.Sound)
include sound

theorem BreakpointTable.Sound.push_code (spare : t.bag.card < maxBreakpoints) {bp : Breakpoint}
    (type : bp.type = .code) :
    let after := { t with
      bpCode := t.bpCode.poke t.numBreakpointsCode bp
      numBreakpointsCode := t.numBreakpointsCode + 1 }
    after.Sound ∧ after.bag = bp ::ₘ t.bag := by
  rw [t.card_bag] at spare
  have own : t.numBreakpointsCode < maxBreakpointsCode :=
    Nat.lt_of_le_of_lt (Nat.le_add_right _ _) spare
  have code := CArray.front_poke t.bpCode own bp
  refine ⟨⟨own, sound.numData, ?_, ?_, sound.dataType⟩, ?_⟩
  · dsimp only
    omega
  · intro other member
    rw [BreakpointTable.code, code] at member
    rcases List.mem_append.mp member with before | added
    · exact sound.codeType other before
    · exact List.mem_singleton.mp added ▸ type
  · show (((t.bpCode.poke _ _).front _ : List Breakpoint) : Multiset Breakpoint) + ↑t.data = _
    rw [code, Multiset.add_comm, ← Multiset.coe_add, Multiset.coe_singleton, ← Multiset.add_assoc,
      Multiset.add_comm, Multiset.singleton_add]
    exact congrArg (bp ::ₘ ·) (Multiset.add_comm _ _)

theorem BreakpointTable.Sound.push_data (spare : t.bag.card < maxBreakpoints)
    (own : t.numBreakpointsData < maxBreakpointsData) {bp : Breakpoint} (type : bp.type ≠ .code) :
    let after := { t with
      bpData := t.bpData.poke t.numBreakpointsData bp
      numBreakpointsData := t.numBreakpointsData + 1 }
    after.Sound ∧ after.bag = bp ::ₘ t.bag := by
  rw [t.card_bag] at spare
  have data := CArray.front_poke t.bpData own bp
  refine ⟨⟨sound.numCode, own, ?_, sound.codeType, ?_⟩, ?_⟩
  · dsimp only
    omega
  · intro other member
    rw [BreakpointTable.data, data] at member
    rcases List.mem_append.mp member with before | added
    · exact sound.dataType other before
    · exact List.mem_singleton.mp added ▸ type
  · show ↑t.code + (((t.bpData.poke _ _).front _ : List Breakpoint) : Multiset Breakpoint) = _
    rw [data, ← Multiset.coe_add, Multiset.coe_singleton, ← Multiset.add_assoc,
      Multiset.add_comm, Multiset.singleton_add]
    rfl

theorem BreakpointTable.Sound.pop_code {address : UInt32} {count : Nat}
    {bp : CArray Breakpoint maxBreakpointsCode}
    (found : squash t.bpCode t.numBreakpointsCode address .code = some (count, bp)) :
    let after := { t with bpCode := bp, numBreakpointsCode := count }
    after.Sound ∧ t.bag = ⟨address, .code⟩ ::ₘ after.bag := by
  obtain ⟨fewer, perm⟩ := squash_some sound.numCode found
  have numCode := sound.numCode
  have total := sound.total
  refine ⟨⟨?_, sound.numData, ?_, ?_, sound.dataType⟩, ?_⟩
  · dsimp only
    omega
  · dsimp only
    omega
  · exact fun other member =>
      sound.codeType other (perm.mem_iff.mpr (List.mem_cons_of_mem _ member))
  · rw [BreakpointTable.bag, BreakpointTable.code, Multiset.coe_eq_coe.mpr perm,
      ← Multiset.cons_coe, Multiset.cons_add]
    rfl

theorem BreakpointTable.Sound.pop_data {address : UInt32} {type : BpType} {count : Nat}
    {bp : CArray Breakpoint maxBreakpointsData}
    (found : squash t.bpData t.numBreakpointsData address type = some (count, bp)) :
    let after := { t with bpData := bp, numBreakpointsData := count }
    after.Sound ∧ t.bag = ⟨address, type⟩ ::ₘ after.bag := by
  obtain ⟨fewer, perm⟩ := squash_some sound.numData found
  have numData := sound.numData
  have total := sound.total
  refine ⟨⟨sound.numCode, ?_, ?_, sound.codeType, ?_⟩, ?_⟩
  · dsimp only
    omega
  · dsimp only
    omega
  · exact fun other member =>
      sound.dataType other (perm.mem_iff.mpr (List.mem_cons_of_mem _ member))
  · rw [BreakpointTable.bag, BreakpointTable.data, Multiset.coe_eq_coe.mpr perm,
      ← Multiset.cons_coe, Multiset.add_cons]
    rfl

end Tables

section Operations

variable {t : BreakpointTable} (sound : t.Sound) (address : UInt32) (type : BpType)
  (length : UInt32)
include sound

theorem addBreakpoint_serves :
    (addBreakpoint t address type length).2.Sound ∧
      Serves Room t.bag (.put (kept address type)) (addBreakpoint t address type length).1
        (addBreakpoint t address type length).2.bag := by
  have card := t.card_bag
  unfold addBreakpoint
  by_cases full : t.numBreakpointsCode + t.numBreakpointsData = maxBreakpoints
  · rw [if_pos (beq_iff_eq.mpr full)]
    exact ⟨sound, Bag.serves_put_full fun room => Nat.ne_of_lt room.1 (card.trans full)⟩
  rw [if_neg (mt beq_iff_eq.mp full)]
  have spare : t.bag.card < maxBreakpoints := card.trans_lt (lt_of_le_of_ne sound.total full)
  by_cases isCode : type = .code
  · subst isCode
    have own : t.numBreakpointsCode ≠ maxBreakpointsCode := fun all => by
      have total := sound.total
      rw [all] at full total
      exact full (Nat.le_antisymm total (Nat.le_add_right _ _))
    rw [if_pos (beq_self_eq_true _), if_neg (mt beq_iff_eq.mp own)]
    have item : (kept address .code).type = .code := rfl
    obtain ⟨after, held⟩ := sound.push_code spare item
    exact ⟨after, Bag.serves_put ⟨spare, fun other => absurd item other⟩ held⟩
  · rw [if_neg (mt beq_iff_eq.mp isCode)]
    have item : kept address type = ⟨address, type⟩ := by rw [kept, if_neg isCode]
    by_cases own : t.numBreakpointsData = maxBreakpointsData
    · rw [if_pos (beq_iff_eq.mpr own)]
      refine ⟨sound, Bag.serves_put_full fun room => ?_⟩
      exact Nat.ne_of_lt (room.2 isCode) (sound.countP_data.trans own)
    · rw [if_neg (mt beq_iff_eq.mp own), item]
      have small := lt_of_le_of_ne sound.numData own
      have data : (Breakpoint.mk address type).type ≠ .code := isCode
      obtain ⟨after, held⟩ := sound.push_data spare small data
      exact ⟨after, Bag.serves_put ⟨spare, fun _ => sound.countP_data.trans_lt small⟩ held⟩

theorem deleteBreakpoint_serves :
    (deleteBreakpoint t address type length).2.Sound ∧
      Serves Room t.bag (.take (kept address type)) (deleteBreakpoint t address type length).1
        (deleteBreakpoint t address type length).2.bag := by
  by_cases isCode : type = .code
  · subst isCode
    rw [deleteBreakpoint, if_pos (beq_self_eq_true _)]
    cases removed : squash t.bpCode t.numBreakpointsCode (address / 2) .code with
    | none =>
        exact ⟨sound, Bag.serves_take_missing fun member =>
          squash_none removed ((sound.mem_code rfl).mp member)⟩
    | some found =>
        obtain ⟨count, bp⟩ := found
        obtain ⟨after, held⟩ := sound.pop_code removed
        exact ⟨after, Bag.serves_take held⟩
  · rw [deleteBreakpoint, if_neg (mt beq_iff_eq.mp isCode)]
    have item : kept address type = ⟨address, type⟩ := by rw [kept, if_neg isCode]
    cases removed : squash t.bpData t.numBreakpointsData address type with
    | none =>
        refine ⟨sound, Bag.serves_take_missing fun member => ?_⟩
        exact squash_none removed ((sound.mem_data isCode).mp (item ▸ member))
    | some found =>
        obtain ⟨count, bp⟩ := found
        obtain ⟨after, held⟩ := sound.pop_data removed
        exact ⟨after, Bag.serves_take (item ▸ held)⟩

omit type length in
theorem codeBreakpointAt_iff : codeBreakpointAt t address = true ↔ kept address .code ∈ t.bag := by
  have type : (kept address .code).type = .code := rfl
  rw [sound.mem_code type, codeBreakpointAt, List.any_eq_true]
  constructor
  · rintro ⟨i, inside, same⟩
    have member : t.bpCode.peek i ∈ t.code := List.mem_map_of_mem inside
    have place : (t.bpCode.peek i).address = address / 2 := beq_iff_eq.mp same
    have whole : t.bpCode.peek i = kept address .code := by
      calc t.bpCode.peek i = ⟨(t.bpCode.peek i).address, (t.bpCode.peek i).type⟩ := rfl
        _ = kept address .code := by rw [place, sound.codeType _ member]; rfl
    rwa [← whole]
  · intro member
    obtain ⟨i, inside, same⟩ := List.mem_map.mp member
    exact ⟨i, inside, beq_iff_eq.mpr (congrArg Breakpoint.address same)⟩

end Operations

/-! ## Sound tables -/

abbrev Tables := { t : BreakpointTable // t.Sound }

def Tables.addBreakpoint (t : Tables) (address : UInt32) (type : BpType) (length : UInt32) :
    Bool × Tables :=
  ((Mk1.addBreakpoint t.1 address type length).1,
    ⟨_, (addBreakpoint_serves t.2 address type length).1⟩)

def Tables.deleteBreakpoint (t : Tables) (address : UInt32) (type : BpType) (length : UInt32) :
    Bool × Tables :=
  ((Mk1.deleteBreakpoint t.1 address type length).1,
    ⟨_, (deleteBreakpoint_serves t.2 address type length).1⟩)

def Tables.empty : Tables := ⟨.empty, BreakpointTable.empty_sound⟩

end Avarice.Mk1

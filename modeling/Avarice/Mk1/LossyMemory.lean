import Avarice.Gdb.DataMemory
import Avarice.Mk1.LossyLine
import Avarice.Mk1.Registers

/-!
# Data memory of the mkI over a lossy line

Reads, and writes in two commands, over a line that loses commands and answers.
-/

namespace Avarice.Mk1.Memory

open Throwing PagedMemory Repetition Storage
open Gdb.DataMemory (InData KeepsMemory dataAccess dataAddress)
open Gdb.Registers (Jtag)

variable {Ice : Type}

/-- An ICE with data memory, of which a part has been named by a write command for
the block that comes behind it.  The ICE may remember the name behind the block;
a block for which no part is named is ignored.  An answer to a read that ends
well has the data. -/
structure KeepsData (execute : Ice → List UInt8 → List UInt8 × Ice) (data : Ice → Nat → UInt8)
    (named : Ice → Option (Nat × Nat)) (remembers : Bool) : Prop where
  read : ∀ (ice : Ice) (count b0 b1 b2 : UInt8) (response rest : List UInt8),
    let start := (decodeAddress b0 b1 b2).toNat
    start + (count.toNat + 1) ≤ 0x10000 →
      (execute ice ([0x52, addrDataSpace, count, b0, b1, b2] ++ jtagEom)).1 =
        jtagROk :: (response ++ rest) →
      response.length = count.toNat + 3 → response.getD (count.toNat + 2) 0 = jtagROk →
        response.take (count.toNat + 1) = slice (data ice) start (count.toNat + 1)
  readKeeps : ∀ (ice : Ice) (count b0 b1 b2 : UInt8),
    let after := (execute ice ([0x52, addrDataSpace, count, b0, b1, b2] ++ jtagEom)).2
    data after = data ice ∧ named after = named ice
  name : ∀ (ice : Ice) (count b0 b1 b2 : UInt8),
    let after := (execute ice ([0x57, addrDataSpace, count, b0, b1, b2] ++ jtagEom)).2
    data after = data ice ∧
      named after = some ((decodeAddress b0 b1 b2).toNat, count.toNat + 1)
  store : ∀ (ice : Ice) (start : Nat) (bytes : List UInt8),
    let after := (execute ice (dataBlock bytes)).2
    named ice = some (start, bytes.length) →
      data after = overwrite (data ice) start bytes ∧
        named after = if remembers then named ice else none
  ignore : ∀ (ice : Ice) (bytes : List UInt8),
    let after := (execute ice (dataBlock bytes)).2
    named ice = none → data after = data ice ∧ named after = none
  quiet : ∀ (ice : Ice), ∀ command ∈ [sync, stop],
    data (execute ice command).2 = data ice ∧ named (execute ice command).2 = named ice

section Commands

variable {execute : Ice → List UInt8 → List UInt8 × Ice} {data : Ice → Nat → UInt8}
  {named : Ice → Option (Nat × Nat)} {remembers : Bool}
  (keeps : KeepsData execute data named remembers)
include keeps

theorem KeepsData.read_repeatable (count b0 b1 b2 : UInt8) :
    Repeatable execute (fun ice => (data ice, named ice)) (fun _ => True)
      ([0x52, addrDataSpace, count, b0, b1, b2] ++ jtagEom) [sync, stop] id where
  once ice _ := Prod.ext (keeps.readKeeps ice count b0 b1 b2).1
    (keeps.readKeeps ice count b0 b1 b2).2
  stays _ _ := trivial
  again _ _ := rfl
  harmless ice command member := Prod.ext (keeps.quiet ice command member).1
    (keeps.quiet ice command member).2

theorem KeepsData.name_repeatable (count b0 b1 b2 : UInt8) :
    Repeatable execute (fun ice => (data ice, named ice)) (fun _ => True)
      ([0x57, addrDataSpace, count, b0, b1, b2] ++ jtagEom) [sync, stop]
      fun held => (held.1, some ((decodeAddress b0 b1 b2).toNat, count.toNat + 1)) where
  once ice _ := Prod.ext (keeps.name ice count b0 b1 b2).1 (keeps.name ice count b0 b1 b2).2
  stays _ _ := trivial
  again _ _ := rfl
  harmless ice command member := Prod.ext (keeps.quiet ice command member).1
    (keeps.quiet ice command member).2

omit keeps in
variable (remembers) in
def stored (start : Nat) (bytes : List UInt8) :
    (Nat → UInt8) × Option (Nat × Nat) → (Nat → UInt8) × Option (Nat × Nat)
  | (memory, none) => (memory, none)
  | (memory, some name) => (overwrite memory start bytes, if remembers then some name else none)

theorem KeepsData.store_repeatable (start : Nat) (bytes : List UInt8) :
    Repeatable execute (fun ice => (data ice, named ice))
      (fun held => held.2 = none ∨ held.2 = some (start, bytes.length))
      (dataBlock bytes) [sync, stop] (stored remembers start bytes) where
  once ice ready := by
    rcases ready with forgotten | named
    · have ignored := keeps.ignore ice bytes forgotten
      simp only at forgotten
      simp only [forgotten, stored, ignored]
    · have kept := keeps.store ice start bytes named
      simp only at named
      simp only [named, stored, kept]
  stays held ready := by
    obtain ⟨memory, name⟩ := held
    rcases ready with forgotten | named
    · simp only at forgotten
      subst forgotten
      exact .inl rfl
    · simp only at named
      subst named
      simp only [stored]
      cases remembers with
      | false => exact .inl rfl
      | true => exact .inr rfl
  again held ready := by
    obtain ⟨memory, name⟩ := held
    cases name with
    | none => rfl
    | some name =>
        have same := Access.effect_effect (.write start bytes) memory
        simp only [stored]
        cases remembers with
        | false => rfl
        | true => exact Prod.ext same rfl
  harmless ice command member := Prod.ext (keeps.quiet ice command member).1
    (keeps.quiet ice command member).2

end Commands

/-! ## Accesses -/

section Accesses

variable (execute : Ice → List UInt8 → List UInt8 × Ice) (fates : Nat → Fate) in
abbrev lossyJtag1 : Jtag (Jtag1 (Far Ice)) := jtag1 (doJtagCommand (lossyLine execute fates))

section Numbers

theorem toUInt32_toNat {count : Nat} (small : count ≤ 0x10000) : count.toUInt32.toNat = count :=
  UInt32.toNat_ofNat_of_lt' (Nat.lt_of_le_of_lt small (by decide))

theorem toUInt64_toNat {start : Nat} (small : start < 0x10000) : start.toUInt64.toNat = start :=
  UInt64.toNat_ofNat_of_lt' (Nat.lt_trans small (by decide))

theorem memorySpace_dataAddress {start : Nat} (small : start < 0x10000) :
    memorySpace (dataAddress start) = (addrDataSpace, start.toUInt64) :=
  memorySpace_data ((toUInt64_toNat small).symm ▸ small)

theorem decodeAddress_start {start : Nat} (small : start < 0x10000) :
    (decodeAddress (start.toUInt64 >>> 16).toUInt8 (start.toUInt64 >>> 8).toUInt8
      start.toUInt64.toUInt8).toNat = start := by
  rw [decodeAddress_encodeAddress, toUInt64_toNat small]
  exact Nat.mod_eq_of_lt (Nat.lt_trans small (by decide))

end Numbers

theorem command_ends {command : List UInt8} {responseSize : Nat}
    {doJtagCommand : List UInt8 → Nat → Ice → Called Ice (List UInt8)} {s : Jtag1 Ice}
    {returned : List UInt8 → Ice → Prop} {threw : Ice → Prop}
    (ends : Called.Ends returned threw (doJtagCommand command responseSize s.ice)) :
    Called.Ends (fun response after => returned response after.ice) (fun after => threw after.ice)
      (s.command doJtagCommand command responseSize) :=
  ⟨ends.returned, ends.threw⟩

variable {execute : Ice → List UInt8 → List UInt8 × Ice} {fates : Nat → Fate}
  {data : Ice → Nat → UInt8} {named : Ice → Option (Nat × Nat)} {remembers : Bool}
  (keeps : KeepsData execute data named remembers) (honest : NoFalseOk fates)
include keeps honest

theorem jtagRead_lossy (s : Jtag1 (Far Ice)) {start count : Nat} (some : 0 < count)
    (within : start + count ≤ 0x10000) :
    Called.Ends
      (fun buffer after => data after.ice.ice = data s.ice.ice ∧
        ∀ bytes, buffer = .some bytes → bytes.take count = slice (data s.ice.ice) start count)
      (fun after => data after.ice.ice = data s.ice.ice)
      ((lossyJtag1 execute fates).jtagRead s (dataAddress start) count.toUInt32) := by
  have size := toUInt32_toNat (Nat.le_trans (Nat.le_add_left count start) within)
  have notNone : count.toUInt32 ≠ 0 := fun none => by
    rw [none] at size
    exact Nat.ne_of_lt some size
  have small : start < 0x10000 := by omega
  simp only [jtag1, Jtag1.jtagRead, if_neg notNone, memorySpace_dataAddress small]
  rw [if_pos (by decide)]
  split
  · refine Called.ends_return ⟨rfl, ?_⟩
    rintro bytes ⟨⟩
  next notLong =>
    have fits : count.toUInt32.toNat ≤ 256 :=
      UInt32.le_iff_toNat_le.mp (UInt32.not_lt.mp notLong)
    have number := toNat_count (by omega) fits
    have ends := doJtagCommand_ends (keeps.read_repeatable (count.toUInt32 - 1).toUInt8
      (start.toUInt64 >>> 16).toUInt8 (start.toUInt64 >>> 8).toUInt8 start.toUInt64.toUInt8)
      honest (count.toUInt32.toNat + 2) (w := s.ice) trivial
    refine Called.Ends.andThen ((command_ends ends).imp (fun _ _ => id) ?_) ?_
    · rintro after (same | same) <;> exact congrArg Prod.fst same
    · rintro response after ⟨length, same, last, rest, answer, before⟩
      refine Called.ends_return ⟨congrArg Prod.fst same, ?_⟩
      intro bytes taken
      have unread : data last = data s.ice.ice := by
        rcases before with same | same <;> exact congrArg Prod.fst same
      split at taken
      next status =>
        cases taken
        have presented := keeps.read last _ _ _ _ response rest
          (by rw [decodeAddress_start small, number, size]; exact within) answer
          (by omega) (by rw [← status]; congr 1; omega)
        rwa [decodeAddress_start small, number, size, unread] at presented
      next => cases taken

theorem written_lossy (s : Jtag1 (Far Ice)) {start : Nat} {bytes : List UInt8}
    (some : 0 < bytes.length) (small : start < 0x10000) (fits : bytes.length ≤ 256) :
    let doJtagCommand := doJtagCommand (lossyLine execute fates)
    Called.Ends (fun _ after => data after.ice.ice = overwrite (data s.ice.ice) start bytes)
      (fun after => data after.ice.ice = data s.ice.ice ∨
        data after.ice.ice = overwrite (data s.ice.ice) start bytes)
      ((s.command doJtagCommand
        (writeCommand addrDataSpace bytes.length.toUInt32 start.toUInt64) 0).andThen fun _ s =>
          s.command doJtagCommand (dataBlock bytes) 1) := by
  have size := toUInt32_toNat (Nat.le_trans fits (by decide))
  have number := toNat_count (size.symm ▸ some) (size.symm ▸ fits)
  have naming := doJtagCommand_ends (keeps.name_repeatable (bytes.length.toUInt32 - 1).toUInt8
    (start.toUInt64 >>> 16).toUInt8 (start.toUInt64 >>> 8).toUInt8 start.toUInt64.toUInt8)
    honest 0 (w := s.ice) trivial
  rw [decodeAddress_start small, number, size] at naming
  refine Called.Ends.andThen ((command_ends naming).imp (fun _ _ => id) ?_) ?_
  · rintro after (same | same) <;> exact .inl (congrArg Prod.fst same)
  · rintro response middle ⟨_, named, _⟩
    have sameData : data middle.ice.ice = data s.ice.ice := congrArg Prod.fst named
    have storing := doJtagCommand_ends (keeps.store_repeatable start bytes) honest 1
      (w := middle.ice) (.inr (congrArg Prod.snd named))
    rw [named] at storing
    refine (command_ends storing).imp ?_ ?_
    · rintro _ after ⟨_, carriedOut, _⟩
      exact congrArg Prod.fst carriedOut
    · rintro after (same | carriedOut)
      · exact .inl (congrArg Prod.fst same)
      · exact .inr (congrArg Prod.fst carriedOut)

theorem jtagWrite_lossy (s : Jtag1 (Far Ice)) {start : Nat} {bytes : List UInt8}
    (some : 0 < bytes.length) (within : start + bytes.length ≤ 0x10000) :
    Called.Ends
      (fun success after => data after.ice.ice =
        if success then overwrite (data s.ice.ice) start bytes else data s.ice.ice)
      (fun after => data after.ice.ice = data s.ice.ice ∨
        data after.ice.ice = overwrite (data s.ice.ice) start bytes)
      ((lossyJtag1 execute fates).jtagWrite s (dataAddress start) bytes) := by
  have size := toUInt32_toNat (Nat.le_trans (Nat.le_add_left bytes.length start) within)
  have notNone : bytes.length.toUInt32 ≠ 0 := fun none => by
    rw [none] at size
    exact Nat.ne_of_lt some size
  have small : start < 0x10000 := by omega
  simp only [jtag1, Jtag1.jtagWrite, if_neg notNone, memorySpace_dataAddress small]
  rw [if_pos (by decide), Jtag1.writeLocations]
  split
  · exact Called.ends_return rfl
  next notLong =>
    have fits : bytes.length ≤ 256 := by
      have := UInt32.le_iff_toNat_le.mp (UInt32.not_lt.mp notLong)
      rwa [size] at this
    have ends := written_lossy keeps honest s some small fits
    rw [size, List.take_length]
    constructor
    · intro success returned
      obtain ⟨response, same, rfl⟩ := Option.map_eq_some_iff.mp returned
      exact ends.returned response same
    · intro threw
      exact ends.threw (Option.map_eq_none_iff.mp threw)

theorem lossyJtag1_keepsMemory :
    KeepsMemory (lossyJtag1 execute fates) (fun s => data s.ice.ice) fun _ => True := by
  intro s access _ inData
  cases access with
  | read start count =>
      refine Called.Ends.andThen
        ((jtagRead_lossy keeps honest s inData.some inData.within).imp (fun _ _ => id) ?_) ?_
      · exact fun after same => .inl same
      · rintro buffer after ⟨same, read⟩
        refine Called.ends_return ?_
        cases buffer with
        | none => exact ⟨trivial, same⟩
        | some buffer => exact ⟨trivial, read buffer rfl, same⟩
  | write start bytes =>
      refine Called.Ends.andThen
        ((jtagWrite_lossy keeps honest s inData.some inData.within).imp (fun _ _ => id) ?_) ?_
      · rintro after (same | stored)
        · exact .inl same
        · exact .inr ⟨some [], rfl, stored⟩
      · intro success after stored
        refine Called.ends_return ?_
        cases success with
        | false => exact ⟨trivial, stored⟩
        | true => exact ⟨trivial, rfl, stored⟩

end Accesses

/-- Whatever the line loses, all data read is what the writes before it have left,
and a write whose call has returned has been carried out. -/
theorem lossyMemory_consistent {execute : Ice → List UInt8 → List UInt8 × Ice}
    {fates : Nat → Fate} {data : Ice → Nat → UInt8} {named : Ice → Option (Nat × Nat)}
    {remembers : Bool} (keeps : KeepsData execute data named remembers) (honest : NoFalseOk fates)
    {accesses : List (Access UInt8)} (inData : ∀ access ∈ accesses, InData access)
    (s : Jtag1 (Far Ice)) :
    let (answers, last) := Serving.session (dataAccess (lossyJtag1 execute fates)) s accesses
    Consistent (data s.ice.ice) accesses answers (data last.ice.ice) :=
  consistent_of_explained ((lossyJtag1_keepsMemory keeps honest).session inData trivial)

/-- An ICE that forgets what has been named behind a block. -/
structure DataIce where
  data : Nat → UInt8 := fun _ => 0
  named : Option (Nat × Nat) := none

def DataIce.execute (ice : DataIce) (command : List UInt8) : List UInt8 × DataIce :=
  match command with
  | 0x68 :: block =>
      match ice.named with
      | none => ([jtagROk, 0x46], ice)
      | some (start, _) =>
          ([jtagROk, jtagROk],
            { data := overwrite ice.data start (block.take (block.length - 2)), named := none })
  | 0x52 :: _ :: count :: b0 :: b1 :: b2 :: _ =>
      (jtagROk :: slice ice.data (decodeAddress b0 b1 b2).toNat (count.toNat + 1) ++ [0, jtagROk],
        ice)
  | 0x57 :: _ :: count :: b0 :: b1 :: b2 :: _ =>
      ([jtagROk], { ice with named := some ((decodeAddress b0 b1 b2).toNat, count.toNat + 1) })
  | _ => ([jtagROk], ice)

theorem DataIce.keepsData : KeepsData DataIce.execute DataIce.data DataIce.named false where
  read ice count b0 b1 b2 response rest := by
    intro start _ answer length _
    have same := (List.cons.inj answer).2.symm
    have front := congrArg (List.take (count.toNat + 1)) same
    rw [List.take_append_of_le_length (by omega)] at front
    rw [front]
    exact List.take_left' slice_length
  readKeeps _ _ _ _ _ := ⟨rfl, rfl⟩
  name _ _ _ _ _ := ⟨rfl, rfl⟩
  store ice start bytes := by
    intro after named
    simp [after, execute, dataBlock, named]
  ignore ice bytes := by
    intro after forgotten
    simp [after, execute, dataBlock, forgotten]
  quiet ice command member := by
    rcases List.mem_pair.mp member with rfl | rfl <;> exact ⟨rfl, rfl⟩

theorem lossyMemory_consistent_twoFail :
    let accesses := [.write 0x60 [1, 2], .read 0x60 2]
    let (answers, last) :=
      Serving.session (dataAccess (lossyJtag1 DataIce.execute twoFail)) ⟨false, {}, [], 0⟩ accesses
    Consistent (fun _ => 0) accesses answers last.ice.ice.data :=
  lossyMemory_consistent DataIce.keepsData twoFail_honest
    (by decide) ⟨false, {}, [], 0⟩

end Avarice.Mk1.Memory

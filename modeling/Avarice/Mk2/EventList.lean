import Avarice.Library.Fields
import Avarice.Mk2.Events

/-!
# Lists of events

`parseEvents` of `jtag2run.cc`, which masks the events that a list names, and
the lists for which it masks the events they name in full and no others.
-/

namespace Avarice.Mk2

open Fields

/-- An entry of `evttable`. -/
structure EventName where
  num : UInt8
  name : String
  deriving DecidableEq, Repr

def evttable : List EventName := [
  ⟨evtBreak, "break"⟩,
  ⟨0xE6, "debug"⟩,
  ⟨0xE2, "error_phy_force_break_timeout"⟩,
  ⟨0xED, "error_phy_max_bit_length_diff"⟩,
  ⟨0xF9, "error_phy_opt_receive_timeout"⟩,
  ⟨0xFA, "error_phy_opt_received_break"⟩,
  ⟨0xF8, "error_phy_received_break"⟩,
  ⟨0xF7, "error_phy_receive_timeout"⟩,
  ⟨0xE3, "error_phy_release_break_timeout"⟩,
  ⟨0xF5, "error_phy_sync_out_of_range"⟩,
  ⟨0xF0, "error_phy_sync_timeout"⟩,
  ⟨0xF4, "error_phy_sync_timeout_baud"⟩,
  ⟨0xF6, "error_phy_sync_wait_timeout"⟩,
  ⟨0xFB, "result_phy_no_activity"⟩,
  ⟨evtExtReset, "ext_reset"⟩,
  ⟨0xEA, "ice_power_error_state"⟩,
  ⟨0xEB, "ice_power_ok"⟩,
  ⟨0xEC, "idr_dirty"⟩,
  ⟨evtNone, "none"⟩,
  ⟨evtPdsbBreak, "pdsb_break"⟩,
  ⟨evtPdsmbBreak, "pdsmb_break"⟩,
  ⟨evtProgramBreak, "program_break"⟩,
  ⟨evtRun, "run"⟩,
  ⟨0xE5, "target_power_off"⟩,
  ⟨0xE4, "target_power_on"⟩,
  ⟨0xE8, "target_sleep"⟩,
  ⟨0xE9, "target_wakeup"⟩]

def isspace (c : Char) : Bool :=
  c == ' ' || c == '\t' || c == '\n' || c == '\x0b' || c == '\x0c' || c == '\r'

/-- The first entry whose name agrees with a text in this many characters.
`strncmp` looks no further. -/
def findEvent (cp1 : List Char) (l : Nat) : Option EventName :=
  evttable.find? fun event => event.name.toList.take l = cp1.take l

structure Parse where
  cp1 : List Char
  nonbreakingEvents : EventMask

def Parse.round (p : Parse) : Transition.Control Parse :=
  if p.cp1 = [] then .leave p
  else
    let cp1 := p.cp1.dropWhile fun c => isspace c || c == ','
    let l := (cp1.takeWhile (· ≠ ',')).length
    let evtval := ((findEvent cp1 l).map (·.num)).getD 0
    .again
      { cp1 := cp1.drop l
        nonbreakingEvents :=
          if evtval = 0 then p.nonbreakingEvents
          else p.nonbreakingEvents.poke (evtval - evtBreak).toNat true }

def parseEvents (rounds : Nat) (evtlist : List Char) : Option EventMask :=
  (Transition.loop Parse.round rounds ⟨evtlist, CArray.fill 32 false⟩).map (·.nonbreakingEvents)

def EventName.index (event : EventName) : Nat := (event.num - evtBreak).toNat

/-! ## Pieces of a list -/

def standsFor (piece : List Char) : Option EventName := findEvent piece piece.length

def EventMask.mark (mask : EventMask) (piece : List Char) : EventMask :=
  match standsFor piece with
  | none => mask
  | some event => mask.poke event.index true

theorem evttable_codes : ∀ event ∈ evttable, event.num ≠ 0 ∧ event.index < 32 := by
  decide +kernel

theorem standsFor_mem {piece : List Char} {event : EventName}
    (found : standsFor piece = some event) : event ∈ evttable := by
  rw [standsFor, findEvent] at found
  exact List.mem_of_find?_eq_some found

theorem findEvent_field (cp1 : List Char) :
    findEvent cp1 (cp1.takeWhile (· ≠ ',')).length = standsFor (field ',' cp1) := by
  have taken : cp1.take (cp1.takeWhile (· ≠ ',')).length = field ',' cp1 :=
    (List.prefix_iff_eq_take.mp (List.takeWhile_prefix _)).symm
  rw [standsFor, findEvent, findEvent, taken, List.take_length]
  rfl

theorem drop_field (cp1 : List Char) :
    cp1.drop (cp1.takeWhile (· ≠ ',')).length = behind ',' cp1 := by
  have parts : cp1.takeWhile (· ≠ ',') ++ behind ',' cp1 = cp1 := List.takeWhile_append_dropWhile
  calc cp1.drop (cp1.takeWhile (· ≠ ',')).length
      = (cp1.takeWhile (· ≠ ',') ++ behind ',' cp1).drop (cp1.takeWhile (· ≠ ',')).length := by
        rw [parts]
    _ = behind ',' cp1 := List.drop_left

theorem round_of_ne_nil {p : Parse} (some : p.cp1 ≠ []) :
    p.round = .again
      { cp1 := behind ',' (skip ',' isspace p.cp1)
        nonbreakingEvents := p.nonbreakingEvents.mark (field ',' (skip ',' isspace p.cp1)) } := by
  have skipped : (p.cp1.dropWhile fun c => isspace c || c == ',') = skip ',' isspace p.cp1 := rfl
  simp only [Parse.round, if_neg some, skipped, findEvent_field, drop_field, EventMask.mark]
  cases found : standsFor (field ',' (skip ',' isspace p.cp1)) with
  | none => rfl
  | some event =>
      have code := (evttable_codes event (standsFor_mem found)).1
      simp [code, EventName.index]

theorem peek_mark (mask : EventMask) (piece : List Char) (i : Nat) :
    (mask.mark piece).peek i = true ↔
      mask.peek i = true ∨ ∃ event, standsFor piece = some event ∧ event.index = i := by
  unfold EventMask.mark
  cases found : standsFor piece with
  | none => simp
  | some event =>
      have inside := (evttable_codes event (standsFor_mem found)).2
      by_cases same : event.index = i
      · subst same
        simp [CArray.peek_poke, inside]
      · simp [same]

theorem loop_round (cp1 : List Char) (mask : EventMask) {rounds : Nat}
    (enough : cp1.length < rounds) :
    ∃ last : EventMask, Transition.loop Parse.round rounds ⟨cp1, mask⟩ = some ⟨[], last⟩ ∧
      ∀ i, last.peek i = true ↔
        mask.peek i = true ∨
          ∃ piece ∈ pieces ',' isspace cp1,
            ∃ event, standsFor piece = some event ∧ event.index = i := by
  induction rounds generalizing cp1 mask with
  | zero => exact absurd enough (Nat.not_lt_zero _)
  | succ rounds inductionHypothesis =>
      by_cases done : cp1 = []
      · subst done
        exact ⟨mask, rfl, by simp [pieces_nil]⟩
      · have shorter := @behind_skip_length_lt Char _ ',' isspace cp1 done
        obtain ⟨last, ends, marked⟩ := inductionHypothesis (behind ',' (skip ',' isspace cp1))
          (mask.mark (field ',' (skip ',' isspace cp1))) (by omega)
        refine ⟨last, ?_, fun i => ?_⟩
        · rw [Transition.loop, round_of_ne_nil done]
          exact ends
        · rw [marked, peek_mark, pieces_eq done]
          simp [or_assoc]

/-! ## Lists that are understood -/

def Parsed (evtlist : List Char) : Prop :=
  ∃ mask, parseEvents (evtlist.length + 1) evtlist = some mask ∧
    ∀ i, mask.peek i = true ↔
      ∃ event ∈ evttable, event.index = i ∧ event.name.toList ∈ tokens ',' isspace evtlist

/-- The piece is only the beginning of the name of an event that it is taken
for. -/
def Abbreviates (piece : List Char) (event : EventName) : Prop :=
  standsFor piece = some event ∧ piece ≠ event.name.toList

/-- Beginnings of names are those of events that are also named in full, and a
name with white space behind it is also given without. -/
structure Unambiguous (evtlist : List Char) : Prop where
  abbreviations : ∀ piece ∈ pieces ',' isspace evtlist, ∀ event, Abbreviates piece event →
    event.name.toList ∈ tokens ',' isspace evtlist
  padded : ∀ event ∈ evttable, event.name.toList ∈ tokens ',' isspace evtlist →
    event.name.toList ∈ pieces ',' isspace evtlist ∨
      ∃ piece ∈ pieces ',' isspace evtlist, Abbreviates piece event

theorem evttable_names : ∀ event ∈ evttable, standsFor event.name.toList = some event ∧
    event.name.toList ≠ [] ∧ event.name.toList.rdropWhile isspace = event.name.toList := by
  decide +kernel

theorem evttable_index : ∀ event ∈ evttable, ∀ other ∈ evttable, event.index = other.index →
    event = other := by
  have distinct : (evttable.map EventName.index).Nodup := by decide +kernel
  intro event known other known' same
  exact List.inj_on_of_nodup_map distinct known known' same

theorem token_of_piece {event : EventName} (known : event ∈ evttable) {evtlist : List Char}
    (given : event.name.toList ∈ pieces ',' isspace evtlist) :
    event.name.toList ∈ tokens ',' isspace evtlist := by
  obtain ⟨-, some, trimmed⟩ := evttable_names event known
  exact (mem_tokens_iff some).mpr ⟨_, (mem_pieces_iff some).mp given, trimmed⟩

theorem parsed_iff_stands (evtlist : List Char) :
    Parsed evtlist ↔ ∀ event ∈ evttable,
      (∃ piece ∈ pieces ',' isspace evtlist, standsFor piece = some event) ↔
        event.name.toList ∈ tokens ',' isspace evtlist := by
  obtain ⟨last, ends, marked⟩ := loop_round evtlist (CArray.fill 32 false)
    (Nat.lt_succ_self evtlist.length)
  have returned : parseEvents (evtlist.length + 1) evtlist = some last := by
    rw [parseEvents, ends]
    rfl
  have clear : ∀ i, ¬ (CArray.fill 32 false).peek i = true := by
    intro i
    rw [CArray.peek_fill]
    split <;> exact Bool.false_ne_true
  have found : ∀ event ∈ evttable, last.peek event.index = true ↔
      ∃ piece ∈ pieces ',' isspace evtlist, standsFor piece = some event := by
    intro event known
    rw [marked]
    constructor
    · rintro (already | ⟨piece, given, other, stands, same⟩)
      · exact absurd already (clear _)
      · rw [evttable_index other (standsFor_mem stands) event known same] at stands
        exact ⟨piece, given, stands⟩
    · rintro ⟨piece, given, stands⟩
      exact .inr ⟨piece, given, event, stands, rfl⟩
  constructor
  · rintro ⟨mask, result, exact⟩ event known
    obtain rfl := Option.some.inj (returned.symm.trans result)
    rw [← found event known, exact]
    constructor
    · rintro ⟨other, known', same, named⟩
      rw [← evttable_index other known' event known same]
      exact named
    · exact fun named => ⟨event, known, rfl, named⟩
  · intro stands
    refine ⟨last, returned, fun i => ?_⟩
    constructor
    · intro masked
      rcases (marked i).mp masked with already | ⟨piece, given, event, found', rfl⟩
      · exact absurd already (clear i)
      · have known := standsFor_mem found'
        exact ⟨event, known, rfl, (stands event known).mp ⟨piece, given, found'⟩⟩
    · rintro ⟨event, known, rfl, named⟩
      exact (found event known).mpr ((stands event known).mpr named)

/-- The events named in full are masked, and no others, exactly for the lists
without ambiguous pieces. -/
theorem parseEvents_iff (evtlist : List Char) : Parsed evtlist ↔ Unambiguous evtlist := by
  rw [parsed_iff_stands]
  constructor
  · intro stands
    constructor
    · intro piece given event abbreviates
      exact (stands event (standsFor_mem abbreviates.1)).mp ⟨piece, given, abbreviates.1⟩
    · intro event known named
      obtain ⟨piece, given, found⟩ := (stands event known).mpr named
      by_cases full : piece = event.name.toList
      · exact .inl (full ▸ given)
      · exact .inr ⟨piece, given, found, full⟩
  · intro unambiguous event known
    constructor
    · rintro ⟨piece, given, found⟩
      by_cases full : piece = event.name.toList
      · exact token_of_piece known (full ▸ given)
      · exact unambiguous.abbreviations piece given event ⟨found, full⟩
    · intro named
      rcases unambiguous.padded event known named with given | ⟨piece, given, abbreviates⟩
      · exact ⟨_, given, (evttable_names event known).1⟩
      · exact ⟨piece, given, abbreviates.1⟩

/-- A comma at the end of a list masks the event `break`. -/
theorem parseEvents_trailing_comma :
    "break".toList ∉ tokens ',' isspace "run,".toList ∧
      (parseEvents 5 "run,".toList).map (·.masks evtBreak) = some true ∧
      ¬ Parsed "run,".toList := by
  refine ⟨by decide, by decide +kernel, fun parsed => ?_⟩
  have stands := (parsed_iff_stands _).mp parsed ⟨evtBreak, "break"⟩ (by decide)
  exact absurd (stands.mp ⟨[], by decide, by decide⟩) (by decide)

end Avarice.Mk2

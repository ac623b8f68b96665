import Avarice.Library.Serving
import Avarice.Programming.Download
import Avarice.Programming.Fuses

/-!
# Programming sessions

What `main` has done with a chip, as a session of calls that may throw.
-/

namespace Avarice.Programming

open Throwing PagedMemory Serving
open Gdb (byteToHex)
open Image (Device Section)

inductive Task where
  | erase
  | writeFuses (fuses : Option Text)
  | readFuses
  | writeLockBits (lock : Option Text)
  | readLockBits
  | download (sections : List Section) (program verify : Bool)

def eraseText : Text := "Erasing program memory.\nErase complete.\n".toList

def eraseMemory {State : Type} (programmer : Programmer State) (s : State) : Called State Text :=
  (programmer.enableProgramming s).andThen fun _ s =>
    (programmer.eraseProgramMemory s).andThen fun _ s =>
      (programmer.disableProgramming s).andThen fun _ s => ⟨some eraseText, s⟩

def Task.perform {State : Type} (programmer : Programmer State) (device : Device) (s : State) :
    Task → Called State Text
  | erase => eraseMemory programmer s
  | writeFuses fuses => jtagWriteFuses programmer fuses s
  | readFuses => jtagReadFuses programmer s
  | writeLockBits lock => jtagWriteLockBits programmer lock s
  | readLockBits => jtagReadLockBits programmer s
  | download sections program verify =>
      (downloadToTarget programmer device sections program verify s).andThen fun _ s =>
        ⟨some (downloadText device program verify sections), s⟩

/-- What is known between tasks: the contents of the chip, and whether nothing is kept
of its memories. -/
structure Seen where
  contents : Contents
  fresh : Bool

section Served

variable (device : Device) (cells : Cells)

/-- What a task may leave behind that is cut off. -/
def Cut (contents after : Contents) : Task → Prop
  | .erase => after = contents ∨ after = cells.erased contents
  | .writeFuses fuses => after = contents ∨ ∃ fuseBits, fuses.bind scanFuses = some fuseBits ∧
      after = cells.stored contents .fuses 0 fuseBits
  | .writeLockBits lock => after = contents ∨ ∃ lockBits, lock.bind scanLockBits = some lockBits ∧
      after = cells.stored contents .lockBits 0 lockBits
  | .download sections program _ => DownloadCut cells device sections program contents after
  | _ => after = contents

/-- What a task does to a chip that is not in programming mode, and what it displays, or
nothing where it is cut off.  Bits that have been written are those of the text, and a
download that passes its verification has put the file there. -/
inductive Served : Seen → Task → Option Text → Seen → Prop
  | erased {contents : Contents} {fresh : Bool} :
      Served ⟨contents, fresh⟩ .erase (some eraseText) ⟨cells.erased contents, fresh⟩
  | fusesWritten {contents after : Contents} {fresh : Bool} {fuses : Text}
      {fuseBits : List UInt8} (scanned : scanFuses fuses = some fuseBits)
      (carriedOut : after = cells.stored contents .fuses 0 fuseBits)
      (verified : slice (after .fuses) 0 3 = fuseBits) :
      Served ⟨contents, fresh⟩ (.writeFuses (some fuses))
        (some ("\nWriting Fuse Bytes:\n".toList ++ displayFuses fuseBits)) ⟨after, fresh⟩
  | fusesRead {contents : Contents} {fresh : Bool} :
      Served ⟨contents, fresh⟩ .readFuses
        (some ("\nReading Fuse Bytes:\n".toList ++ displayFuses (slice (contents .fuses) 0 3)))
        ⟨contents, fresh⟩
  | lockBitsWritten {contents after : Contents} {fresh : Bool} {lock : Text} {lockBits : UInt8}
      (scanned : scanLockBits lock = some [lockBits])
      (carriedOut : after = cells.stored contents .lockBits 0 [lockBits])
      (verified : after .lockBits 0 = lockBits) :
      Served ⟨contents, fresh⟩ (.writeLockBits (some lock))
        (some ("\nWriting Lock Bits -> 0x".toList ++ byteToHex lockBits ++ ['\n'])) ⟨after, fresh⟩
  | lockBitsRead {contents : Contents} {fresh : Bool} :
      Served ⟨contents, fresh⟩ .readLockBits
        (some ("\nReading Lock Bits:\n".toList ++ displayLockBits [contents .lockBits 0]))
        ⟨contents, fresh⟩
  | downloaded {contents after : Contents} {fresh stillFresh : Bool} {sections : List Section}
      {program verify : Bool}
      (carriedOut : after = downloaded cells device sections program contents)
      (verified : verify = true → fresh = true → HoldsFile after sections)
      (quiet : verify = false → stillFresh = fresh) :
      Served ⟨contents, fresh⟩ (.download sections program verify)
        (some (downloadText device program verify sections)) ⟨after, stillFresh⟩
  | cut {contents after : Contents} {fresh stillFresh : Bool} {task : Task}
      (left : Cut device cells contents after task) :
      Served ⟨contents, fresh⟩ task none ⟨after, stillFresh⟩

def Task.Fits : Task → Prop
  | download sections _ _ => FitsPages device sections
  | _ => True

end Served

theorem scanFuses_length {fuses : Text} {fuseBits : List UInt8}
    (scanned : scanFuses fuses = some fuseBits) : fuseBits.length = 3 := by
  simp only [scanFuses, Option.bind_eq_bind, Option.bind_eq_some_iff] at scanned
  obtain ⟨_, _, _, _, _, _, same⟩ := scanned
  cases same
  rfl

theorem scanLockBits_single {lock : Text} {lockBits : List UInt8}
    (scanned : scanLockBits lock = some lockBits) : ∃ byte, lockBits = [byte] := by
  unfold scanLockBits at scanned
  split at scanned
  · obtain ⟨byte, _, rfl⟩ := Option.map_eq_some_iff.mp scanned
    exact ⟨byte.1, rfl⟩
  · cases scanned

section Sessions

variable {State : Type} {programmer : Programmer State} {device : Device} {cells : Cells}
  {view : View State}

variable (view) in
def View.seen (s : State) : Seen :=
  ⟨(view.chip s).contents, (view.cached s (.memory .flash)).isNone &&
    (view.cached s (.memory .eeprom)).isNone⟩

variable (view) in
/-- Calls are going on, and the chip is out of programming mode. -/
def View.Resting (s : State) : Prop := view.Ready s ∧ (view.chip s).programming = false

theorem View.Kept.seen {s after : State} (kept : view.Kept s after) {contents : Contents}
    (same : view.chip after = ⟨false, contents⟩) :
    view.Resting after ∧ view.seen after = ⟨contents, (view.seen s).fresh⟩ := by
  refine ⟨⟨kept.ready, by rw [same]⟩, ?_⟩
  simp only [View.seen, same, kept.cached]

namespace Drives

variable (drives : Drives programmer device cells view) {s : State} (ready : view.Ready s)
include drives ready

theorem eraseMemory :
    Called.Ends
      (fun text after => view.Resting after ∧
        Served device cells (view.seen s) .erase (some text) (view.seen after))
      (fun after => Cut device cells (view.chip s).contents (view.chip after).contents .erase)
      (Programming.eraseMemory programmer s) := by
  refine Called.Ends.andThen ((drives.enable s ready).imp (fun _ _ => id) fun _ => .inl) ?_
  rintro _ entered ⟨kept, inMode⟩
  have erase := drives.erase entered kept.ready
  simp only [inMode, Request.effect] at erase
  refine Called.Ends.andThen (erase.imp (fun _ _ => id) fun _ => id) ?_
  rintro _ after ⟨keptToo, done⟩
  have disable := drives.disable after keptToo.ready
  simp only [done, Request.effect] at disable
  refine Called.Ends.andThen (disable.imp (fun _ _ => id) fun _ => .inr) ?_
  rintro _ last ⟨still, left⟩
  obtain ⟨resting, seen⟩ := ((kept.trans keptToo).trans still).seen left
  exact Called.ends_return ⟨resting, seen ▸ .erased⟩

theorem perform {task : Task} (fits : task.Fits device) :
    Called.Ends
      (fun text after => view.Resting after ∧
        Served device cells (view.seen s) task (some text) (view.seen after))
      (fun after => Cut device cells (view.chip s).contents (view.chip after).contents task)
      (task.perform programmer device s) := by
  cases task with
  | erase => exact drives.eraseMemory ready
  | writeFuses fuses =>
      simp only [Task.perform, jtagWriteFuses]
      cases scanned : fuses.bind scanFuses with
      | none => exact ⟨nofun, fun _ => .inl rfl⟩
      | some fuseBits =>
          obtain ⟨text, rfl, scannedText⟩ := Option.bind_eq_some_iff.mp scanned
          have length := scanFuses_length scannedText
          have some : 0 < fuseBits.length := by omega
          refine Called.Ends.andThen ((drives.writeBits ready unpaged_fuses some
            (by omega)).imp (fun _ _ => id) ?_) ?_
          · exact fun after => Or.imp_right fun carriedOut => ⟨fuseBits, scanned, carriedOut⟩
          · rintro _ after ⟨kept, same, verified⟩
            obtain ⟨resting, seen⟩ := kept.seen same
            rw [length] at verified
            exact Called.ends_return ⟨resting, seen ▸ .fusesWritten scannedText rfl verified⟩
  | readFuses =>
      refine Called.Ends.andThen ((drives.readBits ready unpaged_fuses (by decide : 0 < 3)
        (by decide)).imp (fun _ _ => id) fun _ => id) ?_
      rintro fuseBits after ⟨kept, same, rfl⟩
      obtain ⟨resting, seen⟩ := kept.seen same
      exact Called.ends_return ⟨resting, seen ▸ .fusesRead⟩
  | writeLockBits lock =>
      simp only [Task.perform, jtagWriteLockBits]
      cases scanned : lock.bind scanLockBits with
      | none => exact ⟨nofun, fun _ => .inl rfl⟩
      | some lockBits =>
          obtain ⟨text, rfl, scannedText⟩ := Option.bind_eq_some_iff.mp scanned
          obtain ⟨byte, rfl⟩ := scanLockBits_single scannedText
          have some : 0 < [byte].length := Nat.one_pos
          refine Called.Ends.andThen ((drives.writeBits ready unpaged_lockBits some
            (by simp)).imp (fun _ _ => id) ?_) ?_
          · exact fun after => Or.imp_right fun carriedOut => ⟨[byte], scanned, carriedOut⟩
          · rintro _ after ⟨kept, same, verified⟩
            obtain ⟨resting, seen⟩ := kept.seen same
            refine Called.ends_return ⟨resting, seen ▸ .lockBitsWritten scannedText rfl ?_⟩
            exact (List.cons.inj verified).1
  | readLockBits =>
      refine Called.Ends.andThen ((drives.readBits ready unpaged_lockBits Nat.one_pos
        (by decide)).imp (fun _ _ => id) fun _ => id) ?_
      rintro lockBits after ⟨kept, same, rfl⟩
      obtain ⟨resting, seen⟩ := kept.seen same
      exact Called.ends_return ⟨resting, seen ▸ .lockBitsRead⟩
  | download sections program verify =>
      refine Called.Ends.andThen ((drives.downloadToTarget fits ready program verify).imp
        (fun _ _ => id) fun _ => id) ?_
      rintro _ after ⟨stillReady, quiet, same, verified⟩
      refine Called.ends_return ⟨⟨stillReady, by rw [same]⟩, ?_⟩
      refine .downloaded (by rw [same]) (fun verifies fresh => ?_) fun noVerify => ?_
      · rw [same]
        refine verified verifies fun memtype isPaged => ?_
        simp only [Bool.and_eq_true, Option.isNone_iff_eq_none] at fresh
        cases memtype with
        | flash => exact fresh.1
        | eeprom => exact fresh.2
        | ram => exact absurd rfl isPaged
      · rw [quiet noVerify]

end Drives

def Task.displayed (programmer : Programmer State) (device : Device) (s : State) (task : Task) :
    Called State (Option Text) :=
  (task.perform programmer device s).andThen fun text s => ⟨some (some text), s⟩

theorem Drives.implements (drives : Drives programmer device cells view) :
    Implements (Task.displayed programmer device) view.seen (Served device cells) view.Resting
      (Task.Fits device) := by
  rintro s task ⟨ready, -⟩ fits
  refine Called.Ends.andThen ((drives.perform ready fits).imp (fun _ _ => id) ?_) ?_
  · exact fun after left => .inr ⟨none, .cut left⟩
  · exact fun text after served => Called.ends_return served

theorem displayed_ne_none {s : State} {task : Task} {answer : Option Text}
    (returned : (task.displayed programmer device s).value = some answer) : answer ≠ none := by
  rintro rfl
  rw [Task.displayed] at returned
  cases outcome : (task.perform programmer device s).value with
  | none =>
      rw [Called.andThen_of_threw outcome] at returned
      cases returned
  | some text =>
      rw [Called.andThen_of_returned outcome] at returned
      cases returned

/-- Tasks that are about fuses and lock bits only. -/
def Task.OnlyBits : Task → Prop
  | erase => False
  | download _ _ _ => False
  | _ => True

theorem memory_of_onlyBits {seen last : Seen} {task : Task} {text : Text}
    (served : Served device cells seen task (some text) last) (onlyBits : task.OnlyBits)
    (memtype : Image.BFDmemoryType) :
    last.contents (.memory memtype) = seen.contents (.memory memtype) := by
  cases served with
  | erased => cases onlyBits
  | downloaded => cases onlyBits
  | fusesWritten _ carriedOut =>
      have apart : Space.memory memtype ≠ .fuses := nofun
      exact (congrFun carriedOut _).trans (cells.stored_other _ apart _ _)
  | lockBitsWritten _ carriedOut =>
      have apart : Space.memory memtype ≠ .lockBits := nofun
      exact (congrFun carriedOut _).trans (cells.stored_other _ apart _ _)
  | fusesRead => rfl
  | lockBitsRead => rfl

theorem memory_of_explained {seen last : Seen} {tasks : List Task} {answers : List (Option Text)}
    (explained : Explained (Served device cells) seen tasks answers last)
    (onlyBits : ∀ task ∈ tasks, task.OnlyBits) (returned : ∀ answer ∈ answers, answer ≠ none)
    (all : answers.length = tasks.length) (memtype : Image.BFDmemoryType) :
    last.contents (.memory memtype) = seen.contents (.memory memtype) := by
  induction explained with
  | ended => rfl
  | cut => cases all
  | @served _ _ _ _ answer _ _ step _ inductionHypothesis =>
      obtain ⟨isBits, later⟩ := List.forall_mem_cons.mp onlyBits
      obtain ⟨here, others⟩ := List.forall_mem_cons.mp returned
      obtain ⟨text, rfl⟩ := Option.ne_none_iff_exists'.mp here
      exact (inductionHypothesis later others (Nat.succ.inj all)).trans
        (memory_of_onlyBits step isBits memtype)

/-- A file that is downloaded is on a chip that has been erased before, in whatever way
fuses and lock bits are written in between and afterwards. -/
theorem holdsFile_of_explained {seen last : Seen} {front middle back : List Task}
    {sections : List Section} {verify : Bool} {answers : List (Option Text)}
    (explained : Explained (Served device cells) seen
      (front ++ (.erase :: middle ++ (.download sections true verify :: back))) answers last)
    (middleBits : ∀ task ∈ middle, task.OnlyBits) (backBits : ∀ task ∈ back, task.OnlyBits)
    (returned : ∀ answer ∈ answers, answer ≠ none)
    (all : answers.length =
      (front ++ (.erase :: middle ++ (.download sections true verify :: back))).length)
    (fits : FitsPages device sections)
    (takes : ∀ contents memtype, memtype ≠ .ram → ∀ c byte,
      cells.merge (.memory memtype) (cells.erased contents (.memory memtype) c) byte = byte)
    (erased : ∀ contents c, cells.erased contents (.memory .flash) c = 0xff) :
    HoldsFile last.contents sections := by
  obtain ⟨_, answers, _, rfl, -, lengthAnswers, -, explained⟩ := explained.append all
  obtain ⟨first, later, _, rfl, lengthFirst, lengthLater, erasing, downloading⟩ :=
    explained.append lengthAnswers
  have returned (answer : Option Text) (member : answer ∈ first ∨ answer ∈ later) :
      answer ≠ none := returned answer (by simp [member])
  cases erasing with
  | cut => cases lengthFirst
  | @served _ _ _ _ answer _ _ erasing bits =>
      cases downloading with
      | cut => cases lengthLater
      | @served _ _ _ _ other _ _ downloading rest =>
          obtain ⟨text, rfl⟩ := Option.ne_none_iff_exists'.mp (returned answer (by simp))
          obtain ⟨other, rfl⟩ := Option.ne_none_iff_exists'.mp (returned other (by simp))
          have between := memory_of_explained bits middleBits
            (fun answer member => returned answer (by simp [member])) (Nat.succ.inj lengthFirst)
          have after := memory_of_explained rest backBits
            (fun answer member => returned answer (by simp [member])) (Nat.succ.inj lengthLater)
          cases erasing
          cases downloading with
          | downloaded carriedOut =>
              intro memtype isPaged
              refine (holds_other (after memtype)).mpr ?_
              rw [carriedOut]
              refine downloaded_holdsFile fits ?_ ?_ memtype isPaged
              · intro memtype isPaged c byte
                have same := congrFun (between memtype) c
                dsimp only at same
                rw [same]
                exact takes _ memtype isPaged c byte
              · intro c
                exact (congrFun (between .flash) c).trans (erased _ c)

theorem Drives.session_holdsFile (drives : Drives programmer device cells view) {s : State}
    (resting : view.Resting s)
    (takes : ∀ contents memtype, memtype ≠ .ram → ∀ c byte,
      cells.merge (.memory memtype) (cells.erased contents (.memory memtype) c) byte = byte)
    (erased : ∀ contents c, cells.erased contents (.memory .flash) c = 0xff)
    {front middle back : List Task} {sections : List Section} {verify : Bool}
    (middleBits : ∀ task ∈ middle, task.OnlyBits) (backBits : ∀ task ∈ back, task.OnlyBits)
    (fit : ∀ task ∈ front ++ (.erase :: middle ++ (.download sections true verify :: back)),
      task.Fits device) :
    let tasks := front ++ (.erase :: middle ++ (.download sections true verify :: back))
    let (answers, last) := Serving.session (Task.displayed programmer device) s tasks
    answers.length = tasks.length → ∀ memtype, memtype ≠ .ram → ∀ c byte,
      Image.byteAt memtype c sections = some byte →
        (view.chip last).contents (.memory memtype) c = byte := by
  intro tasks returned
  have fitsPages : FitsPages device sections :=
    fit (.download sections true verify) (by simp)
  have explained := drives.implements.session fit resting
  exact (holdsFile_iff fitsPages.pages).mp
    (holdsFile_of_explained explained middleBits backBits
      (Serving.session_answers (fun _ _ _ => displayed_ne_none) _ _) returned fitsPages takes
      erased)

end Sessions

/-! ## A chip -/

/-- Bits can be cleared one by one, and those of flash and lock bits are set by an
erase.  Bytes of EEPROM are erased for themselves. -/
def usualCells : Cells where
  merge space old new := if space = .memory .eeprom then new else old &&& new
  erased contents space :=
    if space = .memory .flash ∨ space = .lockBits then fun _ => 0xff else contents space
  merge_merge space old new := by
    split
    · rfl
    · rw [UInt8.and_assoc, UInt8.and_self]
  erased_erased contents := by
    funext space
    by_cases set : space = .memory .flash ∨ space = .lockBits
    · simp only [if_pos set]
    · simp only [if_neg set]

theorem usualCells_takes (contents : Contents) (memtype : Image.BFDmemoryType)
    (isPaged : memtype ≠ .ram) (c : Nat) (byte : UInt8) :
    usualCells.merge (.memory memtype) (usualCells.erased contents (.memory memtype) c) byte =
      byte := by
  cases memtype with
  | flash => exact UInt8.neg_one_and
  | eeprom => rfl
  | ram => exact absurd rfl isPaged

theorem atmega16_supported : (⟨"atmega16", 128, 128, 4, 128⟩ : DeviceDef) ∈ deviceDefinitions :=
  List.mem_cons_self

theorem overlapping_fits : FitsPages (pages atmega16_supported) Image.overlapping where
  pages memtype isPaged s listed found page _ before := by
    have ends : ∀ s ∈ Image.overlapping, Image.getSectionAddr s memtype ≠ Image.noSectionAddr →
        Image.getSectionAddr s memtype + s.contents.length ≤ 6 := by
      cases memtype <;> decide
    have size : (pages atmega16_supported).getPageSize memtype ≤ 128 := by
      cases memtype <;> decide
    have bound := ends s listed found
    show page + (pages atmega16_supported).getPageSize memtype ≤ 1000000
    omega
  inSpace _ page _ before := by
    have last : (Image.createImage .eeprom Image.overlapping).lastAddress = 2 := rfl
    have size : (pages atmega16_supported).getPageSize .eeprom = 4 := rfl
    omega

def usualTasks (verify : Bool) : List Task :=
  [.readFuses] ++ (.erase :: [.writeFuses (some "ff99e1".toList)] ++
    (.download Image.overlapping true verify :: [.writeLockBits (some "fc".toList)]))

theorem usualTasks_fit (verify : Bool) :
    ∀ task ∈ usualTasks verify, task.Fits (pages atmega16_supported) := by
  intro task member
  simp only [usualTasks, List.mem_append, List.mem_cons, List.not_mem_nil, or_false] at member
  rcases member with rfl | (rfl | rfl) | rfl | rfl
  · trivial
  · trivial
  · trivial
  · exact overlapping_fits
  · trivial

theorem usualTasks_bits :
    (∀ task ∈ [Task.writeFuses (some "ff99e1".toList)], task.OnlyBits) ∧
      ∀ task ∈ [Task.writeLockBits (some "fc".toList)], task.OnlyBits := by
  constructor <;> simp [Task.OnlyBits]

end Avarice.Programming

import Mathlib.Data.Fintype.Defs
import SpaceDataModule.NodeSyncFs.Handles

/-! What an `open` that unlinks if unused may remove. Its scan of the slots and its unlink are many
steps, so an `open` of the same path that claims a slot in between, or has claimed one and not
written its path yet, is not seen. -/
namespace SpaceDataModule.NodeSyncFs
open Interleaving Transition

section Slots
variable {Thread : Type} (slot : Slot Thread)

/-- The states that `pathInUse` looks at. -/
def Slot.Active : Prop := slot.state = .live ∨ slot.state = .claiming
  deriving Decidable

/-- An `open` of the path has the slot, or its handle is live. -/
def Slot.Names (path : PathBytes) : Prop := slot.Active ∧ slot.request = path
  deriving Decidable

def Slot.Bytes : Prop :=
  ∀ (index : Nat) (byte : UInt8), slot.request[index]? = some byte → slot.path index = byte

def Slot.Spelled : Prop := slot.pathLen = slot.request.length ∧ slot.Bytes

/-- The path for which the next step may claim a slot. -/
def Task.wants : Task → Option PathBytes
  | .opening path _ (.exchange _ _) => some path
  | _ => none

def Task.unlinks : Task → Option PathBytes
  | .unlinking path true _ => some path
  | _ => none

def WorkerMove.unlinks : WorkerMove → Option PathBytes
  | .unlinkCall path true => some path
  | _ => none

inductive SlotEdit (thread : Thread) (wants : Option PathBytes) (before after : Slot Thread) : Prop
  | same (equal : after = before)
  | claim (wanted : wants = some after.request) (free : before.state = .free)
  | work (state : before.state = .claiming) (holder : before.holder = some thread)
      (request : after.request = before.request)
      (written : before.written = true → after.written = true)
  | drop (shut : before.state = .live ∨ before.state = .closing ∧ before.holder = some thread)
      (passive : ¬ after.Active)

theorem SlotEdit.frame (edit : SlotEdit thread wants before after) (different : other ≠ thread)
    (state : before.state = .claiming) (holder : before.holder = some other) : after = before := by
  cases edit with
  | same equal => exact equal
  | claim wanted free => nomatch state.symm.trans free
  | work _ mine => exact absurd (Option.some.inj (holder.symm.trans mine)) different
  | drop shut =>
    rcases shut with live | ⟨closing, _⟩
    · cases state.symm.trans live
    · cases state.symm.trans closing

/-- Only a claim makes a slot name a path, with the path not written. -/
theorem SlotEdit.names (edit : SlotEdit thread wants before after) (unwanted : wants ≠ some path)
    (names : after.Names path) :
    before.Names path ∧ (before.written = true → after.written = true) := by
  obtain ⟨active, rfl⟩ := names
  cases edit with
  | same equal => exact ⟨equal ▸ ⟨active, rfl⟩, equal ▸ id⟩
  | claim wanted free => exact absurd wanted unwanted
  | work state _ request written => exact ⟨⟨.inr state, request.symm⟩, written⟩
  | drop _ passive => exact absurd active passive

end Slots

section Edits
variable {Thread Name : Type} {resolve : PathBytes → Name}
variable {m : Shared Thread Name} {next : Worker}

theorem edit_setSlot (edit : SlotEdit thread wants (m.slots target) changed) (slot : Nat) :
    SlotEdit thread wants (m.slots slot) ((m.setSlot target changed).slots slot) := by
  simp only [Shared.setSlot, Function.update_apply]
  split_ifs with same
  · exact same ▸ edit
  · exact .same rfl

theorem failStep_shared (acted : failStep m worker = some (after, next)) : after = m := by
  rw [failStep.eq_def] at acted
  split at acted <;> first | (cases acted; rfl) | cases acted

variable [DecidableEq Name]

/-- A use leaves the table as it is. -/
theorem useStep_cases
    (acted : useStep size resolve m worker handle writes closedBefore step = some (after, next)) :
    after = m ∧ (next.task = .resting ∨
      ∃ later, next.task = .using handle writes closedBefore later) := by
  cases step with
  | loadState =>
    simp only [useStep] at acted
    split_ifs at acted <;> cases acted
    · exact ⟨rfl, .inr ⟨_, rfl⟩⟩
    all_goals exact ⟨rfl, .inl rfl⟩
  | checkWrite =>
    simp only [useStep] at acted
    split_ifs at acted <;> cases acted
    · exact ⟨rfl, .inr ⟨_, rfl⟩⟩
    · exact ⟨rfl, .inl rfl⟩
  | loadGen =>
    simp only [useStep] at acted
    split_ifs at acted
    · split at acted <;> cases acted <;> exact ⟨rfl, .inr ⟨_, rfl⟩⟩
    all_goals
      cases acted
      exact ⟨rfl, .inl rfl⟩
  | loadLength | loadPath | loadFlags =>
    cases acted
    exact ⟨rfl, .inr ⟨_, rfl⟩⟩
  | act =>
    cases acted
    exact ⟨rfl, .inl rfl⟩
  | openFile path =>
    obtain ⟨result, _, same⟩ := Option.map_eq_some_iff.mp acted
    cases same
    exact ⟨rfl, .inr ⟨_, rfl⟩⟩

theorem openStep_edits (owns : Owns size m.books thread step.role)
    (acted : openStep size resolve thread m worker path flags step = some (after, next))
    (slot : Nat) : SlotEdit thread (Task.opening path flags step).wants (m.slots slot)
      (after.slots slot) := by
  have work {target : Nat} {changed : Slot Thread} (has : Has m.books thread target .claiming)
      (request : changed.request = (m.slots target).request)
      (written : (m.slots target).written = true → changed.written = true) :
      SlotEdit thread (Task.opening path flags step).wants (m.slots slot)
        ((m.setSlot target changed).slots slot) :=
    edit_setSlot (.work has.state has.holder request written) slot
  cases step with
  | sweepState rest =>
    cases rest with
    | nil =>
      cases acted
      exact .same rfl
    | cons entry rest =>
      simp only [openStep] at acted
      split_ifs at acted <;> cases acted <;> exact .same rfl
  | sweepGen target cached rest =>
    simp only [openStep] at acted
    split_ifs at acted <;> cases acted <;> exact .same rfl
  | count | loadGen =>
    cases acted
    exact .same rfl
  | exchange start turn =>
    simp only [openStep] at acted
    split_ifs at acted with inside free
    · cases acted
      refine edit_setSlot ?_ slot
      exact .claim rfl free
    · cases acted
      exact .same rfl
    · cases acted
      exact .same rfl
  | writePath target gen | storeFlags target gen | storeGen target gen =>
    cases acted
    exact work owns.2 rfl id
  | storeLength target gen =>
    cases acted
    exact work owns.2 rfl fun _ => rfl
  | openFile target gen =>
    obtain ⟨result, _, same⟩ := Option.map_eq_some_iff.mp acted
    cases same
    exact work owns.2 rfl id
  | release target =>
    cases acted
    exact work owns rfl id
  | publish target gen file =>
    cases acted
    exact work owns.2 rfl id

theorem closeStep_edits (owns : Owns size m.books thread (step.role handle))
    (acted : closeStep size resolve thread m worker handle step = some (after, next)) (slot : Nat) :
    SlotEdit thread wants (m.slots slot) (after.slots slot) := by
  cases step with
  | loadGen =>
    simp only [closeStep] at acted
    split_ifs at acted <;> cases acted <;> exact .same rfl
  | exchange =>
    simp only [closeStep] at acted
    split_ifs at acted with live
    · cases acted
      exact edit_setSlot (.drop (.inl live) (by rintro (shut | shut) <;> cases shut)) slot
    · cases acted
      exact .same rfl
  | loadFlags | loadLength | loadPath | unlink | finish =>
    cases acted
    exact .same rfl
  | free flags path =>
    cases acted
    have has : Has m.books thread (slotOf handle) .closing := owns
    exact edit_setSlot (.drop (.inr ⟨has.state, has.holder⟩)
      (by rintro (shut | shut) <;> cases shut)) slot

theorem workerAct_edits (owns : Owns size m.books thread worker.task.role)
    (acted : workerAct size resolve thread move m worker = some (after, next)) (slot : Nat) :
    SlotEdit thread worker.task.wants (m.slots slot) (after.slots slot) := by
  obtain ⟨task, fds⟩ := worker
  dsimp only [workerAct] at owns acted ⊢
  split at acted
  iterate 4
    · cases acted
      exact .same rfl
  · rcases unlinkStep_cases acted with ⟨rfl, _⟩ | ⟨_, _, _, _, rfl⟩ <;> exact .same rfl
  · exact openStep_edits owns acted slot
  · exact .same (congrFun (congrArg Shared.slots ((useStep_cases acted).1)) slot)
  · exact closeStep_edits owns acted slot
  · exact .same (congrFun (congrArg Shared.slots (failStep_shared acted)) slot)
  · cases acted

end Edits

section Filing
variable {Thread Name : Type} {resolve : PathBytes → Name}

def RemovedUnused (removals : List Removal) (file : FileId) : Prop :=
  ∃ removal ∈ removals, removal.ifUnused = true ∧ removal.file = file

/-- What holds of each slot, with the name every file has or had. -/
structure SlotSound (size : TableSize) (resolve : PathBytes → Name) (home : FileId → Name)
    (fresh : FileId) (removals : List Removal) (index : Nat) (slot : Slot Thread) : Prop where
  inside : slot.Active → index < size.maxHandles
  spelled : slot.written = true → slot.Spelled
  finished : slot.state = .live → slot.written = true
  filed : ∀ file, slot.file = some file → file < fresh ∧ home file = resolve slot.request
  spared : slot.Active → ∀ file, slot.file = some file → ¬ RemovedUnused removals file

structure Filing (size : TableSize) (resolve : PathBytes → Name) (home : FileId → Name)
    (slots : Nat → Slot Thread) (files : Files Name) (removals : List Removal) : Prop where
  entries : ∀ name file, files.entry name = some file → file < files.next ∧ home file = name ∧
    ¬ RemovedUnused removals file
  known : ∀ file, RemovedUnused removals file → file < files.next
  clean : ∀ removal ∈ removals, removal.ifUnused = true →
    removal.live = [] ∧ removal.opening = []
  sound : ∀ slot, SlotSound size resolve home files.next removals slot (slots slot)

structure Files.Separate (files : Files Name) : Prop where
  bounded : ∀ name file, files.entry name = some file → file < files.next
  single : ∀ name other file, files.entry name = some file → files.entry other = some file →
    name = other

variable {home : FileId → Name} {slots : Nat → Slot Thread} {files : Files Name}

theorem Files.Separate.exists_home [Nonempty Name] (separate : files.Separate) :
    ∃ home : FileId → Name, ∀ name file, files.entry name = some file → home file = name := by
  refine ⟨fun file => Classical.epsilon fun name => files.entry name = some file, ?_⟩
  intro name file found
  have there : files.entry (Classical.epsilon fun name => files.entry name = some file) =
      some file := Classical.epsilon_spec (p := fun name => files.entry name = some file) ⟨name, found⟩
  exact separate.single _ _ file there found

theorem Filing.setSlot (filing : Filing size resolve home slots files removals)
    (sound : SlotSound size resolve home files.next removals slot changed) :
    Filing size resolve home (Function.update slots slot changed) files removals := by
  refine { filing with sound := ?_ }
  intro other
  by_cases same : other = slot
  · subst same
    rwa [Function.update_self]
  · rw [Function.update_of_ne same]
    exact filing.sound other

variable [DecidableEq Name]

/-- A file that is opened, or created, is one that nobody has removed as unused. -/
theorem Filing.open (filing : Filing size resolve home slots files removals)
    (opened : files.openSync name create excl = some (after, file)) :
    ∃ home, Filing size resolve home slots after removals ∧ file < after.next ∧
      home file = name ∧ ¬ RemovedUnused removals file := by
  rw [Files.openSync] at opened
  split at opened
  · rename_i found
    split_ifs at opened
    cases opened
    exact ⟨home, filing, filing.entries name file found⟩
  · split_ifs at opened
    cases opened
    have unused : ¬ RemovedUnused removals files.next :=
      fun removed => lt_irrefl _ (filing.known _ removed)
    have kept {old : FileId} (earlier : old < files.next) :
        Function.update home files.next name old = home old :=
      Function.update_of_ne earlier.ne _ _
    refine ⟨Function.update home files.next name, ⟨?_, ?_, filing.clean, ?_⟩, Nat.lt_succ_self _,
      Function.update_self _ _ _, unused⟩
    · intro other old found
      by_cases same : other = name
      · subst same
        obtain rfl : files.next = old := by simpa using found
        exact ⟨Nat.lt_succ_self _, Function.update_self _ _ _, unused⟩
      · have there : files.entry other = some old := by simpa [Function.update_of_ne same] using found
        obtain ⟨earlier, here, spared⟩ := filing.entries other old there
        exact ⟨Nat.lt_succ_of_lt earlier, (kept earlier).trans here, spared⟩
    · exact fun old removed => Nat.lt_succ_of_lt (filing.known old removed)
    · intro slot
      refine { filing.sound slot with filed := fun old held => ?_ }
      obtain ⟨earlier, here⟩ := (filing.sound slot).filed old held
      exact ⟨Nat.lt_succ_of_lt earlier, (kept earlier).trans here⟩

/-- A file that is unlinked has no name left. -/
theorem Filing.unlink (filing : Filing size resolve home slots files removals)
    (unlinked : files.unlinkSync name = some (after, file)) :
    Filing size resolve home slots after removals ∧ files.entry name = some file ∧
      ∀ other, after.entry other ≠ some file := by
  obtain ⟨found, there, same⟩ := Option.map_eq_some_iff.mp unlinked
  cases same
  have entry (other : Name) (old : FileId) (left : Function.update files.entry name none other =
      some old) : other ≠ name ∧ files.entry other = some old := by
    by_cases same : other = name
    · subst same
      simp at left
    · exact ⟨same, by simpa [Function.update_of_ne same] using left⟩
  refine ⟨{ filing with entries := ?_ }, there, ?_⟩
  · intro other old left
    exact filing.entries other old (entry other old left).2
  · intro other left
    obtain ⟨different, again⟩ := entry other _ left
    have one := (filing.entries other _ again).2.1
    exact different (one.symm.trans (filing.entries name _ there).2.1)

theorem removedUnused_append :
    RemovedUnused (removals ++ [removal]) file ↔
      RemovedUnused removals file ∨ removal.ifUnused = true ∧ removal.file = file := by
  simp [RemovedUnused]

omit [DecidableEq Name] in
/-- A removal is recorded; one of an unused path has to find no slot with the file. -/
theorem Filing.remove (filing : Filing size resolve home slots files removals)
    (bounded : removal.file < files.next)
    (nameless : ∀ other, files.entry other ≠ some removal.file)
    (alone : removal.ifUnused = true → (removal.live = [] ∧ removal.opening = []) ∧
      ∀ slot, (slots slot).Active → (slots slot).file ≠ some removal.file) :
    Filing size resolve home slots files (removals ++ [removal]) := by
  refine ⟨?_, ?_, ?_, ?_⟩
  · intro other old found
    obtain ⟨earlier, here, spared⟩ := filing.entries other old found
    refine ⟨earlier, here, ?_⟩
    rw [removedUnused_append]
    rintro (removed | ⟨_, rfl⟩)
    · exact spared removed
    · exact nameless other found
  · intro old removed
    rcases removedUnused_append.mp removed with before | ⟨_, rfl⟩
    · exact filing.known old before
    · exact bounded
  · intro other listed unused
    rcases List.mem_append.mp listed with before | new
    · exact filing.clean other before unused
    · obtain rfl := List.mem_singleton.mp new
      exact (alone unused).1
  · intro slot
    refine { filing.sound slot with spared := fun active old held => ?_ }
    rw [removedUnused_append]
    rintro (removed | ⟨unused, rfl⟩)
    · exact (filing.sound slot).spared active old held removed
    · exact (alone unused).2 slot active held

end Filing

section Knowledge
variable {Thread Name : Type} {resolve : PathBytes → Name}
variable {m after : Shared Thread Name} {next : Worker}

/-- The slots in front of the position do not name the path, and those that name it have it
written. -/
def Scanned (size : TableSize) (m : Shared Thread Name) (path : PathBytes) (position : Nat) : Prop :=
  ∀ slot < size.maxHandles, (m.slots slot).Names path →
    position ≤ slot ∧ (m.slots slot).written = true

def UnlinkStep.position (size : TableSize) : UnlinkStep → Nat
  | .scanState slot | .scanLength slot | .scanByte slot _ => slot
  | .unlink => size.maxHandles

def OpenStep.Knows (m : Shared Thread Name) (path : PathBytes) : OpenStep → Prop
  | .loadGen slot | .writePath slot _ =>
    (m.slots slot).request = path ∧ (m.slots slot).written = false
  | .storeLength slot _ => (m.slots slot).request = path ∧ (m.slots slot).Bytes
  | .storeFlags slot _ | .storeGen slot _ | .openFile slot _ =>
    (m.slots slot).request = path ∧ (m.slots slot).written = true
  | .publish slot _ file => (m.slots slot).written = true ∧ (m.slots slot).file = some file
  | _ => True

def Task.Knows (size : TableSize) (m : Shared Thread Name) : Task → Prop
  | .unlinking path true step => Scanned size m path (step.position size)
  | .opening path _ step => step.Knows m path
  | _ => True

theorem Scanned.pass (scanned : Scanned size m path position)
    (passed : ¬ (m.slots position).Names path ∨ (m.slots position).written = false) :
    Scanned size m path (position + 1) := by
  intro slot inside names
  obtain ⟨ahead, written⟩ := scanned slot inside names
  refine ⟨lt_of_le_of_ne ahead ?_, written⟩
  rintro rfl
  rcases passed with different | unwritten
  · exact different names
  · exact Bool.noConfusion (written.symm.trans unwritten)

theorem Scanned.stable (scanned : Scanned size m path position) (unwanted : wants ≠ some path)
    (edits : ∀ slot, SlotEdit thread wants (m.slots slot) (after.slots slot)) :
    Scanned size after path position := by
  intro slot inside names
  obtain ⟨before, written⟩ := (edits slot).names unwanted names
  obtain ⟨ahead, done⟩ := scanned slot inside before
  exact ⟨ahead, written done⟩

theorem OpenStep.Knows.of_eq {step : OpenStep} (knows : step.Knows m path)
    (same : ∀ slot, (step.role = .claiming slot ∨ (∃ gen, step.role = .numbering slot gen) ∨
      ∃ gen, step.role = .numbered slot gen) → after.slots slot = m.slots slot) :
    step.Knows after path := by
  cases step with
  | loadGen slot =>
    rw [OpenStep.Knows, same slot (.inl rfl)]
    exact knows
  | writePath slot gen | storeLength slot gen | storeFlags slot gen | storeGen slot gen =>
    rw [OpenStep.Knows, same slot (.inr (.inl ⟨gen, rfl⟩))]
    exact knows
  | openFile slot gen | publish slot gen =>
    rw [OpenStep.Knows, same slot (.inr (.inr ⟨gen, rfl⟩))]
    exact knows
  | _ => trivial

theorem Task.Knows.stable {task : Task} {wants : Option PathBytes} (knows : task.Knows size m)
    (owns : Owns size m.books other task.role) (different : other ≠ thread)
    (unwanted : ∀ path, task.unlinks = some path → wants ≠ some path)
    (edits : ∀ slot, SlotEdit thread wants (m.slots slot) (after.slots slot)) :
    task.Knows size after := by
  cases task with
  | unlinking path ifUnused step =>
    cases ifUnused with
    | false => trivial
    | true => exact Scanned.stable knows (unwanted path rfl) edits
  | opening path flags step =>
    refine OpenStep.Knows.of_eq knows ?_
    intro slot its
    have has : Has m.books other slot .claiming := by
      rcases its with role | ⟨gen, role⟩ | ⟨gen, role⟩
      all_goals
        rw [Task.role, role] at owns
        exact owns.2
    exact (edits slot).frame different has.state has.holder
  | _ => trivial

variable [DecidableEq Name] {home : FileId → Name}

theorem openStep_knows (knows : step.Knows m path)
    (acted : openStep size resolve thread m worker path flags step = some (after, next)) :
    next.task.Knows size after := by
  have self {slot : Nat} {changed : Slot Thread} :
      (m.setSlot slot changed).slots slot = changed := Function.update_self _ _ _
  cases step with
  | sweepState rest =>
    cases rest with
    | nil =>
      cases acted
      trivial
    | cons entry rest =>
      simp only [openStep] at acted
      split_ifs at acted <;> cases acted <;> trivial
  | sweepGen target cached rest =>
    simp only [openStep] at acted
    split_ifs at acted <;> cases acted <;> trivial
  | exchange start turn =>
    simp only [openStep] at acted
    split_ifs at acted
    · cases acted
      rw [Task.Knows, OpenStep.Knows, self]
      exact ⟨rfl, rfl⟩
    all_goals
      cases acted
      trivial
  | loadGen slot =>
    cases acted
    exact knows
  | writePath slot gen =>
    cases acted
    rw [Task.Knows, OpenStep.Knows, self]
    refine ⟨knows.1, ?_⟩
    intro index byte found
    have here : path[index]? = some byte := knows.1 ▸ found
    simp only [here, Option.getD_some]
  | storeLength slot gen =>
    cases acted
    rw [Task.Knows, OpenStep.Knows, self]
    exact ⟨knows.1, rfl⟩
  | storeFlags slot gen | storeGen slot gen =>
    cases acted
    rw [Task.Knows, OpenStep.Knows, self]
    exact knows
  | openFile slot gen =>
    obtain ⟨result, _, same⟩ := Option.map_eq_some_iff.mp acted
    cases same
    have slots : (({ m with files := result.1 }).setSlot slot
        { m.slots slot with file := some result.2 }).slots slot =
        { m.slots slot with file := some result.2 } := Function.update_self _ _ _
    rw [Task.Knows, OpenStep.Knows, slots]
    exact ⟨knows.2, rfl⟩
  | count | release | publish =>
    cases acted
    trivial

theorem unlinkStep_plain
    (acted : unlinkStep size resolve m worker path false step = some (after, next)) :
    next.task.Knows size after := by
  rcases unlinkStep_cases acted with ⟨_, rests | ⟨later, goes⟩⟩ | ⟨_, rests, _⟩
  · rw [rests]
    trivial
  · rw [goes]
    trivial
  · rw [rests]
    trivial

theorem closeStep_knows
    (acted : closeStep size resolve thread m worker handle step = some (after, next)) :
    next.task.Knows size after := by
  cases step with
  | loadGen | exchange =>
    simp only [closeStep] at acted
    split_ifs at acted <;> cases acted <;> trivial
  | _ =>
    cases acted
    trivial

omit [DecidableEq Name] in
theorem failStep_knows (acted : failStep m worker = some (after, next)) :
    next.task.Knows size after := by
  rw [failStep.eq_def] at acted
  split at acted <;> first | (cases acted; trivial) | cases acted

section
variable (filing : Filing size resolve home m.slots m.files m.removals)
include filing

/-- The scan goes over a slot that does not name the path. -/
theorem unlinkStep_knows (scanned : Scanned size m path (step.position size))
    (acted : unlinkStep size resolve m worker path true step = some (after, next)) :
    next.task.Knows size after := by
  cases step with
  | scanState slot =>
    simp only [unlinkStep] at acted
    split_ifs at acted with inside active
    · cases acted
      exact scanned
    · cases acted
      exact scanned.pass (.inl fun names => active names.1)
    · cases acted
      intro other within names
      exact absurd (scanned other within names).1 (by simp only [UnlinkStep.position]; omega)
  | scanLength slot =>
    simp only [unlinkStep] at acted
    split_ifs at acted with same
    · cases acted
      exact scanned
    · cases acted
      refine scanned.pass ?_
      by_contra! named
      obtain ⟨⟨_, rfl⟩, written⟩ := named
      exact same ((filing.sound slot).spelled (Bool.of_not_eq_false written)).1
  | scanByte slot index =>
    simp only [unlinkStep] at acted
    split at acted
    · cases acted
      trivial
    · rename_i byte found
      split_ifs at acted with same
      · cases acted
        exact scanned
      · cases acted
        refine scanned.pass ?_
        by_contra! named
        obtain ⟨⟨_, rfl⟩, written⟩ := named
        exact same (((filing.sound slot).spelled (Bool.of_not_eq_false written)).2 index byte found)
  | unlink =>
    obtain ⟨removed, _, same⟩ := Option.map_eq_some_iff.mp acted
    cases same
    trivial

theorem workerAct_knows (knows : worker.task.Knows size m)
    (quiet : ∀ path, move.unlinks = some path → Scanned size m path 0)
    (acted : workerAct size resolve thread move m worker = some (after, next)) :
    next.task.Knows size after := by
  obtain ⟨task, fds⟩ := worker
  dsimp only [workerAct] at knows acted
  split at acted
  · rename_i path ifUnused
    cases acted
    cases ifUnused with
    | false => trivial
    | true => exact quiet path rfl
  iterate 3
    · cases acted
      trivial
  · rename_i path ifUnused step
    cases ifUnused with
    | true => exact unlinkStep_knows filing knows acted
    | false => exact unlinkStep_plain acted
  · exact openStep_knows knows acted
  · rcases (useStep_cases acted).2 with goes | ⟨later, goes⟩ <;> rw [goes] <;> trivial
  · exact closeStep_knows acted
  · exact failStep_knows acted
  · cases acted

omit [DecidableEq Name] in
/-- Nothing that is removed as unused is held by a slot. -/
theorem Filing.unheld {file : FileId} (injective : Function.Injective resolve)
    (scanned : Scanned size m path size.maxHandles)
    (found : m.files.entry (resolve path) = some file) (slot : Nat) (active : (m.slots slot).Active) :
    (m.slots slot).file ≠ some file := by
  intro held
  have sound := filing.sound slot
  have inside := sound.inside active
  have same : resolve (m.slots slot).request = resolve path :=
    (sound.filed file held).2.symm.trans (filing.entries _ _ found).2.1
  have ahead := (scanned slot inside ⟨active, injective same⟩).1
  omega

theorem unlinkStep_filing (injective : Function.Injective resolve)
    (knows : (Task.unlinking path ifUnused step).Knows size m)
    (acted : unlinkStep size resolve m worker path ifUnused step = some (after, next)) :
    Filing size resolve home after.slots after.files after.removals := by
  rcases unlinkStep_cases acted with ⟨rfl, _⟩ | ⟨rfl, _, ⟨files, file⟩, unlinked, rfl⟩
  · exact filing
  · -- the scan has passed every slot
    obtain ⟨later, found, nameless⟩ := filing.unlink unlinked
    have fresh : files.next = m.files.next := by
      obtain ⟨_, _, same⟩ := Option.map_eq_some_iff.mp unlinked
      cases same
      rfl
    refine later.remove (fresh ▸ (filing.entries _ _ found).1) nameless ?_
    rintro rfl
    have unheld := filing.unheld injective knows found
    have empty {state : SlotState} (counts : state = .live ∨ state = .claiming) :
        m.holders size state file = [] := by
      refine List.filter_eq_nil_iff.mpr fun slot _ => ?_
      rw [decide_eq_true_eq]
      rintro ⟨rfl, held⟩
      exact unheld slot counts held
    exact ⟨⟨empty (.inl rfl), empty (.inr rfl)⟩, unheld⟩

theorem openStep_filing (owns : Owns size m.books thread step.role) (knows : step.Knows m path)
    (acted : openStep size resolve thread m worker path flags step = some (after, next)) :
    ∃ home, Filing size resolve home after.slots after.files after.removals := by
  have claimed {slot : Nat} (has : Has m.books thread slot .claiming) : (m.slots slot).Active :=
    .inr has.state
  cases step with
  | sweepState rest =>
    cases rest with
    | nil =>
      cases acted
      exact ⟨home, filing⟩
    | cons entry rest =>
      simp only [openStep] at acted
      split_ifs at acted <;> cases acted <;> exact ⟨home, filing⟩
  | sweepGen target cached rest =>
    simp only [openStep] at acted
    split_ifs at acted <;> cases acted <;> exact ⟨home, filing⟩
  | count | loadGen =>
    cases acted
    exact ⟨home, filing⟩
  | exchange start turn =>
    simp only [openStep] at acted
    split_ifs at acted
    · cases acted
      exact ⟨home, filing.setSlot
        ⟨fun _ => Nat.mod_lt _ size.positive, by simp, by simp, by simp, by simp⟩⟩
    all_goals
      cases acted
      exact ⟨home, filing⟩
  | writePath slot gen =>
    cases acted
    refine ⟨home, filing.setSlot { filing.sound slot with spelled := fun written => ?_ }⟩
    exact Bool.noConfusion (knows.2.symm.trans written)
  | storeLength slot gen =>
    cases acted
    have spelled := congrArg List.length knows.1.symm
    exact ⟨home, filing.setSlot { filing.sound slot with
      spelled := fun _ => ⟨spelled, knows.2⟩, finished := fun _ => rfl }⟩
  | storeFlags slot gen | storeGen slot gen =>
    cases acted
    exact ⟨home, filing.setSlot { filing.sound slot with }⟩
  | openFile slot gen =>
    obtain ⟨⟨files, file⟩, opened, same⟩ := Option.map_eq_some_iff.mp acted
    cases same
    obtain ⟨home, later, bounded, named, spare⟩ := filing.open opened
    refine ⟨home, later.setSlot { later.sound slot with filed := ?_, spared := ?_ }⟩
    · rintro _ ⟨⟩
      exact ⟨bounded, named.trans (congrArg resolve knows.1.symm)⟩
    · rintro _ _ ⟨⟩
      exact spare
  | release slot =>
    cases acted
    refine ⟨home, filing.setSlot { filing.sound slot with
      inside := ?_, finished := by simp, spared := ?_ }⟩
    · rintro (free | free) <;> cases free
    · rintro (free | free) <;> cases free
  | publish slot gen file =>
    cases acted
    have active := claimed owns.2
    have sound := filing.sound slot
    exact ⟨home, filing.setSlot { sound with
      inside := fun _ => sound.inside active, finished := fun _ => knows.1
      spared := fun _ => sound.spared active }⟩

theorem closeStep_filing
    (acted : closeStep size resolve thread m worker handle step = some (after, next)) :
    Filing size resolve home after.slots after.files after.removals := by
  have shut {changed : Slot Thread} (passive : ¬ changed.Active)
      (spelled : changed.written = true → changed.Spelled)
      (filed : ∀ file, changed.file = some file →
        file < m.files.next ∧ home file = resolve changed.request) :
      SlotSound size resolve home m.files.next m.removals (slotOf handle) changed :=
    ⟨fun active => absurd active passive, spelled, fun live => absurd (.inl live) passive, filed,
      fun active => absurd active passive⟩
  have sound := filing.sound (slotOf handle)
  cases step with
  | loadGen =>
    simp only [closeStep] at acted
    split_ifs at acted <;> cases acted <;> exact filing
  | exchange =>
    simp only [closeStep] at acted
    split_ifs at acted
    · cases acted
      exact filing.setSlot (shut (by rintro (free | free) <;> cases free) sound.spelled
        sound.filed)
    · cases acted
      exact filing
  | free flags path =>
    cases acted
    exact filing.setSlot (shut (by rintro (free | free) <;> cases free) sound.spelled sound.filed)
  | unlink path =>
    cases acted
    cases unlinked : m.files.unlinkSync (resolve path) with
    | none => exact filing
    | some removed => exact (filing.unlink unlinked).1
  | loadFlags | loadLength | loadPath | finish =>
    cases acted
    exact filing

theorem workerAct_filing (injective : Function.Injective resolve)
    (owns : Owns size m.books thread worker.task.role) (knows : worker.task.Knows size m)
    (acted : workerAct size resolve thread move m worker = some (after, next)) :
    ∃ home, Filing size resolve home after.slots after.files after.removals := by
  obtain ⟨task, fds⟩ := worker
  dsimp only [workerAct] at owns knows acted
  split at acted
  iterate 4
    · cases acted
      exact ⟨home, filing⟩
  · exact ⟨home, unlinkStep_filing filing injective knows acted⟩
  · exact openStep_filing filing owns knows acted
  · exact ⟨home, (useStep_cases acted).1 ▸ filing⟩
  · exact ⟨home, closeStep_filing filing acted⟩
  · exact ⟨home, failStep_shared acted ▸ filing⟩
  · cases acted

end

end Knowledge

section Runs
variable {Thread Name : Type} [DecidableEq Thread] [DecidableEq Name]
variable {size : TableSize} {resolve : PathBytes → Name}

/-- An unlink of an unused path begins when every slot that is claimed for the path has it written,
and up to its end nobody claims a slot for the path. -/
def QuietUnlinks (size : TableSize) (s : Workers Thread Name) : WorkerLabel Thread → Prop
  | .thread thread move =>
    (∀ path ∈ move.unlinks, ∀ slot < size.maxHandles, (s.shared.slots slot).Names path →
      (s.shared.slots slot).written = true) ∧
    ∀ path ∈ (s.locals thread).task.wants, ∀ other, (s.locals other).task.unlinks ≠ some path
  | .event _ => True

def Task.returns : Task → Option FileId
  | .opening _ _ (.publish _ _ file) => some file
  | _ => none

abbrev Filed (size : TableSize) (resolve : PathBytes → Name) : Workers Thread Name → Prop :=
  Holds (fun m => ∃ home, Filing size resolve home m.slots m.files m.removals)
    fun thread m worker => Owns size m.books thread worker.task.role ∧ worker.task.Knows size m

omit [DecidableEq Thread] [DecidableEq Name] in
theorem Filed.initial (separate : files.Separate) :
    Filed size resolve (workersInitial files : Workers Thread Name) := by
  have : Nonempty Name := ⟨resolve []⟩
  obtain ⟨home, named⟩ := separate.exists_home
  refine ⟨⟨home, ?_, nofun, nofun, ?_⟩, fun _ => ⟨trivial, trivial⟩⟩
  · intro name file found
    exact ⟨separate.bounded name file found, named name file found, nofun⟩
  · intro slot
    refine ⟨?_, nofun, nofun, nofun, nofun⟩
    rintro (free | free) <;> cases free

theorem Filed.step {label : WorkerLabel Thread} (injective : Function.Injective resolve)
    (filed : Filed size resolve s) (quiet : QuietUnlinks size s label)
    (taken : Interleaving.next (workerAct size resolve) workerHappen s label = some t) :
    Filed size resolve t := by
  cases label with
  | event event => nomatch event
  | thread thread move =>
    obtain ⟨home, filing⟩ := filed.shared
    obtain ⟨owns, knows⟩ := filed.locals thread
    obtain ⟨written, unwanted⟩ := quiet
    have admitted : (anyCallers : Policy Thread).Admits s.shared (s.locals thread).task move := by
      cases move with
      | step => exact fun _ _ => trivial
      | _ => trivial
    refine filed.thread taken ?_ ?_
    · intro after next acted
      have began (path : PathBytes) (begins : move.unlinks = some path) :
          Scanned size s.shared path 0 :=
        fun slot inside names => ⟨Nat.zero_le _, written path begins slot inside names⟩
      exact ⟨workerAct_filing filing injective owns knows acted,
        (workerAct_books admitted acted).keeps_owns owns, workerAct_knows filing knows began acted⟩
    · rintro after next acted other different ⟨its, known⟩
      refine ⟨Owns.stable (workerAct_books admitted acted) owns different its, ?_⟩
      refine known.stable its different ?_ fun slot => workerAct_edits owns acted slot
      exact fun path unlinks wants => unwanted path wants other unlinks

/-- Where paths name different files, an unlink of an unused path begins when every slot claimed for
the path has it written, and nobody claims a slot for the path before it ends: it removes no file
of a live handle, and `open` returns no handle of a file that was so removed. -/
theorem unlink_if_unused_spares (injective : Function.Injective resolve) {files : Files Name}
    (separate : files.Separate) {labels : List (WorkerLabel Thread)} {last : Workers Thread Name}
    (trace : Trace (Interleaving.next (workerAct size resolve) workerHappen) (QuietUnlinks size)
      (workersInitial files) labels last) :
    (∀ removal ∈ last.shared.removals, removal.ifUnused = true →
      removal.live = [] ∧ removal.opening = []) ∧
    ∀ thread file, (last.locals thread).task.returns = some file →
      ∀ removal ∈ last.shared.removals, removal.ifUnused = true → removal.file ≠ file := by
  have filed : Filed size resolve last := trace.invariant (Filed.initial separate)
    fun _ _ _ quiet taken filed => filed.step injective quiet taken
  obtain ⟨home, filing⟩ := filed.shared
  refine ⟨filing.clean, ?_⟩
  intro thread file returns removal listed unused same
  obtain ⟨owns, knows⟩ := filed.locals thread
  rw [Task.returns.eq_def] at returns
  split at returns
  · rename_i task
    cases returns
    rw [task] at owns knows
    exact (filing.sound _).spared (.inr owns.2.state) _ knows.2 ⟨removal, listed, unused, same⟩
  · cases returns

instance [Fintype Thread] (s : Workers Thread Name) :
    (label : WorkerLabel Thread) → Decidable (QuietUnlinks size s label)
  | .thread thread move => inferInstanceAs (Decidable ((∀ path ∈ move.unlinks,
      ∀ slot < size.maxHandles, (s.shared.slots slot).Names path →
        (s.shared.slots slot).written = true) ∧ ∀ path ∈ (s.locals thread).task.wants,
      ∀ other, (s.locals other).task.unlinks ≠ some path))
  | .event event => nomatch event

/-- What a schedule shows of the removals and of the file that a thread returns a handle of. -/
def removalRecord (s : Workers Bool PathBytes) : List Removal × Option FileId :=
  (s.shared.removals, (s.locals true).task.returns)

/-- The moves of an unlink of an unused path, with one slot that is free. -/
def unlinkMoves : List WorkerMove := .unlinkCall [1] true :: List.replicate 3 .step

theorem unlink_if_unused_spares_closed : ∃ last,
    Trace (Interleaving.next (workerAct oneSlot id) workerHappen) (QuietUnlinks oneSlot) emptyStore
      ((openMoves [1] .create ++ closeMoves 1).map (.thread true) ++
        unlinkMoves.map (.thread false) ++
        ((openMoves [1] .create).take 10).map (.thread true)) last ∧
      removalRecord last = ([⟨true, 0, [], []⟩], some 1) ∧
      ∀ removal ∈ last.shared.removals, removal.ifUnused = true → removal.file ≠ 1 := by
  have separate : (⟨fun _ => none, 0⟩ : Files PathBytes).Separate := by
    constructor <;> simp
  refine Trace.of_view_and removalRecord (fun last trace seen => ?_) (by decide)
  exact (unlink_if_unused_spares Function.injective_id separate trace).2 true 1
    (congrArg Prod.snd seen)

/-- The scan has passed the free slot when an `open` of the path claims it: the file is removed
while its handle is live, or before its handle is returned. -/
theorem unused_file_of_live_handle :
    (∃ last, Trace (Interleaving.next (workerAct oneSlot id) workerHappen) Free emptyStore
      ((unlinkMoves.take 3).map (.thread false) ++ (openMoves [1] .create).map (.thread true) ++
        [.thread false .step]) last ∧
      last.shared.opened = [⟨1, 0, 1⟩] ∧ last.shared.removals = [⟨true, 0, [0], []⟩]) ∧
    ∃ last, Trace (Interleaving.next (workerAct oneSlot id) workerHappen) Free emptyStore
      ((unlinkMoves.take 3).map (.thread false) ++
        ((openMoves [1] .create).take 10).map (.thread true) ++ [.thread false .step]) last ∧
      removalRecord last = ([⟨true, 0, [], [0]⟩], some 0) := by
  refine ⟨?_, Trace.of_view removalRecord (by decide)⟩
  simp only [← Prod.mk.injEq]
  exact Trace.of_view (fun s : Workers Bool PathBytes => (s.shared.opened, s.shared.removals))
    (by decide)

end Runs
end SpaceDataModule.NodeSyncFs

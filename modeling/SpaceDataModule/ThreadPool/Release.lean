import SpaceDataModule.ThreadPool.Seats

/-! A slot that is freed from the owner's side. The state and the tid of a slot are loaded one
after the other, and the exchange that frees it compares the state alone. -/
namespace SpaceDataModule.ThreadPool
open Interleaving Transition

section Steps
variable {Thread : Type} {m after : Pool Thread}

/-- The next step of `releaseWasiThreadPoolSlotIfRunning`. -/
inductive ReleaseStep where
  | resting
  | loadState (slot : Nat) (tid : Int32)
  | loadTid (slot : Nat) (tid : Int32) (state : SlotState)
  | exchange (slot : Nat) (tid : Int32) (state : SlotState)

/-- A release that returns true, and the tid of the slot at that moment. -/
structure Freed where
  slot : Nat
  tid : Int32
  found : Int32
  deriving DecidableEq

structure Owned (Thread : Type) where
  threads : Threads Thread
  owner : ReleaseStep := .resting
  freed : List Freed := []

inductive OwnedLabel (Thread : Type) where
  | pool (label : PoolLabel Thread)
  | call (slot : Nat) (tid : Int32)
  | step

def releaseStep (s : Owned Thread) : Option (Owned Thread) :=
  match s.owner with
  | .resting => none
  | .loadState slot tid =>
    let state := (s.threads.shared.slot slot).state
    if state = .assigned ∨ state = .running then some { s with owner := .loadTid slot tid state }
    else some { s with owner := .resting }
  | .loadTid slot tid state =>
    if (s.threads.shared.slot slot).tid = tid then some { s with owner := .exchange slot tid state }
    else some { s with owner := .resting }
  | .exchange slot tid state =>
    let found := s.threads.shared.slot slot
    if found.state = state then
      let shared := s.threads.shared.setState slot { found with state := .idle }
      some {
        threads := { s.threads with shared := shared }
        owner := .resting
        freed := s.freed ++ [⟨slot, tid, found.tid⟩] }
    else some { s with owner := .loadState slot tid }

def ownedNext [DecidableEq Thread] (options : PoolOptions Thread) (s : Owned Thread) :
    OwnedLabel Thread → Option (Owned Thread)
  | .pool label => (Interleaving.next (spawnAct options) poolHappen s.threads label).map
      fun threads => { s with threads := threads }
  | .call slot tid =>
    match s.owner with
    | .resting => some { s with owner := .loadState slot tid }
    | _ => none
  | .step => releaseStep s

def SpawnTask.writes : SpawnTask → Option Nat
  | .spawning _ (.storeTid slot _) => some slot
  | _ => none

def ReleaseStep.checked : ReleaseStep → Option Nat
  | .exchange slot _ _ => some slot
  | _ => none

/-- Between the load of its tid and the exchange, a slot is given to no other thread. -/
def Unreused (s : Owned Thread) : OwnedLabel Thread → Prop
  | .pool (.thread thread _) =>
    s.owner.checked = none ∨ (s.threads.locals thread).task.writes ≠ s.owner.checked
  | _ => True

theorem setSlot_tid (kept : x.tid = (m.slot slot).tid) :
    ((m.setSlot slot x).slot other).tid = (m.slot other).tid := by
  simp only [Pool.setSlot, Function.update_apply]
  split_ifs with same
  · rw [kept, same]
  · rfl

theorem SlotStep.tid (step : SlotStep slots later none added index x y) :
    y.tid = x.tid := by
  cases step with
  | write taken => cases taken
  | _ => rfl

theorem poolHappen_tid (happened : poolHappen event m = some after) :
    (after.slot slot).tid = (m.slot slot).tid := by
  cases event with
  | arm | retire =>
    cases happened
    exact setSlot_tid rfl
  | serve =>
    have step : PoolStep none [] m after := serveStep_slots happened
    exact (step.slot slot).tid
  | fault =>
    simp only [poolHappen] at happened
    split at happened
    · cases happened
      exact setSlot_tid rfl
    · cases happened
  | bump =>
    simp only [poolHappen] at happened
    split_ifs at happened
    cases happened
    rfl

theorem spawnAct_tid (acted : spawnAct options thread move m spawner = some (after, later))
    (unwritten : spawner.task.writes ≠ some slot) :
    (after.slot slot).tid = (m.slot slot).tid := by
  simp only [spawnAct] at acted
  split at acted
  case h_2 arg step task =>
    rw [task] at unwritten
    cases step with
    | storeTid written tid =>
      cases acted
      have other : slot ≠ written := fun same => unwritten (congrArg some same.symm)
      simp only [Pool.setSlot, Function.update_of_ne other]
    | _ =>
      simp only [spawnStep] at acted
      repeat' split at acted
      all_goals cases acted <;> first | rfl | exact setSlot_tid rfl
  all_goals cases acted <;> first | rfl | exact setSlot_tid rfl

/-- A release at its exchange still has the thread it was called for, and so had each one that
returned true. -/
structure Owned.Right (s : Owned Thread) : Prop where
  owner : ∀ slot tid state, s.owner = .exchange slot tid state →
    (s.threads.shared.slot slot).tid = tid
  freed : ∀ freed ∈ s.freed, freed.found = freed.tid

theorem releaseStep_right (right : s.Right) (taken : releaseStep s = some (t : Owned Thread)) :
    t.Right := by
  simp only [releaseStep] at taken
  split at taken
  · cases taken
  · split_ifs at taken <;> cases taken <;> exact ⟨nofun, right.freed⟩
  · split_ifs at taken with same <;> cases taken
    · refine ⟨?_, right.freed⟩
      rintro _ _ _ ⟨⟩
      exact same
    · exact ⟨nofun, right.freed⟩
  · rename_i slot tid state here
    split_ifs at taken <;> cases taken
    · exact ⟨nofun, forall_mem_concat.mpr ⟨right.freed, right.owner _ _ _ here⟩⟩
    · exact ⟨nofun, right.freed⟩

variable [DecidableEq Thread] {options : PoolOptions Thread}

theorem ownedNext_right (unreused : Unreused s label) (right : s.Right)
    (taken : ownedNext options s label = some t) : t.Right := by
  cases label with
  | pool label =>
    obtain ⟨threads, moved, rfl⟩ := Option.map_eq_some_iff.mp taken
    refine ⟨fun slot tid state here => ?_, right.freed⟩
    rw [← right.owner slot tid state here]
    cases label with
    | thread thread move =>
      obtain ⟨after, acted, rfl⟩ := Option.map_eq_some_iff.mp moved
      rw [Unreused, here] at unreused
      exact spawnAct_tid acted (unreused.resolve_left nofun)
    | event event =>
      obtain ⟨after, happened, rfl⟩ := Option.map_eq_some_iff.mp moved
      exact poolHappen_tid happened
  | call slot tid =>
    simp only [ownedNext] at taken
    split at taken <;> cases taken
    exact ⟨nofun, right.freed⟩
  | step => exact releaseStep_right right taken

/-- A release that returns true has freed the thread it was called for, unless the slot was given
to another one under it. -/
theorem release_frees_own_thread
    (trace : Trace (ownedNext options) Unreused ⟨poolInitial opened, .resting, []⟩ labels last) :
    ∀ freed ∈ last.freed, freed.found = freed.tid :=
  have right : last.Right := trace.invariant ⟨nofun, nofun⟩
    fun _ _ _ unreused taken right => ownedNext_right unreused right taken
  right.freed

end Steps

instance (s : Owned Bool) : DecidablePred (Unreused s) := fun label => by
  unfold Unreused
  split <;> infer_instance

/-- A slot is armed and runs its first thread, which the owner finds there. -/
def firstFound : List (OwnedLabel Bool) :=
  [.pool (.event (.arm 0))] ++ (spawnMoves 7).map (.pool ∘ .thread true) ++
    List.replicate 2 (.pool (.event (.serve 0))) ++ [.call 0 1, .step, .step]

theorem release_frees_own_thread_running : ∃ last,
    Trace (ownedNext onePool) Unreused ⟨poolInitial 1, .resting, []⟩ (firstFound ++ [.step]) last ∧
      last.freed = [⟨0, 1, 1⟩] ∧ ∀ freed ∈ last.freed, freed.found = freed.tid :=
  Trace.of_view_and Owned.freed (fun _ trace _ => release_frees_own_thread trace) (by decide)

/-- The thread ends, the slot is given to the next one, and the exchange finds the same state. -/
theorem other_thread_freed : ∃ last,
    Trace (ownedNext onePool) Free ⟨poolInitial 1, .resting, []⟩ (firstFound ++
      List.replicate 4 (.pool (.event (.serve 0))) ++ (spawnMoves 8).map (.pool ∘ .thread false) ++
      List.replicate 2 (.pool (.event (.serve 0))) ++ [.step]) last ∧
      last.freed = [⟨0, 1, 2⟩] :=
  Trace.of_view Owned.freed (by decide)

end SpaceDataModule.ThreadPool

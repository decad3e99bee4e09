import SpaceDataModule.FlatsqlIoServer.Sharing

/-! Revocation is final. Requests that wait for a step are refused there. What is in the chain
of a path is not checked again, nor is a removal that `DELETE_ON_CLOSE` asked for; `fine` says
for whom such operations may still be run. -/
namespace SpaceDataModule.FlatsqlIoServer
open FlatsqlIo Transition

section Clean
variable {Path : Type}

def Job.IsOpen (job : Job Path) : Prop := ∃ flags path, job.operation = .open flags path

def Task.owners : Task Path → List Owner
  | .open _ _ owner => owner.toList
  | .probe _ => []
  | .remove job => [job.owner]
  | .removeReleased _ owners => owners

/-- The request it answers, if any, is an `OPEN`. -/
def Task.AnswersOpen : Task Path → Prop
  | .probe job | .remove job => job.IsOpen
  | .open _ _ _ | .removeReleased _ _ => True

structure Task.Fine (fine : Owner → Prop) (task : Task Path) : Prop where
  opens : task.AnswersOpen
  owners : ∀ owner ∈ task.owners, fine owner

def Files.MayDelete (files : Files Path) (entry : Nat) : Prop :=
  (files.heap entry).opening = true ∨ (files.heap entry).openStatus = 0 ∧
    (files.Current entry ∨ 0 < (files.heap entry).refs ∨ 0 < (files.heap entry).pins)
  deriving Decidable

structure Clean (fine : Owner → Prop) (files : Files Path) (queue : List (Path × Task Path)) :
    Prop where
  tasks : ∀ path task, (path, task) ∈ queue → task.Fine fine
  deleters : ∀ entry, ∀ owner ∈ (files.heap entry).deleters,
    entry < files.allocated ∧ (files.MayDelete entry → fine owner)

namespace Clean
variable {fine wider : Owner → Prop} {files : Files Path} {queue : List (Path × Task Path)}

theorem initial [Inhabited Path] : Clean fine (initial : Server Path).files [] where
  tasks := nofun
  deleters := nofun

section
variable (clean : Clean fine files queue)
include clean

theorem mono (wide : ∀ owner, fine owner → wider owner) :
    Clean wider files queue where
  tasks path task member := by
    obtain ⟨opens, owners⟩ := clean.tasks path task member
    exact ⟨opens, fun owner asked => wide owner (owners owner asked)⟩
  deleters entry owner member := by
    obtain ⟨bound, asked⟩ := clean.deleters entry owner member
    exact ⟨bound, fun may => wide owner (asked may)⟩

theorem chained (fits : task.Fine fine) :
    Clean fine files (queue ++ [(path, task)]) where
  tasks := by
    intro named other member
    rcases List.mem_append.mp member with before | added
    · exact clean.tasks named other before
    · cases List.mem_singleton.mp added
      exact fits
  deleters := clean.deleters

/-- Fewer entries can be deleted, on the word of the same requests. -/
theorem shrink (allocated : files.allocated ≤ after.allocated)
    (deleters : ∀ entry, (after.heap entry).deleters = (files.heap entry).deleters)
    (may : ∀ entry, after.MayDelete entry → files.MayDelete entry) :
    Clean fine after queue where
  tasks := clean.tasks
  deleters := by
    intro entry owner member
    rw [deleters] at member
    obtain ⟨bound, asked⟩ := clean.deleters entry owner member
    exact ⟨bound.trans_le allocated, fun deletes => asked (may entry deletes)⟩

/-- A handle for a request that may still act. -/
theorem granted (grants : files.Granted entry owner flags after) (bound : entry < files.allocated)
    (fits : fine owner) (own : ∀ asker ∈ (files.heap entry).deleters, fine asker) :
    Clean fine after queue := by
  have alike := Alike.granted grants
  have allocated := (Steady.granted (s := { files, queue }) grants).allocated
  refine ⟨clean.tasks, fun other asker member => ?_⟩
  by_cases same : other = entry
  · subst same
    refine ⟨bound.trans_eq allocated.symm, fun _ => ?_⟩
    rcases grants.mem_deleters member with before | rfl
    · exact own asker before
    · exact fits
  · rw [grants.of_ne same] at member
    obtain ⟨below, asked⟩ := clean.deleters other asker member
    refine ⟨below.trans_eq allocated.symm, fun may => asked ?_⟩
    unfold Files.MayDelete at may ⊢
    rwa [alike.current grants.entries, grants.of_ne same] at may

theorem modified (asked : ∀ e, (change e).deleters = e.deleters)
    (may : (files.modify entry change).MayDelete entry → files.MayDelete entry) :
    Clean fine (files.modify entry change) queue := by
  apply clean.shrink
  · exact Nat.le_refl _
  · intro other
    exact Files.modify_kept Entry.deleters change (asked _)
  · intro other deletes
    by_cases same : other = entry
    · subst same
      exact may deletes
    · unfold Files.MayDelete Files.Current at deletes ⊢
      rwa [Files.modify_of_ne same] at deletes

/-- Another count of pins, larger only where the entry could be deleted before. -/
theorem pins (count : Nat → Nat)
    (may : (files.heap entry).openStatus = 0 → 0 < count (files.heap entry).pins → files.MayDelete entry) :
    Clean fine (files.modify entry fun e => { e with pins := count e.pins }) queue := by
  refine clean.modified (fun _ => rfl) fun deletes => ?_
  unfold Files.MayDelete Files.Current at deletes
  rw [Files.modify_self] at deletes
  rcases deletes with opening | ⟨succeeded, current | held | pinned⟩
  · exact .inl opening
  · exact .inr ⟨succeeded, .inl current⟩
  · exact .inr ⟨succeeded, .inr (.inl held)⟩
  · exact may succeeded pinned

theorem parkOnEntry (entry : Nat) (job : Job Path) :
    Clean fine (files.modify entry fun e => { e with waiters := e.waiters ++ [job] }) queue := by
  refine clean.modified (fun _ => rfl) fun may => ?_
  unfold Files.MayDelete Files.Current at may
  rwa [Files.modify_self] at may

end

section Tables
variable [DecidableEq Path]

section
variable (clean : Clean fine files queue)
include clean

theorem popped (taken : KeyedQueue.pop path queue = some (task, rest)) :
    task.Fine fine ∧ Clean fine files rest := by
  have same := KeyedQueue.pop_perm taken
  refine ⟨clean.tasks path task (same.mem_iff.mpr List.mem_cons_self), ?_, clean.deleters⟩
  intro named other member
  exact clean.tasks named other (same.mem_iff.mpr (List.mem_cons_of_mem _ member))

theorem detach : Clean fine (files.detach entry) queue := by
  have alike : Alike files (files.detach entry) := .detach
  apply clean.shrink
  · exact Nat.le_refl _
  · intro other
    exact Files.detach_kept Entry.deleters fun _ _ => rfl
  · intro other may
    unfold Files.MayDelete at may ⊢
    rw [alike.opening, alike.openStatus, Files.detach_kept Entry.refs fun _ _ => rfl,
      Files.detach_kept Entry.pins fun _ _ => rfl] at may
    rcases may with opening | ⟨succeeded, current | held⟩
    · exact .inl opening
    · refine .inr ⟨succeeded, .inl ?_⟩
      unfold Files.Current at current
      rw [alike.path] at current
      exact (Files.detach_entries.mp current).1
    · exact .inr ⟨succeeded, .inr held⟩

theorem forget : Clean fine (files.forget path) queue := by
  apply clean.shrink
  · exact Nat.le_refl _
  · intro _
    rfl
  · rintro other (opening | ⟨succeeded, current | held⟩)
    · exact .inl opening
    · exact .inr ⟨succeeded, .inl (Files.forget_entries.mp current).1⟩
    · exact .inr ⟨succeeded, .inr held⟩

theorem insert (vacant : files.entries path = none) :
    Clean fine (files.insert path) queue where
  tasks := clean.tasks
  deleters := by
    intro other owner member
    have old : other ≠ files.allocated := by
      rintro rfl
      rw [Files.insert_self] at member
      cases member
    rw [Files.insert_of_ne old] at member
    obtain ⟨bound, asked⟩ := clean.deleters other owner member
    refine ⟨Nat.lt_succ_of_lt bound, fun may => asked ?_⟩
    unfold Files.MayDelete at may ⊢
    rwa [Sound.current_insert vacant old, Files.insert_of_ne old] at may

end

end Tables
end Clean
end Clean

section Steps
variable {Path : Type} [DecidableEq Path] {s : Server Path}

namespace Clean
variable {fine : Owner → Prop}

section
variable (clean : Clean fine s.files s.queue)
include clean

theorem releaseEntry
    (own : (s.files.heap entry).openStatus = 0 → ∀ asker ∈ (s.files.heap entry).deleters, fine asker) :
    Clean fine (s.releaseEntry entry).files (s.releaseEntry entry).queue := by
  unfold Server.releaseEntry
  dsimp only
  split_ifs with used deletes
  · exact clean
  · exact clean.detach.chained ⟨trivial, own deletes.2⟩
  · exact clean.detach

theorem openFresh (fits : fine job.owner) (vacant : s.files.entries path = none) :
    Clean fine (s.openFresh job flags path).files (s.openFresh job flags path).queue := by
  have queued : Task.Fine fine (.open s.files.allocated flags (some job.owner) : Task Path) := by
    refine ⟨trivial, fun asker member => ?_⟩
    cases List.mem_singleton.mp member
    exact fits
  have opened : Clean fine (s.files.insert path)
      (s.queue ++ [(path, .open s.files.allocated flags (some job.owner))]) :=
    (clean.insert vacant).chained queued
  unfold Server.openFresh
  split_ifs
  · refine opened.granted (addHandle_cases ..) (Nat.lt_succ_self _) fits fun asker member => ?_
    rw [Files.insert_self] at member
    cases member
  · exact opened.parkOnEntry _ _

section
variable (counted : Counted s.files)
include counted

theorem closeHandle (member : handle ∈ s.files.handles) :
    Clean fine (s.closeHandle handle).files (s.closeHandle handle).queue := by
  have alike : Alike s.files (s.files.dropHandle handle) := .dropHandle
  have same (other : Nat) : ((s.files.dropHandle handle).heap other).deleters =
      (s.files.heap other).deleters :=
    Files.modify_kept Entry.deleters (fun e => { e with refs := e.refs - 1 }) rfl
  have fewer (other : Nat) : ((s.files.dropHandle handle).heap other).refs ≤
      (s.files.heap other).refs := by
    by_cases equal : other = handle.entry
    · subst equal
      rw [Files.dropHandle, Files.modify_self]
      exact Nat.sub_le ..
    · rw [Files.dropHandle, Files.modify_of_ne equal]
  unfold Server.closeHandle
  split_ifs
  · apply Clean.releaseEntry
    · apply clean.shrink
      · exact Nat.le_refl _
      · exact same
      · rintro other (opening | ⟨succeeded, current | held | pinned⟩)
        · exact .inl (alike.opening other ▸ opening)
        · exact .inr ⟨alike.openStatus other ▸ succeeded, .inl ((alike.current rfl).mp current)⟩
        · exact .inr ⟨alike.openStatus other ▸ succeeded,
            .inr (.inl (held.trans_le (fewer other)))⟩
        · rw [Files.dropHandle, Files.modify_kept Entry.pins _ rfl] at pinned
          exact .inr ⟨alike.openStatus other ▸ succeeded, .inr (.inr pinned)⟩
    · intro succeeded asker asked
      rw [alike.openStatus] at succeeded
      rw [same] at asked
      exact (clean.deleters _ asker asked).2
        (.inr ⟨succeeded, .inr (.inl (counted.refs_pos member))⟩)
  · exact clean

theorem jobStep (fits : s.Admits settings job → fine job.owner)
    (taken : JobStep settings s job t) : Clean fine t.files t.queue := by
  have removal {flags : Flags} {path : Path} (admits : s.Admits settings job)
      (operation : job.operation = .open flags (.ok path)) :
      Task.Fine fine (.remove job : Task Path) := by
    refine ⟨⟨flags, .ok path, operation⟩, fun asker member => ?_⟩
    cases List.mem_singleton.mp member
    exact fits admits
  have own {path : Path} {entry : Nat} (indexed : s.files.entries path = some entry)
      (unfailed : (s.files.heap entry).Unfailed) :
      ∀ asker ∈ (s.files.heap entry).deleters, fine asker := by
    intro asker member
    apply (clean.deleters entry asker member).2
    rcases unfailed with opening | succeeded
    · exact .inl opening
    · exact .inr ⟨succeeded, .inl (counted.current indexed)⟩
  cases taken with
  | completes | continues | writes | writesOn => exact clean
  | parks => exact clean.parkOnEntry _ job
  | probes _ operation => exact clean.chained ⟨⟨_, _, operation⟩, nofun⟩
  | removes admits operation => exact clean.chained (removal admits operation)
  | @unpins flags path entry admits operation indexed settled free =>
    refine Clean.chained (Clean.releaseEntry (clean.pins (fun _ => 0) ?_) ?_)
      (removal admits operation)
    · intro _ positive
      cases positive
    · intro succeeded
      rw [Files.modify_self] at succeeded ⊢
      exact own indexed (.inr succeeded)
  | joins admits _ indexed unfailed | truncates admits _ indexed unfailed =>
    exact clean.granted (addHandle_cases ..) (counted.indexed _ _ indexed).1 (fits admits)
      (own indexed unfailed)
  | opens admits _ vacant => exact clean.openFresh (fits admits) vacant
  | reopens admits =>
    exact Clean.openFresh clean.forget (fits admits) (Function.update_self ..)
  | closes _ member => exact clean.closeHandle counted member

theorem applyRevocation :
    Clean fine (s.applyRevocation instanceId).files (s.applyRevocation instanceId).queue := by
  have closed : Counted (s.applyRevocation instanceId).files ∧
      Clean fine (s.applyRevocation instanceId).files (s.applyRevocation instanceId).queue := by
    apply closeAll_induction (P := fun t => Counted t.files ∧ Clean fine t.files t.queue)
      ⟨counted, clean⟩
    rintro t handle ⟨counted, clean⟩ member - -
    exact ⟨counted.closeHandle member, clean.closeHandle counted member⟩
  exact closed.2

end

theorem settleEntry (bound : entry < s.files.allocated)
    (opening : (s.files.heap entry).opening = true)
    (fits : ∀ job ∈ (s.files.heap entry).waiters, job.phase = .creator entry → job.IsOpen →
      s.instances.isRevoked settings job.instanceId = false → fine job.owner) :
    Clean fine (s.settleEntry settings entry status).files
      (s.settleEntry settings entry status).queue := by
  have asked : ∀ asker ∈ (s.files.heap entry).deleters, fine asker := fun asker member =>
    (clean.deleters entry asker member).2 (.inl opening)
  apply settleEntry_induction (Q := fun t => Clean fine t.files t.queue)
    (P := fun t => Clean fine t.files t.queue ∧ t.instances = s.instances ∧
      entry < t.files.allocated ∧ ∀ asker ∈ (t.files.heap entry).deleters, fine asker)
  · refine ⟨clean.modified (fun _ => rfl) fun _ => .inl opening, rfl, bound, ?_⟩
    rw [Files.modify_self]
    exact asked
  · rintro t u job waiting woken ⟨clean, instances, bound, own⟩
    cases woken with
    | again | refused => exact ⟨clean, instances, bound, own⟩
    | @granted flags path result operation creator _ unrevoked =>
      have grants := addHandle_cases t.files entry job.owner flags
      rw [instances] at unrevoked
      have fit := fits job waiting creator ⟨flags, path, operation⟩ unrevoked
      refine ⟨clean.granted grants bound fit own, instances, ?_, ?_⟩
      · exact bound.trans_eq (Steady.granted grants).allocated.symm
      · intro asker member
        rcases grants.mem_deleters member with before | rfl
        · exact own asker before
        · exact fit
  · rintro t ⟨clean, -, -, own⟩
    unfold Server.sweep
    dsimp only
    split_ifs
    · exact clean.forget
    · exact clean.releaseEntry fun _ => own
    · exact clean

end

end Clean
end Steps

section Jobs
variable {Path : Type} {s : Server Path}

/-- A request that `REVOKED` was stored for, and that waits for a step, finds it stored. -/
def Instances.Stopped (instances : Instances) (job : Job Path) : Prop :=
  job.Waiting → instances.Sealed job.owner → instances.SealedNow job.instanceId

theorem stopped_of_answered {instances : Instances} {job : Job Path} (opens : job.IsOpen) :
    instances.Stopped { job with phase := .answered result } := by
  obtain ⟨flags, path, operation⟩ := opens
  intro waiting
  unfold Job.Waiting Job.answered at waiting
  rw [operation] at waiting
  cases waiting

structure Refused (s : Server Path) : Prop where
  ring : ∀ job ∈ s.ring, s.instances.Stopped job
  ready : ∀ job ∈ s.ready, s.instances.Stopped job
  waiters : ∀ entry, ∀ job ∈ (s.files.heap entry).waiters,
    entry < s.files.allocated ∧ s.instances.Stopped job

namespace Refused

theorem initial [Inhabited Path] : Refused (initial : Server Path) where
  ring := nofun
  ready := nofun
  waiters := nofun

end Refused

structure Calm (s t : Server Path) : Prop where
  instances : t.instances = s.instances
  ring : t.ring = s.ring
  ready : t.ready = s.ready
  effects : t.effects = s.effects
  allocated : t.files.allocated = s.files.allocated
  waiters : ∀ entry, (t.files.heap entry).waiters = (s.files.heap entry).waiters

namespace Calm

theorem refl (s : Server Path) : Calm s s := ⟨rfl, rfl, rfl, rfl, rfl, fun _ => rfl⟩

theorem trans (first : Calm s t) (second : Calm t u) : Calm s u where
  instances := second.instances.trans first.instances
  ring := second.ring.trans first.ring
  ready := second.ready.trans first.ready
  effects := second.effects.trans first.effects
  allocated := second.allocated.trans first.allocated
  waiters entry := (second.waiters entry).trans (first.waiters entry)

theorem granted (grants : s.files.Granted entry owner flags files) : Calm s { s with files } :=
  ⟨rfl, rfl, rfl, rfl, (Steady.granted grants).allocated, (Alike.granted grants).waiters⟩

theorem pins (count : Nat → Nat) :
    Calm s { s with files := s.files.modify entry fun e => { e with pins := count e.pins } } :=
  ⟨rfl, rfl, rfl, rfl, rfl, (Alike.pins count).waiters⟩

end Calm

namespace Refused

section
variable (refused : Refused s)
include refused

theorem calm (calm : Calm s t) : Refused t := by
  obtain ⟨instances, ring, ready, _, allocated, waiters⟩ := calm
  constructor
  · rw [instances, ring]
    exact refused.ring
  · rw [instances, ready]
    exact refused.ready
  · intro entry
    rw [instances, allocated, waiters]
    exact refused.waiters entry

theorem pins (count : Nat → Nat) :
    Refused { s with
      files := s.files.modify entry fun e => { e with pins := count e.pins }, awaiting } := by
  have pinned : Refused { s with
      files := s.files.modify entry fun e => { e with pins := count e.pins } } :=
    refused.calm (.pins count)
  exact { pinned with }

theorem chained : Refused (s.chainPath path task) :=
  { refused with }

theorem push (stopped : s.instances.Stopped job) :
    Refused { s with ready := s.ready ++ [job] } :=
  { refused with ready := forall_mem_concat.mpr ⟨refused.ready, stopped⟩ }

theorem park (bound : entry < s.files.allocated) (stopped : s.instances.Stopped job) :
    Refused (s.parkOnEntry job entry) where
  ring := refused.ring
  ready := refused.ready
  waiters := by
    intro other waiter member
    unfold Server.parkOnEntry at member
    by_cases same : other = entry
    · subst same
      rw [Files.modify_self] at member
      exact forall_mem_concat.mpr ⟨refused.waiters other, ⟨bound, stopped⟩⟩ waiter member
    · rw [Files.modify_of_ne same] at member
      exact refused.waiters other waiter member

theorem perform : Refused (s.perform path task) := by
  cases task with
  | «open» entry flags owner =>
    unfold Server.perform
    dsimp only
    split_ifs <;> exact { refused with }
  | probe | remove | removeReleased => exact { refused with }

theorem storeRevoked : Refused { s with instances := s.instances.storeRevoked instanceId } := by
  have stays (job : Job Path) (stopped : s.instances.Stopped job) :
      (s.instances.storeRevoked instanceId).Stopped job := by
    intro waiting sealed
    apply Shared.sealedNow_storeRevoked
    by_cases own : job.instanceId = instanceId
    · exact .inr own
    · refine .inl (stopped waiting ?_)
      simpa [Instances.Sealed, Instances.storeRevoked, Job.owner, own] using sealed
  constructor
  · exact fun job member => stays job (refused.ring job member)
  · exact fun job member => stays job (refused.ready job member)
  · intro entry job member
    obtain ⟨bound, stopped⟩ := refused.waiters entry job member
    exact ⟨bound, stays job stopped⟩

end

end Refused

variable [DecidableEq Path]

namespace Calm

theorem releaseEntry : Calm s (s.releaseEntry entry) := by
  have steady : Steady s (s.releaseEntry entry) := .releaseEntry
  have same : (s.releaseEntry entry).ring = s.ring ∧ (s.releaseEntry entry).ready = s.ready ∧
      (s.releaseEntry entry).effects = s.effects := by
    unfold Server.releaseEntry
    dsimp only
    split_ifs <;> exact ⟨rfl, rfl, rfl⟩
  exact ⟨steady.instances, same.1, same.2.1, same.2.2, steady.allocated,
    releaseEntry_kept Entry.waiters fun _ _ => rfl⟩

theorem closeHandle : Calm s (s.closeHandle handle) := by
  have dropped : Calm s { s with files := s.files.dropHandle handle } :=
    ⟨rfl, rfl, rfl, rfl, rfl, Alike.dropHandle.waiters⟩
  unfold Server.closeHandle
  split_ifs
  · exact dropped.trans releaseEntry
  · exact .refl s

theorem closeAll : Calm s ((s.owned instanceId).foldl Server.closeId s) := by
  apply closeAll_induction
  · exact .refl s
  · intro t handle calm _ _ _
    exact calm.trans closeHandle

theorem sweep : Calm s (s.sweep entry status) := by
  unfold Server.sweep
  dsimp only
  split_ifs
  · exact ⟨rfl, rfl, rfl, rfl, rfl, fun _ => rfl⟩
  · exact releaseEntry
  · exact .refl s

end Calm

namespace Refused
variable (refused : Refused s)
include refused

theorem startOpen :
    Refused (s.startOpen path flags owner) where
  ring := refused.ring
  ready := refused.ready
  waiters := by
    intro other waiter member
    unfold Server.startOpen Server.chainPath at member
    have old : other ≠ s.files.allocated := by
      rintro rfl
      rw [Files.insert_self] at member
      cases member
    rw [Files.insert_of_ne old] at member
    obtain ⟨bound, stopped⟩ := refused.waiters other waiter member
    exact ⟨Nat.lt_succ_of_lt bound, stopped⟩

theorem openFresh (unsealed : ¬ s.instances.Sealed job.owner) :
    Refused (s.openFresh job flags path) := by
  have opened : Refused (s.startOpen path flags (some job.owner)) := refused.startOpen
  unfold Server.openFresh
  split_ifs
  · have joined := opened.calm (.granted (addHandle_cases _ s.files.allocated job.owner flags))
    exact { joined with }
  · exact opened.park (Nat.lt_succ_self _) fun _ sealed => absurd sealed unsealed

theorem jobStep (counted : Counted s.files)
    (fits : s.Admits settings job → ¬ s.instances.Sealed job.owner)
    (taken : JobStep settings s job t) : Refused t := by
  have stopped (admits : s.Admits settings job) {done : Nat} :
      s.instances.Stopped { job with done } :=
    fun _ sealed => absurd sealed (fits admits)
  cases taken with
  | completes | probes | removes | writes => exact { refused with }
  | continues _ admits => exact refused.push (stopped admits)
  | writesOn path _ admits =>
    have written : Refused (s.affect path .written [job.owner]) :=
      { refused with }
    exact written.push (stopped admits)
  | parks admits refers =>
    refine refused.park ?_ (stopped admits)
    rcases refers with ⟨path, indexed⟩ | ⟨handle, member, rfl⟩
    · exact (counted.indexed path _ indexed).1
    · exact counted.handled handle member
  | unpins => exact Refused.chained (refused.calm ((Calm.pins fun _ => 0).trans .releaseEntry))
  | @joins flags path entry | @truncates flags path entry =>
    have joined := refused.calm (.granted (addHandle_cases s.files entry job.owner flags))
    exact { joined with }
  | opens admits => exact refused.openFresh (fits admits)
  | @reopens flags path _ admits =>
    have forgotten : Refused { s with files := s.files.forget path } :=
      { refused with }
    exact forgotten.openFresh (fits admits)
  | @closes handle =>
    have closed : Refused (s.closeHandle handle) := refused.calm .closeHandle
    exact { closed with }

theorem settleEntry : Refused (s.settleEntry settings entry status) := by
  apply settleEntry_induction (Q := Refused)
    (P := fun t => Refused t ∧ t.instances = s.instances)
  · refine ⟨⟨refused.ring, refused.ready, ?_⟩, rfl⟩
    intro other job member
    by_cases same : other = entry
    · subst same
      rw [Files.modify_self] at member
      cases member
    · rw [Files.modify_of_ne same] at member
      exact refused.waiters other job member
  · rintro t u job waiting woken ⟨refused', instances⟩
    have stopped : t.instances.Stopped job := instances ▸ (refused.waiters entry job waiting).2
    cases woken with
    | again => exact ⟨refused'.push stopped, instances⟩
    | refused _ operation =>
      exact ⟨refused'.push (stopped_of_answered ⟨_, _, operation⟩), instances⟩
    | @granted flags _ _ operation =>
      have joined := refused'.calm (.granted (addHandle_cases t.files entry job.owner flags))
      exact ⟨joined.push (stopped_of_answered ⟨_, _, operation⟩), instances⟩
  · rintro t ⟨refused', -⟩
    exact refused'.calm .sweep

theorem concluded (fits : task.Fine fine) (concludes : Concluded settings s task t) :
    Refused t := by
  cases concludes with
  | settled => exact refused.settleEntry
  | probed | removed => exact refused.push (stopped_of_answered fits.opens)
  | released => exact refused

end Refused
end Jobs

section Runs
variable {Path : Type} [DecidableEq Path] {s : Server Path}

/-- When `REVOKED` is stored for an instance, no open or removal for one of its requests is
queued or running and no file is to be deleted for it; and the id is not reset while a request
that this stopped still waits to be refused. -/
def Quiet (s : Server Path) : Label Path → Prop
  | .applyRevocation instanceId =>
    (∀ item ∈ s.queue, ∀ owner ∈ item.2.owners, owner.instanceId ≠ instanceId) ∧
      ∀ entry < s.files.allocated, s.files.MayDelete entry →
        ∀ owner ∈ (s.files.heap entry).deleters, owner.instanceId ≠ instanceId
  | .reset instanceId =>
    (∀ job ∈ s.ring ++ s.ready, job.Waiting → s.instances.Sealed job.owner →
      job.instanceId ≠ instanceId) ∧
      ∀ entry < s.files.allocated, ∀ job ∈ (s.files.heap entry).waiters, job.Waiting →
        s.instances.Sealed job.owner → job.instanceId ≠ instanceId
  | _ => True

instance : ∀ label : Label Path, Decidable (Quiet s label)
  | .applyRevocation _ | .reset _ => inferInstanceAs (Decidable (_ ∧ _))
  | .post _ | .scan _ | .run _ | .start _ | .act _ | .finish _ _ | .preopen _ _ | .resume _
  | .releasePreopen _ | .revoke _ | .attach _ _ | .detach _ _ => .isTrue trivial

structure Final (settings : Settings) (s : Server Path) : Prop where
  booked : Booked s
  guarded : Guarded settings s.instances
  clean : Clean (fun owner => ¬ s.instances.Sealed owner) s.files s.queue
  refused : Refused s
  timely : ∀ effect ∈ s.effects, effect.late = false

section Effects

section
variable (timely : ∀ effect ∈ s.effects, effect.late = false)
include timely

omit [DecidableEq Path] in
theorem timely_affect (unsealed : ∀ owner ∈ owners, ¬ s.instances.Sealed owner) :
    ∀ effect ∈ (s.affect path kind owners).effects, effect.late = false := by
  refine forall_mem_concat.mpr ⟨timely, ?_⟩
  simpa using unsealed

omit [DecidableEq Path] in
theorem timely_perform (fits : task.Fine fun owner => ¬ s.instances.Sealed owner) :
    ∀ effect ∈ (s.perform path task).effects, effect.late = false := by
  cases task with
  | «open» entry flags owner =>
    unfold Server.perform
    dsimp only
    split_ifs
    · exact timely_affect (timely_affect timely fits.owners) fits.owners
    · exact timely_affect timely fits.owners
    · exact timely_affect timely fits.owners
    · exact timely
  | probe job => exact timely
  | remove job | removeReleased entry owners => exact timely_affect timely fits.owners

theorem timely_jobStep (fits : s.Admits settings job → ¬ s.instances.Sealed job.owner)
    (taken : JobStep settings s job t) : ∀ effect ∈ t.effects, effect.late = false := by
  have unsealed (admits : s.Admits settings job) :
      ∀ owner ∈ [job.owner], ¬ s.instances.Sealed owner := by
    intro owner member
    exact List.mem_singleton.mp member ▸ fits admits
  have fresh (u : Server Path) {flags : Flags} {path : Path} :
      (u.openFresh job flags path).effects = u.effects := by
    unfold Server.openFresh
    split_ifs <;> rfl
  cases taken with
  | completes | parks | probes | removes | joins | continues => exact timely
  | truncates admits | writes _ _ _ admits | writesOn _ _ admits =>
    exact timely_affect timely (unsealed admits)
  | unpins =>
    unfold Server.chainPath
    rw [Calm.releaseEntry.effects]
    exact timely
  | opens | reopens =>
    rw [fresh]
    exact timely
  | @closes handle =>
    have same : (s.closeHandle handle).effects = s.effects := Calm.closeHandle.effects
    exact same ▸ timely

end

theorem effects_concluded (concludes : Concluded settings s task t) : t.effects = s.effects := by
  cases concludes with
  | settled =>
    apply settleEntry_induction (P := fun t => t.effects = s.effects)
      (Q := fun t => t.effects = s.effects)
    · rfl
    · intro _ _ _ _ woken same
      cases woken with
      | again | refused | granted => exact same
    · intro t same
      exact (Calm.sweep (s := t)).effects.trans same
  | probed | removed | released => rfl

end Effects

namespace Final

omit [DecidableEq Path] in
theorem initial [Inhabited Path] : Final settings (initial : Server Path) where
  booked := .initial
  guarded := .initial
  clean := .initial
  refused := .initial
  timely := nofun

section
variable (final : Final settings s)
include final

omit [DecidableEq Path] in
/-- A step that gets past the check is one for a request that was not stopped. -/
theorem unsealed (stopped : s.instances.Stopped job) (admits : s.Admits settings job) :
    ¬ s.instances.Sealed job.owner := by
  intro sealed
  have revoked := final.guarded.isRevoked (stopped admits.waiting sealed)
  rw [admits.unrevoked] at revoked
  cases revoked

omit [DecidableEq Path] in
theorem unsealed_first (first : s.ready = job :: ready)
    (admits : Server.Admits settings { s with ready } job) : ¬ s.instances.Sealed job.owner :=
  final.unsealed (final.refused.ready job (first ▸ List.mem_cons_self))
    ⟨admits.waiting, admits.unrevoked⟩

theorem clean_next (admitted : Quiet s label) (taken : next settings s label = some t) :
    Clean (fun owner => ¬ t.instances.Sealed owner) t.files t.queue := by
  have counted := final.booked.counted
  have clean := final.clean
  have own {path : Path} {entry : Nat} (indexed : s.files.entries path = some entry)
      (succeeded : (s.files.heap entry).openStatus = 0) : s.files.MayDelete entry :=
    .inr ⟨succeeded, .inl (counted.current indexed)⟩
  cases next_cases taken with
  | post | scan | start | rests | revoke | reset | attach | detach => exact clean
  | act =>
    rw [perform_kept.1, perform_kept.2.1, perform_kept.2.2]
    exact clean
  | @run _ job ready _ first stepped =>
    rw [instances_jobStep stepped]
    exact Clean.jobStep (s := { s with ready }) clean counted (final.unsealed_first first) stepped
  | finish popped concludes =>
    rw [instances_concluded concludes]
    obtain ⟨-, left⟩ := clean.popped popped
    cases concludes with
    | settled entry flags owner status =>
      have queued := (pending_of_pop popped).mem_iff.mpr List.mem_cons_self
      obtain ⟨bound, opening, -⟩ := final.booked.opens _ _ queued
      refine Clean.settleEntry left bound opening fun job waits creator opens unrevoked => ?_
      obtain ⟨flags, path, operation⟩ := opens
      have waiting : job.Waiting := by
        unfold Job.Waiting Job.answered
        rw [operation, creator]
      exact final.unsealed (final.refused.waiters entry job waits).2 ⟨waiting, unrevoked⟩
    | probed | removed | released => exact left
  | @preopens path flags vacant =>
    have opened : Clean (fun owner => ¬ s.instances.Sealed owner) (s.files.insert path)
        (s.queue ++ [(path, .open s.files.allocated (flags &&& ~~~Flags.openDeferred) none)]) :=
      (clean.insert vacant).chained ⟨trivial, nofun⟩
    refine opened.pins (· + 1) fun _ _ => .inl ?_
    rw [Files.insert_self]
  | pins indexed =>
    exact clean.pins (· + 1) fun succeeded _ => own indexed succeeded
  | unpins _ failed =>
    exact clean.pins (· - 1) fun succeeded _ => absurd succeeded failed.ne
  | releases indexed =>
    rw [Steady.releaseEntry.instances]
    refine Clean.releaseEntry
      (clean.pins (· - 1) fun succeeded _ => own indexed succeeded) fun succeeded => ?_
    rw [Files.modify_self] at succeeded ⊢
    exact fun asker asked => (clean.deleters _ asker asked).2 (own indexed succeeded)
  | @applyRevocation instanceId =>
    rw [instances_applyRevocation]
    -- Nothing is left to be done for the instance itself.
    have others : Clean (fun owner => ¬ s.instances.Sealed owner ∧
        owner.instanceId ≠ instanceId) s.files s.queue := by
      constructor
      · intro path task member
        obtain ⟨opens, owners⟩ := clean.tasks path task member
        exact ⟨opens, fun owner asked =>
          ⟨owners owner asked, admitted.1 (path, task) member owner asked⟩⟩
      · intro entry owner asked
        obtain ⟨bound, unsealed⟩ := clean.deleters entry owner asked
        exact ⟨bound, fun may => ⟨unsealed may, admitted.2 entry bound may owner asked⟩⟩
    refine (others.applyRevocation counted).mono fun owner holds => ?_
    simpa [Instances.Sealed, Instances.storeRevoked, holds.2] using holds.1

theorem refused_next (admitted : Quiet s label) (taken : next settings s label = some t) :
    Refused t := by
  have refused := final.refused
  cases next_cases taken with
  | start | rests | revoke | attach | detach =>
    exact { refused with }
  | post request =>
    exact ⟨forall_mem_concat.mpr ⟨refused.ring, fun _ sealed => sealed⟩, refused.ready,
      refused.waiters⟩
  | @scan index job found =>
    refine ⟨fun other member => refused.ring other (List.mem_of_mem_eraseIdx member), ?_,
      refused.waiters⟩
    exact forall_mem_concat.mpr ⟨refused.ready, refused.ring job (List.mem_of_getElem? found)⟩
  | act => exact refused.perform
  | @run _ job ready _ first stepped =>
    have left : Refused { s with ready } :=
      ⟨refused.ring, fun other member =>
        refused.ready other (first ▸ List.mem_cons_of_mem _ member), refused.waiters⟩
    exact left.jobStep final.booked.counted (final.unsealed_first first) stepped
  | finish popped concludes =>
    refine Refused.concluded ?_ (final.clean.popped popped).1 concludes
    exact { refused with }
  | preopens => exact refused.startOpen.pins (· + 1)
  | pins => exact refused.pins (· + 1)
  | unpins => exact refused.pins (· - 1)
  | releases => exact refused.calm ((Calm.pins (· - 1)).trans .releaseEntry)
  | @applyRevocation instanceId =>
    exact (refused.calm .closeAll).storeRevoked
  | @reset instanceId =>
    have stays (job : Job Path) (stopped : s.instances.Stopped job)
        (allowed : job.Waiting → s.instances.Sealed job.owner → job.instanceId ≠ instanceId) :
        (s.instances.reset instanceId).Stopped job := by
      intro waiting sealed
      have other := allowed waiting sealed
      simpa [Instances.SealedNow, Instances.reset, Instances.put, other] using
        stopped waiting sealed
    constructor
    · intro job member
      exact stays job (refused.ring job member)
        (admitted.1 job (List.mem_append_left _ member))
    · intro job member
      exact stays job (refused.ready job member)
        (admitted.1 job (List.mem_append_right _ member))
    · intro entry job member
      obtain ⟨bound, stopped⟩ := refused.waiters entry job member
      exact ⟨bound, stays job stopped (admitted.2 entry bound job member)⟩

theorem next (admitted : Quiet s label) (taken : next settings s label = some t) :
    Final settings t where
  booked := final.booked.next taken
  guarded := final.guarded.next taken
  clean := final.clean_next admitted taken
  refused := final.refused_next admitted taken
  timely := by
    have timely := final.timely
    cases next_cases taken with
    | post | scan | start | rests | revoke | reset | attach | detach | preopens | pins | unpins =>
      exact timely
    | act member =>
      exact timely_perform timely (final.clean.tasks _ _ (KeyedQueue.mem_of_mem_chain member))
    | @run _ job ready _ first stepped =>
      exact timely_jobStep (s := { s with ready }) timely (final.unsealed_first first) stepped
    | finish _ concludes => exact effects_concluded concludes ▸ timely
    | releases =>
      rw [Calm.releaseEntry.effects]
      exact timely
    | @applyRevocation instanceId =>
      have same : (s.applyRevocation instanceId).effects = s.effects := Calm.closeAll.effects
      exact same ▸ timely

end

end Final

/-- **Revocation is final**: no file is created, truncated, written or removed for a request of
an instance after `REVOKED` was stored for it. -/
theorem no_effect_after_revocation [Inhabited Path] {labels : List (Label Path)}
    {last : Server Path} (trace : Trace (next settings) Quiet initial labels last) :
    ∀ effect ∈ last.effects, effect.late = false := by
  have final : Final settings last :=
    trace.invariant Final.initial fun _ _ _ admitted taken final => final.next admitted taken
  exact final.timely

end Runs

section Examples

def affecting (s : Server String) : List (Effect String) × List Completion :=
  (s.effects, s.completed)

/-- Instance 1 has created a file; its next write is claimed when it is revoked, and refused. -/
theorem no_effect_after_revocation_write : ∃ last,
    Trace (next fewInstances) Quiet initial
      (requesting 0 1 (Flags.create ||| Flags.write ||| Flags.openDeferred) ++
        [.start "a", .act "a", .finish "a" (.done true),
          .post ⟨1, 1, .handle .write 1 8⟩, .scan 0, .revoke 1, .applyRevocation 1,
          .run (.moved 8)]) last ∧
      affecting last = ([⟨"a", .created, false⟩], [⟨0, 1, 0⟩, ⟨1, FlatsqlIo.Status.access, 0⟩]) ∧
      ∀ effect ∈ last.effects, effect.late = false :=
  Trace.of_view_and affecting (fun _ trace _ => no_effect_after_revocation trace) (by decide)

/-- The open waits in the chain of its path when instance 1 is revoked; nothing there looks at
the state of the instance again, and the file is created. -/
theorem created_after_revocation : ∃ last,
    Trace (next fewInstances) Free initial
      (requesting 0 1 Flags.create ++ [.revoke 1, .applyRevocation 1, .start "a", .act "a"])
      last ∧
      affecting last = ([⟨"a", .created, true⟩], []) :=
  Trace.of_view affecting (by decide)

end Examples

end SpaceDataModule.FlatsqlIoServer

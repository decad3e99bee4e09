import SpaceDataModule.FlatsqlIoServer.Server

/-! What one step of a job can do, said once: every result about runs goes by these cases. -/
namespace SpaceDataModule.FlatsqlIoServer
open FlatsqlIo

namespace Files
variable {Path : Type} {files : Files Path} {change : Entry Path → Entry Path}

@[simp]
theorem modify_self : (files.modify entry change).heap entry = change (files.heap entry) :=
  Function.update_self ..

theorem modify_of_ne (different : other ≠ entry) :
    (files.modify entry change).heap other = files.heap other :=
  Function.update_of_ne different ..

/-- What a change leaves of an entry it leaves of every entry. -/
theorem modify_kept (view : Entry Path → V) (change : Entry Path → Entry Path)
    (kept : view (change (files.heap entry)) = view (files.heap entry)) :
    view ((files.modify entry change).heap other) = view (files.heap other) := by
  by_cases same : other = entry
  · rw [same, modify_self, kept]
  · rw [modify_of_ne same]

variable [DecidableEq Path]

@[simp]
theorem insert_self : (files.insert path).heap files.allocated = { path, opening := true } :=
  Function.update_self ..

theorem insert_of_ne (different : other ≠ files.allocated) :
    (files.insert path).heap other = files.heap other :=
  Function.update_of_ne different ..

end Files

section Handles
variable {Path : Type} {files : Files Path}

theorem allocateHandleId_free {attempts nextId id following : Nat}
    (allocated : allocateHandleId taken attempts nextId = (some id, following)) :
    taken id = false := by
  induction attempts generalizing nextId with
  | zero => cases allocated
  | succ attempts ih =>
    unfold allocateHandleId at allocated
    by_cases used : taken nextId = true
    · rw [if_pos used] at allocated
      exact ih allocated
    · rw [if_neg used] at allocated
      cases allocated
      exact Bool.eq_false_iff.mpr used

/-- `addHandle` runs out of ids, or adds one handle. -/
inductive Files.Granted (files : Files Path) (entry : Nat) (owner : Owner) (flags : Flags) :
    Files Path → Prop where
  | exhausted (following : Nat) :
      Granted files entry owner flags { files with nextHandleId := following }
  | added (handle : Handle) (following : Nat) : handle.entry = entry →
      (∀ other ∈ files.handles, other.id ≠ handle.id) →
      Granted files entry owner flags
        { files.modify entry (Entry.granted owner flags) with
          handles := files.handles ++ [handle], nextHandleId := following }

namespace Files.Granted
variable {after : Files Path}

section
variable (grants : files.Granted entry owner flags after)
include grants

theorem entries :
    after.entries = files.entries := by
  cases grants with
  | exhausted | added => rfl

theorem mem_handles (member : handle ∈ after.handles) :
    handle ∈ files.handles ∨ handle.entry = entry := by
  cases grants with
  | exhausted => exact .inl member
  | added added following refers fresh =>
    rcases List.mem_append.mp member with known | new
    · exact .inl known
    · exact .inr (List.mem_singleton.mp new ▸ refers)

theorem kept (view : Entry Path → V) (blind : ∀ e, view (e.granted owner flags) = view e)
    (other : Nat) :
    view (after.heap other) = view (files.heap other) := by
  cases grants with
  | exhausted => rfl
  | added => exact Files.modify_kept view (Entry.granted owner flags) (blind _)

theorem of_ne (different : other ≠ entry) : after.heap other = files.heap other := by
  cases grants with
  | exhausted => rfl
  | added => exact Files.modify_of_ne different

theorem refs_le (other : Nat) :
    (files.heap other).refs ≤ (after.heap other).refs := by
  by_cases same : other = entry
  · subst same
    cases grants with
    | exhausted => exact Nat.le_refl _
    | added =>
      rw [Files.modify_self]
      exact Nat.le_succ _
  · rw [grants.of_ne same]

theorem mem_deleters (member : asker ∈ (after.heap entry).deleters) :
    asker ∈ (files.heap entry).deleters ∨ asker = owner := by
  cases grants with
  | exhausted => exact .inl member
  | added =>
    rw [Files.modify_self] at member
    unfold Entry.granted at member
    dsimp only at member
    split_ifs at member
    · exact (List.mem_append.mp member).imp_right List.mem_singleton.mp
    · exact .inl member

end

end Files.Granted

theorem addHandle_cases (files : Files Path) (entry : Nat) (owner : Owner) (flags : Flags) :
    files.Granted entry owner flags (files.addHandle entry owner flags).1 := by
  unfold Files.addHandle
  dsimp only
  split
  · exact .exhausted _
  · rename_i id following allocated
    refine .added _ following rfl ?_
    intro other member same
    have unused := allocateHandleId_free allocated
    rw [List.any_eq_false] at unused
    exact unused other member (beq_iff_eq.mpr same)

/-- `closeHandle` takes exactly the handle it is given. -/
theorem perm_cons_dropped {handles : List Handle} (ids : (handles.map Handle.id).Nodup)
    (member : handle ∈ handles) :
    handles.Perm (handle :: handles.filter fun other => other.id != handle.id) := by
  induction handles with
  | nil => cases member
  | cons first rest ih =>
    rw [List.map_cons, List.nodup_cons] at ids
    rcases List.mem_cons.mp member with rfl | later
    · have kept : rest.filter (fun other => other.id != handle.id) = rest := by
        rw [List.filter_eq_self]
        intro other present
        refine bne_iff_ne.mpr fun same => ids.1 ?_
        exact same ▸ List.mem_map_of_mem present
      simp [kept]
    · have different : (first.id != handle.id) = true := by
        refine bne_iff_ne.mpr fun same => ids.1 ?_
        exact same ▸ List.mem_map_of_mem later
      rw [List.filter_cons_of_pos (by exact different)]
      exact ((ih ids.2 later).cons first).trans (.swap ..)

end Handles

section Unfailed
variable {Path : Type} {e : Entry Path}

def Entry.Unfailed (e : Entry Path) : Prop := e.opening = true ∨ e.openStatus = 0

theorem not_unfailed (settled : ¬ e.opening = true) (failed : ¬ e.openStatus = 0) :
    ¬ e.Unfailed := by
  rintro (opening | succeeded)
  · exact settled opening
  · exact failed succeeded

end Unfailed

variable {Path : Type} [DecidableEq Path] {s : Server Path}

def Job.answered (job : Job Path) : Bool :=
  match job.operation, job.phase with
  | .open _ _, .answered _ => true
  | _, _ => false

def Job.Waiting (job : Job Path) : Prop := job.answered = false
  deriving Decidable

structure Server.Admits (settings : Settings) (s : Server Path) (job : Job Path) : Prop where
  waiting : job.Waiting
  unrevoked : s.instances.isRevoked settings job.instanceId = false

inductive JobStep (settings : Settings) (s : Server Path) (job : Job Path) :
    Server Path → Prop where
  | completes (status : Int) (value : Nat) :
      JobStep settings s job (s.completeWith job status value)
  | parks {entry : Nat} : s.Admits settings job →
      ((∃ path, s.files.entries path = some entry) ∨ ∃ handle ∈ s.files.handles,
        handle.entry = entry) →
      (s.files.heap entry).opening = true → JobStep settings s job (s.parkOnEntry job entry)
  | probes {flags path} : s.Admits settings job → job.operation = .open flags (.ok path) →
      (∀ entry, s.files.entries path = some entry → ¬ (s.files.heap entry).Unfailed) →
      JobStep settings s job (s.chainPath path (.probe job))
  | removes {flags path} : s.Admits settings job → job.operation = .open flags (.ok path) →
      (∀ entry, s.files.entries path = some entry → (s.files.heap entry).opening = false ∧
        (s.files.heap entry).refs = 0 ∧ (s.files.heap entry).pins = 0) →
      JobStep settings s job (s.chainPath path (.remove job))
  | unpins {flags path entry} : s.Admits settings job → job.operation = .open flags (.ok path) →
      s.files.entries path = some entry → (s.files.heap entry).opening = false →
      (s.files.heap entry).refs = 0 →
      JobStep settings s job
        (({ s with files := s.files.modify entry fun e => { e with pins := 0 } }.releaseEntry
          entry).chainPath path (.remove job))
  | joins {flags path entry} : s.Admits settings job → job.operation = .open flags (.ok path) →
      s.files.entries path = some entry → (s.files.heap entry).Unfailed →
      JobStep settings s job (s.join job entry flags)
  | truncates {flags path entry} : s.Admits settings job →
      job.operation = .open flags (.ok path) → s.files.entries path = some entry →
      (s.files.heap entry).Unfailed →
      JobStep settings s job ((s.affect path .truncated [job.owner]).join job entry flags)
  | opens {flags path} : s.Admits settings job → job.operation = .open flags (.ok path) →
      s.files.entries path = none → JobStep settings s job (s.openFresh job flags path)
  | reopens {flags path entry} : s.Admits settings job →
      job.operation = .open flags (.ok path) → s.files.entries path = some entry →
      ¬ (s.files.heap entry).Unfailed →
      JobStep settings s job ({ s with files := s.files.forget path }.openFresh job flags path)
  | closes {handle} : s.Admits settings job → handle ∈ s.files.handles →
      (s.files.heap handle.entry).opening = false →
      JobStep settings s job ((s.closeHandle handle).complete job Status.ok)
  | continues (done : Nat) : s.Admits settings job →
      JobStep settings s job { s with ready := s.ready ++ [{ job with done }] }
  | writes (path : Path) (kind : EffectKind) (status : Int) : s.Admits settings job →
      JobStep settings s job ((s.affect path kind [job.owner]).complete job status)
  | writesOn (path : Path) (done : Nat) : s.Admits settings job →
      JobStep settings s job
        { s.affect path .written [job.owner] with ready := s.ready ++ [{ job with done }] }

theorem stepNamespace_cases (admits : s.Admits settings job)
    (operation : job.operation = .open flags (.ok path)) :
    JobStep settings s job (s.stepNamespace job flags path) := by
  rw [Server.stepNamespace]
  cases found : s.files.entries path with
  | none =>
    have absent : ∀ {P : Nat → Prop} entry, s.files.entries path = some entry → P entry := by
      intro P entry indexed
      cases found.symm.trans indexed
    split_ifs
    · exact .probes admits operation absent
    · exact .removes admits operation absent
  | some entry =>
    have only : ∀ {P : Nat → Prop}, P entry →
        ∀ other, s.files.entries path = some other → P other := by
      intro P holds other indexed
      cases found.symm.trans indexed
      exact holds
    dsimp only
    split_ifs with opening probe succeeded used pinned
    · exact .parks admits (.inl ⟨path, found⟩) opening
    · exact .completes _ _
    · exact .probes admits operation (only (not_unfailed opening succeeded))
    · exact .completes _ _
    · exact .unpins admits operation found (Bool.eq_false_iff.mpr opening) (Nat.eq_zero_of_not_pos used)
    · exact .removes admits operation
        (only ⟨Bool.eq_false_iff.mpr opening, Nat.eq_zero_of_not_pos used,
          Nat.eq_zero_of_not_pos pinned⟩)

theorem stepFile_cases (admits : s.Admits settings job)
    (operation : job.operation = .open flags (.ok path)) :
    JobStep settings s job (s.stepFile job flags path answer) := by
  rw [Server.stepFile]
  cases found : s.files.entries path with
  | none => exact .opens admits operation found
  | some entry =>
    dsimp only
    split_ifs with opening deferred succeeded exclusive truncating
    · exact .joins admits operation found (.inl opening)
    · exact .parks admits (.inl ⟨path, found⟩) opening
    · exact .completes _ _
    · cases answer with
      | failed error => exact .completes _ _
      | unresolved | moved => exact .truncates admits operation found (.inr succeeded)
    · exact .joins admits operation found (.inr succeeded)
    · exact .reopens admits operation found (not_unfailed opening succeeded)

theorem stepUnanswered_cases (operation : job.operation = .open flags path)
    (waiting : job.Waiting) :
    JobStep settings s job (s.stepUnanswered settings job flags path answer) := by
  unfold Server.stepUnanswered
  by_cases revoked : s.instances.isRevoked settings job.instanceId = true
  · rw [if_pos revoked]
    exact .completes _ _
  · rw [if_neg revoked]
    have admits : s.Admits settings job := ⟨waiting, Bool.eq_false_iff.mpr revoked⟩
    cases path with
    | error status => exact .completes _ _
    | ok path =>
      split_ifs
      · exact stepNamespace_cases admits operation
      · exact stepFile_cases admits operation

theorem stepOpen_cases (operation : job.operation = .open flags path) :
    JobStep settings s job (s.stepOpen settings job flags path answer) := by
  have waiting (unanswered : ∀ result, job.phase ≠ .answered result) : job.Waiting := by
    unfold Job.Waiting Job.answered
    split
    · rename_i answered
      exact absurd answered (unanswered _)
    · trivial
  unfold Server.stepOpen
  cases phase : job.phase with
  | answered result => exact .completes _ _
  | arrived | creator =>
    apply stepUnanswered_cases operation
    apply waiting
    intro result
    rw [phase]
    intro answered
    cases answered

theorem advance_cases (admits : s.Admits settings job) :
    JobStep settings s job (s.advance settings job len count) := by
  rw [Server.advance]
  split_ifs
  · exact .completes _ _
  · exact .continues _ admits

theorem stepFileOp_cases (admits : s.Admits settings job) :
    JobStep settings s job (s.stepFileOp settings job op handle path len answer) := by
  unfold Server.stepFileOp
  cases op with
  | read =>
    dsimp only
    split
    · exact .completes _ _
    · split
      · exact .completes _ _
      · cases answer with
        | unresolved | failed => exact .completes _ _
        | moved => exact advance_cases admits
  | write =>
    dsimp only
    split_ifs
    · exact .completes _ _
    · exact .completes _ _
    · cases answer with
      | unresolved => exact .completes _ _
      | failed => exact .writes _ _ _ admits
      | moved =>
        dsimp only
        rw [Server.advance]
        split_ifs
        · exact .writes _ _ _ admits
        · exact .writesOn _ _ admits
  | truncate =>
    dsimp only
    split_ifs
    · exact .completes _ _
    · cases answer with
      | unresolved | moved | failed => exact .writes _ _ _ admits
  | sync | size =>
    cases answer with
    | unresolved | moved | failed => exact .completes _ _
  | close => exact .completes _ _

theorem stepHandleOp_cases (operation : job.operation = .handle op handleId len) :
    JobStep settings s job (s.stepHandleOp settings job op handleId len answer) := by
  unfold Server.stepHandleOp
  split
  · exact .completes _ _
  · rename_i revoked
    have admits : s.Admits settings job := by
      refine ⟨?_, Bool.eq_false_iff.mpr revoked⟩
      unfold Job.Waiting Job.answered
      rw [operation]
    cases found : s.files.handles.find? fun handle => (handle.id : Int) == handleId with
    | none => exact .completes _ _
    | some handle =>
      have member := List.mem_of_find?_eq_some found
      dsimp only
      split_ifs with opening
      · exact .parks admits (.inr ⟨handle, member, rfl⟩) opening
      · exact .closes admits member (Bool.eq_false_iff.mpr opening)
      · exact .completes _ _
      · exact stepFileOp_cases admits
      · exact .completes _ _

theorem step_cases (answer : Answer) : JobStep settings s job (s.step settings job answer) := by
  rw [Server.step]
  split
  · exact stepOpen_cases ‹_›
  · exact stepHandleOp_cases ‹_›
  · exact .completes _ _

section Settling

/-- One waiter goes back to the ready queue; the creator of the entry has its answer then,
and a handle if the open succeeded and its instance is not revoked. -/
inductive Woken (settings : Settings) (s : Server Path) (entry : Nat) (status : Int)
    (job : Job Path) : Server Path → Prop where
  | again : Woken settings s entry status job { s with ready := s.ready ++ [job] }
  | refused {flags path} (result : Int) : job.operation = .open flags path →
      Woken settings s entry status job
        { s with ready := s.ready ++ [{ job with phase := .answered result }] }
  | granted {flags path} (result : Int) : job.operation = .open flags path →
      job.phase = .creator entry → ¬ status < 0 →
      s.instances.isRevoked settings job.instanceId = false →
      Woken settings s entry status job
        { s with
          files := (s.files.addHandle entry job.owner flags).1
          ready := s.ready ++ [{ job with phase := .answered result }] }

omit [DecidableEq Path] in
theorem wakeWaiter_cases :
    Woken settings s entry status job (s.wakeWaiter settings entry status job) := by
  unfold Server.wakeWaiter
  split
  · rename_i flags path created operation phase
    by_cases same : created = entry
    · subst same
      rw [if_pos rfl]
      by_cases failed : status < 0
      · rw [if_pos failed]
        exact .refused _ operation
      · rw [if_neg failed]
        by_cases revoked : s.instances.isRevoked settings job.instanceId = true
        · rw [if_pos revoked]
          exact .refused _ operation
        · rw [if_neg revoked]
          exact .granted _ operation phase failed (Bool.eq_false_iff.mpr revoked)
    · rw [if_neg same]
      exact .again
  · exact .again

/-- What every waiter keeps, and what the sweep makes of it. -/
theorem settleEntry_induction {P Q : Server Path → Prop}
    (settles : P { s with files := s.files.modify entry (Entry.settled status) })
    (wakes : ∀ t u job, job ∈ (s.files.heap entry).waiters →
      Woken settings t entry status job u → P t → P u)
    (sweeps : ∀ t, P t → Q (t.sweep entry status)) :
    Q (s.settleEntry settings entry status) := by
  apply sweeps
  apply List.foldlRecOn (motive := P) _ _ settles
  intro t holds job member
  exact wakes t _ job member wakeWaiter_cases holds

/-- An open settles its entry, a probe or a removal answers its job. -/
inductive Concluded (settings : Settings) (s : Server Path) : Task Path → Server Path → Prop where
  | settled (entry : Nat) (flags : Flags) (owner : Option Owner) (status : Int) : status ≤ 0 →
      Concluded settings s (.open entry flags owner) (s.settleEntry settings entry status)
  | probed (job : Job Path) (result : Int) :
      Concluded settings s (.probe job) (s.answer job result)
  | removed (job : Job Path) (result : Int) :
      Concluded settings s (.remove job) (s.answer job result)
  | released (entry : Nat) (owners : List Owner) :
      Concluded settings s (.removeReleased entry owners) s

theorem conclude_cases : Concluded settings s task (s.conclude settings task outcome) := by
  cases task with
  | «open» entry flags owner =>
    cases outcome with
    | done => exact .settled _ _ _ _ (Int.le_refl 0)
    | failed error => exact .settled _ _ _ _ error.negative.le
  | probe job =>
    cases outcome with
    | done | failed => exact .probed _ _
  | remove job =>
    cases outcome with
    | done | failed => exact .removed _ _
  | removeReleased => exact .released _ _

end Settling

section Closing

theorem releaseEntry_kept (view : Entry Path → V)
    (blind : ∀ e closed, view { e with file := closed } = view e) (other : Nat) :
    view ((s.releaseEntry entry).files.heap other) = view (s.files.heap other) := by
  have detached : view ((s.files.detach entry).heap other) = view (s.files.heap other) :=
    Files.modify_kept view (fun e => { e with file := false }) (blind _ _)
  unfold Server.releaseEntry
  dsimp only
  split_ifs
  · rfl
  · exact detached
  · exact detached

theorem closeHandle_kept (view : Entry Path → V)
    (blind : ∀ e closed, view { e with file := closed } = view e)
    (uncounted : ∀ e refs, view { e with refs } = view e) (other : Nat) :
    view ((s.closeHandle handle).files.heap other) = view (s.files.heap other) := by
  unfold Server.closeHandle
  split_ifs
  · rw [releaseEntry_kept view blind]
    exact Files.modify_kept view (fun e => { e with refs := e.refs - 1 }) (uncounted _ _)
  · rfl

theorem releaseEntry_handles : (s.releaseEntry entry).files.handles = s.files.handles := by
  unfold Server.releaseEntry
  dsimp only
  split_ifs <;> rfl

theorem closeHandle_handles : (s.closeHandle handle).files.handles ⊆ s.files.handles := by
  unfold Server.closeHandle
  split_ifs
  · rw [releaseEntry_handles]
    exact List.filter_sublist.subset
  · exact List.Subset.refl _

theorem mem_closeHandle (member : other ∈ s.files.handles) (different : other.id ≠ handle.id) :
    other ∈ (s.closeHandle handle).files.handles := by
  unfold Server.closeHandle
  split_ifs
  · rw [releaseEntry_handles]
    exact List.mem_filter.mpr ⟨member, bne_iff_ne.mpr different⟩
  · exact member

/-- What closing one handle of an instance keeps, closing all of them keeps. -/
theorem closeAll_induction {P : Server Path → Prop} (start : P s)
    (closes : ∀ t handle, P t → handle ∈ t.files.handles → handle ∈ s.files.handles →
      handle.id ∈ s.owned instanceId → P (t.closeHandle handle)) :
    P ((s.owned instanceId).foldl Server.closeId s) := by
  have holds : P ((s.owned instanceId).foldl Server.closeId s) ∧
      ((s.owned instanceId).foldl Server.closeId s).files.handles ⊆ s.files.handles := by
    apply List.foldlRecOn (motive := fun t => P t ∧ t.files.handles ⊆ s.files.handles) _ _
      ⟨start, List.Subset.refl _⟩
    rintro t ⟨holds, fewer⟩ id listed
    unfold Server.closeId
    cases found : t.files.handles.find? fun handle => handle.id == id with
    | none => exact ⟨holds, fewer⟩
    | some handle =>
      have member := List.mem_of_find?_eq_some found
      have same : handle.id = id := by simpa using List.find?_some found
      refine ⟨closes t handle holds member (fewer member) (same ▸ listed), ?_⟩
      exact List.Subset.trans closeHandle_handles fewer
  exact holds.1

end Closing

omit [DecidableEq Path] in
theorem perform_kept :
    (s.perform path task).files = s.files ∧ (s.perform path task).queue = s.queue ∧
      (s.perform path task).instances = s.instances := by
  cases task with
  | «open» entry flags owner =>
    unfold Server.perform
    dsimp only
    split_ifs <;> exact ⟨rfl, rfl, rfl⟩
  | probe | remove | removeReleased => exact ⟨rfl, rfl, rfl⟩

section Labels

/-- Everything that can happen. A `preopen` of a failed entry and the like are `rests`. -/
inductive Stepped (settings : Settings) (s : Server Path) : Label Path → Server Path → Prop where
  | post (request : Request Path) : Stepped settings s (.post request)
      { s with ring := s.ring ++ [{ request with era := s.instances.era request.instanceId }] }
  | scan {index : Nat} {job : Job Path} : s.ring[index]? = some job →
      Stepped settings s (.scan index)
        { s with ring := s.ring.eraseIdx index, ready := s.ready ++ [job] }
  | run {answer : Answer} {job : Job Path} {ready : List (Job Path)} {t : Server Path} :
      s.ready = job :: ready → JobStep settings { s with ready } job t →
      Stepped settings s (.run answer) t
  | start {path : Path} {task : Task Path} : s.startable path = some task →
      Stepped settings s (.start path) { s with started := Function.update s.started path true }
  | act {path : Path} {task : Task Path} : task ∈ KeyedQueue.chain s.queue path →
      Stepped settings s (.act path) (s.perform path task)
  | finish {path : Path} {outcome : Outcome} {task : Task Path} {queue : List (Path × Task Path)}
      {t : Server Path} : KeyedQueue.pop path s.queue = some (task, queue) →
      Concluded settings
        { s with queue, started := Function.update s.started path false } task t →
      Stepped settings s (.finish path outcome) t
  | preopens {path : Path} {flags : Flags} : s.files.entries path = none →
      Stepped settings s (.preopen path flags)
        (let opening := s.startOpen path (flags &&& ~~~Flags.openDeferred) none
         { opening with
            files := opening.files.modify s.files.allocated fun e => { e with pins := e.pins + 1 }
            awaiting := s.awaiting ++ [s.files.allocated] })
  | pins {path : Path} {flags : Flags} {entry : Nat} {awaiting : List Nat} :
      s.files.entries path = some entry → 0 ≤ (s.files.heap entry).openStatus ∨
        (s.files.heap entry).opening = true →
      Stepped settings s (.preopen path flags)
        { s with
          files := s.files.modify entry fun e => { e with pins := e.pins + 1 }
          awaiting }
  | unpins {index entry : Nat} {awaiting : List Nat} :
      (s.files.heap entry).opening = false → (s.files.heap entry).openStatus < 0 →
      Stepped settings s (.resume index)
        { s with
          files := s.files.modify entry fun e => { e with pins := e.pins - 1 }
          awaiting }
  | releases {path : Path} {entry : Nat} : s.files.entries path = some entry →
      0 < (s.files.heap entry).pins →
      Stepped settings s (.releasePreopen path)
        ({ s with files := s.files.modify entry fun e => { e with pins := e.pins - 1 } }.releaseEntry
          entry)
  | revoke {instanceId : Int} : settings.InRange instanceId →
      Stepped settings s (.revoke instanceId)
        { s with instances := s.instances.put instanceId .revoking }
  | applyRevocation {instanceId : Int} : settings.InRange instanceId →
      Stepped settings s (.applyRevocation instanceId) (s.applyRevocation instanceId)
  | reset {instanceId : Int} : settings.InRange instanceId →
      Stepped settings s (.reset instanceId)
        { s with instances := s.instances.reset instanceId }
  | attach {instanceId : Int} {observed : InstanceState} :
      s.instances.Loaded instanceId observed → observed ≠ .revoking → observed ≠ .revoked →
      Stepped settings s (.attach instanceId observed)
        { s with instances := s.instances.put instanceId .attached }
  | detach {instanceId : Int} : s.instances.Loaded instanceId .attached →
      Stepped settings s (.detach instanceId .attached)
        { s with instances := s.instances.put instanceId .none }
  | rests {label : Label Path} {awaiting : List Nat} : Stepped settings s label { s with awaiting }

theorem next_cases (taken : next settings s label = some t) : Stepped settings s label t := by
  cases label with
  | post request =>
    cases taken
    exact .post request
  | scan index =>
    obtain ⟨job, found, rfl⟩ := Option.map_eq_some_iff.mp taken
    exact .scan found
  | run answer =>
    rw [next] at taken
    split at taken
    · cases taken
    · cases taken
      exact .run ‹_› (step_cases answer)
  | start path =>
    obtain ⟨task, startable, rfl⟩ := Option.map_eq_some_iff.mp taken
    exact .start startable
  | act path =>
    rw [next] at taken
    split_ifs at taken
    obtain ⟨task, first, rfl⟩ := Option.map_eq_some_iff.mp taken
    exact .act (List.mem_of_head? first)
  | finish path outcome =>
    rw [next] at taken
    split_ifs at taken
    obtain ⟨⟨task, queue⟩, popped, rfl⟩ := Option.map_eq_some_iff.mp taken
    exact .finish popped conclude_cases
  | preopen path flags =>
    cases taken
    unfold Server.preopen
    split
    · exact .preopens ‹_›
    · split_ifs with opening failed
      · exact .pins ‹_› (.inr opening)
      · exact .rests
      · exact .pins ‹_› (.inl (Int.not_lt.mp failed))
  | resume index =>
    rw [next] at taken
    split at taken
    · rename_i entry _
      split_ifs at taken with opening
      cases taken
      unfold Server.resume
      split_ifs with failed
      · exact .unpins (Bool.eq_false_iff.mpr opening) failed
      · exact .rests
    · cases taken
  | releasePreopen path =>
    cases taken
    unfold Server.releasePreopen
    split
    · split_ifs with pinned
      · exact .releases ‹_› pinned
      · exact .rests
    · exact .rests
  | revoke instanceId =>
    rw [next] at taken
    split_ifs at taken with range
    cases taken
    exact .revoke range
  | applyRevocation instanceId =>
    rw [next] at taken
    split_ifs at taken with revoking
    cases taken
    exact .applyRevocation revoking.1
  | reset instanceId =>
    rw [next] at taken
    split_ifs at taken with range
    cases taken
    exact .reset range
  | attach instanceId observed =>
    rw [next] at taken
    split_ifs at taken with loaded refused
    · cases taken
      exact .rests
    · cases taken
      exact .attach loaded.2 (fun same => refused (.inl same)) (fun same => refused (.inr same))
  | detach instanceId observed =>
    rw [next] at taken
    split_ifs at taken with loaded attached
    · cases taken
      subst attached
      exact .detach loaded.2
    · cases taken
      exact .rests

end Labels

end SpaceDataModule.FlatsqlIoServer

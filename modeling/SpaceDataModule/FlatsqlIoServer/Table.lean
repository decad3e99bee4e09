import SpaceDataModule.FlatsqlIoServer.Steps
import SpaceDataModule.Transition

/-! The path table and the reference counts, in every run. -/
namespace SpaceDataModule.FlatsqlIoServer
open FlatsqlIo
open Transition (Trace Free)

section Counted
variable {Path : Type}

structure Counted (files : Files Path) : Prop where
  indexed : ∀ path entry, files.entries path = some entry →
    entry < files.allocated ∧ (files.heap entry).path = path
  handled : ∀ handle ∈ files.handles, handle.entry < files.allocated
  ids : (files.handles.map Handle.id).Nodup
  refs : ∀ entry, (files.heap entry).refs =
    files.handles.countP fun handle => handle.entry = entry

def Files.Current (files : Files Path) (entry : Nat) : Prop :=
  files.entries (files.heap entry).path = some entry
  deriving Decidable

namespace Counted
variable {files : Files Path} {change : Entry Path → Entry Path}

theorem initial [Inhabited Path] : Counted (initial : Server Path).files where
  indexed := nofun
  handled := nofun
  ids := List.nodup_nil
  refs _ := rfl

section
variable (counted : Counted files)
include counted

theorem current (indexed : files.entries path = some entry) :
    files.Current entry := by
  rw [Files.Current, (counted.indexed path entry indexed).2]
  exact indexed

theorem unreferenced (free : (files.heap entry).refs = 0) (member : handle ∈ files.handles) :
    handle.entry ≠ entry := by
  rw [counted.refs, List.countP_eq_zero] at free
  simpa using free handle member

theorem refs_pos (member : handle ∈ files.handles) : 0 < (files.heap handle.entry).refs := by
  rw [counted.refs, List.countP_pos_iff]
  exact ⟨handle, member, by simp⟩

theorem same_of_id (member : first ∈ files.handles) (present : second ∈ files.handles)
    (same : first.id = second.id) : first = second :=
  List.inj_on_of_nodup_map counted.ids member present same

theorem modify (path : ∀ e, (change e).path = e.path) (refs : ∀ e, (change e).refs = e.refs) :
    Counted (files.modify entry change) :=
  { counted with
    indexed := by
      intro named other indexed
      rw [Files.modify_kept Entry.path change (path _)]
      exact counted.indexed named other indexed
    refs := by
      intro other
      rw [Files.modify_kept Entry.refs change (refs _)]
      exact counted.refs other }

theorem granted (grants : files.Granted entry owner flags after) (bound : entry < files.allocated) :
    Counted after := by
  cases grants with
  | exhausted following => exact { counted with }
  | added handle following refers fresh =>
    constructor
    · intro named other indexed
      rw [Files.modify_kept Entry.path (Entry.granted owner flags) rfl]
      exact counted.indexed named other indexed
    · rw [List.forall_mem_append, List.forall_mem_singleton, refers]
      exact ⟨counted.handled, bound⟩
    · rw [List.map_append, List.nodup_append]
      refine ⟨counted.ids, List.nodup_singleton _, ?_⟩
      intro id known id' added same
      obtain ⟨other, member, rfl⟩ := List.mem_map.mp known
      cases List.mem_singleton.mp added
      exact fresh other member same
    · intro other
      simp only [List.countP_append, List.countP_singleton, refers]
      by_cases same : other = entry
      · subst same
        simp [Entry.granted, counted.refs]
      · rw [Files.modify_of_ne same, counted.refs]
        simp [Ne.symm same]

theorem dropHandle (member : handle ∈ files.handles) :
    Counted (files.dropHandle handle) where
  indexed := by
    intro named other indexed
    rw [Files.dropHandle, Files.modify_kept Entry.path _ rfl]
    exact counted.indexed named other indexed
  handled := by
    intro other kept
    exact counted.handled other (List.mem_of_mem_filter kept)
  ids := counted.ids.sublist (List.filter_sublist.map _)
  refs := by
    intro other
    have taken := (perm_cons_dropped counted.ids member).countP_eq
      (fun handle => decide (handle.entry = other))
    rw [← counted.refs, List.countP_cons] at taken
    by_cases same : other = handle.entry
    · subst same
      simp only [Files.dropHandle, Files.modify_self, taken]
      exact Nat.add_sub_cancel ..
    · simp only [Ne.symm same, decide_false, Bool.false_eq_true, if_false, Nat.add_zero] at taken
      simp only [Files.dropHandle, Files.modify_of_ne same, taken]

/-- If no reference is left without the handle, it was the last one. -/
theorem last_of_dropped (member : handle ∈ files.handles)
    (free : ((files.dropHandle handle).heap handle.entry).refs = 0)
    (present : other ∈ files.handles) (same : other.entry = handle.entry) : other = handle := by
  by_contra different
  refine (counted.dropHandle member).unreferenced free ?_ same
  refine List.mem_filter.mpr ⟨present, bne_iff_ne.mpr fun equal => ?_⟩
  exact different (counted.same_of_id present member equal)

end

end Counted
end Counted

section Tables
variable {Path : Type} [DecidableEq Path] {files : Files Path}

namespace Files

theorem detach_kept {V : Type*} (view : Entry Path → V)
    (blind : ∀ e closed, view { e with file := closed } = view e) :
    view ((files.detach entry).heap other) = view (files.heap other) :=
  modify_kept view (fun e => { e with file := false }) (blind _ _)

theorem detach_entries :
    (files.detach entry).entries path = some found ↔
      files.entries path = some found ∧ (files.entries path = some entry →
        (files.heap entry).path ≠ path) := by
  unfold detach
  dsimp only
  split_ifs with indexed
  · by_cases same : path = (files.heap entry).path
    · subst same
      simp [indexed]
    · rw [Function.update_of_ne same]
      simp [Ne.symm same]
  · constructor
    · intro kept
      refine ⟨kept, ?_⟩
      rintro present rfl
      exact indexed present
    · exact And.left

theorem forget_entries :
    (files.forget path).entries named = some found ↔
      files.entries named = some found ∧ named ≠ path := by
  unfold forget
  by_cases same : named = path
  · subst same
    simp
  · simp [same]

end Files

namespace Counted

section
variable (counted : Counted files)
include counted

theorem detach : Counted (files.detach entry) := by
  have closed : Counted (files.modify entry fun e => { e with file := false }) :=
    counted.modify (fun _ => rfl) (fun _ => rfl)
  refine { closed with indexed := ?_ }
  intro named other indexed
  exact closed.indexed named other (Files.detach_entries.mp indexed).1

theorem insert : Counted (files.insert path) where
  indexed := by
    intro named other indexed
    by_cases same : named = path
    · subst same
      have fresh : files.allocated = other := by simpa [Files.insert] using indexed
      subst fresh
      exact ⟨Nat.lt_succ_self _, by rw [Files.insert_self]⟩
    · have before : files.entries named = some other := by
        simpa [Files.insert, same] using indexed
      obtain ⟨bound, labelled⟩ := counted.indexed named other before
      rw [Files.insert_of_ne bound.ne]
      exact ⟨Nat.lt_succ_of_lt bound, labelled⟩
  handled := by
    intro handle member
    exact Nat.lt_succ_of_lt (counted.handled handle member)
  ids := counted.ids
  refs := by
    intro other
    by_cases same : other = files.allocated
    · subst same
      rw [Files.insert_self]
      refine (List.countP_eq_zero.mpr ?_).symm
      intro handle member
      simpa using (counted.handled handle member).ne
    · rw [Files.insert_of_ne same]
      exact counted.refs other

theorem forget : Counted (files.forget path) := by
  refine { counted with indexed := ?_ }
  intro named other indexed
  exact counted.indexed named other (Files.forget_entries.mp indexed).1

end

end Counted
end Tables

section Pending
variable {Path : Type}

def pending (queue : List (Path × Task Path)) : List (Path × Nat) :=
  queue.filterMap fun (path, task) =>
    match task with
    | .open entry _ _ => some (path, entry)
    | .probe _ | .remove _ | .removeReleased _ _ => none

theorem mem_pending :
    (path, entry) ∈ pending queue ↔
      ∃ flags owner, (path, Task.open entry flags owner) ∈ queue := by
  unfold pending
  rw [List.mem_filterMap]
  constructor
  · rintro ⟨⟨named, task⟩, member, found⟩
    cases task with
    | «open» other flags owner =>
      cases found
      exact ⟨flags, owner, member⟩
    | probe | remove | removeReleased => cases found
  · rintro ⟨flags, owner, member⟩
    exact ⟨_, member, rfl⟩

theorem pending_of_pop [DecidableEq Path] {queue rest : List (Path × Task Path)}
    (popped : KeyedQueue.pop path queue = some (.open entry flags owner, rest)) :
    (pending queue).Perm ((path, entry) :: pending rest) :=
  (KeyedQueue.pop_perm popped).filterMap _

structure Booked (s : Server Path) : Prop where
  counted : Counted s.files
  opens : ∀ path entry, (path, entry) ∈ pending s.queue → entry < s.files.allocated ∧
    (s.files.heap entry).opening = true ∧ (s.files.heap entry).path = path
  once : (pending s.queue).Nodup
  bounded : ∀ entry, (s.files.heap entry).opening = true → entry < s.files.allocated

theorem Booked.of_eq (booked : Booked s) (files : t.files = s.files) (queue : t.queue = s.queue) :
    Booked t := by
  constructor
  · rw [files]
    exact booked.counted
  · rw [files, queue]
    exact booked.opens
  · rw [queue]
    exact booked.once
  · rw [files]
    exact booked.bounded

/-- Nothing is allocated, opened or settled, and no open is queued. -/
structure Steady (s t : Server Path) : Prop where
  allocated : t.files.allocated = s.files.allocated
  opening : ∀ entry, (t.files.heap entry).opening = (s.files.heap entry).opening
  path : ∀ entry, (t.files.heap entry).path = (s.files.heap entry).path
  pending : pending t.queue = pending s.queue
  instances : t.instances = s.instances

namespace Steady

theorem refl (s : Server Path) : Steady s s :=
  ⟨rfl, fun _ => rfl, fun _ => rfl, rfl, rfl⟩

theorem trans (first : Steady s t) (second : Steady t u) : Steady s u where
  allocated := second.allocated.trans first.allocated
  opening entry := (second.opening entry).trans (first.opening entry)
  path entry := (second.path entry).trans (first.path entry)
  pending := second.pending.trans first.pending
  instances := second.instances.trans first.instances

theorem booked (steady : Steady s t) (booked : Booked s) (counted : Counted t.files) :
    Booked t where
  counted := counted
  opens := by
    intro path entry member
    rw [steady.pending] at member
    rw [steady.allocated, steady.opening, steady.path]
    exact booked.opens path entry member
  once := steady.pending ▸ booked.once
  bounded := by
    intro entry opening
    rw [steady.opening] at opening
    rw [steady.allocated]
    exact booked.bounded entry opening

theorem modify {change : Entry Path → Entry Path} (opening : ∀ e, (change e).opening = e.opening)
    (path : ∀ e, (change e).path = e.path) :
    Steady s { s with files := s.files.modify entry change } where
  allocated := rfl
  opening _ := Files.modify_kept Entry.opening change (opening _)
  path _ := Files.modify_kept Entry.path change (path _)
  pending := rfl
  instances := rfl

theorem chained {path : Path} (closed : ∀ entry flags owner, task ≠ .open entry flags owner) :
    Steady s { s with queue := s.queue ++ [(path, task)] } where
  allocated := rfl
  opening _ := rfl
  path _ := rfl
  pending := by
    cases task with
    | «open» entry flags owner => exact absurd rfl (closed entry flags owner)
    | probe | remove | removeReleased => simp [FlatsqlIoServer.pending]
  instances := rfl

theorem granted (grants : s.files.Granted entry owner flags files) : Steady s { s with files } := by
  cases grants with
  | exhausted following => exact ⟨rfl, fun _ => rfl, fun _ => rfl, rfl, rfl⟩
  | added handle following refers fresh =>
    have kept : Steady s { s with files := s.files.modify entry (Entry.granted owner flags) } :=
      modify (fun _ => rfl) (fun _ => rfl)
    exact { kept with }

end Steady
end Pending

section Steps
variable {Path : Type} [DecidableEq Path] {s : Server Path}

namespace Steady

theorem detach : Steady s { s with files := s.files.detach entry } := by
  have closed : Steady s
      { s with files := s.files.modify entry fun e => { e with file := false } } :=
    modify (fun _ => rfl) (fun _ => rfl)
  exact { closed with }

theorem releaseEntry : Steady s (s.releaseEntry entry) := by
  unfold Server.releaseEntry
  dsimp only
  split_ifs
  · exact .refl s
  · exact detach.trans (chained nofun)
  · exact detach

theorem closeHandle : Steady s (s.closeHandle handle) := by
  unfold Server.closeHandle
  split_ifs
  · have dropped : Steady s { s with files := s.files.dropHandle handle } := by
      have kept : Steady s
          { s with files := s.files.modify handle.entry fun e => { e with refs := e.refs - 1 } } :=
        modify (fun _ => rfl) (fun _ => rfl)
      exact { kept with }
    exact dropped.trans releaseEntry
  · exact .refl s

theorem forget {path : Path} : Steady s { s with files := s.files.forget path } :=
  ⟨rfl, fun _ => rfl, fun _ => rfl, rfl, rfl⟩

theorem sweep : Steady s (s.sweep entry status) := by
  unfold Server.sweep
  dsimp only
  split_ifs
  · exact forget
  · exact releaseEntry
  · exact .refl s

end Steady

namespace Counted

section
variable (counted : Counted s.files)
include counted

theorem releaseEntry : Counted (s.releaseEntry entry).files := by
  unfold Server.releaseEntry
  dsimp only
  split_ifs
  · exact counted
  · exact counted.detach
  · exact counted.detach

theorem closeHandle (member : handle ∈ s.files.handles) :
    Counted (s.closeHandle handle).files := by
  unfold Server.closeHandle
  split_ifs
  · apply releaseEntry
    exact counted.dropHandle member
  · exact counted

theorem sweep : Counted (s.sweep entry status).files := by
  unfold Server.sweep
  dsimp only
  split_ifs
  · exact counted.forget
  · exact counted.releaseEntry
  · exact counted

end

end Counted

/-- A path does not lead to an entry that was released for good. -/
theorem releaseEntry_vacant (indexed : s.files.entries path = some entry)
    (labelled : (s.files.heap entry).path = path) (free : (s.files.heap entry).refs = 0)
    (unpinned : (s.files.heap entry).pins = 0) :
    (s.releaseEntry entry).files.entries path = none := by
  subst labelled
  unfold Server.releaseEntry
  rw [if_neg (by simp [free, unpinned])]
  have gone : (s.files.detach entry).entries (s.files.heap entry).path = none := by
    simp [Files.detach, indexed]
  split_ifs
  · exact gone
  · exact gone

namespace Booked

omit [DecidableEq Path] in
theorem initial [Inhabited Path] : Booked (initial : Server Path) where
  counted := .initial
  opens := nofun
  once := List.nodup_nil
  bounded := nofun

section
variable (booked : Booked s)
include booked

theorem startOpen (path : Path) (flags : Flags) (owner : Option Owner) :
    Booked (s.startOpen path flags owner) := by
  have queued : pending (s.startOpen path flags owner).queue =
      pending s.queue ++ [(path, s.files.allocated)] := by
    simp [Server.startOpen, Server.chainPath, pending]
  refine ⟨booked.counted.insert, ?_, ?_, ?_⟩
  · intro named other member
    rw [queued, List.mem_append] at member
    rcases member with before | added
    · obtain ⟨bound, opening, labelled⟩ := booked.opens named other before
      have same : (s.startOpen path flags owner).files.heap other = s.files.heap other :=
        Files.insert_of_ne bound.ne
      rw [same]
      exact ⟨Nat.lt_succ_of_lt bound, opening, labelled⟩
    · cases List.mem_singleton.mp added
      have fresh : (s.startOpen path flags owner).files.heap s.files.allocated =
          { path, opening := true } := Files.insert_self
      rw [fresh]
      exact ⟨Nat.lt_succ_self _, rfl, rfl⟩
  · rw [queued, List.nodup_append]
    refine ⟨booked.once, List.nodup_singleton _, ?_⟩
    rintro ⟨named, other⟩ before added fresh rfl
    cases List.mem_singleton.mp fresh
    exact absurd (booked.opens _ _ before).1 (Nat.lt_irrefl _)
  · intro other opening
    by_cases fresh : other = s.files.allocated
    · exact fresh ▸ Nat.lt_succ_self _
    · have same : (s.startOpen path flags owner).files.heap other = s.files.heap other :=
        Files.insert_of_ne fresh
      rw [same] at opening
      exact Nat.lt_succ_of_lt (booked.bounded other opening)

omit [DecidableEq Path] in
theorem join (bound : entry < s.files.allocated) : Booked (s.join job entry flags) := by
  have grants := addHandle_cases s.files entry job.owner flags
  have steady := Steady.granted grants
  exact Steady.booked { steady with } booked (booked.counted.granted grants bound)

omit [DecidableEq Path] in
theorem modify (entry : Nat) (change : Entry Path → Entry Path)
    (opening : ∀ e, (change e).opening = e.opening) (path : ∀ e, (change e).path = e.path)
    (refs : ∀ e, (change e).refs = e.refs) :
    Booked { s with files := s.files.modify entry change } :=
  (Steady.modify opening path).booked booked (booked.counted.modify path refs)

omit [DecidableEq Path] in
theorem parkOnEntry : Booked (s.parkOnEntry job entry) :=
  booked.modify entry (fun e => { e with waiters := e.waiters ++ [job] }) (fun _ => rfl)
    (fun _ => rfl) (fun _ => rfl)

omit [DecidableEq Path] in
theorem pins (count : Nat → Nat) : Booked
    { s with files := s.files.modify entry fun e => { e with pins := count e.pins }, awaiting } :=
  (booked.modify entry (fun e => { e with pins := count e.pins }) (fun _ => rfl) (fun _ => rfl)
    fun _ => rfl).of_eq rfl rfl

theorem releaseEntry : Booked (s.releaseEntry entry) :=
  Steady.releaseEntry.booked booked booked.counted.releaseEntry

theorem openFresh : Booked (s.openFresh job flags path) := by
  have opened := booked.startOpen path flags (some job.owner)
  unfold Server.openFresh
  split_ifs
  · exact opened.join (Nat.lt_succ_self _)
  · exact opened.parkOnEntry

omit [DecidableEq Path] in
theorem chainPath {path : Path} (closed : ∀ entry flags owner, task ≠ .open entry flags owner) :
    Booked (s.chainPath path task) :=
  (Steady.chained closed).booked booked booked.counted

theorem jobStep (taken : JobStep settings s job t) : Booked t := by
  cases taken with
  | completes | continues | writes | writesOn => exact booked.of_eq rfl rfl
  | parks => exact booked.parkOnEntry
  | probes | removes => exact booked.chainPath nofun
  | unpins => exact chainPath (releaseEntry (booked.pins fun _ => 0)) nofun
  | joins _ _ indexed => exact booked.join (booked.counted.indexed _ _ indexed).1
  | @truncates flags _ entry _ _ indexed =>
    have joined : Booked (s.join job entry flags) :=
      booked.join (booked.counted.indexed _ _ indexed).1
    exact joined.of_eq rfl rfl
  | opens => exact booked.openFresh
  | reopens =>
    apply openFresh
    exact Steady.forget.booked booked booked.counted.forget
  | closes _ member =>
    have closed := Steady.closeHandle.booked booked (booked.counted.closeHandle member)
    exact closed.of_eq rfl rfl

end

/-- The task of the entry has left the queue. -/
theorem settleEntry (counted : Counted s.files) (bound : entry < s.files.allocated)
    (opens : ∀ path other, (path, other) ∈ pending s.queue → other ≠ entry ∧
      other < s.files.allocated ∧ (s.files.heap other).opening = true ∧
      (s.files.heap other).path = path) (once : (pending s.queue).Nodup)
    (bounded : ∀ other, (s.files.heap other).opening = true → other < s.files.allocated) :
    Booked (s.settleEntry settings entry status) := by
  apply settleEntry_induction (P := fun t => Booked t ∧ entry < t.files.allocated) (Q := Booked)
  · refine ⟨⟨counted.modify (fun _ => rfl) (fun _ => rfl), ?_, once, ?_⟩, bound⟩
    · intro path other member
      obtain ⟨different, bounded, opening, labelled⟩ := opens path other member
      rw [Files.modify_of_ne different]
      exact ⟨bounded, opening, labelled⟩
    · intro other opening
      by_cases same : other = entry
      · exact same ▸ bound
      · rw [Files.modify_of_ne same] at opening
        exact bounded other opening
  · rintro t u job - woken ⟨booked, bound⟩
    cases woken with
    | again | refused => exact ⟨booked.of_eq rfl rfl, bound⟩
    | @granted flags _ _ =>
      have joined : Booked (t.join job entry flags) := booked.join bound
      refine ⟨joined.of_eq rfl rfl, ?_⟩
      have kept := (Steady.granted (addHandle_cases t.files entry job.owner flags)).allocated
      exact kept ▸ bound
  · rintro t ⟨booked, -⟩
    exact Steady.sweep.booked booked booked.counted.sweep

section
variable (booked : Booked s)
include booked

theorem popped (taken : KeyedQueue.pop path s.queue = some (task, queue)) :
    Booked { s with queue, started } := by
  have shorter : (pending queue).Sublist (pending ((path, task) :: queue)) :=
    (List.sublist_cons_self ..).filterMap _
  have same : (pending s.queue).Perm (pending ((path, task) :: queue)) :=
    (KeyedQueue.pop_perm taken).filterMap _
  refine ⟨booked.counted, ?_, (same.nodup_iff.mp booked.once).sublist shorter, booked.bounded⟩
  intro named entry member
  exact booked.opens named entry (same.mem_iff.mpr (shorter.subset member))

theorem conclude_open
    (taken :
    KeyedQueue.pop path s.queue = some (.open entry flags owner, queue)) :
    Booked ({ s with queue, started }.settleEntry settings entry status) := by
  have left : Booked { s with queue, started } := booked.popped taken
  have same := pending_of_pop taken
  obtain ⟨bound, -, labelled⟩ := booked.opens path entry (same.mem_iff.mpr List.mem_cons_self)
  refine settleEntry left.counted bound ?_ left.once left.bounded
  intro named other waiting
  refine ⟨?_, left.opens named other waiting⟩
  -- The entry had one open in the queue, and that one was taken.
  rintro rfl
  have unique := (List.nodup_cons.mp (same.nodup_iff.mp booked.once)).1
  rw [← labelled, (left.opens named other waiting).2.2] at unique
  exact unique waiting

theorem concluded (taken : KeyedQueue.pop path s.queue = some (task, queue))
    (concludes : Concluded settings { s with queue, started } task t) : Booked t := by
  have left : Booked { s with queue, started } := booked.popped taken
  cases concludes with
  | settled => exact booked.conclude_open taken
  | probed | removed => exact left.of_eq rfl rfl
  | released => exact left

theorem applyRevocation (instanceId : Int) :
    Booked (s.applyRevocation instanceId) := by
  have closed : Booked ((s.owned instanceId).foldl Server.closeId s) := by
    apply closeAll_induction booked
    intro t handle booked member _ _
    exact Steady.closeHandle.booked booked (booked.counted.closeHandle member)
  exact closed.of_eq rfl rfl

theorem next (taken : next settings s label = some t) : Booked t := by
  cases next_cases taken with
  | post | scan | start | revoke | reset | attach | detach | rests => exact booked.of_eq rfl rfl
  | act => exact booked.of_eq perform_kept.1 perform_kept.2.1
  | @run _ job ready _ _ stepped =>
    have popped : Booked { s with ready } := booked.of_eq rfl rfl
    exact popped.jobStep stepped
  | finish popped concludes => exact booked.concluded popped concludes
  | preopens => exact (booked.startOpen ..).pins (· + 1)
  | pins => exact booked.pins (· + 1)
  | unpins => exact booked.pins (· - 1)
  | releases => exact releaseEntry (booked.pins (· - 1))
  | applyRevocation => exact booked.applyRevocation _

end

end Booked
end Steps

section Guarded
variable {Path : Type} [DecidableEq Path] {s : Server Path}

/-- Once `REVOKED` is stored, the word of the instance says so until it is reset. -/
structure Guarded (settings : Settings) (instances : Instances) : Prop where
  bounded : ∀ instanceId, instances.sealedEras instanceId ≤ instances.era instanceId + 1
  inRange : ∀ instanceId, instances.SealedNow instanceId → settings.InRange instanceId
  standing : ∀ instanceId, instances.SealedNow instanceId →
    instances.state instanceId = .revoking ∨ instances.state instanceId = .revoked

theorem instances_jobStep (taken : JobStep settings s job t) : t.instances = s.instances := by
  cases taken with
  | completes | parks | probes | removes | joins | truncates | continues | writes | writesOn => rfl
  | unpins => exact Steady.releaseEntry.instances
  | opens | reopens =>
    unfold Server.openFresh
    split_ifs <;> rfl
  | closes => exact Steady.closeHandle.instances

theorem instances_concluded (concludes : Concluded settings s task t) :
    t.instances = s.instances := by
  cases concludes with
  | settled =>
    apply settleEntry_induction (P := fun t => t.instances = s.instances)
      (Q := fun t => t.instances = s.instances)
    · rfl
    · intro _ _ _ _ woken same
      cases woken with
      | again | refused | granted => exact same
    · intro t same
      exact (Steady.sweep (s := t)).instances.trans same
  | probed | removed | released => rfl

theorem instances_closeAll :
    ((s.owned instanceId).foldl Server.closeId s).instances = s.instances := by
  apply closeAll_induction (P := fun t => t.instances = s.instances) rfl
  intro t handle same _ _ _
  exact (Steady.closeHandle (s := t)).instances.trans same

theorem instances_applyRevocation (instanceId : Int) :
    (s.applyRevocation instanceId).instances = s.instances.storeRevoked instanceId := by
  unfold Server.applyRevocation
  dsimp only
  rw [instances_closeAll]

namespace Guarded

theorem initial : Guarded settings ({} : Instances) where
  bounded _ := Nat.zero_le _
  inRange _ sealedNow := absurd sealedNow (Nat.not_lt_zero _)
  standing _ sealedNow := absurd sealedNow (Nat.not_lt_zero _)

section
variable (guarded : Guarded settings instances)
include guarded

theorem isRevoked (sealedNow : instances.SealedNow instanceId) :
    instances.isRevoked settings instanceId = true := by
  obtain ⟨lower, upper⟩ := guarded.inRange instanceId sealedNow
  have ordinary : instanceId ≠ scratchInstance := by
    have small := settings.maxInstances_le
    omega
  have inside : ¬ (instanceId < 0 ∨ (settings.maxInstances : Int) ≤ instanceId) := by
    omega
  unfold Instances.isRevoked Instances.instanceState
  rw [if_neg ordinary, if_neg inside]
  rcases guarded.standing instanceId sealedNow with revoking | revoked
  · simp [revoking]
  · simp [revoked]

theorem put (fits : instances.SealedNow instanceId → state = .revoking ∨ state = .revoked) :
    Guarded settings (instances.put instanceId state) where
  bounded := guarded.bounded
  inRange := guarded.inRange
  standing := by
    intro other sealedNow
    by_cases same : other = instanceId
    · subst same
      simpa [Instances.put] using fits sealedNow
    · simpa [Instances.put, same] using guarded.standing other sealedNow

theorem loaded (loaded : instances.Loaded instanceId observed) (unrevoking : observed ≠ .revoking)
    (unrevoked : observed ≠ .revoked) : ¬ instances.SealedNow instanceId := by
  intro sealedNow
  rcases loaded with same | ⟨-, unsealed⟩
  · rcases guarded.standing instanceId sealedNow with revoking | revoked
    · exact unrevoking (same.trans revoking)
    · exact unrevoked (same.trans revoked)
  · exact unsealed sealedNow

theorem storeRevoked (range : settings.InRange instanceId) :
    Guarded settings (instances.storeRevoked instanceId) where
  bounded := by
    intro other
    by_cases same : other = instanceId
    · subst same
      simp [Instances.storeRevoked, Instances.put]
    · simpa [Instances.storeRevoked, Instances.put, same] using guarded.bounded other
  inRange := by
    intro other sealedNow
    by_cases same : other = instanceId
    · exact same ▸ range
    · apply guarded.inRange other
      simpa [Instances.SealedNow, Instances.storeRevoked, Instances.put, same] using sealedNow
  standing := by
    intro other sealedNow
    by_cases same : other = instanceId
    · subst same
      simp [Instances.storeRevoked, Instances.put]
    · have before : instances.SealedNow other := by
        simpa [Instances.SealedNow, Instances.storeRevoked, Instances.put, same] using sealedNow
      simpa [Instances.storeRevoked, Instances.put, same] using guarded.standing other before

theorem of_reset (sealedNow : (instances.reset instanceId).SealedNow other) :
    other ≠ instanceId ∧ instances.SealedNow other := by
  by_cases same : other = instanceId
  · subst same
    have ended : instances.era other + 1 < instances.sealedEras other := by
      simpa [Instances.SealedNow, Instances.reset, Instances.put] using sealedNow
    exact absurd ended (Nat.not_lt.mpr (guarded.bounded other))
  · exact ⟨same, by simpa [Instances.SealedNow, Instances.reset, Instances.put, same] using sealedNow⟩

theorem reset :
    Guarded settings (instances.reset instanceId) where
  bounded := by
    intro other
    refine (guarded.bounded other).trans (Nat.succ_le_succ ?_)
    by_cases same : other = instanceId
    · subst same
      simp [Instances.reset]
    · simp [Instances.reset, same]
  inRange := by
    intro other sealedNow
    exact guarded.inRange other (guarded.of_reset sealedNow).2
  standing := by
    intro other sealedNow
    obtain ⟨different, earlier⟩ := guarded.of_reset sealedNow
    simpa [Instances.reset, Instances.put, different] using guarded.standing other earlier

end

theorem next (guarded : Guarded settings s.instances) (taken : next settings s label = some t) :
    Guarded settings t.instances := by
  cases next_cases taken with
  | post | scan | start | preopens | pins | unpins | rests => exact guarded
  | @act path task _ =>
    have same : (s.perform path task).instances = s.instances := perform_kept.2.2
    exact same ▸ guarded
  | run _ stepped =>
    have same := instances_jobStep stepped
    exact same ▸ guarded
  | finish _ concludes =>
    have same := instances_concluded concludes
    exact same ▸ guarded
  | releases =>
    rw [Steady.releaseEntry.instances]
    exact guarded
  | revoke => exact guarded.put fun _ => .inl rfl
  | applyRevocation range =>
    rw [instances_applyRevocation]
    exact guarded.storeRevoked range
  | reset => exact guarded.reset
  | attach loaded unrevoking unrevoked =>
    exact guarded.put fun sealedNow => absurd sealedNow (guarded.loaded loaded unrevoking unrevoked)
  | detach loaded =>
    refine guarded.put fun sealedNow => absurd sealedNow (guarded.loaded loaded ?_ ?_)
    · intro same
      cases same
    · intro same
      cases same

end Guarded

end Guarded

section Runs
variable {Path : Type} [DecidableEq Path] [Inhabited Path] {settings : Settings}
  {labels : List (Label Path)} {last : Server Path}

/-- In every run, handle ids are distinct, an entry counts its handles, a path leads to an entry
of that path, and an open is queued at most once, for an entry that waits for it. -/
theorem table_sound (trace : Trace (next settings) Free initial labels last) :
    (last.files.handles.map Handle.id).Nodup ∧
      (∀ entry, (last.files.heap entry).refs = last.files.handles.countP (·.entry = entry)) ∧
      (∀ path entry, last.files.entries path = some entry → (last.files.heap entry).path = path) ∧
      (pending last.queue).Nodup ∧ ∀ path entry, (path, entry) ∈ pending last.queue →
        (last.files.heap entry).opening = true ∧ (last.files.heap entry).path = path := by
  have booked : Booked last := trace.invariant .initial fun _ _ _ _ taken booked => booked.next taken
  obtain ⟨⟨indexed, _, ids, refs⟩, opens, once, _⟩ := booked
  exact ⟨ids, refs, fun path entry found => (indexed path entry found).2, once,
    fun path entry queued => (opens path entry queued).2⟩

theorem table_sound_opening : ∃ last,
    Trace (next ⟨4, by decide, 1024⟩) Free initial
      [.post ⟨0, 1, .open Flags.read (.ok "a")⟩, .scan 0, .run .unresolved] last ∧
      pending last.queue = [("a", 0)] ∧ (last.files.handles.map Handle.id).Nodup :=
  Trace.of_view_and (fun s => pending s.queue) (fun _ trace _ => (table_sound trace).1) (by decide)

end Runs

section Accesses
variable {Path : Type} [DecidableEq Path] {settings : Settings}

/-- `attachMemory` or `detachMemory` between its load and its store. -/
structure Pending where
  attaches : Bool
  instanceId : Int
  observed : InstanceState

/-- The server with its thread at rest or between the two accesses. -/
structure Threads (Path : Type) where
  server : Server Path
  pending : Option Pending := none

inductive Access (Path : Type) where
  | load (attaches : Bool) (instanceId : Int)
  | store
  | label (label : Label Path)

/-- What goes on while the server thread is busy: the steps of the other threads. -/
def Label.goesOn (busy : Bool) : Label Path → Bool
  | .attach _ _ | .detach _ _ => false
  | .post _ | .revoke _ | .reset _ => true
  | _ => !busy

def Pending.store (pending : Pending) (s : Server Path) : Server Path :=
  if pending.attaches then
    if pending.observed = .revoking ∨ pending.observed = .revoked then s
    else { s with instances := s.instances.put pending.instanceId .attached }
  else if pending.observed = .attached then
    { s with instances := s.instances.put pending.instanceId .none }
  else s

def access (settings : Settings) (t : Threads Path) : Access Path → Option (Threads Path)
  | .load attaches instanceId =>
    if t.pending.isNone ∧ settings.InRange instanceId then
      some { t with pending := some ⟨attaches, instanceId, t.server.instances.state instanceId⟩ }
    else none
  | .store => t.pending.map fun pending => ⟨pending.store t.server, none⟩
  | .label label =>
    if label.goesOn t.pending.isSome then
      (next settings t.server label).map fun server => { t with server }
    else none

/-- What the other threads leave of a loaded state that lets the store happen. -/
structure Stands (settings : Settings) (instances : Instances) (pending : Pending) : Prop where
  inRange : settings.InRange pending.instanceId
  unsealed : pending.observed ≠ .revoking → pending.observed ≠ .revoked →
    ¬ instances.SealedNow pending.instanceId
  state : pending.observed ≠ .revoking → pending.observed ≠ .revoked →
    instances.state pending.instanceId = pending.observed ∨
      instances.state pending.instanceId = .revoking ∨
      instances.state pending.instanceId = .none

namespace Stands
variable {instances : Instances} {pending : Pending}

theorem loaded (guarded : Guarded settings instances) (inRange : settings.InRange instanceId) :
    Stands settings instances ⟨attaches, instanceId, instances.state instanceId⟩ where
  inRange := inRange
  unsealed unrevoking unrevoked := guarded.loaded (.inl rfl) unrevoking unrevoked
  state _ _ := .inl rfl

theorem put (stands : Stands settings instances pending) :
    Stands settings (instances.put instanceId .revoking) pending where
  inRange := stands.inRange
  unsealed := stands.unsealed
  state unrevoking unrevoked := by
    by_cases same : pending.instanceId = instanceId
    · simp [Instances.put, same]
    · simpa [Instances.put, same] using stands.state unrevoking unrevoked

theorem reset (guarded : Guarded settings instances) (stands : Stands settings instances pending) :
    Stands settings (instances.reset instanceId) pending where
  inRange := stands.inRange
  unsealed unrevoking unrevoked sealedNow :=
    stands.unsealed unrevoking unrevoked (guarded.of_reset sealedNow).2
  state unrevoking unrevoked := by
    by_cases same : pending.instanceId = instanceId
    · simp [Instances.reset, Instances.put, same]
    · simpa [Instances.reset, Instances.put, same] using stands.state unrevoking unrevoked

/-- The store is one of a state that may have been loaded, or changes nothing. -/
theorem store {s : Server Path} (stands : Stands settings s.instances pending) :
    pending.store s = s ∨ ∃ label, next settings s label = some (pending.store s) := by
  obtain ⟨attaches, instanceId, observed⟩ := pending
  obtain ⟨inRange, unsealed, state⟩ := stands
  dsimp only at inRange unsealed state
  unfold Pending.store
  cases attaches
  all_goals dsimp only
  · by_cases attached : observed = .attached
    · subst attached
      rw [if_neg Bool.false_ne_true, if_pos rfl]
      rcases state nofun nofun with same | revoking | none
      · exact .inr ⟨.detach instanceId .attached, by simp [next, inRange, Instances.Loaded, same]⟩
      · refine .inr ⟨.detach instanceId .attached, ?_⟩
        simp [next, inRange, Instances.Loaded, revoking, unsealed nofun nofun]
      · refine .inl ?_
        rw [Instances.put, ← none, Function.update_eq_self]
    · exact .inl (by rw [if_neg Bool.false_ne_true, if_neg attached])
  · rw [if_pos rfl]
    split_ifs with refused
    · exact .inl rfl
    · obtain ⟨unrevoking, unrevoked⟩ := not_or.mp refused
      right
      rcases state unrevoking unrevoked with same | revoking | none
      · exact ⟨.attach instanceId observed, by simp [next, inRange, Instances.Loaded, same, refused]⟩
      · refine ⟨.attach instanceId observed, ?_⟩
        simp [next, inRange, Instances.Loaded, revoking, unsealed unrevoking unrevoked, refused]
      · exact ⟨.attach instanceId .none, by simp [next, inRange, Instances.Loaded, none]⟩

end Stands

variable [Inhabited Path]

/-- The server is one that whole calls of attach and detach can lead to. -/
structure Simulated (settings : Settings) (t : Threads Path) : Prop where
  reached : ∃ labels, Trace (next settings) Free initial labels t.server
  stands : ∀ pending ∈ t.pending, Stands settings t.server.instances pending

namespace Simulated
variable {t u : Threads Path}

theorem guarded (simulated : Simulated settings t) : Guarded settings t.server.instances := by
  obtain ⟨labels, trace⟩ := simulated.reached
  exact trace.invariant (P := fun s => Guarded settings s.instances) .initial
    fun _ _ _ _ taken guarded => guarded.next taken

theorem next (simulated : Simulated settings t) (taken : access settings t label = some u) :
    Simulated settings u := by
  obtain ⟨labels, trace⟩ := simulated.reached
  cases label with
  | load attaches instanceId =>
    rw [access] at taken
    split_ifs at taken with free
    cases taken
    refine ⟨⟨labels, trace⟩, ?_⟩
    rintro pending ⟨⟩
    exact .loaded simulated.guarded free.2
  | store =>
    obtain ⟨pending, found, rfl⟩ := Option.map_eq_some_iff.mp taken
    refine ⟨?_, fun pending member => (Option.not_mem_none pending member).elim⟩
    rcases (simulated.stands pending found).store with same | ⟨label, stored⟩
    · exact ⟨labels, by rwa [same]⟩
    · exact ⟨labels ++ [label], .next trace trivial stored⟩
  | label label =>
    rw [access] at taken
    split_ifs at taken with goesOn
    obtain ⟨server, stepped, rfl⟩ := Option.map_eq_some_iff.mp taken
    refine ⟨⟨labels ++ [label], .next trace trivial stepped⟩, ?_⟩
    intro pending found
    have stands := simulated.stands pending found
    -- the other threads post, revoke and reset; nothing else goes on
    rw [Option.mem_def.mp found] at goesOn
    cases label with
    | post request =>
      cases stepped
      exact stands
    | revoke instanceId =>
      simp only [FlatsqlIoServer.next, Option.ite_none_right_eq_some] at stepped
      cases stepped.2
      exact stands.put
    | reset instanceId =>
      simp only [FlatsqlIoServer.next, Option.ite_none_right_eq_some] at stepped
      cases stepped.2
      exact stands.reset simulated.guarded
    | scan | run | start | act | finish | preopen | resume | releasePreopen | applyRevocation
    | attach | detach => cases goesOn

end Simulated

/-- Once `REVOKED` is stored for an instance, every check finds it revoked until it is reset,
whatever is attached, detached or revoked in between, and wherever the other threads come
between a load and its store. -/
theorem revoked_until_reset {labels : List (Access Path)} {last : Threads Path}
    (trace : Trace (access settings) Free ⟨initial, none⟩ labels last)
    (sealedNow : last.server.instances.SealedNow instanceId) :
    last.server.instances.isRevoked settings instanceId = true := by
  have simulated : Simulated settings last := by
    refine trace.invariant ⟨⟨[], .start⟩, ?_⟩ fun _ _ _ _ taken simulated => simulated.next taken
    exact fun pending member => (Option.not_mem_none pending member).elim
  exact simulated.guarded.isRevoked sealedNow

/-- The first attach stores over a `REVOKING` that came after its load. The second one
finds `REVOKED`, and the instance is revoked again before it ends. -/
theorem revoked_until_reset_again : ∃ last : Threads String,
    Trace (access ⟨4, by decide, 1024⟩) Free ⟨initial, none⟩
      [.load true 1, .label (.revoke 1), .store, .label (.revoke 1),
        .label (.applyRevocation 1), .load true 1, .label (.revoke 1), .store] last ∧
      decide (last.server.instances.SealedNow 1) = true ∧
      last.server.instances.isRevoked ⟨4, by decide, 1024⟩ 1 = true :=
  Trace.of_view_and (fun t : Threads String => decide (t.server.instances.SealedNow 1))
    (fun _ trace stored => revoked_until_reset trace (of_decide_eq_true stored)) (by decide)

end Accesses

end SpaceDataModule.FlatsqlIoServer

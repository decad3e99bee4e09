import SpaceDataModule.FlatsqlIoServer.Table
import SpaceDataModule.Transition

/-! One open file per path. An entry that has a handle and has not failed is the one its path
leads to. An open that nobody refers to any more may still be pending; whoever started it and
waits for it is then `gone`, and gets no handle. -/
namespace SpaceDataModule.FlatsqlIoServer
open FlatsqlIo Transition

section Sound
variable {Path : Type}

/-- The requests that started the open of an entry and wait for it satisfy `P`. -/
def Files.Creators (files : Files Path) (entry : Nat) (P : Int → Prop) : Prop :=
  ∀ job ∈ (files.heap entry).waiters, job.phase = .creator entry → P job.instanceId

structure Sound (gone : Int → Prop) (files : Files Path) : Prop where
  shared : ∀ handle ∈ files.handles, (files.heap handle.entry).Unfailed →
    files.Current handle.entry
  creators : ∀ entry, (files.heap entry).opening = true → ¬ files.Current entry →
    ∀ job ∈ (files.heap entry).waiters, job.phase = .creator entry → gone job.instanceId

structure Similar (files after : Files Path) : Prop where
  path : ∀ entry, (after.heap entry).path = (files.heap entry).path
  opening : ∀ entry, (after.heap entry).opening = (files.heap entry).opening
  openStatus : ∀ entry, (after.heap entry).openStatus = (files.heap entry).openStatus

structure Alike (files after : Files Path) : Prop extends Similar files after where
  waiters : ∀ entry, (after.heap entry).waiters = (files.heap entry).waiters

section Agreement
variable {files : Files Path} {change : Entry Path → Entry Path}

namespace Similar

theorem modify (path : ∀ e, (change e).path = e.path)
    (opening : ∀ e, (change e).opening = e.opening)
    (openStatus : ∀ e, (change e).openStatus = e.openStatus) :
    Similar files (files.modify entry change) where
  path _ := Files.modify_kept Entry.path change (path _)
  opening _ := Files.modify_kept Entry.opening change (opening _)
  openStatus _ := Files.modify_kept Entry.openStatus change (openStatus _)

theorem park (job : Job Path) :
    Similar files (files.modify entry fun e => { e with waiters := e.waiters ++ [job] }) :=
  modify (fun _ => rfl) (fun _ => rfl) (fun _ => rfl)

theorem unfailed (similar : Similar files after) :
    (after.heap entry).Unfailed ↔ (files.heap entry).Unfailed := by
  unfold Entry.Unfailed
  rw [similar.opening, similar.openStatus]

theorem current (similar : Similar files after) (entries : after.entries = files.entries) :
    after.Current entry ↔ files.Current entry := by
  unfold Files.Current
  rw [similar.path, entries]

end Similar

namespace Alike

theorem granted (grants : files.Granted entry owner flags after) :
    Alike files after where
  path := grants.kept Entry.path fun _ => rfl
  opening := grants.kept Entry.opening fun _ => rfl
  openStatus := grants.kept Entry.openStatus fun _ => rfl
  waiters := grants.kept Entry.waiters fun _ => rfl

theorem dropHandle : Alike files (files.dropHandle handle) := by
  have similar : Similar files
      (files.modify handle.entry fun e => { e with refs := e.refs - 1 }) :=
    .modify (fun _ => rfl) (fun _ => rfl) (fun _ => rfl)
  refine ⟨{ similar with }, ?_⟩
  intro entry
  exact Files.modify_kept Entry.waiters (fun e => { e with refs := e.refs - 1 }) rfl

theorem detach [DecidableEq Path] : Alike files (files.detach entry) where
  path _ := Files.detach_kept Entry.path fun _ _ => rfl
  opening _ := Files.detach_kept Entry.opening fun _ _ => rfl
  openStatus _ := Files.detach_kept Entry.openStatus fun _ _ => rfl
  waiters _ := Files.detach_kept Entry.waiters fun _ _ => rfl

theorem pins (count : Nat → Nat) :
    Alike files (files.modify entry fun e => { e with pins := count e.pins }) where
  toSimilar := .modify (fun _ => rfl) (fun _ => rfl) (fun _ => rfl)
  waiters _ := Files.modify_kept Entry.waiters _ rfl

end Alike
end Agreement

namespace Sound
variable {gone wider : Int → Prop} {files : Files Path}

theorem initial [Inhabited Path] : Sound gone (initial : Server Path).files where
  shared := nofun
  creators := nofun

section
variable (sound : Sound gone files)
include sound

theorem mono
    (wide : ∀ entry, (files.heap entry).opening = true → ¬ files.Current entry →
      ∀ job ∈ (files.heap entry).waiters, job.phase = .creator entry → gone job.instanceId →
        wider job.instanceId) :
    Sound wider files where
  shared := sound.shared
  creators := by
    intro entry opening detached job member creator
    exact wide entry opening detached job member creator
      (sound.creators entry opening detached job member creator)

theorem alike (alike : Alike files after)
    (handles : ∀ handle ∈ after.handles, (files.heap handle.entry).Unfailed → after.Current handle.entry)
    (detached : ∀ entry, (files.heap entry).opening = true → files.Current entry →
      ¬ after.Current entry → files.Creators entry gone) :
    Sound gone after where
  shared := by
    intro handle member unfailed
    exact handles handle member (alike.unfailed.mp unfailed)
  creators := by
    intro entry opening absent job member creator
    rw [alike.opening] at opening
    rw [alike.waiters] at member
    by_cases before : files.Current entry
    · exact detached entry opening before absent job member creator
    · exact sound.creators entry opening before job member creator

theorem kept (alike : Alike files after) (entries : after.entries = files.entries)
    (handles : after.handles ⊆ files.handles) :
    Sound gone after := by
  apply sound.alike alike
  · intro handle member unfailed
    rw [alike.current entries]
    exact sound.shared handle (handles member) unfailed
  · intro entry _ before absent
    rw [alike.current entries] at absent
    exact absurd before absent

theorem granted (grants : files.Granted entry owner flags after)
    (unfailed : (files.heap entry).Unfailed → files.Current entry) : Sound gone after := by
  have alike := Alike.granted grants
  apply sound.alike alike
  · intro handle member stays
    rw [alike.current grants.entries]
    rcases grants.mem_handles member with known | added
    · exact sound.shared handle known stays
    · rw [added] at stays ⊢
      exact unfailed stays
  · intro other _ before absent
    rw [alike.current grants.entries] at absent
    exact absurd before absent

theorem dropHandle : Sound gone (files.dropHandle handle) :=
  sound.kept .dropHandle rfl List.filter_sublist.subset

theorem parkOnEntry (current : files.Current entry) (job : Job Path) :
    Sound gone (files.modify entry fun e => { e with waiters := e.waiters ++ [job] }) := by
  have similar : Similar files
      (files.modify entry fun e => { e with waiters := e.waiters ++ [job] }) := .park job
  constructor
  · intro handle member unfailed
    rw [similar.current rfl]
    exact sound.shared handle member (similar.unfailed.mp unfailed)
  · intro other opening absent waiter member creator
    rw [similar.current rfl] at absent
    have different : other ≠ entry := by
      rintro rfl
      exact absent current
    rw [Files.modify_of_ne different] at opening member
    exact sound.creators other opening absent waiter member creator

theorem settled (opening : (files.heap entry).opening = true) (status : Int) :
    Sound gone (files.modify entry (Entry.settled status)) := by
  have same {other : Nat} : (files.modify entry (Entry.settled status)).Current other ↔
      files.Current other := by
    unfold Files.Current
    rw [Files.modify_kept Entry.path (Entry.settled status) rfl]
    rfl
  constructor
  · intro handle member unfailed
    refine same.mpr (sound.shared handle member ?_)
    by_cases equal : handle.entry = entry
    · exact equal ▸ .inl opening
    · rwa [Files.modify_of_ne equal] at unfailed
  · intro other stays absent waiter member creator
    have different : other ≠ entry := by
      rintro rfl
      rw [Files.modify_self] at stays
      cases stays
    rw [Files.modify_of_ne different] at stays member
    exact sound.creators other stays (mt same.mpr absent) waiter member creator

end

section Tables
variable [DecidableEq Path]

theorem current_detach (different : other ≠ entry) :
    (files.detach entry).Current other ↔ files.Current other := by
  unfold Files.Current
  rw [Files.detach_kept Entry.path (fun _ _ => rfl), Files.detach_entries]
  constructor
  · exact And.left
  · intro before
    refine ⟨before, fun same => ?_⟩
    cases before.symm.trans same
    exact absurd rfl different

theorem current_insert (vacant : files.entries path = none) (different : other ≠ files.allocated) :
    (files.insert path).Current other ↔ files.Current other := by
  unfold Files.Current
  rw [Files.insert_of_ne different]
  unfold Files.insert
  dsimp only
  by_cases equal : (files.heap other).path = path
  · rw [equal, vacant]
    simp [Ne.symm different]
  · rw [Function.update_of_ne equal]

theorem current_fresh : (files.insert path).Current files.allocated := by
  unfold Files.Current
  rw [Files.insert_self]
  exact Function.update_self ..

section
variable (sound : Sound gone files)
include sound

theorem detach (counted : Counted files) (free : (files.heap entry).refs = 0)
    (orphans : (files.heap entry).opening = true → files.Creators entry gone) :
    Sound gone (files.detach entry) := by
  apply sound.alike .detach
  · intro handle member unfailed
    rw [current_detach (counted.unreferenced free member)]
    exact sound.shared handle member unfailed
  · intro other opening before absent job member creator
    by_cases same : other = entry
    · subst same
      exact orphans opening job member creator
    · rw [current_detach same] at absent
      exact absurd before absent

theorem insert (counted : Counted files)
    (vacant : files.entries path = none) : Sound gone (files.insert path) := by
  constructor
  · intro handle member unfailed
    have different := (counted.handled handle member).ne
    rw [Files.insert_of_ne different] at unfailed
    exact (current_insert vacant different).mpr (sound.shared handle member unfailed)
  · intro other opening absent job member creator
    by_cases fresh : other = files.allocated
    · subst fresh
      rw [Files.insert_self] at member
      cases member
    · rw [Files.insert_of_ne fresh] at opening member
      have detached := mt (current_insert vacant fresh).mpr absent
      exact sound.creators other opening detached job member creator

theorem forget (failed : ∀ entry, files.entries path = some entry → ¬ (files.heap entry).Unfailed) :
    Sound gone (files.forget path) := by
  have same {other : Nat} (unfailed : (files.heap other).Unfailed) :
      (files.forget path).Current other ↔ files.Current other := by
    unfold Files.Current
    rw [Files.forget_entries]
    constructor
    · exact And.left
    · intro before
      refine ⟨before, fun equal => failed other ?_ unfailed⟩
      exact equal ▸ before
  constructor
  · intro handle member unfailed
    exact (same unfailed).mpr (sound.shared handle member unfailed)
  · intro other opening absent job member creator
    exact sound.creators other opening (mt (same (.inl opening)).mpr absent) job member creator

end

end Tables
end Sound
end Sound

section Steps
variable {Path : Type} [DecidableEq Path] {s t : Server Path} {entry : Nat}

instance {P : Int → Prop} [DecidablePred P] : Decidable (Files.Creators files entry P) :=
  inferInstanceAs (Decidable (∀ job ∈ (files.heap entry).waiters, _ → _))

namespace Sound
variable {gone : Int → Prop}

section
variable (sound : Sound gone s.files)
include sound

section
variable (counted : Counted s.files)
include counted

theorem releaseEntry
    (orphans : (s.files.heap entry).opening = true → (s.files.heap entry).refs = 0 →
      (s.files.heap entry).pins = 0 → s.files.Creators entry gone) :
    Sound gone (s.releaseEntry entry).files := by
  unfold Server.releaseEntry
  dsimp only
  split_ifs with used deletes
  · exact sound
  all_goals
    obtain ⟨free, unpinned⟩ := not_or.mp used
    refine sound.detach counted (Nat.eq_zero_of_not_pos free) fun opening => ?_
    exact orphans opening (Nat.eq_zero_of_not_pos free) (Nat.eq_zero_of_not_pos unpinned)

/-- Closing the last handle of a pending open leaves its creators alone with it. -/
theorem closeHandle (member : handle ∈ s.files.handles)
    (orphans : (s.files.heap handle.entry).opening = true → (s.files.heap handle.entry).pins = 0 →
      (∀ other ∈ s.files.handles, other.entry = handle.entry → other = handle) →
        s.files.Creators handle.entry gone) :
    Sound gone (s.closeHandle handle).files := by
  have alike : Alike s.files (s.files.dropHandle handle) := .dropHandle
  unfold Server.closeHandle
  split_ifs
  · refine Sound.releaseEntry sound.dropHandle (counted.dropHandle member) ?_
    intro opening free unpinned
    rw [alike.opening] at opening
    rw [Files.dropHandle, Files.modify_kept Entry.pins _ rfl] at unpinned
    unfold Files.Creators
    rw [alike.waiters]
    refine orphans opening unpinned fun other present same => ?_
    exact counted.last_of_dropped member free present same
  · exact sound

theorem openFresh (vacant : s.files.entries path = none) :
    Sound gone (s.openFresh job flags path).files := by
  have opened : Sound gone (s.files.insert path) := sound.insert counted vacant
  unfold Server.openFresh
  split_ifs
  · exact opened.granted (addHandle_cases ..) fun _ => current_fresh
  · exact opened.parkOnEntry current_fresh _

theorem jobStep (taken : JobStep settings s job t) : Sound gone t.files := by
  cases taken with
  | completes | probes | removes | continues | writes | writesOn => exact sound
  | @parks entry _ refers opening =>
    refine sound.parkOnEntry ?_ job
    rcases refers with ⟨path, indexed⟩ | ⟨handle, member, rfl⟩
    · exact counted.current indexed
    · exact sound.shared handle member (.inl opening)
  | @unpins flags path entry _ _ indexed settled free =>
    have alike : Alike s.files (s.files.modify entry fun e => { e with pins := 0 }) :=
      .pins fun _ => 0
    have unpinned : Counted (s.files.modify entry fun e => { e with pins := 0 }) :=
      counted.modify (fun _ => rfl) (fun _ => rfl)
    refine Sound.releaseEntry (sound.kept alike rfl (List.Subset.refl _)) unpinned
      fun opening => ?_
    rw [alike.opening, settled] at opening
    cases opening
  | joins _ _ indexed | truncates _ _ indexed =>
    exact sound.granted (addHandle_cases ..) fun _ => counted.current indexed
  | opens _ _ vacant => exact sound.openFresh counted vacant
  | @reopens flags path entry _ _ indexed failed =>
    refine Sound.openFresh (sound.forget ?_) counted.forget (Function.update_self ..)
    intro other found
    cases indexed.symm.trans found
    exact failed
  | closes _ member settled =>
    exact sound.closeHandle counted member
      fun opening => absurd opening (ne_true_of_eq_false settled)

theorem sweep (settled : (s.files.heap entry).opening = false)
    (ended : (s.files.heap entry).openStatus = status) :
    Sound gone (s.sweep entry status).files := by
  unfold Server.sweep
  dsimp only
  split_ifs with failed
  · apply sound.forget
    intro other indexed
    cases failed.2.2.2.symm.trans indexed
    exact not_unfailed (ne_true_of_eq_false settled) (ended ▸ failed.1.ne)
  · exact sound.releaseEntry counted fun opening => absurd opening (ne_true_of_eq_false settled)
  · exact sound

end

end

end Sound

structure Settling (gone : Int → Prop) (s : Server Path) (entry : Nat) (status : Int)
    (t : Server Path) : Prop where
  sound : Sound gone t.files
  counted : Counted t.files
  instances : t.instances = s.instances
  queue : t.queue = s.queue
  allocated : t.files.allocated = s.files.allocated
  settled : (t.files.heap entry).opening = false
  ended : (t.files.heap entry).openStatus = status
  current : t.files.Current entry ↔ s.files.Current entry

namespace Settling
variable {gone : Int → Prop}

omit [DecidableEq Path] in
theorem start (sound : Sound gone s.files) (counted : Counted s.files)
    (opening : (s.files.heap entry).opening = true) :
    Settling gone s entry status
      { s with files := s.files.modify entry (Entry.settled status) } where
  sound := sound.settled opening status
  counted := counted.modify (fun _ => rfl) (fun _ => rfl)
  instances := rfl
  queue := rfl
  allocated := rfl
  settled := by
    rw [Files.modify_self]
    rfl
  ended := by
    rw [Files.modify_self]
    rfl
  current := by
    unfold Files.Current
    rw [Files.modify_self]
    rfl

section
variable (settling : Settling gone s entry status t)
include settling

omit [DecidableEq Path] in
/-- An entry that is not in the table any more hands out no handle to its creators. -/
theorem current_of_granted (sound : Sound gone s.files)
    (opening : (s.files.heap entry).opening = true)
    (refused : ∀ instanceId, gone instanceId → s.instances.isRevoked settings instanceId = true)
    (waiting : job ∈ (s.files.heap entry).waiters) (creator : job.phase = .creator entry)
    (unrevoked : t.instances.isRevoked settings job.instanceId = false) :
    t.files.Current entry := by
  by_contra detached
  have absent := mt settling.current.mpr detached
  have revoked := refused _ (sound.creators entry opening absent job waiting creator)
  rw [settling.instances, revoked] at unrevoked
  cases unrevoked

omit [DecidableEq Path] in
theorem again : Settling gone s entry status { t with ready } :=
  { settling with }

omit [DecidableEq Path] in
theorem granted (grants : t.files.Granted entry owner flags files)
    (bound : entry < s.files.allocated) (current : t.files.Current entry) :
    Settling gone s entry status { t with files, ready } := by
  have alike := Alike.granted grants
  exact ⟨settling.sound.granted grants fun _ => current,
    settling.counted.granted grants (settling.allocated ▸ bound), settling.instances,
    settling.queue, (Steady.granted grants).allocated.trans settling.allocated,
    (alike.opening _).trans settling.settled, (alike.openStatus _).trans settling.ended,
    (alike.current grants.entries).trans settling.current⟩

end

end Settling

theorem Sound.settleEntry (sound : Sound gone s.files) (counted : Counted s.files)
    (bound : entry < s.files.allocated) (opening : (s.files.heap entry).opening = true)
    (refused : ∀ instanceId, gone instanceId → s.instances.isRevoked settings instanceId = true) :
    Sound gone (s.settleEntry settings entry status).files := by
  apply settleEntry_induction (P := Settling gone s entry status)
    (Q := fun t => Sound gone t.files)
  · exact .start sound counted opening
  · intro t u job waiting woken settling
    cases woken with
    | again | refused => exact settling.again
    | granted _ _ creator _ unrevoked =>
      have current := settling.current_of_granted sound opening refused waiting creator unrevoked
      exact settling.granted (addHandle_cases ..) bound current
  · intro t settling
    exact settling.sound.sweep settling.counted settling.settled settling.ended

end Steps

section Runs
variable {Path : Type} [DecidableEq Path] {s t : Server Path}

/-- Revoking the instance takes the last reference of an open that is still pending. -/
def Files.Abandons (files : Files Path) (instanceId : Int) (entry : Nat) : Prop :=
  (files.heap entry).opening = true ∧ (files.heap entry).pins = 0 ∧
    (∃ handle ∈ files.handles, handle.entry = entry ∧ handle.instanceId = instanceId) ∧
    ∀ handle ∈ files.handles, handle.entry = entry → handle.instanceId = instanceId
  deriving Decidable

namespace Files.Abandons

omit [DecidableEq Path] in
theorem of_last (member : handle ∈ t.files.handles) (own : handle.instanceId = instanceId)
    (opening : (t.files.heap handle.entry).opening = true)
    (unpinned : (t.files.heap handle.entry).pins = 0)
    (last : ∀ other ∈ t.files.handles, other.entry = handle.entry → other = handle) :
    t.files.Abandons instanceId handle.entry := by
  refine ⟨opening, unpinned, ⟨handle, member, rfl, own⟩, ?_⟩
  intro other present same
  rw [last other present same]
  exact own

/-- Closing a handle of the instance adds nothing to what its revocation abandons. -/
theorem of_closeHandle (abandons : (t.closeHandle handle).files.Abandons instanceId entry)
    (counted : Counted t.files) (member : handle ∈ t.files.handles)
    (own : handle.instanceId = instanceId) : t.files.Abandons instanceId entry := by
  obtain ⟨opening, unpinned, ⟨other, present, refers, owner⟩, only⟩ := abandons
  rw [closeHandle_kept Entry.opening (fun _ _ => rfl) (fun _ _ => rfl)] at opening
  rw [closeHandle_kept Entry.pins (fun _ _ => rfl) (fun _ _ => rfl)] at unpinned
  refine ⟨opening, unpinned, ⟨other, closeHandle_handles present, refers, owner⟩, ?_⟩
  intro third known same
  by_cases closed : third = handle
  · rw [closed]
    exact own
  · refine only third ?_ same
    exact mem_closeHandle known fun equal => closed (counted.same_of_id known member equal)

end Files.Abandons

def Files.Unpins (files : Files Path) (entry : Nat) : Prop :=
  (files.heap entry).opening = true ∧ (files.heap entry).pins = 1 ∧ (files.heap entry).refs = 0
  deriving Decidable

/-- Nobody else waits, as its creator, for an open that a revocation or `releasePreopen`
leaves without a reference; and an id is not reset while its own such request waits. -/
def Attended (s : Server Path) : Label Path → Prop
  | .applyRevocation instanceId => ∀ entry < s.files.allocated,
      s.files.Abandons instanceId entry → s.files.Creators entry (· = instanceId)
  | .releasePreopen path => ∀ entry ∈ s.files.entries path,
      s.files.Unpins entry → s.files.Creators entry fun _ => False
  | .reset instanceId => ∀ entry < s.files.allocated, (s.files.heap entry).opening = true →
      ¬ s.files.Current entry → s.files.Creators entry (· ≠ instanceId)
  | _ => True

instance (label : Label Path) : Decidable (Attended s label) := by
  unfold Attended
  split <;> infer_instance

structure Shared (settings : Settings) (s : Server Path) : Prop where
  booked : Booked s
  guarded : Guarded settings s.instances
  sound : Sound s.instances.SealedNow s.files

namespace Shared

omit [DecidableEq Path] in
theorem initial [Inhabited Path] : Shared settings (initial : Server Path) :=
  ⟨.initial, .initial, .initial⟩

theorem sealedNow_storeRevoked {instances : Instances}
    (holds : instances.SealedNow other ∨ other = instanceId) :
    (instances.storeRevoked instanceId).SealedNow other := by
  by_cases same : other = instanceId
  · subst same
    simp [Instances.SealedNow, Instances.storeRevoked, Instances.put]
  · simpa [Instances.SealedNow, Instances.storeRevoked, Instances.put, same] using holds

/-- What holds while the handles of a revoked instance are closed: the creators of the opens
that are abandoned are its own. -/
structure Closing (sealedNow : Int → Prop) (instanceId : Int) (t : Server Path) : Prop where
  booked : Booked t
  sound : Sound (fun other => sealedNow other ∨ other = instanceId) t.files
  alone : ∀ entry, t.files.Abandons instanceId entry → t.files.Creators entry (· = instanceId)

theorem Closing.closeHandle (closing : Closing sealedNow instanceId t)
    (member : handle ∈ t.files.handles) (own : handle.instanceId = instanceId) :
    Closing sealedNow instanceId (t.closeHandle handle) := by
  obtain ⟨booked, sound, alone⟩ := closing
  refine ⟨Steady.closeHandle.booked booked (booked.counted.closeHandle member), ?_, ?_⟩
  · refine sound.closeHandle booked.counted member fun opening unpinned last => ?_
    have abandons := Files.Abandons.of_last member own opening unpinned last
    intro job waiting creator
    exact .inr (alone handle.entry abandons job waiting creator)
  · intro entry abandons
    unfold Files.Creators
    rw [closeHandle_kept Entry.waiters (fun _ _ => rfl) (fun _ _ => rfl)]
    exact alone entry (abandons.of_closeHandle booked.counted member own)

omit [DecidableEq Path] in
/-- The handles that `applyRevocation` closes are those of the instance. -/
theorem own_of_owned (counted : Counted s.files) (known : handle ∈ s.files.handles)
    (owned : handle.id ∈ s.owned instanceId) : handle.instanceId = instanceId := by
  obtain ⟨other, listed, same⟩ := List.mem_map.mp owned
  obtain ⟨present, owner⟩ := List.mem_filter.mp listed
  rw [counted.same_of_id known present same.symm]
  exact of_decide_eq_true owner

omit [DecidableEq Path] in
theorem closing (shared : Shared settings s) (attended : Attended s (.applyRevocation instanceId)) :
    Closing s.instances.SealedNow instanceId s := by
  refine ⟨shared.booked, shared.sound.mono fun _ _ _ _ _ _ => .inl, ?_⟩
  intro entry abandons
  exact attended entry (shared.booked.bounded entry abandons.1) abandons

theorem applyRevocation (shared : Shared settings s)
    (attended : Attended s (.applyRevocation instanceId)) :
    Sound (s.instances.storeRevoked instanceId).SealedNow
      (s.applyRevocation instanceId).files := by
  have counted := shared.booked.counted
  have closed : Closing s.instances.SealedNow instanceId
      ((s.owned instanceId).foldl Server.closeId s) := by
    apply closeAll_induction
    · exact shared.closing attended
    · intro t handle closing member known owned
      exact closing.closeHandle member (own_of_owned counted known owned)
  exact closed.sound.mono fun _ _ _ _ _ _ => sealedNow_storeRevoked

theorem next (shared : Shared settings s) (admitted : Attended s label)
    (taken : next settings s label = some t) : Shared settings t := by
  have booked := shared.booked.next taken
  have guarded := shared.guarded.next taken
  have counted := shared.booked.counted
  have sound := shared.sound
  refine ⟨booked, guarded, ?_⟩
  cases next_cases taken with
  | post | scan | start | rests | revoke | attach | detach => exact sound
  | act =>
    rw [perform_kept.1, perform_kept.2.2]
    exact sound
  | @run _ job ready _ _ stepped =>
    rw [instances_jobStep stepped]
    exact Sound.jobStep (s := { s with ready }) sound counted stepped
  | finish popped concludes =>
    rw [instances_concluded concludes]
    cases concludes with
    | settled entry flags owner status =>
      have queued := (pending_of_pop popped).mem_iff.mpr List.mem_cons_self
      obtain ⟨bound, opening, -⟩ := shared.booked.opens _ _ queued
      exact Sound.settleEntry sound counted bound opening
        fun instanceId sealedNow => shared.guarded.isRevoked sealedNow
    | probed | removed | released => exact sound
  | preopens vacant =>
    have opened := sound.insert counted vacant
    exact Sound.kept opened (.pins (· + 1)) rfl (List.Subset.refl _)
  | pins => exact Sound.kept sound (.pins (· + 1)) rfl (List.Subset.refl _)
  | unpins => exact Sound.kept sound (.pins (· - 1)) rfl (List.Subset.refl _)
  | @releases path entry indexed pinned =>
    have unpinned : Counted (s.files.modify entry fun e => { e with pins := e.pins - 1 }) :=
      counted.modify (fun _ => rfl) (fun _ => rfl)
    rw [Steady.releaseEntry.instances]
    refine Sound.releaseEntry (sound.kept (.pins (· - 1)) rfl (List.Subset.refl _)) unpinned ?_
    intro opening free bare job waiting creator
    simp only [Files.modify_self] at opening free bare waiting
    have last : s.files.Unpins entry := ⟨opening, by omega, free⟩
    exact (admitted entry indexed last job waiting creator).elim
  | applyRevocation =>
    rw [instances_applyRevocation]
    exact shared.applyRevocation admitted
  | reset =>
    refine sound.mono fun entry opening detached job waiting creator sealedNow => ?_
    have bound := shared.booked.bounded entry opening
    have different := admitted entry bound opening detached job waiting creator
    simpa [Instances.SealedNow, Instances.reset, Instances.put, different] using sealedNow

end Shared

/-- A handle whose open succeeded refers to the entry its path leads to, which counts it; so
two handles of one path share one entry. -/
theorem handle_shares_entry [Inhabited Path] {labels : List (Label Path)} {last : Server Path}
    (trace : Trace (FlatsqlIoServer.next settings) Attended initial labels last) :
    (∀ handle ∈ last.files.handles, (last.files.heap handle.entry).opening = false →
      (last.files.heap handle.entry).openStatus = 0 →
      last.files.entries (last.files.heap handle.entry).path = some handle.entry) ∧
      ∀ entry, (last.files.heap entry).refs =
        last.files.handles.countP fun handle => handle.entry = entry := by
  have shared : Shared settings last :=
    trace.invariant Shared.initial fun _ _ _ admitted taken shared => shared.next admitted taken
  refine ⟨?_, shared.booked.counted.refs⟩
  intro handle member _ succeeded
  exact shared.sound.shared handle member (.inr succeeded)

end Runs

section Examples

def fewInstances : Settings where
  maxInstances := 4
  maxInstances_le := by decide
  chunkBytes := 1024

def requesting (slot : Nat) (instanceId : Int) (flags : Flags) : List (Label String) :=
  [.post ⟨slot, instanceId, .open flags (.ok "a")⟩, .scan 0, .run .unresolved]

def succeeding : List (Label String) := [.start "a", .finish "a" (.done true)]

def sharing (s : Server String) : List (Int × Nat) × Option Nat :=
  (s.files.handles.map fun handle => (handle.instanceId, handle.entry), s.files.entries "a")

/-- Instances 1 and 2 wait for one open when 1 is revoked. -/
theorem handle_shares_entry_revoked : ∃ last,
    Trace (next fewInstances) Attended initial
      (requesting 0 1 Flags.openDeferred ++ requesting 1 2 Flags.openDeferred ++
        [.revoke 1, .applyRevocation 1] ++ succeeding) last ∧
      sharing last = ([(2, 0)], some 0) ∧
      ∀ handle ∈ last.files.handles, (last.files.heap handle.entry).opening = false →
        (last.files.heap handle.entry).openStatus = 0 →
        last.files.entries (last.files.heap handle.entry).path = some handle.entry :=
  Trace.of_view_and sharing (fun _ trace _ => (handle_shares_entry trace).1) (by decide)

/-- Instance 2 starts the open and waits; 1 holds the only reference, a deferred handle, and is
revoked. The entry leaves the table while its open is pending, and 2 gets its handle on it
afterwards: the path leads nowhere. -/
theorem handle_of_released_entry : ∃ last,
    Trace (next fewInstances) Free initial
      (requesting 0 2 Flags.read ++ requesting 1 1 Flags.openDeferred ++
        [.revoke 1, .applyRevocation 1] ++ succeeding) last ∧
      (sharing last, (last.files.heap 0).opening, (last.files.heap 0).openStatus) =
        (([(2, 0)], none), false, 0) :=
  Trace.of_view
    (fun s => (sharing s, (s.files.heap 0).opening, (s.files.heap 0).openStatus)) (by decide)

end Examples

end SpaceDataModule.FlatsqlIoServer

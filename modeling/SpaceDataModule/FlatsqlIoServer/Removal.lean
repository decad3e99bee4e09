import SpaceDataModule.FlatsqlIoServer.Sharing

/-! No file is removed under a live handle. The open of the entry a path leads to is the last
operation of the chain of the path, and once it has succeeded the chain stays empty until the
entry leaves the table. -/
namespace SpaceDataModule.FlatsqlIoServer
open FlatsqlIo Transition KeyedQueue

section Used
variable {Path : Type} {files : Files Path}

def Used (spared : Option Nat) (files : Files Path) : Prop :=
  ∀ path entry, files.entries path = some entry → some entry ≠ spared →
    (files.heap entry).opening = false → (files.heap entry).openStatus = 0 →
    0 < (files.heap entry).refs ∨ 0 < (files.heap entry).pins

namespace Used

theorem initial [Inhabited Path] : Used none (initial : Server Path).files := by
  intro _ _ indexed
  cases indexed

theorem spare (used : Used none files) : Used spared files := by
  intro path entry indexed _
  exact used path entry indexed nofun

/-- A change of one entry, which is then spared. -/
theorem but (used : Used none files) (entries : after.entries = files.entries)
    (others : ∀ other, other ≠ entry → after.heap other = files.heap other) :
    Used (some entry) after := by
  intro path other indexed different settled succeeded
  rw [entries] at indexed
  rw [others other fun same => different (congrArg some same)] at settled succeeded ⊢
  exact used path other indexed nofun settled succeeded

section
variable (used : Used spared files)
include used

theorem similar (similar : Similar files after) (entries : after.entries = files.entries)
    (refs : ∀ entry, (files.heap entry).refs ≤ (after.heap entry).refs)
    (pins : ∀ entry, (files.heap entry).openStatus = 0 →
      (files.heap entry).pins ≤ (after.heap entry).pins) : Used spared after := by
  intro path entry indexed other settled succeeded
  rw [entries] at indexed
  rw [similar.opening] at settled
  rw [similar.openStatus] at succeeded
  rcases used path entry indexed other settled succeeded with held | pinned
  · exact .inl (held.trans_le (refs entry))
  · exact .inr (pinned.trans_le (pins entry succeeded))

theorem granted (grants : files.Granted entry owner flags after) :
    Used spared after :=
  used.similar (Alike.granted grants).toSimilar grants.entries grants.refs_le fun other _ =>
    (grants.kept Entry.pins (fun _ => rfl) other).ge

theorem parkOnEntry (entry : Nat) (job : Job Path) :
    Used spared (files.modify entry fun e => { e with waiters := e.waiters ++ [job] }) := by
  apply used.similar (.park job) rfl
  · intro other
    exact (Files.modify_kept Entry.refs _ rfl).ge
  · intro other _
    exact (Files.modify_kept Entry.pins _ rfl).ge

theorem pins (entry : Nat) (count : Nat → Nat) (fewer : (files.heap entry).openStatus = 0 →
      (files.heap entry).pins ≤ count (files.heap entry).pins) :
    Used spared (files.modify entry fun e => { e with pins := count e.pins }) := by
  apply used.similar (Alike.pins count).toSimilar rfl
  · intro other
    exact (Files.modify_kept Entry.refs _ rfl).ge
  · intro other succeeded
    by_cases same : other = entry
    · subst same
      rw [Files.modify_self]
      exact fewer succeeded
    · rw [Files.modify_of_ne same]

end

variable [DecidableEq Path]

theorem forget (used : Used (some entry) files)
    (failed : (files.heap entry).openStatus ≠ 0) : Used none (files.forget path) := by
  intro named other indexed _ settled succeeded
  have different : some other ≠ some entry := by
    rintro ⟨⟩
    exact failed succeeded
  exact used named other (Files.forget_entries.mp indexed).1 different settled succeeded

theorem insert (used : Used none files) (counted : Counted files) :
    Used none (files.insert path) := by
  intro named other indexed spared settled succeeded
  by_cases same : named = path
  · subst same
    have new : files.allocated = other := by simpa [Files.insert] using indexed
    rw [← new, Files.insert_self] at settled
    cases settled
  · have known : files.entries named = some other := by
      simpa [Files.insert, same] using indexed
    rw [Files.insert_of_ne (counted.indexed named other known).1.ne] at settled succeeded ⊢
    exact used named other known spared settled succeeded

end Used
end Used

section Serial
variable {Path : Type} [DecidableEq Path]

structure Serial (files : Files Path) (queue : List (Path × Task Path)) : Prop where
  last : ∀ path entry, files.entries path = some entry → (files.heap entry).opening = true →
    ∃ before flags owner, chain queue path = before ++ [.open entry flags owner]
  empty : ∀ path entry, files.entries path = some entry → (files.heap entry).opening = false →
    (files.heap entry).openStatus = 0 → chain queue path = []
  undeleted : ∀ entry, (files.heap entry).opening = true → ¬ files.Current entry →
    (files.heap entry).deleteOnClose = false

variable {files : Files Path} {queue : List (Path × Task Path)}

namespace Serial

theorem initial [Inhabited Path] : Serial (initial : Server Path).files [] where
  last := nofun
  empty := nofun
  undeleted := nofun

section
variable (serial : Serial files queue)
include serial

theorem similar (similar : Similar files after)
    (entries : ∀ path entry, after.entries path = some entry → files.entries path = some entry)
    (undeleted : ∀ entry, (files.heap entry).opening = true → ¬ after.Current entry →
      (after.heap entry).deleteOnClose = false) :
    Serial after queue where
  last := by
    intro path entry indexed opening
    rw [similar.opening] at opening
    exact serial.last path entry (entries path entry indexed) opening
  empty := by
    intro path entry indexed settled succeeded
    rw [similar.opening] at settled
    rw [similar.openStatus] at succeeded
    exact serial.empty path entry (entries path entry indexed) settled succeeded
  undeleted := by
    intro entry opening detached
    rw [similar.opening] at opening
    exact undeleted entry opening detached

theorem kept (similar : Similar files after) (entries : after.entries = files.entries)
    (deletes : ∀ entry, (after.heap entry).deleteOnClose = (files.heap entry).deleteOnClose) :
    Serial after queue := by
  apply serial.similar similar
  · rw [entries]
    intro _ _ indexed
    exact indexed
  · intro entry opening detached
    rw [similar.current entries] at detached
    rw [deletes]
    exact serial.undeleted entry opening detached

/-- A path that leads to no open file gets another operation. -/
theorem chained
    (vacant : ∀ entry, files.entries path = some entry → ¬ (files.heap entry).Unfailed) :
    Serial files (queue ++ [(path, task)]) := by
  have different {named : Path} {entry : Nat} (indexed : files.entries named = some entry)
      (unfailed : (files.heap entry).Unfailed) : named ≠ path := by
    rintro rfl
    exact vacant entry indexed unfailed
  refine ⟨?_, ?_, serial.undeleted⟩
  · intro named entry indexed opening
    rw [chain_push_of_ne (different indexed (.inl opening))]
    exact serial.last named entry indexed opening
  · intro named entry indexed settled succeeded
    rw [chain_push_of_ne (different indexed (.inr succeeded))]
    exact serial.empty named entry indexed settled succeeded

theorem granted (grants : files.Granted entry owner flags after)
    (current : (files.heap entry).opening = true → files.Current entry) : Serial after queue := by
  have alike := Alike.granted grants
  apply serial.similar alike.toSimilar
  · rw [grants.entries]
    intro _ _ indexed
    exact indexed
  · intro other opening detached
    rw [alike.current grants.entries] at detached
    have different : other ≠ entry := by
      rintro rfl
      exact detached (current opening)
    rw [grants.of_ne different]
    exact serial.undeleted other opening detached

theorem parkOnEntry (entry : Nat) (job : Job Path) :
    Serial (files.modify entry fun e => { e with waiters := e.waiters ++ [job] }) queue :=
  serial.kept (.park job) rfl fun _ => Files.modify_kept Entry.deleteOnClose _ rfl

theorem pins (entry : Nat) (count : Nat → Nat) :
    Serial (files.modify entry fun e => { e with pins := count e.pins }) queue :=
  serial.kept (Alike.pins count).toSimilar rfl fun _ =>
    Files.modify_kept Entry.deleteOnClose _ rfl

theorem insert (counted : Counted files) (vacant : files.entries path = none) :
    Serial (files.insert path) (queue ++ [(path, .open files.allocated flags owner)]) := by
  have before {named : Path} {other : Nat} (different : named ≠ path)
      (indexed : (files.insert path).entries named = some other) :
      files.entries named = some other ∧
        (files.insert path).heap other = files.heap other := by
    have known : files.entries named = some other := by
      simpa [Files.insert, different] using indexed
    exact ⟨known, Files.insert_of_ne (counted.indexed named other known).1.ne⟩
  have fresh {other : Nat} (indexed : (files.insert path).entries path = some other) :
      other = files.allocated := by
    have same : files.allocated = other := by simpa [Files.insert] using indexed
    exact same.symm
  constructor
  · intro named other indexed opening
    by_cases same : named = path
    · subst same
      rw [fresh indexed, chain_push_self]
      exact ⟨_, flags, owner, rfl⟩
    · obtain ⟨known, equal⟩ := before same indexed
      rw [equal] at opening
      rw [chain_push_of_ne same]
      exact serial.last named other known opening
  · intro named other indexed settled succeeded
    by_cases same : named = path
    · subst same
      rw [fresh indexed, Files.insert_self] at settled
      cases settled
    · obtain ⟨known, equal⟩ := before same indexed
      rw [equal] at settled succeeded
      rw [chain_push_of_ne same]
      exact serial.empty named other known settled succeeded
  · intro other opening detached
    by_cases new : other = files.allocated
    · subst new
      exact absurd Sound.current_fresh detached
    · rw [Files.insert_of_ne new] at opening ⊢
      exact serial.undeleted other opening (mt (Sound.current_insert vacant new).mpr detached)

theorem forget (failed : ∀ entry, files.entries path = some entry → ¬ (files.heap entry).Unfailed) :
    Serial (files.forget path) queue := by
  have similar : Similar files (files.forget path) := ⟨fun _ => rfl, fun _ => rfl, fun _ => rfl⟩
  apply serial.similar similar
  · intro named entry indexed
    exact (Files.forget_entries.mp indexed).1
  · intro entry opening detached
    refine serial.undeleted entry opening fun current => detached ?_
    refine Files.forget_entries.mpr ⟨current, fun same => failed entry ?_ (.inl opening)⟩
    exact same ▸ current

/-- An operation other than an open has ended. -/
theorem popped (popped : pop path queue = some (task, rest))
    (closed : ∀ entry flags owner, task ≠ .open entry flags owner) : Serial files rest where
  last := by
    intro named entry indexed opening
    obtain ⟨before, flags, owner, ends⟩ := serial.last named entry indexed opening
    obtain ⟨left, ends⟩ := chain_ends_of_pop popped ends (closed entry flags owner)
    exact ⟨left, flags, owner, ends⟩
  empty := by
    intro named entry indexed settled succeeded
    exact chain_nil_of_pop popped (serial.empty named entry indexed settled succeeded)
  undeleted := serial.undeleted

/-- The first operation of the path was the open of the entry, and it has ended. -/
theorem settled (counted : Counted files) (once : (pending queue).Nodup)
    (opening : (files.heap entry).opening = true) (labelled : (files.heap entry).path = path)
    (popped : pop path queue = some (.open entry flags owner, rest)) :
    Serial (files.modify entry (Entry.settled status)) rest := by
  have first := chain_of_pop popped
  have closed {other : Nat}
      (opens : ((files.modify entry (Entry.settled status)).heap other).opening = true) :
      other ≠ entry := by
    rintro rfl
    rw [Files.modify_self] at opens
    cases opens
  constructor
  · intro named other indexed opens
    have different := closed opens
    rw [Files.modify_of_ne different] at opens
    obtain ⟨before, flags', owner', ends⟩ := serial.last named other indexed opens
    obtain ⟨left, ends⟩ := chain_ends_of_pop popped ends
      fun same => different (Task.open.inj same).1.symm
    exact ⟨left, flags', owner', ends⟩
  · intro named other indexed settled succeeded
    by_cases equal : other = entry
    · subst equal
      have same : named = path := (counted.indexed named other indexed).2.symm.trans labelled
      subst same
      obtain ⟨before, flags', owner', ends⟩ := serial.last named other indexed opening
      rw [first] at ends
      cases before with
      | nil => exact (List.cons.inj ends).2
      | cons head before =>
        have again : (named, other) ∈ pending rest := by
          rw [mem_pending]
          refine ⟨flags', owner', mem_of_mem_chain ?_⟩
          rw [(List.cons.inj ends).2]
          exact List.mem_append_right _ List.mem_cons_self
        have unique := (pending_of_pop popped).nodup_iff.mp once
        exact absurd again (List.nodup_cons.mp unique).1
    · rw [Files.modify_of_ne equal] at settled succeeded
      exact chain_nil_of_pop popped (serial.empty named other indexed settled succeeded)
  · intro other opens detached
    have different := closed opens
    rw [Files.modify_of_ne different] at opens ⊢
    refine serial.undeleted other opens fun current => detached ?_
    unfold Files.Current
    rw [Files.modify_of_ne different]
    exact current

end

end Serial

end Serial

section Steps
variable {Path : Type} [DecidableEq Path] {s : Server Path}

namespace Serial

section
variable (serial : Serial s.files s.queue)
include serial

theorem releaseEntry (placed : (s.files.heap entry).deleteOnClose = true →
      (s.files.heap entry).openStatus = 0 → s.files.Current entry)
    (kept : (s.files.heap entry).opening = true → (s.files.heap entry).refs = 0 →
      (s.files.heap entry).pins = 0 → (s.files.heap entry).deleteOnClose = false) :
    Serial (s.releaseEntry entry).files (s.releaseEntry entry).queue := by
  have detached (free : ¬ (0 < (s.files.heap entry).refs ∨ 0 < (s.files.heap entry).pins)) :
      Serial (s.files.detach entry) s.queue := by
    obtain ⟨unheld, unpinned⟩ := not_or.mp free
    apply serial.similar Alike.detach.toSimilar
    · intro path other indexed
      exact (Files.detach_entries.mp indexed).1
    · intro other opening absent
      rw [Files.detach_kept Entry.deleteOnClose fun _ _ => rfl]
      by_cases same : other = entry
      · subst same
        exact kept opening (Nat.eq_zero_of_not_pos unheld) (Nat.eq_zero_of_not_pos unpinned)
      · rw [Sound.current_detach same] at absent
        exact serial.undeleted other opening absent
  unfold Server.releaseEntry
  dsimp only
  split_ifs with used deletes
  · exact serial
  · refine (detached used).chained fun other indexed => ?_
    obtain ⟨-, elsewhere⟩ := Files.detach_entries.mp indexed
    exact absurd rfl (elsewhere (placed deletes.1 deletes.2))
  · exact detached used

theorem closeHandle (sound : Sound gone s.files) (counted : Counted s.files)
    (member : handle ∈ s.files.handles)
    (kept : (s.files.heap handle.entry).opening = true →
      (s.files.heap handle.entry).pins = 0 →
      (∀ other ∈ s.files.handles, other.entry = handle.entry → other = handle) →
      (s.files.heap handle.entry).deleteOnClose = false) :
    Serial (s.closeHandle handle).files (s.closeHandle handle).queue := by
  have alike : Alike s.files (s.files.dropHandle handle) := .dropHandle
  have deletes (other : Nat) : ((s.files.dropHandle handle).heap other).deleteOnClose =
      (s.files.heap other).deleteOnClose :=
    Files.modify_kept Entry.deleteOnClose (fun e => { e with refs := e.refs - 1 }) rfl
  unfold Server.closeHandle
  split_ifs
  · apply Serial.releaseEntry
    · exact serial.kept alike.toSimilar rfl deletes
    · intro _ succeeded
      rw [alike.openStatus] at succeeded
      exact (alike.current rfl).mpr (sound.shared handle member (.inr succeeded))
    · intro opening free unpinned
      rw [alike.opening] at opening
      rw [Files.dropHandle, Files.modify_kept Entry.pins _ rfl] at unpinned
      rw [deletes]
      refine kept opening unpinned fun other present same => ?_
      exact counted.last_of_dropped member free present same
  · exact serial

theorem openFresh (counted : Counted s.files) (vacant : s.files.entries path = none) :
    Serial (s.openFresh job flags path).files (s.openFresh job flags path).queue := by
  have opened : Serial (s.files.insert path)
      (s.queue ++ [(path, .open s.files.allocated flags (some job.owner))]) :=
    serial.insert counted vacant
  unfold Server.openFresh
  split_ifs
  · exact opened.granted (addHandle_cases ..) fun _ => Sound.current_fresh
  · exact opened.parkOnEntry _ _

end

end Serial

namespace Used

theorem releaseEntry (used : Used (some entry) s.files) (counted : Counted s.files) :
    Used none (s.releaseEntry entry).files := by
  have detached : Used none (s.files.detach entry) := by
    intro path other indexed _ settled succeeded
    obtain ⟨before, elsewhere⟩ := Files.detach_entries.mp indexed
    have different : other ≠ entry := by
      rintro rfl
      exact elsewhere before (counted.indexed path other before).2
    have distinct : some other ≠ some entry := fun same => different (Option.some.inj same)
    rw [Files.detach_kept Entry.opening fun _ _ => rfl] at settled
    rw [Files.detach_kept Entry.openStatus fun _ _ => rfl] at succeeded
    rw [Files.detach_kept Entry.refs fun _ _ => rfl, Files.detach_kept Entry.pins fun _ _ => rfl]
    exact used path other before distinct settled succeeded
  unfold Server.releaseEntry
  dsimp only
  split_ifs with busy deletes
  · intro path other indexed _ settled succeeded
    by_cases same : other = entry
    · exact same ▸ busy
    · exact used path other indexed (fun equal => same (Option.some.inj equal)) settled succeeded
  · exact detached
  · exact detached

theorem closeHandle (used : Used none s.files) (counted : Counted s.files)
    (member : handle ∈ s.files.handles) : Used none (s.closeHandle handle).files := by
  unfold Server.closeHandle
  split_ifs
  · refine Used.releaseEntry (used.but rfl ?_) (counted.dropHandle member)
    intro other different
    exact Function.update_of_ne different ..
  · exact used

theorem openFresh (used : Used none s.files) (counted : Counted s.files) :
    Used none (s.openFresh job flags path).files := by
  have opened : Used none (s.files.insert path) := used.insert counted
  unfold Server.openFresh
  split_ifs
  · exact opened.granted (addHandle_cases ..)
  · exact opened.parkOnEntry _ _

end Used

structure Ordered (s : Server Path) : Prop where
  serial : Serial s.files s.queue
  used : Used none s.files

namespace Ordered
variable {gone : Int → Prop}

/-- Dropping the pins of an entry of the table, and the entry if nothing else holds it. -/
theorem unpin (ordered : Ordered s) (counted : Counted s.files) (count : Nat → Nat)
    (indexed : s.files.entries path = some entry)
    (kept : (s.files.heap entry).opening = true → (s.files.heap entry).refs = 0 →
      count (s.files.heap entry).pins = 0 → (s.files.heap entry).deleteOnClose = false) :
    Ordered ({ s with
      files := s.files.modify entry fun e => { e with pins := count e.pins } }.releaseEntry
        entry) := by
  have alike : Alike s.files (s.files.modify entry fun e => { e with pins := count e.pins }) :=
    .pins count
  have unpinned : Counted (s.files.modify entry fun e => { e with pins := count e.pins }) :=
    counted.modify (fun _ => rfl) (fun _ => rfl)
  constructor
  · apply Serial.releaseEntry (ordered.serial.pins entry count)
    · intro _ _
      exact (alike.current rfl).mpr (counted.current indexed)
    · intro opening free bare
      simp only [Files.modify_self] at opening free bare ⊢
      exact kept opening free bare
  · refine Used.releaseEntry (ordered.used.but rfl ?_) unpinned
    intro other different
    exact Function.update_of_ne different ..

theorem jobStep (ordered : Ordered s) (sound : Sound gone s.files) (counted : Counted s.files)
    (taken : JobStep settings s job t) : Ordered t := by
  obtain ⟨serial, used⟩ := ordered
  cases taken with
  | completes | continues | writes | writesOn => exact ⟨serial, used⟩
  | parks => exact ⟨serial.parkOnEntry _ job, used.parkOnEntry _ job⟩
  | probes _ _ vacant => exact ⟨serial.chained vacant, used⟩
  | @removes flags path _ _ free =>
    refine ⟨serial.chained fun entry indexed => ?_, used⟩
    obtain ⟨settled, unheld, unpinned⟩ := free entry indexed
    rintro (opening | succeeded)
    · rw [settled] at opening
      cases opening
    · have busy := used path entry indexed nofun settled succeeded
      rw [unheld, unpinned] at busy
      exact absurd busy (by decide)
  | @unpins flags path entry _ _ indexed settled free =>
    have released := Ordered.unpin ⟨serial, used⟩ counted (fun _ => 0) indexed
      fun opening => absurd opening (by rw [settled]; decide)
    refine ⟨released.serial.chained fun other found => ?_, released.used⟩
    rw [releaseEntry_vacant] at found
    · cases found
    · exact indexed
    · rw [Files.modify_self]
      exact (counted.indexed path entry indexed).2
    · rw [Files.modify_self]
      exact free
    · rw [Files.modify_self]
  | joins _ _ indexed _ | truncates _ _ indexed _ =>
    exact ⟨serial.granted (addHandle_cases ..) fun _ => counted.current indexed,
      used.granted (addHandle_cases ..)⟩
  | opens _ _ vacant => exact ⟨serial.openFresh counted vacant, used.openFresh counted⟩
  | @reopens flags path entry _ _ indexed failed =>
    have alone : ∀ other, s.files.entries path = some other → ¬ (s.files.heap other).Unfailed := by
      intro other found
      cases indexed.symm.trans found
      exact failed
    have spared : Used (some entry) s.files := used.spare
    constructor
    · exact Serial.openFresh (serial.forget alone) counted.forget (Function.update_self ..)
    · refine Used.openFresh (spared.forget ?_) counted.forget
      exact fun succeeded => failed (.inr succeeded)
  | closes _ member settled =>
    exact ⟨serial.closeHandle sound counted member
      fun opening => absurd opening (ne_true_of_eq_false settled), used.closeHandle counted member⟩

end Ordered

structure Emptying (gone : Int → Prop) (s : Server Path) (entry : Nat) (status : Int)
    (t : Server Path) : Prop where
  settling : Settling gone s entry status t
  serial : Serial t.files s.queue
  used : Used (some entry) t.files
  undeleted : ¬ t.files.Current entry → (t.files.heap entry).deleteOnClose = false

namespace Emptying
variable {gone : Int → Prop}

theorem granted (emptying : Emptying gone s entry status t)
    (grants : t.files.Granted entry owner flags files) (bound : entry < s.files.allocated)
    (current : t.files.Current entry) : Emptying gone s entry status { t with files, ready } where
  settling := emptying.settling.granted grants bound current
  serial := emptying.serial.granted grants fun _ => current
  used := emptying.used.granted grants
  undeleted := by
    intro detached
    exact absurd (((Alike.granted grants).current grants.entries).mpr current) detached

theorem sweep (emptying : Emptying gone s entry status t) :
    Ordered (t.sweep entry status) := by
  obtain ⟨settling, serial, used, undeleted⟩ := emptying
  rw [← settling.queue] at serial
  unfold Server.sweep
  dsimp only
  split_ifs with failed succeeded
  · have unequal : (t.files.heap entry).openStatus ≠ 0 := by
      rw [settling.ended]
      exact failed.1.ne
    refine ⟨serial.forget fun other found => ?_, used.forget unequal⟩
    cases failed.2.2.2.symm.trans found
    refine not_unfailed ?_ unequal
    rw [settling.settled]
    decide
  · refine ⟨serial.releaseEntry ?_ ?_, used.releaseEntry settling.counted⟩
    · intro deletes _
      by_contra detached
      rw [undeleted detached] at deletes
      cases deletes
    · exact fun opening => absurd opening (ne_true_of_eq_false settling.settled)
  · refine ⟨serial, ?_⟩
    intro path other indexed _ settled opened
    by_cases same : other = entry
    · subst same
      have zero : status = 0 := settling.ended.symm.trans opened
      by_contra idle
      obtain ⟨unheld, unpinned⟩ := not_or.mp idle
      exact succeeded ⟨zero, Nat.eq_zero_of_not_pos unheld, Nat.eq_zero_of_not_pos unpinned⟩
    · exact used path other indexed (fun equal => same (Option.some.inj equal)) settled opened

end Emptying

/-- The entry was opening, and its open has left the queue. -/
theorem Ordered.settleEntry (sound : Sound gone s.files) (counted : Counted s.files)
    (bound : entry < s.files.allocated) (opening : (s.files.heap entry).opening = true)
    (serial : Serial (s.files.modify entry (Entry.settled status)) s.queue)
    (used : Used none s.files)
    (undeleted : ¬ s.files.Current entry → (s.files.heap entry).deleteOnClose = false)
    (refused : ∀ instanceId, gone instanceId → s.instances.isRevoked settings instanceId = true) :
    Ordered (s.settleEntry settings entry status) := by
  apply settleEntry_induction (P := Emptying gone s entry status) (Q := Ordered)
  · have settling : Settling gone s entry status
        { s with files := s.files.modify entry (Entry.settled status) } :=
      .start sound counted opening
    refine ⟨settling, serial, used.but rfl ?_, fun detached => ?_⟩
    · intro other different
      exact Function.update_of_ne different ..
    · rw [Files.modify_self]
      exact undeleted (mt settling.current.mpr detached)
  · intro t u job waiting woken emptying
    have settling := emptying.settling
    cases woken with
    | again | refused =>
      exact ⟨settling.again, emptying.serial, emptying.used, emptying.undeleted⟩
    | granted _ _ creator _ unrevoked =>
      have current := settling.current_of_granted sound opening refused waiting creator unrevoked
      exact emptying.granted (addHandle_cases ..) bound current
  · intro t emptying
    exact emptying.sweep

end Steps

section Runs
variable {Path : Type} [DecidableEq Path] {s t : Server Path}

/-- What a revocation or `releasePreopen` leaves without a reference while its open is pending
is not to be deleted. -/
def Undeleted (s : Server Path) : Label Path → Prop
  | .applyRevocation instanceId => ∀ entry < s.files.allocated,
      s.files.Abandons instanceId entry → (s.files.heap entry).deleteOnClose = false
  | .releasePreopen path => ∀ entry ∈ s.files.entries path,
      s.files.Unpins entry → (s.files.heap entry).deleteOnClose = false
  | _ => True

instance : ∀ label : Label Path, Decidable (Undeleted s label)
  | .applyRevocation _ => inferInstanceAs (Decidable (∀ entry < s.files.allocated, _ → _))
  | .releasePreopen path => inferInstanceAs (Decidable (∀ entry ∈ s.files.entries path, _ → _))
  | .post _ | .scan _ | .run _ | .start _ | .act _ | .finish _ _ | .preopen _ _ | .resume _
  | .revoke _ | .reset _ | .attach _ _ | .detach _ _ => .isTrue trivial

def Separate (s : Server Path) (label : Label Path) : Prop := Attended s label ∧ Undeleted s label
  deriving Decidable

namespace Ordered

theorem initial [Inhabited Path] : Ordered (initial : Server Path) := ⟨.initial, .initial⟩

structure Parting (sealedNow : Int → Prop) (instanceId : Int) (t : Server Path) : Prop where
  closing : Shared.Closing sealedNow instanceId t
  ordered : Ordered t
  undeleted : ∀ entry, t.files.Abandons instanceId entry →
    (t.files.heap entry).deleteOnClose = false

theorem Parting.closeHandle (parting : Parting sealedNow instanceId t)
    (member : handle ∈ t.files.handles) (own : handle.instanceId = instanceId) :
    Parting sealedNow instanceId (t.closeHandle handle) := by
  obtain ⟨closing, ⟨serial, used⟩, undeleted⟩ := parting
  have counted := closing.booked.counted
  refine ⟨closing.closeHandle member own, ⟨?_, used.closeHandle counted member⟩, ?_⟩
  · refine serial.closeHandle closing.sound counted member fun opening unpinned last => ?_
    exact undeleted handle.entry (.of_last member own opening unpinned last)
  · intro entry abandons
    rw [closeHandle_kept Entry.deleteOnClose (fun _ _ => rfl) (fun _ _ => rfl)]
    exact undeleted entry (abandons.of_closeHandle counted member own)

theorem applyRevocation (ordered : Ordered s) (shared : Shared settings s)
    (separate : Separate s (.applyRevocation instanceId)) :
    Ordered (s.applyRevocation instanceId) := by
  have closed : Parting s.instances.SealedNow instanceId
      ((s.owned instanceId).foldl Server.closeId s) := by
    apply closeAll_induction
    · refine ⟨shared.closing separate.1, ordered, ?_⟩
      intro entry abandons
      exact separate.2 entry (shared.booked.bounded entry abandons.1) abandons
    · intro t handle parting member known owned
      exact parting.closeHandle member (Shared.own_of_owned shared.booked.counted known owned)
  exact ⟨closed.ordered.serial, closed.ordered.used⟩

theorem next (ordered : Ordered s) (shared : Shared settings s) (admitted : Separate s label)
    (taken : next settings s label = some t) : Ordered t := by
  have counted := shared.booked.counted
  obtain ⟨serial, used⟩ := ordered
  cases next_cases taken with
  | post | scan | start | rests | revoke | reset | attach | detach => exact ⟨serial, used⟩
  | act =>
    constructor
    · rw [perform_kept.1, perform_kept.2.1]
      exact serial
    · rw [perform_kept.1]
      exact used
  | @run _ job ready _ _ stepped =>
    exact Ordered.jobStep (s := { s with ready }) ⟨serial, used⟩ shared.sound counted stepped
  | finish popped concludes =>
    cases concludes with
    | settled entry flags owner status _ =>
      have queued := (pending_of_pop popped).mem_iff.mpr List.mem_cons_self
      obtain ⟨bound, opening, labelled⟩ := shared.booked.opens _ _ queued
      have settled : Serial (s.files.modify entry (Entry.settled status)) _ :=
        serial.settled counted shared.booked.once opening labelled popped
      exact settleEntry shared.sound counted bound opening settled used
        (serial.undeleted entry opening)
        (fun instanceId sealedNow => shared.guarded.isRevoked sealedNow)
    | probed | removed | released =>
      exact ⟨serial.popped popped nofun, used⟩
  | preopens vacant =>
    exact ⟨(serial.insert counted vacant).pins _ (· + 1),
      (used.insert counted).pins _ (· + 1) fun _ => Nat.le_succ _⟩
  | pins => exact ⟨serial.pins _ (· + 1), used.pins _ (· + 1) fun _ => Nat.le_succ _⟩
  | unpins _ failed =>
    exact ⟨serial.pins _ (· - 1), used.pins _ (· - 1) fun succeeded => absurd succeeded failed.ne⟩
  | @releases path entry indexed pinned =>
    refine unpin ⟨serial, used⟩ counted (· - 1) indexed fun opening free bare => ?_
    exact admitted.2 entry indexed ⟨opening, by omega, free⟩
  | applyRevocation => exact applyRevocation ⟨serial, used⟩ shared admitted

end Ordered

/-- `backend.remove` is what the operation calls. -/
def Task.removes : Task Path → Bool
  | .remove _ | .removeReleased _ _ => true
  | .open _ _ _ | .probe _ => false

/-- When a removal of a path can be started, no live handle refers to a file that was opened
there. -/
theorem no_removal_under_handle [Inhabited Path] {labels : List (Label Path)}
    {last : Server Path} {path : Path}
    (trace : Trace (FlatsqlIoServer.next settings) Separate initial labels last)
    (starts : (last.startable path).map Task.removes = some true) :
    ∀ handle ∈ last.files.handles, (last.files.heap handle.entry).path = path →
      ¬ ((last.files.heap handle.entry).opening = false ∧
        (last.files.heap handle.entry).openStatus = 0) := by
  have holds : Shared settings last ∧ Ordered last := by
    refine trace.invariant (P := fun s => Shared settings s ∧ Ordered s)
      ⟨.initial, .initial⟩ ?_
    intro s label t admitted taken holds
    exact ⟨holds.1.next admitted.1 taken, holds.2.next holds.1 admitted taken⟩
  obtain ⟨shared, ordered⟩ := holds
  rintro handle member rfl ⟨settled, succeeded⟩
  have current := shared.sound.shared handle member (.inr succeeded)
  have empty := ordered.serial.empty _ handle.entry current settled succeeded
  unfold Server.startable at starts
  rw [empty] at starts
  split_ifs at starts
  · cases starts
  · cases starts

end Runs

section Examples

/-- The owner and the entry of each handle, the entries that are open, and whether a removal
can be started. -/
def removing (s : Server String) : List (Int × Nat) × List Bool × Option Bool :=
  (s.files.handles.map fun handle => (handle.instanceId, handle.entry),
    (List.range s.files.allocated).map fun entry =>
      !(s.files.heap entry).opening && (s.files.heap entry).openStatus == 0,
    (s.startable "a").map Task.removes)

/-- Instance 1 closes a file that is to be deleted, and 2 asks for the path before the removal
has started. -/
theorem no_removal_under_handle_deferred : ∃ last,
    Trace (next fewInstances) Separate initial
      (requesting 0 1 (Flags.openDeferred ||| Flags.deleteOnClose) ++ succeeding ++
        [.post ⟨0, 1, .handle .close 1 0⟩, .scan 0, .run .unresolved] ++
        requesting 1 2 Flags.openDeferred) last ∧
      removing last = ([(2, 1)], [true, false], some true) ∧
      ∀ handle ∈ last.files.handles, (last.files.heap handle.entry).path = "a" →
        ¬ ((last.files.heap handle.entry).opening = false ∧
          (last.files.heap handle.entry).openStatus = 0) :=
  Trace.of_view_and removing
    (fun _ trace shown => no_removal_under_handle trace (congrArg (·.2.2) shown)) (by decide)

/-- A file that is to be deleted is released twice: when instance 1 is revoked, while its open
is pending, and when the open has ended. The second removal comes after the open that 2 asked
for in between, and can be started while 2 uses the file. -/
theorem removal_under_live_handle : ∃ last,
    Trace (next fewInstances) Free initial
      (requesting 0 1 (Flags.openDeferred ||| Flags.deleteOnClose) ++
        [.revoke 1, .applyRevocation 1] ++ requesting 1 2 Flags.openDeferred ++
        succeeding ++ succeeding ++ succeeding) last ∧
      removing last = ([(2, 1)], [true, true], some true) :=
  Trace.of_view removing (by decide)

end Examples

end SpaceDataModule.FlatsqlIoServer

import SpaceDataModule.SabIoRing.Invariant

/-! The steps of a client's session. It changes a slot that is free or that it holds,
and never one whose request is not completed. -/
namespace SpaceDataModule.SabIoRing
open Interleaving JavaScript

variable {m : Shared} {f : Slot} {claimed : Option Nat}

/-- The slot that a move of a session claims. -/
def Place.claims (slotCount : Nat) (m : Shared) : Move → Place → Option Nat
  | .step, .claiming _ (.exchange start step) =>
    let slot := (start + step) % slotCount
    if (m.slots slot).state = .free then some slot else none
  | _, _ => none

/-- What a step of a session leaves the other parties. -/
structure Apart (session : Session) (claimed : Option Nat) (m n : Shared) : Prop where
  others : ∀ other, other ≠ session → Undisturbed other m n
  untouched : Untouched m n
  watched : ∀ thread, Watched thread claimed m n

theorem Apart.of_same (slots : n.slots = m.slots) (alive : n.alive = m.alive)
    (taken : n.taken = m.taken) (reclaiming : n.reclaiming = m.reclaiming) (active : ∀ other ∈ n.active, other ∈ m.active) :
    Apart session claimed m n where
  others other _ := {
    served := fun _ i _ => by rw [slots]; exact .refl _
    held := fun i => by rw [slots]; exact id
    active := active other }
  untouched := ⟨alive, taken, fun i _ => by rw [slots], fun i => by rw [slots]; exact id⟩
  watched thread := {
    listed := fun instanceId => by rw [reclaiming]; exact id
    stopped := fun instanceId _ stopped other member => stopped other (active other member)
    left := fun instanceId _ slot _ => by
      unfold Shared.LeftBy
      rw [slots]
      exact id }

/-- A change of a slot that nobody but the session holds. -/
theorem Apart.of_put (slots : n.slots = Function.update m.slots slot f)
    (alive : n.alive = m.alive) (taken : n.taken = m.taken)
    (reclaiming : n.reclaiming = m.reclaiming)
    (active : ∀ other ∈ n.active, other ∈ m.active) (running : session ∈ m.active)
    (mine : ∀ other, (m.slots slot).holder = some other → other = session)
    (stays : ∀ other, f.holder = some other → other = session)
    (calm : ¬ (m.slots slot).state.Busy) (fresh : f.state ≠ .servicing)
    (claims : (m.slots slot).holder = none → slot ∈ claimed) : Apart session claimed m n := by
  have elsewhere {i : Nat} (different : i ≠ slot) : n.slots i = m.slots i := by
    rw [slots, Function.update_of_ne different]
  refine ⟨?_, ⟨alive, taken, ?_, ?_⟩, ?_⟩
  · intro other foreign
    refine ⟨?_, ?_, active other⟩
    · intro _ i holder
      rw [elsewhere (by rintro rfl; exact foreign (mine other holder))]
      exact .refl _
    · intro i holder
      by_cases same : i = slot
      · rw [same, slots, Function.update_self] at holder
        exact (foreign (stays other holder)).elim
      · rwa [elsewhere same] at holder
  · intro i busy
    apply elsewhere
    rintro rfl
    exact calm busy
  · rw [slots]
    exact (Function.forall_update_iff _ fun i (e : Slot) => e.state = .servicing →
      (m.slots i).state = .servicing).mpr ⟨fun services => (fresh services).elim, fun _ _ => id⟩
  · intro thread
    refine ⟨by rw [reclaiming]; exact fun _ => id, ?_, ?_⟩
    · intro instanceId _ stopped other member
      exact stopped other (active other member)
    · intro instanceId stopped i unclaimed left
      have different : i ≠ slot := by
        rintro rfl
        obtain ⟨other, holder⟩ := Option.ne_none_iff_exists'.mp (mt claims unclaimed)
        -- the holder would be the running session, and its instance has stopped
        exact stopped session running (mine other holder ▸ left other holder)
      unfold Shared.LeftBy
      rwa [elsewhere different]

structure Kept (session : Session) (claimed : Option Nat) (m : Shared)
    (after : Shared × Place) : Prop where
  sound : after.1.Sound
  own : after.2.Sound session after.1
  apart : Apart session claimed m after.1

theorem Kept.local (sound : m.Sound) (own : place.Sound session m) :
    Kept session claimed m (m, place) :=
  ⟨sound, own, .of_same rfl rfl rfl rfl fun _ => id⟩

theorem not_submitted_of_free (free : f.state = .free) : ¬ f.state.Submitted := by
  rw [free]
  rintro ((pending | servicing) | done) <;> contradiction

theorem only_put (only : ∀ i, (m.slots i).holder = some session → i = slot) (i : Nat) :
    ((m.put slot f).slots i).holder = some session → i = slot :=
  (Function.forall_update_iff m.slots fun i e => e.holder = some session → i = slot).mpr
    ⟨fun _ => rfl, fun i _ => only i⟩ i

theorem only_holder (holder : f.holder = some session) :
    ∀ other, f.holder = some other → other = session :=
  fun _ held => Option.some.inj (held.symm.trans holder)

theorem unclaimed_of_holder (holder : f.holder = some session) : f.holder = none → slot ∈ claimed :=
  fun none => (Option.some_ne_none session (holder.symm.trans none)).elim

section Holding

section
variable (sound : m.Sound)
include sound

/-- The session changes an idle slot that it holds or takes. -/
theorem kept_put (running : session ∈ m.active)
    (only : ∀ i, (m.slots i).holder = some session → i = slot)
    (mine : ∀ other, (m.slots slot).holder = some other → other = session)
    (calm : ¬ (m.slots slot).state.Busy) (claims : (m.slots slot).holder = none → slot ∈ claimed)
    (idle : f.state = .idle) (holder : f.holder = some session) (after : step.Sound f) :
    Kept session claimed m (m.put slot f, .holding request slot step) := by
  have own : f.Sound m slot := by
    apply Slot.Sound.of_unsubmitted
    · rw [idle, holder]
      exact iff_of_false nofun nofun
    · rw [idle]
      rintro ((pending | servicing) | done) <;> contradiction
  refine ⟨put_sound sound own fun busy => (calm busy).elim, ⟨?_, ?_⟩, ?_⟩
  · exact only_put only
  · intro _
    rw [put_self]
    exact ⟨holder, after⟩
  · exact .of_put rfl rfl rfl rfl (fun _ => id) running mine (only_holder holder) calm
      (by rw [idle]; exact nofun) claims

theorem kept_claim (running : session ∈ m.active)
    (unheld : ∀ i, (m.slots i).holder ≠ some session) :
    Kept session ((Place.claiming request step).claims slotCount m .step) m
      (claim slotCount session m request step) := by
  cases step with
  | hint => exact ⟨{ sound with }, unheld, .of_same rfl rfl rfl rfl fun _ => id⟩
  | exchange start step =>
    rw [claim]
    split_ifs with free more
    · refine kept_put sound running (fun i held => (unheld i held).elim) ?_ ?_ ?_ rfl rfl rfl
      · rw [(sound.free _).mp free]
        exact nofun
      · exact fun busy => not_submitted_of_free free (.inl busy)
      · exact fun _ => if_pos free
    · exact .local sound unheld
    · exact .local sound unheld

/-- A submission is new, and its slot carries it. -/
theorem submitted_sound (idle : (m.slots slot).state = .idle) (state : f.state = .pending)
    (submission : f.submission = m.submissions.length) (holder : f.holder = some session) :
    Shared.Sound { m.put slot f with submissions := m.submissions ++ [(session, slot)] } := by
  have fresh : m.submissions.length ∉ m.completions.map Prod.fst := fun member =>
    Nat.lt_irrefl _ (sound.known _ member)
  have grow {id : Nat} {entry : Session × Nat} (found : m.submissions[id]? = some entry) :
      (m.submissions ++ [(session, slot)])[id]? = some entry := by
    rwa [List.getElem?_append_left (List.getElem?_eq_some_iff.mp found).1]
  have own : f.Sound { m with submissions := m.submissions ++ [(session, slot)] } slot := {
    free := by rw [state, holder]; exact iff_of_false nofun nofun
    submitted := fun _ => ⟨session, holder, by rw [submission]; exact List.getElem?_concat_length⟩
    uncompleted := fun _ => by rw [submission]; exact fresh
    completed := by rw [state]; exact nofun }
  have each (i : Nat) : ((m.put slot f).slots i).Sound
      { m with submissions := m.submissions ++ [(session, slot)] } i := by
    refine (Function.forall_update_iff m.slots fun i e => e.Sound _ i).mpr ⟨own, ?_⟩ i
    intro i _
    refine { sound.each i with submitted := ?_ }
    intro submitted
    obtain ⟨other, held, found⟩ := sound.submitted i submitted
    exact ⟨other, held, grow found⟩
  exact {
    free := fun i => (each i).free
    submitted := fun i => (each i).submitted
    uncompleted := fun i => (each i).uncompleted
    completed := fun i => (each i).completed
    kept := by
      intro id bound uncompleted
      rw [List.length_append] at bound
      rcases Nat.lt_succ_iff_lt_or_eq.mp bound with early | rfl
      · obtain ⟨i, same, busy⟩ := sound.kept id early uncompleted
        have different : i ≠ slot := by
          rintro rfl
          exact not_busy_of_idle idle busy
        exact ⟨i, by rw [put_of_ne different]; exact ⟨same, busy⟩⟩
      · refine ⟨slot, ?_⟩
        rw [put_self]
        exact ⟨submission, .inl state⟩
    known := by
      intro id member
      rw [List.length_append]
      exact Nat.lt_succ_of_lt (sound.known id member)
    once := sound.once
    returns := by
      intro other id outcome member
      obtain ⟨⟨at_, found⟩, completed⟩ := sound.returns other id outcome member
      exact ⟨⟨at_, grow found⟩, completed⟩
    reclaimed := sound.reclaimed }

section
variable (running : session ∈ m.active) (only : ∀ i, (m.slots i).holder = some session → i = slot)
  (holder : (m.slots slot).holder = some session)
include running only holder

theorem kept_write (idle : (m.slots slot).state = .idle) :
    Kept session claimed m (hold session m request slot (.write word seq)) := by
  have mine := only_holder holder
  have calm := not_busy_of_idle idle
  have claims : (m.slots slot).holder = none → slot ∈ claimed := unclaimed_of_holder holder
  cases word with
  | op | instanceId | arguments | status | offset | result | path =>
    exact kept_put sound running only mine calm claims idle holder idle
  | seq => exact kept_put sound running only mine calm claims idle holder ⟨idle, rfl⟩

theorem kept_submit (own : (HoldStep.submit seq).Sound (m.slots slot)) :
    Kept session claimed m (hold session m request slot (.submit seq)) := by
  obtain ⟨idle, number⟩ := own
  refine ⟨submitted_sound sound idle rfl rfl holder, ⟨?_, ?_⟩, ?_⟩
  · exact only_put only
  · intro _
    simp only [hold, Shared.modify, Function.update_self]
    exact ⟨holder, .inl (.inl rfl), rfl, number⟩
  · exact .of_put rfl rfl rfl rfl (fun _ => id) running (only_holder holder) (only_holder holder)
      (not_busy_of_idle idle) nofun (unclaimed_of_holder holder)

/-- The session gives its slot back and returns what it has read. -/
theorem kept_release (own : (HoldStep.release submission outcome).Sound (m.slots slot)) :
    Kept session claimed m (hold session m request slot (.release submission outcome)) := by
  obtain ⟨done, rfl, rfl⟩ := own
  have calm := not_busy_of_done done
  have freed : Slot.Sound m slot { m.slots slot with state := .free, holder := none } :=
    .of_unsubmitted (iff_of_true rfl rfl) (not_submitted_of_free rfl)
  have put := put_sound sound freed fun busy => (calm busy).elim
  obtain ⟨other, held, found⟩ := sound.submitted slot (.inr done)
  cases holder.symm.trans held
  refine ⟨{ put with returns := ?_ }, ?_, ?_⟩
  · intro other id outcome member
    rcases List.mem_append.mp member with early | last
    · exact sound.returns other id outcome early
    · cases List.mem_singleton.mp last
      exact ⟨⟨slot, found⟩, (sound.completed slot done).1⟩
  · exact (Function.forall_update_iff _ fun _ (e : Slot) => e.holder ≠ some session).mpr
      ⟨nofun, fun i different held => different (only i held)⟩
  · refine .of_put rfl rfl rfl rfl ?_ running (only_holder holder) nofun calm nofun
      (unclaimed_of_holder holder)
    intro other member
    exact (List.mem_filter.mp member).1

end

theorem kept_hold (running : session ∈ m.active)
    (own : (Place.holding request slot step).Sound session m) :
    Kept session claimed m (hold session m request slot step) := by
  obtain ⟨only, own⟩ := own
  obtain ⟨holder, own⟩ := own running
  have stays {next : HoldStep} (own : next.Sound (m.slots slot)) :
      (Place.holding request slot next).Sound session m := ⟨only, fun _ => ⟨holder, own⟩⟩
  cases step with
  | number =>
    rw [hold, number]
    cases session.client.kind with
    | blocking => exact .local sound (stays own)
    | async => exact ⟨{ sound with }, stays own, .of_same rfl rfl rfl rfl fun _ => id⟩
  | write word seq => exact kept_write sound running only holder own
  | submit seq => exact kept_submit sound running only holder own
  | loadState seq submission =>
    obtain ⟨submitted, same, number⟩ := own
    exact .local sound (stays ⟨submitted, same, number, id⟩)
  | loadDone seq submission state =>
    obtain ⟨submitted, same, number, done⟩ := own
    refine .local sound (stays ?_)
    split_ifs with complete
    · exact ⟨done complete.1, same⟩
    · exact ⟨submitted, same, number⟩
  | loadStatus submission => exact .local sound (stays ⟨own.1, own.2, rfl⟩)
  | loadResult submission status =>
    obtain ⟨done, same, rfl⟩ := own
    exact .local sound (stays ⟨done, same, rfl⟩)
  | release submission outcome => exact kept_release sound running only holder own

end

end Holding

/-- A session may begin a call when nothing reclaims the slots of its instance. -/
theorem kept_session (sound : m.Sound) (own : place.Sound session m)
    (alone : ∀ request, move = .request request →
      ∀ entry ∈ m.reclaiming, entry.2 ≠ session.client.instanceId)
    (acted : actSession slotCount session m move place = some after) :
    Kept session (place.claims slotCount m move) m after := by
  unfold actSession at acted
  split at acted
  · cases acted
    refine ⟨{ sound with }, own, ?_⟩
    have active {other : Session} (member : other ∈ m.active ++ [session])
        (foreign : other ≠ session) : other ∈ m.active := by
      rcases List.mem_append.mp member with early | last
      · exact early
      · exact (foreign (List.mem_singleton.mp last)).elim
    refine ⟨?_, ⟨rfl, rfl, fun _ _ => rfl, fun _ => id⟩, ?_⟩
    · intro other foreign
      exact ⟨fun _ _ _ => .refl _, fun _ => id, fun member => active member foreign⟩
    · intro thread
      refine ⟨fun _ => id, ?_, fun _ _ _ _ => id⟩
      intro instanceId listed stopped other member
      by_cases foreign : other = session
      · rw [foreign]
        exact fun same => alone _ rfl _ listed same.symm
      · exact stopped other (active member foreign)
  · cases acted
    have active : ∀ other ∈ m.active.filter (· ≠ session), other ∈ m.active :=
      fun other member => (List.mem_filter.mp member).1
    refine ⟨{ sound with }, ?_, .of_same rfl rfl rfl rfl active⟩
    cases place with
    | resting | claiming => exact own
    | holding request slot step =>
      exact ⟨own.1, fun member => own.2 (active _ member)⟩
  · split_ifs at acted with running
    unfold Place.step at acted
    split at acted
    · cases acted
    · cases acted
      exact kept_claim sound running own
    · cases acted
      exact kept_hold sound running own
  · cases acted

end SpaceDataModule.SabIoRing

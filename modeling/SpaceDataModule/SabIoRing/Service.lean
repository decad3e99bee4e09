import SpaceDataModule.SabIoRing.Invariant

/-! The steps of those who complete requests, the server and the supervisor, and of the
threads that reclaim slots. -/
namespace SpaceDataModule.SabIoRing
open Interleaving JavaScript Transition

variable {m : Shared}

section Completion

/-- What the completion of a request leaves sessions and reclaiming threads. -/
structure Serves (m n : Shared) : Prop where
  slots : ∀ i, (m.slots i).Served (n.slots i)
  active : n.active = m.active
  reclaiming : n.reclaiming = m.reclaiming

theorem Serves.undisturbed (serves : Serves m n) (session : Session) :
    Undisturbed session m n where
  served _ i _ := serves.slots i
  held i holder := (serves.slots i).holder ▸ holder
  active := by rw [serves.active]; exact id

theorem Serves.watched (serves : Serves m n) (thread : Nat) : Watched thread claimed m n where
  listed instanceId := by rw [serves.reclaiming]; exact id
  stopped instanceId _ := by
    unfold Shared.Stopped
    rw [serves.active]
    exact id
  left instanceId _ slot _ := by
    unfold Shared.LeftBy
    rw [(serves.slots slot).holder]
    exact id

theorem Serves.refl (m : Shared) : Serves m m := ⟨fun _ => .refl _, rfl, rfl⟩

theorem Serves.of_put (slots : n.slots = Function.update m.slots slot f)
    (served : (m.slots slot).Served f) (active : n.active = m.active)
    (reclaiming : n.reclaiming = m.reclaiming) : Serves m n := by
  refine ⟨?_, active, reclaiming⟩
  rw [slots]
  exact (Function.forall_update_iff _ fun i f => (m.slots i).Served f).mpr
    ⟨served, fun _ _ => .refl _⟩

theorem not_free_of_busy {state : SlotState} (busy : state.Busy) : state ≠ .free := by
  rintro rfl
  rcases busy with pending | servicing <;> contradiction

theorem not_done_of_busy {state : SlotState} (busy : state.Busy) : state ≠ .done := by
  rintro rfl
  rcases busy with pending | servicing <;> contradiction

/-- What is known of a completion after a step, unless it is finished. -/
def Continues (after : Shared) (slot : Nat) (outcome : Outcome) : Option CompletionStep → Prop
  | none => True
  | some next => next.Sound (after.slots slot) outcome

structure Completes (m : Shared) (slot : Nat) (outcome : Outcome)
    (after : Shared × Option CompletionStep) : Prop where
  sound : after.1.Sound
  serves : Serves m after.1
  alive : after.1.alive = m.alive
  elsewhere : ∀ i, i ≠ slot → after.1.slots i = m.slots i
  state : after.2.isSome → (after.1.slots slot).state = (m.slots slot).state ∧
    (after.1.slots slot).submission = (m.slots slot).submission
  continues : Continues after.1 slot outcome after.2
  finished : after.2 = none → (after.1.slots slot).state = .done
  taken : after.1.taken = m.taken

section
variable (sound : m.Sound)
include sound

section
-- A store to a slot with a request in it, which stays the same request.
variable {f : Slot} (was : (m.slots slot).state.Busy) (holder : f.holder = (m.slots slot).holder)
  (submission : f.submission = (m.slots slot).submission)
include was holder submission

/-- A store that leaves the request uncompleted. -/
theorem stored_sound (busy : f.state.Busy) : (m.put slot f).Sound := by
  refine put_sound sound ?_ fun _ => ⟨busy, submission⟩
  exact {
    free := by
      rw [holder, ← sound.free]
      exact iff_of_false (not_free_of_busy busy) (not_free_of_busy was)
    submitted := by
      rw [holder, submission]
      exact fun _ => sound.submitted slot (.inl was)
    uncompleted := by rw [submission]; exact fun _ => sound.uncompleted slot was
    completed := fun done => (not_done_of_busy busy done).elim }

/-- The store of DONE completes the request, once. -/
theorem completed_sound (done : f.state = .done) (number : f.doneSeq = f.seq) :
    Shared.Sound { m.put slot f with
      completions := m.completions ++ [(f.submission, ⟨f.status, f.result⟩)] } := by
  have fresh := sound.uncompleted slot was
  rw [← submission] at fresh
  obtain ⟨session, held, found⟩ := sound.submitted slot (.inl was)
  have firsts : (m.completions ++ [(f.submission, (⟨f.status, f.result⟩ : Outcome))]).map Prod.fst =
      m.completions.map Prod.fst ++ [f.submission] := List.map_append
  have own : f.Sound { m with
      completions := m.completions ++ [(f.submission, ⟨f.status, f.result⟩)] } slot := {
    free := by
      rw [holder, ← sound.free, done]
      exact iff_of_false nofun (not_free_of_busy was)
    submitted := fun _ => ⟨session, holder.trans held, by rw [submission]; exact found⟩
    uncompleted := fun busy => (not_done_of_busy busy done).elim
    completed := fun _ => ⟨List.mem_append_right _ (List.mem_singleton.mpr rfl), number⟩ }
  have each (i : Nat) : ((m.put slot f).slots i).Sound { m with
      completions := m.completions ++ [(f.submission, ⟨f.status, f.result⟩)] } i := by
    refine (Function.forall_update_iff m.slots fun i e => e.Sound _ i).mpr ⟨own, ?_⟩ i
    intro i here
    refine { sound.each i with uncompleted := ?_, completed := ?_ }
    · intro busy
      rw [firsts, List.mem_append, List.mem_singleton]
      rintro (early | equal)
      · exact sound.uncompleted i busy early
      · -- Two slots do not carry one submission.
        obtain ⟨other, -, there⟩ := sound.submitted i (.inl busy)
        rw [equal, submission, found] at there
        cases there
        exact here rfl
    · intro isDone
      obtain ⟨completed, numbered⟩ := sound.completed i isDone
      exact ⟨List.mem_append_left _ completed, numbered⟩
  exact {
    free := fun i => (each i).free
    submitted := fun i => (each i).submitted
    uncompleted := fun i => (each i).uncompleted
    completed := fun i => (each i).completed
    kept := by
      intro id bound uncompleted
      rw [firsts, List.mem_append, not_or, List.mem_singleton] at uncompleted
      obtain ⟨i, equal, busy⟩ := sound.kept id bound uncompleted.1
      have different : i ≠ slot := by
        rintro rfl
        exact uncompleted.2 (equal.symm.trans submission.symm)
      exact ⟨i, by rw [put_of_ne different]; exact ⟨equal, busy⟩⟩
    known := by
      intro id member
      rw [firsts, List.mem_append, List.mem_singleton] at member
      rcases member with early | rfl
      · exact sound.known id early
      · rw [submission]
        exact (List.getElem?_eq_some_iff.mp found).1
    once := by
      rw [firsts]
      refine List.Nodup.append sound.once (List.nodup_singleton _) ?_
      intro id early last
      rw [List.mem_singleton.mp last] at early
      exact fresh early
    returns := by
      intro other id returned member
      obtain ⟨submitted, completed⟩ := sound.returns other id returned member
      exact ⟨submitted, List.mem_append_left _ completed⟩
    reclaimed := sound.reclaimed }

theorem Completes.stored {next : CompletionStep} (state : f.state = (m.slots slot).state)
    (seq : f.seq = (m.slots slot).seq) (own : next.Sound f outcome) :
    Completes m slot outcome (m.put slot f, some next) where
  sound := stored_sound sound was holder submission (state ▸ was)
  serves := .of_put rfl ⟨holder, submission, seq, fun calm => (calm was).elim,
    fun _ => .inl (state ▸ was)⟩ rfl rfl
  alive := rfl
  elsewhere _ different := put_of_ne different
  state _ := by
    rw [put_self]
    exact ⟨state, submission⟩
  continues := by
    unfold Continues
    rwa [put_self]
  finished := nofun
  taken := rfl

end

theorem complete_step (busy : (m.slots slot).state.Busy)
    (same : (m.slots slot).submission = submission) (own : step.Sound (m.slots slot) outcome) :
    Completes m slot outcome (complete m slot submission outcome step) := by
  cases step with
  | result => exact .stored sound busy (by rfl) (by rfl) rfl rfl rfl
  | status => exact .stored sound busy (by rfl) (by rfl) rfl rfl ⟨own, rfl⟩
  | loadSeq =>
    exact ⟨sound, .refl m, rfl, fun _ _ => rfl, fun _ => ⟨rfl, rfl⟩, ⟨own.1, own.2, rfl⟩, nofun, rfl⟩
  | storeDone seq =>
    obtain ⟨result, status, rfl⟩ := own
    exact .stored sound busy (by rfl) (by rfl) rfl rfl ⟨result, status, rfl⟩
  | state =>
    obtain ⟨result, status, number⟩ := own
    have outcome_eq : outcome = ⟨(m.slots slot).status, (m.slots slot).result⟩ := by
      rw [result, status]
    refine ⟨?_, ?_, rfl, fun _ different => put_of_ne different, nofun, trivial, ?_, rfl⟩
    · rw [outcome_eq, ← same]
      exact completed_sound sound (f := { m.slots slot with state := .done }) busy rfl rfl rfl number
    · exact .of_put rfl ⟨rfl, rfl, rfl, fun calm => (calm busy).elim, fun _ => .inr rfl⟩ rfl rfl
    · intro _
      simp only [complete, Shared.modify, Function.update_self]

end

end Completion

section Server
variable {server : Server} {jobs : List Job}

structure ServerKept (m : Shared) (after : Shared × Server) : Prop where
  sound : after.1.Sound
  own : after.2.Sound after.1
  serves : Serves m after.1

theorem erased_job (distinct : (jobs.map Job.slot).Nodup) (found : jobs[index]? = some job) :
    ((jobs.eraseIdx index).map Job.slot).Nodup ∧
      job.slot ∉ (jobs.eraseIdx index).map Job.slot := by
  obtain ⟨bound, same⟩ := List.getElem?_eq_some_iff.mp found
  have split := ((List.getElem_cons_eraseIdx_perm bound).map Job.slot).nodup_iff.mpr distinct
  rw [same, List.map_cons, List.nodup_cons] at split
  exact ⟨split.2, split.1⟩

theorem job_elsewhere (member : other ∈ jobs) (absent : slot ∉ jobs.map Job.slot) :
    other.slot ≠ slot := by
  rintro rfl
  exact absent (List.mem_map_of_mem member)

theorem kept_completing (own : (Server.mk jobs (.completing job outcome step)).Serving m)
    (completes : Completes m job.slot outcome result) :
    ServerKept m (result.1, ⟨jobs, match result.2 with
      | some next => .completing job outcome next
      | none => .idle⟩) := by
  obtain ⟨distinct, serviced, ⟨absent, services, -⟩, taken⟩ := own
  obtain ⟨after, next⟩ := result
  have same {i : Nat} (serving : (after.slots i).state = .servicing) :
      i ∈ after.taken → (Server.mk jobs (.completing job outcome step)).InHand i
        (after.slots i).submission := by
    rw [(completes.serves.slots i).submission, completes.taken]
    refine fun member => taken i member ?_
    by_cases here : i = job.slot
    · rw [here]
      exact services.1
    · rwa [completes.elsewhere i here] at serving
  refine ⟨completes.sound, fun _ => ⟨distinct, ?_, ?_, ?_⟩, completes.serves⟩
  · intro other member
    rw [completes.elsewhere _ (job_elsewhere member absent)]
    exact serviced other member
  · cases next with
    | none => trivial
    | some next =>
      obtain ⟨state, submission⟩ := completes.state rfl
      exact ⟨absent, ⟨state.trans services.1, submission.trans services.2⟩, completes.continues⟩
  · intro i member serving
    obtain making | ⟨held, found, own⟩ := same serving member
    · cases making
    refine .inr ⟨held, ?_, own⟩
    cases next with
    | some next => exact found
    | none =>
      -- the completed job is over: its slot is DONE
      refine (List.mem_cons.mp found).resolve_left ?_
      rintro rfl
      rw [← own.1, completes.finished rfl] at serving
      cases serving

theorem kept_exchange (sound : m.Sound) (own : (Server.mk jobs (.exchange slot)).Serving m)
    (pending : (m.slots slot).state = .pending) :
    ServerKept m ({ m.modify slot fun e => { e with state := .servicing } with
      taken := m.taken ++ [slot] }, ⟨jobs, .make slot⟩) := by
  obtain ⟨distinct, serviced, absent, inHand⟩ := own
  have busy : (m.slots slot).state.Busy := .inl pending
  have stored := stored_sound sound (f := { m.slots slot with state := .servicing }) busy rfl rfl
    (.inr rfl)
  have elsewhere {i : Nat} (different : i ≠ slot) :=
    put_of_ne (m := m) (f := { m.slots slot with state := .servicing }) different
  refine ⟨{ stored with }, fun _ => ⟨distinct, ?_, ⟨absent, ?_⟩, ?_⟩, ?_⟩
  · intro job member
    exact (elsewhere (job_elsewhere member absent)).symm ▸ serviced job member
  · change ((m.put slot _).slots slot).state = _
    rw [put_self]
  · intro i member serving
    by_cases here : i = slot
    · exact .inl (congrArg _ here.symm)
    · have early := (List.mem_append.mp member).resolve_right (mt List.mem_singleton.mp here)
      change ((m.put slot _).slots i).state = _ at serving
      change Server.InHand _ i ((m.put slot _).slots i).submission
      rw [elsewhere here] at serving ⊢
      exact (inHand i early serving).mono (fun _ => id) nofun
  · exact .of_put rfl ⟨rfl, rfl, rfl, fun calm => (calm busy).elim, fun _ => .inl (.inr rfl)⟩ rfl rfl

theorem kept_make (sound : m.Sound) (own : (Server.mk jobs (.make slot)).Serving m) :
    ServerKept m (m, ⟨jobs ++ [makeJob slot (m.slots slot)], .idle⟩) := by
  obtain ⟨distinct, serviced, ⟨absent, servicing⟩, inHand⟩ := own
  refine ⟨sound, fun _ => ⟨?_, ?_, trivial, ?_⟩, .refl m⟩
  · rw [List.map_append]
    refine List.Nodup.append distinct (List.nodup_singleton _) ?_
    intro other early last
    rw [List.mem_singleton.mp last] at early
    exact absent early
  · exact forall_mem_concat.mpr ⟨serviced, servicing, rfl⟩
  · intro i member serving
    refine (inHand i member serving).mono (fun job => List.mem_append_left _) ?_
    rintro ⟨⟩
    exact .inr ⟨_, List.mem_append_right _ (List.mem_singleton.mpr rfl), rfl, rfl⟩

theorem kept_advance (sound : m.Sound) (own : server.Serving m)
    (taken : server.advance m = some after) : ServerKept m after := by
  obtain ⟨jobs, step⟩ := server
  cases step with
  | idle => cases taken
  | load slot =>
    cases taken
    refine ⟨sound, fun _ => ?_, .refl m⟩
    split_ifs
    · exact own.turn rfl own.step (fun _ => id) nofun
    · exact own.turn rfl trivial (fun _ => id) nofun
  | exchange slot =>
    unfold Server.advance at taken
    dsimp only at taken
    split_ifs at taken with pending
    · cases taken
      exact kept_exchange sound own pending
    · cases taken
      exact ⟨sound, fun _ => own.turn rfl trivial (fun _ => id) nofun, .refl m⟩
  | make slot =>
    cases taken
    exact kept_make sound own
  | completing job outcome step =>
    cases taken
    obtain ⟨-, services, reached⟩ := own.step
    exact kept_completing own (complete_step sound (.inr services.1) services.2 reached)

theorem kept_server (sound : m.Sound) (own : server.Sound m)
    (acted : actServer slotCount m move server = some after) : ServerKept m after := by
  obtain ⟨jobs, step⟩ := server
  unfold actServer at acted
  split at acted
  · cases acted
    exact ⟨{ sound with }, nofun, fun _ => .refl _, rfl, rfl⟩
  · split_ifs at acted
    cases acted
    exact ⟨{ sound with }, fun _ => ⟨List.nodup_nil, nofun, trivial, nofun⟩,
      fun _ => .refl _, rfl, rfl⟩
  · split at acted
    · rename_i idle
      cases idle
      split_ifs at acted with free
      cases acted
      exact ⟨sound, fun _ => (own free.1).turn rfl free.2.2 (fun _ => id) nofun, .refl m⟩
    · cases acted
  · split at acted
    · rename_i idle found
      cases idle
      split_ifs at acted with alive
      cases acted
      obtain ⟨distinct, serviced, -, inHand⟩ := own alive
      obtain ⟨rest, absent⟩ := erased_job distinct found
      refine ⟨sound, fun _ => ⟨rest, ?_, ⟨absent, ?_, trivial⟩, ?_⟩, .refl m⟩
      · intro other member
        exact serviced other (List.mem_of_mem_eraseIdx member)
      · exact serviced _ (List.mem_of_getElem? found)
      · intro i member serving
        refine (inHand i member serving).mono (fun job held => ?_) nofun
        obtain ⟨bound, rfl⟩ := List.getElem?_eq_some_iff.mp found
        exact (List.getElem_cons_eraseIdx_perm bound).mem_iff.mpr held
    · cases acted
  · split_ifs at acted with alive
    exact kept_advance sound (own alive) acted
  · cases acted

/-- A server that does not run does nothing but stop or be replaced. -/
theorem server_dead (dead : m.alive = false)
    (acted : actServer slotCount m move server = some after) :
    move = .replace ∨ after.1 = { m with alive := false } := by
  unfold actServer at acted
  split at acted
  · cases acted
    exact .inr rfl
  · exact .inl rfl
  · split at acted
    · split_ifs at acted with free
      cases dead.symm.trans free.1
    · cases acted
  · split at acted
    · split_ifs at acted with alive
      cases dead.symm.trans alive
    · cases acted
  · split_ifs at acted with alive
    cases dead.symm.trans alive
  · cases acted

end Server

section Supervisor

structure SupervisorKept (m : Shared) (after : Shared × Supervisor) : Prop where
  sound : after.1.Sound
  own : after.2.Sound after.1
  serves : Serves m after.1
  dead : after.1.alive = false

theorem visit_sound (dead : m.alive = false) :
    (Supervisor.visit slotCount status slot).Sound m := by
  unfold Supervisor.visit
  split_ifs
  · exact dead
  · trivial

theorem kept_failing (dead : m.alive = false) (busy : (m.slots slot).state.Busy)
    (same : (m.slots slot).submission = submission)
    (completes : Completes m slot ⟨status, .finite 0⟩ result) :
    SupervisorKept m (result.1, match result.2 with
      | some next => .completing status slot submission next
      | none => .visit slotCount status (slot + 1)) := by
  obtain ⟨after, next⟩ := result
  refine ⟨completes.sound, ?_, completes.serves, completes.alive.trans dead⟩
  cases next with
  | none => exact visit_sound (completes.alive.trans dead)
  | some next =>
    obtain ⟨state, unchanged⟩ := completes.state rfl
    exact ⟨completes.alive.trans dead, state.symm ▸ busy, unchanged.trans same,
      completes.continues⟩

/-- The supervisor fails requests while no server runs. -/
theorem kept_supervisor (sound : m.Sound) (own : supervisor.Sound m)
    (dead : ∀ status, move = .failPending status → m.alive = false)
    (acted : actSupervisor slotCount m move supervisor = some after) : SupervisorKept m after := by
  unfold actSupervisor at acted
  split at acted
  · cases acted
    exact ⟨sound, visit_sound (dead _ rfl), .refl m, dead _ rfl⟩
  · unfold Supervisor.advance at acted
    split at acted
    · cases acted
    · cases acted
      refine ⟨sound, ?_, .refl m, own⟩
      split_ifs with busy
      · exact ⟨own, busy, rfl, trivial⟩
      · exact visit_sound own
    · cases acted
      obtain ⟨dead, busy, same, step⟩ := own
      exact kept_failing dead busy same (complete_step sound busy same step)
  · cases acted

end Supervisor

section Reclaiming

/-- What a step of a reclaiming thread leaves the other parties. -/
structure Clear (thread : Nat) (m n : Shared) : Prop where
  sessions : ∀ session, Undisturbed session m n
  untouched : Untouched m n
  others : ∀ other, other ≠ thread → ∀ claimed, Watched other claimed m n

theorem Clear.refl (thread : Nat) (m : Shared) : Clear thread m m where
  sessions _ := ⟨fun _ _ _ => .refl _, fun _ => id, id⟩
  untouched := ⟨rfl, rfl, fun _ _ => rfl, fun _ => id⟩
  others _ _ _ := ⟨fun _ => id, fun _ _ => id, fun _ _ _ _ => id⟩

structure ReclaimerKept (thread : Nat) (m : Shared) (after : Shared × Reclaimer) : Prop where
  sound : after.1.Sound
  own : after.2.Sound thread after.1
  clear : Clear thread m after.1

theorem kept_visit (sound : n.Sound) (listed : (thread, instanceId) ∈ n.reclaiming)
    (stopped : n.Stopped instanceId) (clear : Clear thread m n) :
    ReclaimerKept thread m (n.visit slotCount thread instanceId slot) := by
  unfold Shared.visit
  split_ifs
  · exact ⟨sound, ⟨listed, stopped⟩, clear⟩
  · refine ⟨{ sound with }, trivial, fun session => { clear.sessions session with },
      { clear.untouched with }, ?_⟩
    intro other different claimed
    refine { clear.others other different claimed with listed := ?_ }
    intro own member
    exact List.mem_filter.mpr ⟨(clear.others other different claimed).listed own member, by simpa⟩

/-- A slot that a stopped session left behind is freed. -/
theorem freed_clear (sound : m.Sound) (stopped : m.Stopped instanceId)
    (left : m.LeftBy slot instanceId) (used : (m.slots slot).state ≠ .free)
    (calm : ¬ (m.slots slot).state.Busy) :
    (m.freed instanceId slot).Sound ∧ Clear thread m (m.freed instanceId slot) := by
  obtain ⟨session, holder⟩ := Option.ne_none_iff_exists'.mp (mt (sound.free slot).mpr used)
  have freed : Slot.Sound m slot { m.slots slot with state := .free, holder := none } :=
    .of_unsubmitted (iff_of_true rfl rfl)
      (by rintro ((pending | servicing) | done) <;> contradiction)
  have put := put_sound sound freed fun busy => (calm busy).elim
  have elsewhere {i : Nat} (different : i ≠ slot) :
      (m.freed instanceId slot).slots i = m.slots i := put_of_ne different
  refine ⟨{ put with reclaimed := ?_ }, ?_, ⟨rfl, rfl, ?_, ?_⟩, ?_⟩
  · exact forall_mem_concat.mpr ⟨sound.reclaimed, session, holder, left session holder⟩
  · intro other
    refine ⟨?_, ?_, id⟩
    · intro running i owned
      rw [elsewhere]
      · exact .refl _
      · rintro rfl
        exact stopped other running (left other owned)
    · exact (Function.forall_update_iff _ fun i (e : Slot) => e.holder = some other →
        (m.slots i).holder = some other).mpr ⟨nofun, fun _ _ => id⟩
  · intro i busy
    apply elsewhere
    rintro rfl
    exact calm busy
  · exact (Function.forall_update_iff _ fun i (e : Slot) => e.state = .servicing →
      (m.slots i).state = .servicing).mpr ⟨nofun, fun _ _ => id⟩
  · intro other _ _
    refine ⟨fun _ => id, fun _ _ => id, ?_⟩
    -- a slot without a holder is left to every thread
    intro foreign _ i _
    exact (Function.forall_update_iff _ fun i (e : Slot) =>
      (∀ owner ∈ (m.slots i).holder, owner.client.instanceId = foreign) →
        ∀ owner ∈ e.holder, owner.client.instanceId = foreign).mpr
      ⟨fun _ owner held => (Option.not_mem_none owner held).elim, fun _ _ => id⟩ i

/-- A reclaiming thread that finds its instance in a slot finds a slot that no other
instance holds. -/
theorem kept_reclaimer (sound : m.Sound) (own : reclaimer.Sound thread m)
    (begins : ∀ instanceId, move = .reclaim instanceId → m.Stopped instanceId)
    (meets : move = .step → ∀ instanceId slot, reclaimer = .load instanceId slot →
      (m.slots slot).instanceId = instanceId → m.LeftBy slot instanceId)
    (acted : actReclaimer slotCount thread m move reclaimer = some after) :
    ReclaimerKept thread m after := by
  unfold actReclaimer at acted
  split at acted
  · rename_i instanceId
    cases acted
    refine kept_visit { sound with } (List.mem_append_right _ (List.mem_singleton.mpr rfl))
      (begins instanceId rfl) ?_
    refine ⟨fun _ => ⟨fun _ _ _ => .refl _, fun _ => id, id⟩, ⟨rfl, rfl, fun _ _ => rfl, fun _ => id⟩, ?_⟩
    intro other _ _
    exact ⟨fun _ member => List.mem_append_left _ member, fun _ _ => id, fun _ _ _ _ => id⟩
  · unfold Reclaimer.advance at acted
    split at acted
    · cases acted
    · obtain ⟨listed, stopped⟩ := own
      split_ifs at acted with found
      · cases acted
        exact ⟨sound, ⟨listed, stopped, meets rfl _ _ rfl found⟩, .refl thread m⟩
      · cases acted
        exact kept_visit sound listed stopped (.refl thread m)
    · obtain ⟨listed, stopped, left⟩ := own
      split_ifs at acted with done
      · cases acted
        obtain ⟨freed, clear⟩ := freed_clear sound stopped left (by rw [done]; exact nofun)
          (not_busy_of_done done)
        exact kept_visit freed listed stopped clear
      · cases acted
        exact ⟨sound, ⟨listed, stopped, left⟩, .refl thread m⟩
    · obtain ⟨listed, stopped, left⟩ := own
      split_ifs at acted with idle
      · cases acted
        obtain ⟨freed, clear⟩ := freed_clear sound stopped left (by rw [idle]; exact nofun)
          (not_busy_of_idle idle)
        exact kept_visit freed listed stopped clear
      · cases acted
        exact kept_visit sound listed stopped (.refl thread m)
  · cases acted

end Reclaiming

end SpaceDataModule.SabIoRing

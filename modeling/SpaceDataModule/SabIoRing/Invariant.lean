import Mathlib.Data.List.Nodup
import SpaceDataModule.SabIoRing.Ring

/-! What holds of the ring between steps, what holds of each party where it stands, and
what the steps of the others leave of that. -/
namespace SpaceDataModule.SabIoRing
open Interleaving JavaScript

section Definitions

def SlotState.Busy (state : SlotState) : Prop := state = .pending ∨ state = .servicing

/-- The holder of the slot has submitted its request. -/
def SlotState.Submitted (state : SlotState) : Prop := state.Busy ∨ state = .done

structure Shared.Sound (m : Shared) : Prop where
  free : ∀ i, (m.slots i).state = .free ↔ (m.slots i).holder = none
  submitted : ∀ i, (m.slots i).state.Submitted → ∃ session, (m.slots i).holder = some session ∧
    m.submissions[(m.slots i).submission]? = some (session, i)
  uncompleted : ∀ i, (m.slots i).state.Busy →
    (m.slots i).submission ∉ m.completions.map Prod.fst
  completed : ∀ i, (m.slots i).state = .done →
    ((m.slots i).submission, ⟨(m.slots i).status, (m.slots i).result⟩) ∈ m.completions ∧
      (m.slots i).doneSeq = (m.slots i).seq
  kept : ∀ submission < m.submissions.length, submission ∉ m.completions.map Prod.fst →
    ∃ i, (m.slots i).submission = submission ∧ (m.slots i).state.Busy
  known : ∀ submission ∈ m.completions.map Prod.fst, submission < m.submissions.length
  once : (m.completions.map Prod.fst).Nodup
  returns : ∀ session submission outcome, (session, submission, outcome) ∈ m.returns →
    (∃ slot, m.submissions[submission]? = some (session, slot)) ∧
      (submission, outcome) ∈ m.completions
  reclaimed : ∀ entry ∈ m.reclaimed, ∃ session, entry.2 = some session ∧
    session.client.instanceId = entry.1

def HoldStep.Sound (e : Slot) : HoldStep → Prop
  | .number | .write _ _ => e.state = .idle
  | .submit seq => e.state = .idle ∧ e.seq = seq
  | .loadState seq submission =>
    e.state.Submitted ∧ e.submission = submission ∧ e.seq = seq
  | .loadDone seq submission state => e.state.Submitted ∧ e.submission = submission ∧
      e.seq = seq ∧ (state = .done → e.state = .done)
  | .loadStatus submission => e.state = .done ∧ e.submission = submission
  | .loadResult submission status =>
    e.state = .done ∧ e.submission = submission ∧ status = e.status
  | .release submission outcome =>
    e.state = .done ∧ e.submission = submission ∧ outcome = ⟨e.status, e.result⟩

/-- A live session holds the slot it works on, and no other. -/
def Place.Sound (session : Session) (m : Shared) : Place → Prop
  | .resting | .claiming _ _ => ∀ i, (m.slots i).holder ≠ some session
  | .holding _ slot step => (∀ i, (m.slots i).holder = some session → i = slot) ∧
      (session ∈ m.active → (m.slots slot).holder = some session ∧ step.Sound (m.slots slot))

def CompletionStep.Sound (e : Slot) (outcome : Outcome) : CompletionStep → Prop
  | .result => True
  | .status => e.result = outcome.result
  | .loadSeq => e.result = outcome.result ∧ e.status = outcome.status
  | .storeDone seq => e.result = outcome.result ∧ e.status = outcome.status ∧ seq = e.seq
  | .state => e.result = outcome.result ∧ e.status = outcome.status ∧ e.doneSeq = e.seq

def Slot.Services (e : Slot) (submission : Nat) : Prop :=
  e.state = .servicing ∧ e.submission = submission

def ServerStep.Sound (m : Shared) (jobs : List Job) : ServerStep → Prop
  | .idle => True
  | .load slot | .exchange slot => slot ∉ jobs.map Job.slot
  | .make slot => slot ∉ jobs.map Job.slot ∧ (m.slots slot).state = .servicing
  | .completing job outcome step => job.slot ∉ jobs.map Job.slot ∧
      (m.slots job.slot).Services job.submission ∧ step.Sound (m.slots job.slot) outcome

def Server.underway (server : Server) : List Job :=
  match server.step with
  | .completing job _ _ => job :: server.jobs
  | _ => server.jobs

/-- The server is about to make the job of the request, or has it. -/
def Server.InHand (server : Server) (slot submission : Nat) : Prop :=
  server.step = .make slot ∨
    ∃ job ∈ server.underway, job.slot = slot ∧ job.submission = submission

theorem Server.InHand.mono {first second : Server} (inHand : first.InHand slot submission)
    (underway : ∀ job ∈ first.underway, job ∈ second.underway)
    (making : first.step = .make slot → second.InHand slot submission) :
    second.InHand slot submission := by
  obtain make | ⟨job, member, own⟩ := inHand
  · exact making make
  · exact .inr ⟨job, underway job member, own⟩

/-- A running server holds one job for each slot it services. -/
structure Server.Serving (m : Shared) (server : Server) : Prop where
  distinct : (server.jobs.map Job.slot).Nodup
  jobs : ∀ job ∈ server.jobs, (m.slots job.slot).Services job.submission
  step : server.step.Sound m server.jobs
  taken : ∀ i ∈ m.taken, (m.slots i).state = .servicing → server.InHand i (m.slots i).submission

/-- The next step of the server, with the jobs it has. -/
theorem Server.Serving.turn {first second : Server} (own : first.Serving m)
    (jobs : second.jobs = first.jobs) (step : second.step.Sound m second.jobs)
    (underway : ∀ job ∈ first.underway, job ∈ second.underway)
    (idle : ∀ slot, first.step ≠ .make slot) : second.Serving m := by
  refine ⟨jobs ▸ own.distinct, jobs ▸ own.jobs, step, ?_⟩
  intro i member serving
  exact (own.taken i member serving).mono underway fun making => (idle i making).elim

def Server.Sound (m : Shared) (server : Server) : Prop := m.alive = true → server.Serving m

/-- The supervisor works only while no server runs. -/
def Supervisor.Sound (m : Shared) : Supervisor → Prop
  | .resting => True
  | .load _ _ => m.alive = false
  | .completing status slot submission step => m.alive = false ∧ (m.slots slot).state.Busy ∧
      (m.slots slot).submission = submission ∧ step.Sound (m.slots slot) ⟨status, .finite 0⟩

def Shared.Stopped (m : Shared) (instanceId : Nat) : Prop :=
  ∀ session ∈ m.active, session.client.instanceId ≠ instanceId
  deriving Decidable

/-- No session of another instance holds the slot. -/
def Shared.LeftBy (m : Shared) (slot instanceId : Nat) : Prop :=
  ∀ session ∈ (m.slots slot).holder, session.client.instanceId = instanceId
  deriving Decidable

/-- The slot that the thread is about to free. -/
def Reclaimer.exchanges : Reclaimer → Option Nat
  | .exchange _ slot _ => some slot
  | _ => none

def Reclaimer.Sound (thread : Nat) (m : Shared) : Reclaimer → Prop
  | .resting => True
  | .load instanceId _ => (thread, instanceId) ∈ m.reclaiming ∧ m.Stopped instanceId
  | .exchange instanceId slot _ => (thread, instanceId) ∈ m.reclaiming ∧ m.Stopped instanceId ∧
      m.LeftBy slot instanceId

theorem listed_of_exchanges {reclaimer : Reclaimer} (sound : reclaimer.Sound thread m)
    (exchanges : slot ∈ reclaimer.exchanges) :
    ∃ instanceId, (thread, instanceId) ∈ m.reclaiming := by
  cases reclaimer with
  | exchange instanceId slot done => exact ⟨instanceId, sound.1⟩
  | resting | load => cases exchanges

def Position.Sound (party : Party) (m : Shared) : Position → Prop
  | .session place =>
    match party with
    | .session self => place.Sound self m
    | _ => False
  | .server self => party = .server ∧ self.Sound m
  | .supervisor self => party = .supervisor ∧ self.Sound m
  | .reclaimer self =>
    match party with
    | .reclaimer thread => self.Sound thread m
    | _ => False

end Definitions

section Stability
variable {e : Slot}

/-- What the completion of a request may change in a slot. -/
structure Slot.Served (e f : Slot) : Prop where
  holder : f.holder = e.holder
  submission : f.submission = e.submission
  seq : f.seq = e.seq
  same : ¬ e.state.Busy → f = e
  busy : e.state.Busy → f.state.Submitted

theorem Slot.Served.refl (e : Slot) : e.Served e := ⟨rfl, rfl, rfl, fun _ => rfl, .inl⟩

/-- What a step of another party leaves a session. -/
structure Undisturbed (session : Session) (m n : Shared) : Prop where
  served : session ∈ m.active → ∀ i, (m.slots i).holder = some session →
    (m.slots i).Served (n.slots i)
  held : ∀ i, (n.slots i).holder = some session → (m.slots i).holder = some session
  active : session ∈ n.active → session ∈ m.active

theorem Slot.Served.submitted (served : e.Served f) (submitted : e.state.Submitted) :
    f.state.Submitted := by
  rcases submitted with busy | done
  · exact served.busy busy
  · rw [served.same (by rw [done]; rintro (pending | servicing) <;> contradiction), done]
    exact .inr rfl

theorem not_busy_of_done (done : e.state = .done) : ¬ e.state.Busy := by
  rw [done]
  rintro (pending | servicing) <;> contradiction

theorem not_busy_of_idle (idle : e.state = .idle) : ¬ e.state.Busy := by
  rw [idle]
  rintro (pending | servicing) <;> contradiction

theorem HoldStep.Sound.stable {step : HoldStep} (served : e.Served f) (sound : step.Sound e) :
    step.Sound f := by
  cases step with
  | number | write =>
    rw [served.same (not_busy_of_idle sound)]
    exact sound
  | submit seq =>
    rw [served.same (not_busy_of_idle sound.1)]
    exact sound
  | loadState seq submission =>
    obtain ⟨submitted, same, number⟩ := sound
    exact ⟨served.submitted submitted, served.submission.trans same, served.seq.trans number⟩
  | loadDone seq submission state =>
    obtain ⟨submitted, same, number, done⟩ := sound
    refine ⟨served.submitted submitted, served.submission.trans same, served.seq.trans number, ?_⟩
    intro loaded
    rw [served.same (not_busy_of_done (done loaded))]
    exact done loaded
  | loadStatus | loadResult | release =>
    rw [served.same (not_busy_of_done sound.1)]
    exact sound

theorem Place.Sound.stable {place : Place} (calm : Undisturbed session m n)
    (sound : place.Sound session m) : place.Sound session n := by
  cases place with
  | resting | claiming => exact fun i holder => sound i (calm.held i holder)
  | holding request slot step =>
    obtain ⟨only, own⟩ := sound
    refine ⟨fun i holder => only i (calm.held i holder), ?_⟩
    intro active
    obtain ⟨holder, step⟩ := own (calm.active active)
    have served := calm.served (calm.active active) slot holder
    exact ⟨served.holder.trans holder, step.stable served⟩

/-- What a session or a reclaiming thread leaves those who complete requests. -/
structure Untouched (m n : Shared) : Prop where
  alive : n.alive = m.alive
  taken : n.taken = m.taken
  slots : ∀ i, (m.slots i).state.Busy → n.slots i = m.slots i
  servicing : ∀ i, (n.slots i).state = .servicing → (m.slots i).state = .servicing

theorem Server.Sound.stable {server : Server} (calm : Untouched m n) (sound : server.Sound m) :
    server.Sound n := by
  intro alive
  obtain ⟨distinct, jobs, step, taken⟩ := sound (calm.alive ▸ alive)
  have same {slot submission : Nat} (services : (m.slots slot).Services submission) :=
    calm.slots slot (.inr services.1)
  refine ⟨distinct, fun job member => same (jobs job member) ▸ jobs job member, ?_, ?_⟩
  rotate_left
  · intro i member services
    have before := calm.servicing i services
    rw [calm.slots i (.inr before)]
    exact taken i (calm.taken ▸ member) before
  cases at_ : server.step with
  | idle => trivial
  | load slot | exchange slot =>
    rw [at_] at step
    exact step
  | make slot =>
    rw [at_] at step
    exact ⟨step.1, (calm.slots slot (.inr step.2)).symm ▸ step.2⟩
  | completing job outcome completion =>
    rw [at_] at step
    obtain ⟨absent, services, completion⟩ := step
    exact ⟨absent, (same services).symm ▸ services, (same services).symm ▸ completion⟩

theorem Supervisor.Sound.stable {supervisor : Supervisor} (calm : Untouched m n)
    (sound : supervisor.Sound m) : supervisor.Sound n := by
  cases supervisor with
  | resting => trivial
  | load status slot => exact calm.alive.trans sound
  | completing status slot submission step =>
    obtain ⟨alive, busy, same, step⟩ := sound
    have untouched := calm.slots slot busy
    exact ⟨calm.alive.trans alive, untouched.symm ▸ busy, untouched.symm ▸ same,
      untouched.symm ▸ step⟩

/-- What a step of another party leaves a reclaiming thread, but for the slot it claims. -/
structure Watched (thread : Nat) (claimed : Option Nat) (m n : Shared) : Prop where
  listed : ∀ instanceId, (thread, instanceId) ∈ m.reclaiming →
    (thread, instanceId) ∈ n.reclaiming
  stopped : ∀ instanceId, (thread, instanceId) ∈ m.reclaiming → m.Stopped instanceId →
    n.Stopped instanceId
  left : ∀ instanceId, m.Stopped instanceId → ∀ slot ∉ claimed, m.LeftBy slot instanceId →
    n.LeftBy slot instanceId

theorem Reclaimer.Sound.stable {reclaimer : Reclaimer} (calm : Watched thread claimed m n)
    (apart : ∀ slot ∈ reclaimer.exchanges, slot ∉ claimed) (sound : reclaimer.Sound thread m) :
    reclaimer.Sound thread n := by
  cases reclaimer with
  | resting => trivial
  | load instanceId slot =>
    obtain ⟨listed, stopped⟩ := sound
    exact ⟨calm.listed _ listed, calm.stopped _ listed stopped⟩
  | exchange instanceId slot done =>
    obtain ⟨listed, stopped, left⟩ := sound
    exact ⟨calm.listed _ listed, calm.stopped _ listed stopped,
      calm.left _ stopped _ (apart slot rfl) left⟩

end Stability

section Updates
variable {m : Shared} {f : Slot}

def Shared.put (m : Shared) (slot : Nat) (f : Slot) : Shared :=
  { m with slots := Function.update m.slots slot f }

theorem put_self : (m.put slot f).slots slot = f := Function.update_self ..

theorem put_of_ne (different : i ≠ slot) : (m.put slot f).slots i = m.slots i :=
  Function.update_of_ne different ..

structure Slot.Sound (m : Shared) (i : Nat) (f : Slot) : Prop where
  free : f.state = .free ↔ f.holder = none
  submitted : f.state.Submitted → ∃ session, f.holder = some session ∧
    m.submissions[f.submission]? = some (session, i)
  uncompleted : f.state.Busy → f.submission ∉ m.completions.map Prod.fst
  completed : f.state = .done → (f.submission, ⟨f.status, f.result⟩) ∈ m.completions ∧
    f.doneSeq = f.seq

theorem Shared.Sound.each (sound : m.Sound) (i : Nat) : (m.slots i).Sound m i :=
  ⟨sound.free i, sound.submitted i, sound.uncompleted i, sound.completed i⟩

/-- A slot that is neither submitted before nor after is anyone's to change. -/
theorem Slot.Sound.of_unsubmitted (free : f.state = .free ↔ f.holder = none)
    (unsubmitted : ¬ f.state.Submitted) : f.Sound m slot :=
  ⟨free, fun submitted => (unsubmitted submitted).elim,
    fun busy => (unsubmitted (.inl busy)).elim, fun done => (unsubmitted (.inr done)).elim⟩

theorem put_sound (sound : m.Sound) (own : f.Sound m slot)
    (kept : (m.slots slot).state.Busy →
      f.state.Busy ∧ f.submission = (m.slots slot).submission) : (m.put slot f).Sound := by
  have each := (Function.forall_update_iff m.slots fun i f => f.Sound m i).mpr
    ⟨own, fun i _ => sound.each i⟩
  exact { sound with
    free := fun i => (each i).free
    submitted := fun i => (each i).submitted
    uncompleted := fun i => (each i).uncompleted
    completed := fun i => (each i).completed
    kept := by
      intro submission bound open'
      obtain ⟨i, same, busy⟩ := sound.kept submission bound open'
      refine ⟨i, ?_⟩
      by_cases here : i = slot
      · subst here
        obtain ⟨still, unchanged⟩ := kept busy
        rw [put_self]
        exact ⟨unchanged.trans same, still⟩
      · rw [put_of_ne here]
        exact ⟨same, busy⟩ }

end Updates

end SpaceDataModule.SabIoRing

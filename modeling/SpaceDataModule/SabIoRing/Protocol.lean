import SpaceDataModule.SabIoRing.Service
import SpaceDataModule.SabIoRing.Sessions

/-! The ring over whole runs: a slot belongs to one live session at a time, and each
request is completed once and answered with its own outcome. -/
namespace SpaceDataModule.SabIoRing
open Interleaving JavaScript Transition

section Policies
variable (slotCount : Nat) (s : Config Shared Party Position) (label : Label Party Move Empty)

def Position.idle : Position → Bool
  | .supervisor .resting => true
  | _ => false

/-- Requests are failed only while no server runs, and a replacement server starts only
when that is over; the slots of an instance are reclaimed only after all its threads have
stopped, and none starts meanwhile. -/
def Supervised : Label Party Move Empty → Prop
  | .thread _ (.failPending _) => s.shared.alive = false
  | .thread _ .replace => (s.locals .supervisor).idle = true
  | .thread _ (.reclaim instanceId) => s.shared.Stopped instanceId
  | .thread (.session session) (.request _) =>
    ∀ entry ∈ s.shared.reclaiming, entry.2 ≠ session.client.instanceId
  | _ => True

instance : Decidable (Supervised s label) := by
  unfold Supervised
  split <;> infer_instance

/-- A slot in which a reclaiming thread finds its instance is free or held by a session
of that instance. -/
def Meets (m : Shared) : Move → Position → Prop
  | .step, .reclaimer (.load instanceId slot) =>
    (m.slots slot).instanceId = instanceId → m.LeftBy slot instanceId
  | _, _ => True

instance (m : Shared) (move : Move) (position : Position) : Decidable (Meets m move position) := by
  unfold Meets
  split <;> infer_instance

def Position.claims (m : Shared) (move : Move) : Position → Option Nat
  | .session place => place.claims slotCount m move
  | _ => none

def Position.exchanges : Position → Option Nat
  | .reclaimer self => self.exchanges
  | _ => none

/-- A reclaiming thread never meets its instance in a slot that another instance holds,
and nobody claims a slot from where the thread has met its instance in it to the last
exchange. -/
def Exclusive : Label Party Move Empty → Prop
  | .thread party move => Meets s.shared move (s.locals party) ∧
      ∀ slot ∈ (s.locals party).claims slotCount s.shared move,
        ∀ entry ∈ s.shared.reclaiming, slot ∉ (s.locals (.reclaimer entry.1)).exchanges
  | .event _ => True

instance : Decidable (Exclusive slotCount s label) := by
  unfold Exclusive
  split <;> infer_instance

def Careful : Prop := Supervised s label ∧ Exclusive slotCount s label
  deriving Decidable

def Label.reclaims : Label Party Move Empty → Bool
  | .thread _ (.reclaim _) => true
  | _ => false

/-- No slots are reclaimed. -/
def Unreclaimed : Prop := Supervised s label ∧ Label.reclaims label = false
  deriving Decidable

end Policies

section Runs

def Ring (s : Config Shared Party Position) : Prop := Holds Shared.Sound Position.Sound s

structure Steps (party : Party) (claimed : Option Nat) (m : Shared)
    (after : Shared × Position) : Prop where
  sound : after.1.Sound
  own : after.2.Sound party after.1
  sessions : ∀ session, party ≠ .session session → Undisturbed session m after.1
  untouched : party ≠ .server → party ≠ .supervisor → Untouched m after.1
  reclaimers : ∀ thread, party ≠ .reclaimer thread → Watched thread claimed m after.1

/-- A step of the server leaves the supervisor as it stands: one of them rests. -/
theorem supervisor_stands (located : s.locals .supervisor = .supervisor supervisor)
    (own : supervisor.Sound s.shared) (admitted : Careful slotCount s (.thread .server move))
    (acted : actServer slotCount s.shared move server = some after) : supervisor.Sound after.1 := by
  have stays (dead : s.shared.alive = false) (working : supervisor ≠ .resting) :
      after.1 = { s.shared with alive := false } := by
    rcases server_dead dead acted with rfl | same
    · have idle := admitted.1
      simp only [Supervised, located] at idle
      cases supervisor with
      | resting => exact (working rfl).elim
      | load | completing => cases idle
    · exact same
  cases supervisor with
  | resting => trivial
  | load status slot =>
    rw [stays own nofun]
    rfl
  | completing status slot submission step =>
    rw [stays own.1 nofun]
    exact ⟨rfl, own.2⟩

section
variable (holds : Ring s)
include holds

theorem steps_session (located : s.locals (.session session) = .session place)
    (admitted : Careful slotCount s (.thread (.session session) move))
    (acted : actSession slotCount session s.shared move place = some after) :
    Steps (.session session) (place.claims slotCount s.shared move) s.shared
      (after.map id .session) := by
  have own := holds.locals (.session session)
  rw [located] at own
  have kept := kept_session holds.shared own
    (by rintro request rfl; exact admitted.1) acted
  exact ⟨kept.sound, kept.own,
    fun other different => kept.apart.others other fun same => different (congrArg _ same.symm),
    fun _ _ => kept.apart.untouched, fun thread _ => kept.apart.watched thread⟩

theorem steps_server (located : s.locals .server = .server server)
    (acted : actServer slotCount s.shared move server = some after) :
    Steps .server none s.shared (after.map id .server) := by
  have own := holds.locals .server
  rw [located] at own
  have kept := kept_server holds.shared own.2 acted
  exact ⟨kept.sound, ⟨rfl, kept.own⟩, fun session _ => kept.serves.undisturbed session,
    fun different => (different rfl).elim, fun thread _ => kept.serves.watched thread⟩

theorem steps_supervisor (located : s.locals .supervisor = .supervisor supervisor)
    (admitted : Careful slotCount s (.thread .supervisor move))
    (acted : actSupervisor slotCount s.shared move supervisor = some after) :
    Steps .supervisor none s.shared (after.map id .supervisor) := by
  have own := holds.locals .supervisor
  rw [located] at own
  have kept := kept_supervisor holds.shared own.2
    (by rintro status rfl; exact admitted.1) acted
  exact ⟨kept.sound, ⟨rfl, kept.own⟩, fun session _ => kept.serves.undisturbed session,
    fun _ different => (different rfl).elim, fun thread _ => kept.serves.watched thread⟩

theorem steps_reclaimer (located : s.locals (.reclaimer thread) = .reclaimer reclaimer)
    (admitted : Careful slotCount s (.thread (.reclaimer thread) move))
    (acted : actReclaimer slotCount thread s.shared move reclaimer = some after) :
    Steps (.reclaimer thread) none s.shared (after.map id .reclaimer) := by
  have own := holds.locals (.reclaimer thread)
  rw [located] at own
  have kept := kept_reclaimer holds.shared own
    (by rintro instanceId rfl; exact admitted.1)
    (by
      rintro rfl instanceId slot rfl
      have meets := admitted.2.1
      rw [located] at meets
      exact meets) acted
  exact ⟨kept.sound, kept.own, fun session _ => kept.clear.sessions session,
    fun _ _ => kept.clear.untouched,
    fun other different => kept.clear.others other (fun same => different (congrArg _ same.symm)) _⟩

theorem steps_act (admitted : Careful slotCount s (.thread party move))
    (acted : act slotCount party move s.shared (s.locals party) = some after) :
    Steps party ((s.locals party).claims slotCount s.shared move) s.shared after := by
  unfold act at acted
  split at acted
  · rename_i located
    obtain ⟨result, taken, rfl⟩ := Option.map_eq_some_iff.mp acted
    rw [located]
    exact steps_session holds located admitted taken
  · rename_i located
    obtain ⟨result, taken, rfl⟩ := Option.map_eq_some_iff.mp acted
    rw [located]
    exact steps_server holds located taken
  · rename_i located
    obtain ⟨result, taken, rfl⟩ := Option.map_eq_some_iff.mp acted
    rw [located]
    exact steps_supervisor holds located admitted taken
  · rename_i located
    obtain ⟨result, taken, rfl⟩ := Option.map_eq_some_iff.mp acted
    rw [located]
    exact steps_reclaimer holds located admitted taken
  · cases acted

/-- The server does not run where the supervisor does. -/
theorem dead_of_supervisor (admitted : Careful slotCount s (.thread .supervisor move))
    (acted : act slotCount .supervisor move s.shared (s.locals .supervisor) = some after) :
    after.1.alive = false := by
  have own := holds.locals .supervisor
  cases supervising : s.locals .supervisor with
  | supervisor supervisor =>
    rw [supervising] at own acted
    obtain ⟨result, taken, rfl⟩ := Option.map_eq_some_iff.mp acted
    exact (kept_supervisor holds.shared own.2 (by rintro status rfl; exact admitted.1) taken).dead
  | session | server | reclaimer =>
    rw [supervising] at acted
    cases acted

theorem stands_other (admitted : Careful slotCount s (.thread party move))
    (acted : act slotCount party move s.shared (s.locals party) = some after)
    (different : other ≠ party) (located : s.locals other = position)
    (standing : position.Sound other s.shared) : position.Sound other after.1 := by
  have steps := steps_act holds admitted acted
  cases position with
  | session place =>
    cases other with
    | session self =>
      exact Place.Sound.stable (steps.sessions self fun same => different same.symm) standing
    | server | supervisor | reclaimer => exact standing
  | reclaimer reclaimer =>
    cases other with
    | reclaimer thread =>
      refine Reclaimer.Sound.stable (steps.reclaimers thread fun same => different same.symm) ?_
        standing
      intro slot exchanges claimed
      obtain ⟨instanceId, listed⟩ := listed_of_exchanges standing exchanges
      have apart := admitted.2.2 slot claimed _ listed
      rw [located] at apart
      exact apart exchanges
    | session | server | supervisor => exact standing
  | server server =>
    obtain ⟨rfl, standing⟩ := standing
    refine ⟨rfl, ?_⟩
    cases party with
    | server => exact (different rfl).elim
    | supervisor =>
      intro alive
      cases (dead_of_supervisor holds admitted acted).symm.trans alive
    | session self => exact standing.stable (steps.untouched nofun nofun)
    | reclaimer thread => exact standing.stable (steps.untouched nofun nofun)
  | supervisor supervisor =>
    obtain ⟨rfl, standing⟩ := standing
    refine ⟨rfl, ?_⟩
    cases party with
    | supervisor => exact (different rfl).elim
    | server =>
      cases serving : s.locals .server with
      | server server =>
        rw [serving] at acted
        obtain ⟨result, taken, rfl⟩ := Option.map_eq_some_iff.mp acted
        exact supervisor_stands located standing admitted taken
      | session | supervisor | reclaimer =>
        rw [serving] at acted
        cases acted
    | session self => exact standing.stable (steps.untouched nofun nofun)
    | reclaimer thread => exact standing.stable (steps.untouched nofun nofun)

theorem Ring.next (admitted : Careful slotCount s label)
    (taken : Interleaving.next (act slotCount) happen s label = some t) : Ring t := by
  cases label with
  | thread party move =>
    apply Holds.thread holds taken
    · intro shared self acted
      have steps := steps_act holds admitted acted
      exact ⟨steps.sound, steps.own⟩
    · intro shared self acted other different standing
      exact stands_other holds admitted acted different rfl standing
  | event event => exact event.elim

end

theorem Ring.initial : Ring initial where
  shared := {
    free := fun _ => iff_of_true rfl rfl
    submitted := by rintro i ((pending | servicing) | done) <;> contradiction
    uncompleted := by rintro i (pending | servicing) <;> contradiction
    completed := nofun
    kept := nofun
    known := nofun
    once := List.nodup_nil
    returns := nofun
    reclaimed := nofun }
  locals party := by
    cases party with
    | session self => exact nofun
    | server => exact ⟨rfl, fun _ => ⟨List.nodup_nil, nofun, trivial, nofun⟩⟩
    | supervisor => exact ⟨rfl, trivial⟩
    | reclaimer thread => trivial

end Runs

section Ownership

def Place.slot : Place → Option Nat
  | .holding _ slot _ => some slot
  | _ => none

def Position.slot : Position → Option Nat
  | .session place => place.slot
  | _ => none

/-- The slot a session has claimed and not released, if its thread has not stopped. -/
def held (s : Config Shared Party Position) (session : Session) : Option Nat :=
  if session ∈ s.shared.active then (s.locals (.session session)).slot else none

theorem holder_of_held (holds : Ring s) (holding : held s session = some slot) :
    (s.shared.slots slot).holder = some session := by
  unfold held at holding
  split_ifs at holding with running
  have own := holds.locals (.session session)
  cases located : s.locals (.session session) with
  | session place =>
    rw [located] at holding own
    cases place with
    | holding request at_ step =>
      cases holding
      exact (own.2 running).1
    | resting | claiming => cases holding
  | server | supervisor | reclaimer =>
    rw [located] at holding
    cases holding

/-- No two live sessions hold one slot, and a call reclaims only what sessions of its
own instance had claimed. -/
theorem slot_held_by_one_session {labels : List (Label Party Move Empty)}
    {last : Config Shared Party Position}
    (trace : Trace (Interleaving.next (act slotCount) happen) (Careful slotCount) initial labels last) :
    (∀ first second slot, held last first = some slot → held last second = some slot →
      first = second) ∧
      ∀ entry ∈ last.shared.reclaimed, ∃ session, entry.2 = some session ∧
        session.client.instanceId = entry.1 := by
  have holds : Ring last :=
    trace.invariant Ring.initial fun _ _ _ admitted taken holds => holds.next admitted taken
  refine ⟨?_, holds.shared.reclaimed⟩
  intro first second slot one two
  exact Option.some.inj ((holder_of_held holds one).symm.trans (holder_of_held holds two))

def caller (kind : Kind) (instanceId : Nat) : Session := ⟨⟨instanceId, kind, instanceId⟩, 0⟩

def stepping (party : Party) (steps : Nat) : List (Label Party Move Empty) :=
  List.replicate steps (.thread party .step)

def requesting (session : Session) (steps : Nat) : List (Label Party Move Empty) :=
  .thread (.session session) (.request ⟨2, {}, .finite 0, []⟩) :: stepping (.session session) steps

def servicing (outcome : Outcome) : List (Label Party Move Empty) :=
  .thread .server (.scan 0) :: stepping .server 3 ++
    .thread .server (.finish 0 outcome) :: stepping .server 5

def reclaiming (instanceId steps : Nat) : List (Label Party Move Empty) :=
  .thread (.reclaimer 0) (.reclaim instanceId) :: stepping (.reclaimer 0) steps

/-- A call for instance 1 meets the instance in the free slot of its finished request.
Then a session of it is killed after it has written a request; its slot is reclaimed and
claimed by instance 2. -/
theorem slot_held_by_one_session_killed : ∃ last,
    Trace (Interleaving.next (act 1) happen) (Careful 1) initial
      (requesting (caller .blocking 1) 12 ++ servicing ⟨0, .finite 0⟩ ++
        stepping (.session (caller .blocking 1)) 5 ++ reclaiming 1 3 ++
        requesting (caller .blocking 1) 6 ++ [.thread (.session (caller .blocking 1)) .kill] ++
        reclaiming 1 3 ++ requesting (caller .async 2) 2) last ∧
      (held last (caller .async 2), last.shared.reclaimed) =
        (some 0, [(1, some (caller .blocking 1))]) ∧
      ∀ first second slot, held last first = some slot → held last second = some slot →
        first = second :=
  Trace.of_view_and (fun s => (held s (caller .async 2), s.shared.reclaimed))
    (fun _ trace _ => (slot_held_by_one_session trace).1) (by decide)

/-- The instance word outlives the request that wrote it. Instance 1 has finished and its
word is still in the slot when instance 2 claims it; reclaiming for instance 1 frees the
slot under instance 2, and instance 3 claims it as well. -/
theorem slot_reclaimed_under_other_instance : ∃ last,
    Trace (Interleaving.next (act 1) happen) Supervised initial
      (requesting (caller .blocking 1) 12 ++ servicing ⟨0, .finite 0⟩ ++
        stepping (.session (caller .blocking 1)) 5 ++ requesting (caller .blocking 2) 2 ++
        reclaiming 1 3 ++ requesting (caller .blocking 3) 2) last ∧
      (held last (caller .blocking 2), held last (caller .blocking 3), last.shared.reclaimed) =
        (some 0, some 0, [(1, some (caller .blocking 2))]) :=
  Trace.of_view
    (fun s => (held s (caller .blocking 2), held s (caller .blocking 3), s.shared.reclaimed))
    (by decide)

end Ownership

section Matching

def Resting (s : Config Shared Party Position) : Prop :=
  ∀ thread, s.locals (.reclaimer thread) = .reclaimer .resting

theorem Resting.next (resting : Resting s) (unreclaimed : Label.reclaims label = false)
    (taken : Interleaving.next (act slotCount) happen s label = some t) : Resting t := by
  cases label with
  | thread party move =>
    obtain ⟨⟨shared, self⟩, acted, rfl⟩ := Option.map_eq_some_iff.mp taken
    intro thread
    have different : .reclaimer thread ≠ party := by
      rintro rfl
      rw [resting thread] at acted
      cases move with
      | reclaim => cases unreclaimed
      | request | kill | scan | finish | stop | replace | failPending | step => cases acted
    simp only [Function.update_of_ne different]
    exact resting thread
  | event event => exact event.elim

theorem Resting.careful (resting : Resting s) (holds : Ring s) (admitted : Unreclaimed s label) :
    Careful slotCount s label := by
  refine ⟨admitted.1, ?_⟩
  cases label with
  | thread party move =>
    refine ⟨?_, fun slot _ entry _ => ?_⟩
    · unfold Meets
      split
      · rename_i located
        have own := holds.locals party
        rw [located] at own
        cases party with
        | reclaimer thread => cases located.symm.trans (resting thread)
        | session | server | supervisor => exact own.elim
      · trivial
    · rw [resting]
      exact Option.not_mem_none slot
  | event event => exact event.elim

def Position.InHand (slot submission : Nat) : Position → Prop
  | .server self => self.InHand slot submission
  | _ => False

/-- The submission waits in its slot, or a server has taken it from there. If that is the
server that runs, the server has it in hand. -/
def Outstanding (s : Config Shared Party Position) (submission : Nat) : Prop :=
  ∃ session slot, s.shared.submissions[submission]? = some (session, slot) ∧
    (s.shared.slots slot).submission = submission ∧
    ((s.shared.slots slot).state = .pending ∨ (s.shared.slots slot).state = .servicing ∧
      (s.shared.alive = true → slot ∈ s.shared.taken →
        (s.locals .server).InHand slot submission))

theorem inHand_of_taken (holds : Ring s) (alive : s.shared.alive = true)
    (taken : slot ∈ s.shared.taken) (serving : (s.shared.slots slot).state = .servicing) :
    (s.locals .server).InHand slot (s.shared.slots slot).submission := by
  have own := holds.locals .server
  cases located : s.locals .server with
  | server server =>
    rw [located] at own
    exact (own.2 alive).taken slot taken serving
  | session | supervisor | reclaimer =>
    rw [located] at own
    simp only [Position.Sound, reduceCtorEq, false_and] at own

/-- Each submission is completed at most once and is outstanding until then; what a
request returns is the outcome of its own submission; and a client that looks at its slot
after the completion finds the number it waits for. -/
theorem request_answered_once {labels : List (Label Party Move Empty)}
    {last : Config Shared Party Position}
    (trace : Trace (Interleaving.next (act slotCount) happen) Unreclaimed initial labels last) :
    (last.shared.completions.map Prod.fst).Nodup ∧
      (∀ submission < last.shared.submissions.length,
        submission ∈ last.shared.completions.map Prod.fst ∨ Outstanding last submission) ∧
      (∀ session submission outcome, (session, submission, outcome) ∈ last.shared.returns →
        (∃ slot, last.shared.submissions[submission]? = some (session, slot)) ∧
          (submission, outcome) ∈ last.shared.completions) ∧
      (∀ session request slot seq submission, session ∈ last.shared.active →
        last.locals (.session session) =
          .session (.holding request slot (.loadState seq submission)) →
        (last.shared.slots slot).state = .done → (last.shared.slots slot).doneSeq = seq) := by
  have holds : Ring last ∧ Resting last := by
    refine trace.invariant (P := fun s => Ring s ∧ Resting s) ⟨Ring.initial, fun _ => rfl⟩ ?_
    intro _ _ _ admitted taken holds
    exact ⟨holds.1.next (holds.2.careful holds.1 admitted) taken,
      holds.2.next admitted.2 taken⟩
  have sound := holds.1.shared
  refine ⟨sound.once, ?_, sound.returns, ?_⟩
  · intro submission bound
    by_cases completed : submission ∈ last.shared.completions.map Prod.fst
    · exact .inl completed
    · right
      obtain ⟨slot, same, busy⟩ := sound.kept submission bound completed
      obtain ⟨session, -, found⟩ := sound.submitted slot (.inl busy)
      refine ⟨session, slot, same ▸ found, same, busy.imp_right fun serving => ⟨serving, ?_⟩⟩
      exact fun alive taken => same ▸ inHand_of_taken holds.1 alive taken serving
  · intro session request slot seq submission running located done
    have own := holds.1.locals (.session session)
    rw [located] at own
    obtain ⟨-, -, number⟩ := (own.2 running).2
    exact (sound.completed slot done).2.trans number

/-- A blocking and an async client use one slot one after the other. -/
theorem request_answered_once_mixed : ∃ last,
    Trace (Interleaving.next (act 1) happen) Unreclaimed initial
      (requesting (caller .blocking 1) 12 ++ servicing ⟨5, .finite 6⟩ ++
        stepping (.session (caller .blocking 1)) 5 ++ requesting (caller .async 2) 12 ++
        .thread .server .stop :: .thread .supervisor (.failPending (-2)) ::
          stepping .supervisor 6 ++ stepping (.session (caller .async 2)) 5) last ∧
      last.shared.returns = [(caller .blocking 1, 0, ⟨5, .finite 6⟩),
        (caller .async 2, 1, ⟨-2, .finite 0⟩)] ∧
      (last.shared.completions.map Prod.fst).Nodup :=
  Trace.of_view_and (fun s => s.shared.returns)
    (fun _ trace _ => (request_answered_once trace).1) (by decide)

end Matching

end SpaceDataModule.SabIoRing

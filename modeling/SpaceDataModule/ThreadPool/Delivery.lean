import Mathlib.Data.List.Nodup
import SpaceDataModule.ThreadPool.Seats

/-! Spawns reach their workers: every tid is returned once, and the worker of the slot runs it at
most once, with the argument of its spawn. -/
namespace SpaceDataModule.ThreadPool
open Interleaving Transition

section Tids

/-- The tid that the next spawn takes, by the number of those taken. -/
def tidOf (taken : Nat) : Int32 := Int32.ofNat (taken + 1)

theorem tidOf_inj (few : first + 1 < 2 ^ 31) (fewToo : second + 1 < 2 ^ 31)
    (same : tidOf first = tidOf second) : first = second := by
  have values := congrArg Int32.toInt same
  rw [tidOf, tidOf, Int32.toInt_ofNat_of_lt few, Int32.toInt_ofNat_of_lt fewToo] at values
  omega

end Tids

section Slots
variable {Thread : Type}

def ServeStep.Loading : ServeStep → Prop
  | .loadTid | .loadArg _ | .start _ _ => True
  | _ => False

def ServeStep.Loaded (tid arg : Int32) : ServeStep → Prop
  | .loadArg loaded => loaded = tid
  | .start loaded argument => loaded = tid ∧ argument = arg
  | _ => True

theorem ServeStep.Loading.busy {worker : ServeStep} (loading : worker.Loading) : worker.Busy := by
  cases worker with
  | loadTid | loadArg | start => trivial
  | _ => exact loading.elim

theorem ServeStep.loaded_of_calm {worker : ServeStep} (calm : ¬ worker.Busy) (tid arg : Int32) :
    worker.Loaded tid arg := by
  cases worker with
  | load | take | stopped => trivial
  | _ => exact absurd trivial calm

def PoolSlot.Due (x : PoolSlot Thread) : Prop := x.state = .assigned ∨ x.worker.Loading

/-- An assignment is that of a spawn. -/
structure Served (spawned runs : List Spawn) (index : Nat) (x : PoolSlot Thread) : Prop where
  due : x.Due → ⟨index, x.tid, x.arg⟩ ∈ spawned ∧ ∀ run ∈ runs, run.tid ≠ x.tid
  loaded : x.worker.Loaded x.tid x.arg

theorem Served.of_calm (calm : ¬ x.worker.Busy) (unassigned : x.state ≠ .assigned) :
    Served spawned runs index x := by
  refine ⟨?_, x.worker.loaded_of_calm calm _ _⟩
  rintro (assigned | loading)
  · exact absurd assigned unassigned
  · exact absurd loading.busy calm

theorem SlotStep.keeps_served (step : SlotStep slots later who added index x y)
    (seat : Seat slots index x) (served : Served spawned runs index x)
    (assigned : (∃ spawn ∈ added, spawn.slot = index) →
      ⟨index, x.tid, x.arg⟩ ∈ spawned ∧ ∀ run ∈ runs, run.tid ≠ x.tid) :
    Served spawned runs index y := by
  cases step with
  | same => exact served
  | claim _ idle =>
    refine .of_calm ?_ nofun
    intro busy
    rcases seat.busy busy with state | state <;> cases idle.symm.trans state
  | reserve _ first =>
    have pending := (seat.outside (Nat.le_of_eq first.symm)).1
    refine .of_calm ?_ (by rw [pending]; nofun)
    intro busy
    rcases seat.busy busy with state | state <;> cases pending.symm.trans state
  | confirm _ mine | restore _ mine | abandon _ mine =>
    exact .of_calm (seat.unheld mine).2.2.2.1 nofun
  | write _ mine =>
    obtain ⟨states, _, _, calm, _⟩ := seat.unheld mine
    refine .of_calm calm ?_
    rcases states with state | state <;> rw [state] <;> nofun
  | assign _ mine listed =>
    exact ⟨fun _ => assigned listed, ServeStep.loaded_of_calm (seat.unheld mine).2.2.2.1 _ _⟩
  | arm _ unclaimed unretired =>
    refine .of_calm ?_ nofun
    intro busy
    have := seat.busy busy
    have := seat.fresh unclaimed
    have := seat.retired
    grind
  | retire =>
    refine ⟨?_, served.loaded⟩
    rintro (retired | loading)
    · cases retired
    · exact served.due (.inr loading)
  | work goes =>
    cases goes with
    | stop | see | miss | outlive | fault | start =>
      exact ⟨fun due => served.due (Or.imp_right False.elim due), trivial⟩
    | loadTid here =>
      exact ⟨fun due => served.due (Or.imp_right (fun _ => here ▸ trivial) due), rfl⟩
    | loadArg here =>
      have loaded := served.loaded
      rw [here] at loaded
      exact ⟨fun due => served.due (Or.imp_right (fun _ => here ▸ trivial) due), loaded, rfl⟩
  | take here state => exact ⟨fun _ => served.due (.inl state), trivial⟩
  | finish | fault => exact .of_calm nofun nofun

/-- More spawns, and runs of other tids, leave a slot served. -/
theorem Served.mono (served : Served spawned runs index x) (wider : spawned ⊆ more)
    (other : x.Due → ∀ run ∈ moreRuns, run ∈ runs ∨ run.tid ≠ x.tid) :
    Served more moreRuns index x := by
  refine ⟨fun due => ?_, served.loaded⟩
  obtain ⟨listed, fresh⟩ := served.due due
  refine ⟨wider listed, fun run ran => ?_⟩
  rcases other due run ran with before | different
  · exact fresh run before
  · exact different

end Slots

section Steps
variable {Thread : Type}
variable {after : Pool Thread} {next : Spawner}

structure Delivery (m : Pool Thread) : Prop where
  next : m.nextTid = tidOf m.takers.length
  few : m.takers.length < 2 ^ 31
  known : ∀ spawn ∈ m.spawned, ∃ ticket < m.takers.length, spawn.tid = tidOf ticket
  tids : (m.spawned.map (·.tid)).Nodup
  ran : m.runs ⊆ m.spawned
  once : (m.runs.map (·.tid)).Nodup
  served : ∀ index, Served m.spawned m.runs index (m.slot index)

structure Ticket (thread : Thread) (m : Pool Thread) (tid : Int32) : Prop where
  taken : ∃ ticket, m.takers[ticket]? = some thread ∧ tid = tidOf ticket
  fresh : ∀ spawn ∈ m.spawned, spawn.tid ≠ tid

def SpawnStep.Carries (thread : Thread) (m : Pool Thread) (arg : Int32) : SpawnStep → Prop
  | .storeTid _ tid => Ticket thread m tid
  | .storeArg slot tid => Ticket thread m tid ∧ (m.slot slot).tid = tid
  | .storeAssigned slot tid =>
    Ticket thread m tid ∧ (m.slot slot).tid = tid ∧ (m.slot slot).arg = arg
  | _ => True

def SpawnTask.Carries (thread : Thread) (m : Pool Thread) : SpawnTask → Prop
  | .resting => True
  | .spawning arg step => step.Carries thread m arg

theorem Delivery.small (delivery : Delivery m) (taken : m.takers[ticket]? = some someone) :
    ticket + 1 < 2 ^ 31 := by
  obtain ⟨inside, _⟩ := List.getElem?_eq_some_iff.mp taken
  exact Nat.lt_of_le_of_lt inside delivery.few

theorem Ticket.ne (delivery : Delivery m) (ticket : Ticket thread m tid)
    (second : Ticket other m its) (different : other ≠ thread) : its ≠ tid := by
  rintro rfl
  obtain ⟨first, here, rfl⟩ := ticket.taken
  obtain ⟨later, there, same⟩ := second.taken
  rw [tidOf_inj (delivery.small here) (delivery.small there) same] at here
  exact different (Option.some.inj (there.symm.trans here))

theorem spawnStep_carries (delivery : Delivery m) (carries : step.Carries thread m arg)
    (few : ∀ slot, step = .takeTid slot → m.takers.length + 1 < 2 ^ 31)
    (acted : spawnStep options thread m spawner arg step = some (after, next)) :
    next.task.Carries thread after := by
  have self {slot : Nat} {changed : PoolSlot Thread} :
      (m.setSlot slot changed).slot slot = changed := Function.update_self _ _ _
  cases step with
  | decide => nomatch acted
  | exchange looking =>
    simp only [spawnStep] at acted
    split_ifs at acted
    · cases acted
      trivial
    · cases acted
      trivial
    · cases acted
      cases looking <;> trivial
  | reserveLoad | reserveExchange =>
    simp only [spawnStep] at acted
    split_ifs at acted <;> cases acted <;> trivial
  | takeTid slot =>
    cases acted
    split_ifs
    · trivial
    · refine ⟨⟨m.takers.length, ?_, delivery.next⟩, ?_⟩
      · exact List.getElem?_concat_length
      · intro spawn listed same
        obtain ⟨ticket, before, equal⟩ := delivery.known spawn listed
        have room := few slot rfl
        have last : ticket = m.takers.length :=
          tidOf_inj (by omega) room (equal.symm.trans (same.trans delivery.next))
        omega
  | storeTid slot tid =>
    cases acted
    exact ⟨⟨carries.taken, carries.fresh⟩, congrArg PoolSlot.tid self⟩
  | storeArg slot tid =>
    cases acted
    exact ⟨⟨carries.1.taken, carries.1.fresh⟩, (congrArg PoolSlot.tid self).trans carries.2,
      congrArg PoolSlot.arg self⟩
  | _ =>
    cases acted
    trivial

theorem spawnAct_carries (delivery : Delivery m) (carries : spawner.task.Carries thread m)
    (few : ∀ arg slot, spawner.task = .spawning arg (.takeTid slot) → m.takers.length + 1 < 2 ^ 31)
    (acted : spawnAct options thread move m spawner = some (after, next)) :
    next.task.Carries thread after := by
  rw [spawnAct.eq_def] at acted
  split at acted
  · cases acted
    trivial
  · rename_i task
    rw [task] at carries
    exact spawnStep_carries delivery carries (fun slot here => few _ slot (here ▸ task)) acted
  · cases acted
    dsimp only [decideStep]
    split_ifs <;> trivial
  · cases acted
    split_ifs <;> trivial
  · cases acted
    trivial
  · cases acted

theorem carries_of_returns {task : SpawnTask} (carries : task.Carries thread m)
    (returned : spawn ∈ task.returns move) :
    Ticket thread m spawn.tid ∧ spawn = ⟨spawn.slot, (m.slot spawn.slot).tid,
      (m.slot spawn.slot).arg⟩ := by
  rw [SpawnTask.returns.eq_def] at returned
  split at returned
  · obtain rfl := List.mem_singleton.mp returned
    obtain ⟨ticket, tid, arg⟩ := carries
    exact ⟨ticket, by rw [tid, arg]⟩
  · cases returned

theorem nodup_returns (task : SpawnTask) (move : SpawnMove) :
    ((task.returns move).map (·.tid)).Nodup := by
  rw [SpawnTask.returns.eq_def]
  split
  · exact List.nodup_singleton _
  · exact List.nodup_nil

/-- What a thread has written is left to it by the others. -/
theorem SpawnTask.Carries.stable {task : SpawnTask} (carries : task.Carries thread m)
    (seats : ∀ index, Seat m.slots index (m.slot index))
    (holding : ∀ slot, task.held = some slot → (m.slot slot).holder = some thread)
    (step : PoolStep who added m after) (different : who ≠ some thread)
    (ticket : ∀ tid, Ticket thread m tid → Ticket thread after tid) :
    task.Carries thread after := by
  have words {slot : Nat} (held : task.held = some slot) :=
    (step.slot slot).frame (seats slot) (holding slot held) different
  cases task with
  | resting => trivial
  | spawning arg step =>
    cases step with
    | storeTid slot tid => exact ticket tid carries
    | storeArg slot tid =>
      exact ⟨ticket tid carries.1, (words rfl).2.1.trans carries.2⟩
    | storeAssigned slot tid =>
      exact ⟨ticket tid carries.1, (words rfl).2.1.trans carries.2.1,
        (words rfl).2.2.1.trans carries.2.2⟩
    | _ => trivial

/-- A spawner's step delivers what it returns to its slot. -/
theorem Delivery.spawn (delivery : Delivery m) (seats : ∀ index, Seat m.slots index (m.slot index))
    (carries : task.Carries thread m) (few : after.takers.length < 2 ^ 31)
    (records : RecordStep thread task move m after)
    (step : PoolStep (some thread) (task.returns move) m after) : Delivery after := by
  obtain ⟨spawned, _, taken, runs⟩ := records
  have known (spawn : Spawn) (listed : spawn ∈ after.spawned) :
      ∃ ticket < m.takers.length, spawn.tid = tidOf ticket := by
    rw [spawned] at listed
    rcases List.mem_append.mp listed with before | new
    · exact delivery.known spawn before
    · obtain ⟨ticket, here, equal⟩ := (carries_of_returns carries new).1.taken
      exact ⟨ticket, (List.getElem?_eq_some_iff.mp here).1, equal⟩
  have wider : m.spawned ⊆ after.spawned := spawned ▸ List.subset_append_left _ _
  refine ⟨?_, few, ?_, ?_, ?_, runs ▸ delivery.once, ?_⟩
  · rcases taken with ⟨tid, takers⟩ | ⟨_, _, tid, takers⟩
    · rw [tid, takers, delivery.next]
    · rw [tid, takers, List.length_append, delivery.next]
      exact (Int32.ofNat_add _ _).symm
  · intro spawn listed
    obtain ⟨ticket, before, equal⟩ := known spawn listed
    refine ⟨ticket, Nat.lt_of_lt_of_le before ?_, equal⟩
    rcases taken with ⟨_, takers⟩ | ⟨_, _, _, takers⟩
    · exact Nat.le_of_eq (congrArg List.length takers.symm)
    · rw [takers, List.length_append]
      exact Nat.le_add_right _ _
  · rw [spawned, List.map_append]
    refine delivery.tids.append (nodup_returns task move) ?_
    intro tid before new
    obtain ⟨old, listed, rfl⟩ := List.mem_map.mp before
    obtain ⟨spawn, returned, same⟩ := List.mem_map.mp new
    exact (carries_of_returns carries returned).1.fresh old listed same.symm
  · rw [runs]
    exact List.Subset.trans delivery.ran wider
  · intro index
    rw [runs]
    have before : Served after.spawned m.runs index (m.slot index) :=
      (delivery.served index).mono wider fun _ run ran => .inl ran
    refine (step.slot index).keeps_served (seats index) before ?_
    rintro ⟨spawn, returned, rfl⟩
    obtain ⟨ticket, equal⟩ := carries_of_returns carries returned
    have tid : spawn.tid = (m.slot spawn.slot).tid := congrArg Spawn.tid equal
    refine ⟨equal ▸ spawned ▸ List.mem_append_right _ returned, fun run ran => ?_⟩
    exact tid ▸ ticket.fresh run (delivery.ran ran)

/-- A run starts with the assignment of its slot. -/
theorem Delivery.event {event : PoolEvent} (delivery : Delivery m)
    (seats : ∀ index, Seat m.slots index (m.slot index)) (orderly : Orderly m event)
    (happened : poolHappen event m = some after) : Delivery after := by
  have step : PoolStep none [] m after := poolHappen_slots orderly happened
  have served (index : Nat) : Served m.spawned m.runs index (after.slot index) :=
    (step.slot index).keeps_served (seats index) (delivery.served index) nofun
  obtain ⟨⟨tid, takers, spawned, _⟩, runs⟩ := poolHappen_records happened
  rcases runs with runs | ⟨slot, loaded, argument, here, rfl⟩
  · refine ⟨?_, ?_, ?_, ?_, ?_, ?_, ?_⟩
    · rw [tid, takers, delivery.next]
    · rw [takers]
      exact delivery.few
    · rw [spawned, takers]
      exact delivery.known
    · rw [spawned]
      exact delivery.tids
    · rw [spawned, runs]
      exact delivery.ran
    · rw [runs]
      exact delivery.once
    · rw [spawned, runs]
      exact served
  · have mine := delivery.served slot
    obtain ⟨same, alike⟩ : loaded = (m.slot slot).tid ∧ argument = (m.slot slot).arg := by
      have words := mine.loaded
      rwa [here] at words
    subst same alike
    obtain ⟨listed, fresh⟩ := mine.due (.inr (here ▸ trivial))
    refine { delivery with ran := ?_, once := ?_, served := ?_ }
    · exact List.append_subset.mpr ⟨delivery.ran, List.cons_subset.mpr ⟨listed, List.nil_subset _⟩⟩
    · rw [List.map_append]
      refine delivery.once.append (List.nodup_singleton _) ?_
      intro tid before new
      obtain ⟨run, ran, rfl⟩ := List.mem_map.mp before
      exact fresh run ran (List.mem_singleton.mp new)
    · intro index
      refine (served index).mono (List.Subset.refl _) fun due run ran => ?_
      rcases List.mem_append.mp ran with before | new
      · exact .inl before
      · obtain rfl := List.mem_singleton.mp new
        refine .inr fun same => ?_
        -- a slot with the same tid is the slot of the run, and that one is not due any more
        have entry := (served index).due due
        have equal := List.inj_on_of_nodup_map delivery.tids listed entry.1 same
        obtain rfl : slot = index := congrArg Spawn.slot equal
        have state : (m.slot slot).state = .running ∨ (m.slot slot).state = .retired :=
          (seats slot).busy (here ▸ trivial)
        have body : (m.setWorker slot .body).slot slot =
            { m.slot slot with worker := .body } := Function.update_self _ _ _
        rcases due with assigned | loading
        · have same : (m.slot slot).state = .assigned :=
            (congrArg PoolSlot.state body).symm.trans assigned
          rcases state with other | other <;> cases same.symm.trans other
        · have gone : ServeStep.body.Loading :=
            Eq.mp (congrArg (fun x => (PoolSlot.worker x).Loading) body) loading
          exact gone

end Steps

section Runs
variable {Thread : Type} [DecidableEq Thread]

def SpawnTask.takesTid : SpawnTask → Bool
  | .spawning _ (.takeTid _) => true
  | _ => false

/-- Slots are armed and retired in order, and fewer than 2 ^ 31 tids are taken. -/
def Delivering (s : Threads Thread) : PoolLabel Thread → Prop
  | .thread thread _ => (s.locals thread).task.takesTid = true →
      s.shared.takers.length + 1 < 2 ^ 31
  | .event event => Orderly s.shared event

abbrev Delivers : Threads Thread → Prop :=
  Holds (fun m => Seated m ∧ Delivery m)
    fun thread m spawner => Holding thread m spawner ∧ spawner.task.Carries thread m

omit [DecidableEq Thread] in
theorem Delivers.initial (opened : Nat) : Delivers (poolInitial opened : Threads Thread) := by
  refine ⟨⟨(Orders.initial opened).shared, ?_⟩, fun _ => ⟨nofun, trivial⟩⟩
  refine ⟨rfl, Nat.two_pow_pos 31, nofun, List.nodup_nil, List.Subset.refl _, List.nodup_nil, ?_⟩
  exact fun index => .of_calm nofun nofun

omit [DecidableEq Thread] in
theorem Ticket.stable {thread other : Thread} (ticket : Ticket other m tid) (delivery : Delivery m)
    (carries : task.Carries thread m) (records : RecordStep thread task move m after)
    (different : other ≠ thread) : Ticket other after tid := by
  obtain ⟨number, here, equal⟩ := ticket.taken
  refine ⟨⟨number, ?_, equal⟩, ?_⟩
  · rcases records.taken with ⟨_, takers⟩ | ⟨_, _, _, takers⟩
    · rwa [takers]
    · rw [takers, List.getElem?_append_left (List.getElem?_eq_some_iff.mp here).1, here]
  · intro spawn listed
    rw [records.spawned] at listed
    rcases List.mem_append.mp listed with before | new
    · exact ticket.fresh spawn before
    · exact ticket.ne delivery (carries_of_returns carries new).1 different.symm

theorem Delivers.step {s t : Threads Thread} (delivers : Delivers s)
    (delivering : Delivering s label)
    (taken : Interleaving.next (spawnAct options) poolHappen s label = some t) : Delivers t := by
  obtain ⟨seated, delivery⟩ := delivers.shared
  cases label with
  | thread thread move =>
    obtain ⟨holding, carries⟩ := delivers.locals thread
    have few (arg : Int32) (slot : Nat) (here : (s.locals thread).task =
        .spawning arg (.takeTid slot)) : s.shared.takers.length + 1 < 2 ^ 31 :=
      delivering (here ▸ rfl)
    refine delivers.thread taken ?_ ?_
    · intro after next acted
      have records := spawnAct_records acted
      have room : after.takers.length < 2 ^ 31 := by
        rcases records.taken with ⟨_, takers⟩ | ⟨⟨arg, slot, here⟩, _, _, takers⟩
        · rw [takers]
          exact delivery.few
        · rw [takers, List.length_append]
          exact few arg slot here
      exact ⟨⟨seated.act holding acted, delivery.spawn seated.seat carries room records
        (spawnAct_slots holding acted)⟩, spawnAct_holding holding acted,
        spawnAct_carries delivery carries few acted⟩
    · rintro after next acted other different ⟨its, written⟩
      have step := spawnAct_slots holding acted
      have apart : some thread ≠ some other := fun same => different (Option.some.inj same).symm
      refine ⟨step.keeps_holding seated.seat apart its,
        written.stable seated.seat its step apart fun tid ticket => ?_⟩
      exact ticket.stable delivery carries (spawnAct_records acted) different
  | event event =>
    refine delivers.event taken fun after happened => ?_
    refine ⟨⟨seated.happen delivering happened, delivery.event seated.seat delivering happened⟩, ?_⟩
    rintro thread ⟨holding, carries⟩
    have step : PoolStep none [] s.shared after := poolHappen_slots delivering happened
    refine ⟨step.keeps_holding seated.seat nofun holding,
      carries.stable seated.seat holding step nofun fun tid ticket => ?_⟩
    obtain ⟨⟨_, takers, spawned, _⟩, _⟩ := poolHappen_records happened
    exact ⟨takers ▸ ticket.taken, spawned ▸ ticket.fresh⟩

/-- With slots armed in service before their first claim, retired while no spawner holds them, and
fewer than 2 ^ 31 tids taken: a slot has one claimer, the tids returned are distinct, and each run
is that of a spawn on its slot, with its tid and argument, and the only one. -/
theorem spawns_delivered {opened : Nat} {labels : List (PoolLabel Thread)} {last : Threads Thread}
    (trace : Trace (Interleaving.next (spawnAct options) poolHappen) Delivering
      (poolInitial opened) labels last) :
    (∀ first second slot, (last.locals first).task.held = some slot →
      (last.locals second).task.held = some slot → first = second) ∧
    (last.shared.spawned.map (·.tid)).Nodup ∧
    (∀ run ∈ last.shared.runs, run ∈ last.shared.spawned) ∧
    (last.shared.runs.map (·.tid)).Nodup := by
  have delivers : Delivers last := trace.invariant (Delivers.initial opened)
    fun _ _ _ delivering taken delivers => delivers.step delivering taken
  obtain ⟨_, delivery⟩ := delivers.shared
  refine ⟨?_, delivery.tids, fun run ran => delivery.ran ran, delivery.once⟩
  intro first second slot mine its
  exact Option.some.inj (((delivers.locals first).1 slot mine).symm.trans
    ((delivers.locals second).1 slot its))

instance (s : Threads Thread) : (label : PoolLabel Thread) → Decidable (Delivering s label)
  | .thread thread _ => inferInstanceAs (Decidable ((s.locals thread).task.takesTid = true →
      s.shared.takers.length + 1 < 2 ^ 31))
  | .event event => inferInstanceAs (Decidable (Orderly s.shared event))

structure RunRecord where
  spawned : List Spawn
  runs : List Spawn
  held : Option Nat × Option Nat
  deriving DecidableEq

def runRecord (s : Threads Bool) : RunRecord where
  spawned := s.shared.spawned
  runs := s.shared.runs
  held := ((s.locals true).task.held, (s.locals false).task.held)

theorem spawns_delivered_two : ∃ last,
    Trace (Interleaving.next (spawnAct onePool) poolHappen) Delivering (poolInitial 1)
      ([.event (.arm 0)] ++ (spawnMoves 7).map (.thread true) ++
        List.replicate 6 (.event (.serve 0)) ++ (spawnMoves 8).map (.thread false) ++
        List.replicate 5 (.event (.serve 0))) last ∧
      runRecord last = ⟨[⟨0, 1, 7⟩, ⟨0, 2, 8⟩], [⟨0, 1, 7⟩, ⟨0, 2, 8⟩], none, none⟩ ∧
      (last.shared.runs.map (·.tid)).Nodup :=
  Trace.of_view_and runRecord (fun _ trace _ => (spawns_delivered trace).2.2.2) (by decide)

def growingPool : PoolOptions Bool := ⟨1, fun _ => true⟩

def reserveMoves (arg : Int32) : List SpawnMove :=
  .call arg :: (List.replicate 6 .step ++ [.clock true true] ++ List.replicate 2 .step)

/-- A slot that is armed before it is in service: one spawner reserves it while another claims it,
and the worker runs a tid that no spawn has returned. -/
theorem armed_slot_claimed_twice : ∃ middle last,
    Trace (Interleaving.next (spawnAct growingPool) poolHappen) Free (poolInitial 0)
      ([.event (.arm 0)] ++ (reserveMoves 7).map (.thread true) ++
        ((spawnMoves 8).take 3).map (.thread false)) middle ∧
      runRecord middle = ⟨[], [], some 0, some 0⟩ ∧
    Trace (Interleaving.next (spawnAct growingPool) poolHappen) Free middle
      (List.replicate 2 (.thread false .step) ++ List.replicate 4 (.thread true .step) ++
        List.replicate 2 (.thread false .step) ++ List.replicate 5 (.event (.serve 0))) last ∧
      runRecord last = ⟨[⟨0, 1, 8⟩], [⟨0, 2, 8⟩], some 0, none⟩ :=
  Trace.of_views runRecord (by decide)

end Runs
end SpaceDataModule.ThreadPool

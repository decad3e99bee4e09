import SpaceDataModule.ThreadPool.Pool

/-! Who may change a slot. Every step is one of a few changes to each slot; from these follow
whose a claimed slot is and that a retired slot stays retired, where nobody retires a slot that a
spawner holds. -/
namespace SpaceDataModule.ThreadPool
open Interleaving Transition

section Changes
variable {Thread : Type}

def ServeStep.Busy : ServeStep → Prop
  | .load | .take | .stopped => False
  | _ => True

/-- The steps of a worker that leave the state of its slot. -/
inductive PoolSlot.Goes (x : PoolSlot Thread) : ServeStep → Prop
  | stop (here : x.worker = .load) : x.Goes .stopped
  | see (here : x.worker = .load) : x.Goes .take
  | miss (here : x.worker = .take) : x.Goes .load
  | loadTid (here : x.worker = .loadTid) : x.Goes (.loadArg x.tid)
  | loadArg {tid : Int32} (here : x.worker = .loadArg tid) : x.Goes (.start tid x.arg)
  | start {tid arg : Int32} (here : x.worker = .start tid arg) : x.Goes .body
  | outlive (here : x.worker = .body) (stopped : x.state ≠ .running) : x.Goes .load
  | fault (here : x.worker = .body) : x.Goes .retire

theorem PoolSlot.Goes.calm {x : PoolSlot Thread} {worker : ServeStep} (goes : x.Goes worker)
    (busy : worker.Busy) : x.worker.Busy := by
  cases goes with
  | stop | see | miss | outlive => exact busy.elim
  | loadTid here | loadArg here | start here | fault here => exact here ▸ trivial

def SpawnStep.held : SpawnStep → Option Nat
  | .storeClaimed slot | .grow slot | .takeTid slot | .restore slot => some slot
  | .storeTid slot _ | .storeArg slot _ | .storeAssigned slot _ => some slot
  | _ => none

def SpawnTask.held : SpawnTask → Option Nat
  | .resting => none
  | .spawning _ step => step.held

/-- What a step can do to a slot, by the number of slots in service before and after it; `who` is
the spawner that takes the step, and `added` the spawns that return by it. -/
inductive SlotStep (slots later : Nat) (who : Option Thread) (added : List Spawn) (index : Nat)
    (x : PoolSlot Thread) : PoolSlot Thread → Prop
  | same : SlotStep slots later who added index x x
  | claim {thread : Thread} (taken : who = some thread) (idle : x.state = .idle) :
      SlotStep slots later who added index x
        { x with state := .claimed, holder := some thread, everClaimed := true }
  | reserve {thread : Thread} (taken : who = some thread) (first : index = slots)
      (grown : slots < later) : SlotStep slots later who added index x
        { x with holder := some thread, everClaimed := true }
  | confirm {thread : Thread} (taken : who = some thread) (mine : x.holder = some thread) :
      SlotStep slots later who added index x { x with state := .claimed }
  | restore {thread : Thread} (taken : who = some thread) (mine : x.holder = some thread) :
      SlotStep slots later who added index x { x with state := .idle, holder := none }
  | abandon {thread : Thread} (taken : who = some thread) (mine : x.holder = some thread) :
      SlotStep slots later who added index x
        { x with state := .retired, everRetired := true, holder := none }
  | write {thread : Thread} (taken : who = some thread) (mine : x.holder = some thread)
      (tid arg : Int32) : SlotStep slots later who added index x { x with tid := tid, arg := arg }
  | assign {thread : Thread} (taken : who = some thread) (mine : x.holder = some thread)
      (listed : ∃ spawn ∈ added, spawn.slot = index) :
      SlotStep slots later who added index x { x with state := .assigned, holder := none }
  | arm (inside : index < slots) (unclaimed : x.everClaimed = false)
      (unretired : x.everRetired = false) :
      SlotStep slots later who added index x { x with state := .idle }
  | retire (inside : index < slots) (unheld : x.holder = none) :
      SlotStep slots later who added index x { x with state := .retired, everRetired := true }
  | work {worker : ServeStep} (goes : x.Goes worker) :
      SlotStep slots later who added index x { x with worker := worker }
  | take (here : x.worker = .take) (assigned : x.state = .assigned) :
      SlotStep slots later who added index x { x with state := .running, worker := .loadTid }
  | finish (here : x.worker = .body) (running : x.state = .running) :
      SlotStep slots later who added index x { x with state := .idle, worker := .load }
  | fault (busy : x.worker.Busy) :
      SlotStep slots later who added index x
        { x with state := .retired, everRetired := true, worker := .stopped }

structure Seat (slots index : Nat) (x : PoolSlot Thread) : Prop where
  outside : slots ≤ index → x.state = .pending ∧ x.holder = none
  held : x.holder ≠ none →
    (x.state = .claimed ∨ x.state = .pending) ∧ x.everClaimed = true
  owned : x.state = .claimed → x.holder ≠ none
  retired : x.everRetired = true ↔ x.state = .retired
  fresh : x.everClaimed = false → x.state = .pending ∨ x.state = .idle ∨ x.state = .retired
  busy : x.worker.Busy → x.state = .running ∨ x.state = .retired

variable {who : Option Thread} {x y : PoolSlot Thread}

theorem Seat.unheld (seat : Seat slots index x) (mine : x.holder = some thread) :
    (x.state = .claimed ∨ x.state = .pending) ∧ x.everClaimed = true ∧ x.everRetired = false ∧
      ¬ x.worker.Busy ∧ index < slots := by
  have held : x.holder ≠ none := by rw [mine]; nofun
  obtain ⟨states, claimed⟩ := seat.held held
  refine ⟨states, claimed, ?_, ?_, ?_⟩
  · refine Bool.eq_false_iff.mpr fun retired => ?_
    rw [seat.retired.mp retired] at states
    rcases states with other | other <;> cases other
  · intro busy
    rcases seat.busy busy with state | state <;> rw [state] at states <;>
      rcases states with other | other <;> cases other
  · exact Nat.lt_of_not_le fun out => held (seat.outside out).2

section
variable (step : SlotStep slots later who added index x y)
include step

theorem SlotStep.keeps_seat (seat : Seat slots index x) (more : slots ≤ later) :
    Seat later index y := by
  have wider : later ≤ index → slots ≤ index := Nat.le_trans more
  obtain ⟨outside, held, owned, retired, fresh, busy⟩ := id seat
  cases step with
  | same | write => exact ⟨fun out => outside (wider out), held, owned, retired, fresh, busy⟩
  | work goes =>
    exact ⟨fun out => outside (wider out), held, owned, retired, fresh,
      fun now => busy (goes.calm now)⟩
  | claim who idle =>
    constructor <;> grind
  | confirm who mine | restore who mine | abandon who mine | assign who mine =>
    obtain ⟨states, claimed, unretired, calm, inside⟩ := seat.unheld mine
    refine ⟨fun out => absurd (wider out) (Nat.not_le.mpr inside), ?_, ?_, ?_,
      fun fresh => Bool.noConfusion (claimed.symm.trans fresh), fun now => absurd now calm⟩ <;>
      simp [claimed, unretired, mine]
  | finish here running => refine ⟨?_, ?_, ?_, ?_, ?_, nofun⟩ <;> grind
  | reserve taken first grown =>
    exact ⟨fun out => absurd out (by omega),
      fun _ => ⟨.inr (outside (Nat.le_of_eq first.symm)).1, rfl⟩, fun _ => nofun, retired, nofun, busy⟩
  | retire inside unheld =>
    exact ⟨fun out => absurd (wider out) (Nat.not_le.mpr inside), fun held => absurd unheld held,
      nofun, iff_of_true rfl rfl, fun _ => .inr (.inr rfl), fun _ => .inr rfl⟩
  | arm | take | fault => constructor <;> grind

/-- A retired slot was retired, and is not forgotten. -/
theorem SlotStep.everRetired (retired : x.everRetired = true) : y.everRetired = true := by
  cases step with
  | abandon | retire | fault => rfl
  | _ => exact retired

/-- What a spawner holds is left to it by the others. -/
theorem SlotStep.frame (seat : Seat slots index x) (mine : x.holder = some thread)
    (different : who ≠ some thread) :
    y.state = x.state ∧ y.tid = x.tid ∧ y.arg = x.arg ∧ y.holder = x.holder := by
  obtain ⟨states, claimed, unretired, calm, inside⟩ := seat.unheld mine
  have other {someone : Thread} (taken : who = some someone) (its : x.holder = some someone) : False :=
    different (taken.trans (its.symm.trans mine))
  cases step with
  | same | work => exact ⟨rfl, rfl, rfl, rfl⟩
  | confirm taken its | restore taken its | abandon taken its | write taken its | assign taken its =>
    exact (other taken its).elim
  | claim _ idle => grind
  | reserve _ first => omega
  | arm _ unclaimed => grind
  | retire _ unheld => grind
  | take _ assigned => grind
  | finish _ running => grind
  | fault busy => exact absurd busy calm

end

end Changes

section Steps
variable {Thread : Type}
variable {after : Pool Thread} {next : Spawner}

/-- The steps of a pool, slot by slot. -/
structure PoolStep (who : Option Thread) (added : List Spawn) (m after : Pool Thread) : Prop where
  more : m.slots ≤ after.slots
  slot : ∀ index, SlotStep m.slots after.slots who added index (m.slot index) (after.slot index)

theorem PoolStep.same (slots : after.slots = m.slots) (slot : after.slot = m.slot) :
    PoolStep who added m after :=
  ⟨Nat.le_of_eq slots.symm, fun index => congrFun slot index ▸ .same⟩

/-- One slot is changed. -/
theorem PoolStep.of_update {slot : Nat} (more : m.slots ≤ after.slots)
    (update : after.slot = Function.update m.slot slot changed)
    (step : SlotStep m.slots after.slots who added slot (m.slot slot) changed) :
    PoolStep who added m after := by
  refine ⟨more, ?_⟩
  intro index
  rw [update]
  by_cases same : index = slot
  · subst same
    rwa [Function.update_self]
  · rw [Function.update_of_ne same]
    exact .same

def SpawnTask.returns : SpawnTask → SpawnMove → List Spawn
  | .spawning arg (.storeAssigned slot tid), .step => [⟨slot, tid, arg⟩]
  | _, _ => []

theorem held_of_returns {task : SpawnTask} (returned : spawn ∈ task.returns move) :
    task.held = some spawn.slot := by
  rw [SpawnTask.returns.eq_def] at returned
  split at returned
  · rw [List.mem_singleton.mp returned]
    rfl
  · cases returned

def Holding (thread : Thread) (m : Pool Thread) (spawner : Spawner) : Prop :=
  ∀ slot, spawner.task.held = some slot → (m.slot slot).holder = some thread

theorem spawnStep_slots
    (holding : ∀ slot, step.held = some slot → (m.slot slot).holder = some thread)
    (acted : spawnStep options thread m spawner arg step = some (after, next)) :
    PoolStep (some thread) (SpawnTask.returns (.spawning arg step) .step) m after := by
  cases step with
  | loadSlots | count | loadGeneration | loadRoom | wait | grow | takeTid =>
    cases acted
    exact .same rfl rfl
  | decide => nomatch acted
  | exchange looking slots slot live =>
    simp only [spawnStep] at acted
    split_ifs at acted with inside idle
    · cases acted
      exact .of_update (Nat.le_refl _) rfl (.claim rfl idle)
    all_goals
      cases acted
      exact .same rfl rfl
  | reserveLoad =>
    simp only [spawnStep] at acted
    split_ifs at acted <;> cases acted <;> exact .same rfl rfl
  | reserveExchange slots =>
    simp only [spawnStep] at acted
    split_ifs at acted with same
    · cases acted
      subst same
      exact .of_update (Nat.le_succ _) rfl (.reserve rfl rfl (Nat.lt_succ_self _))
    · cases acted
      exact .same rfl rfl
  | storeClaimed slot =>
    cases acted
    exact .of_update (Nat.le_refl _) rfl (.confirm rfl (holding slot rfl))
  | restore slot =>
    cases acted
    exact .of_update (Nat.le_refl _) rfl (.restore rfl (holding slot rfl))
  | storeTid slot tid =>
    cases acted
    exact .of_update (Nat.le_refl _) rfl (.write rfl (holding slot rfl) tid _)
  | storeArg slot tid =>
    cases acted
    exact .of_update (Nat.le_refl _) rfl (.write rfl (holding slot rfl) _ arg)
  | storeAssigned slot tid =>
    cases acted
    exact .of_update (Nat.le_refl _) rfl (.assign rfl (holding slot rfl)
      ⟨_, List.mem_singleton_self _, rfl⟩)

theorem spawnAct_slots (holding : Holding thread m spawner)
    (acted : spawnAct options thread move m spawner = some (after, next)) :
    PoolStep (some thread) (spawner.task.returns move) m after := by
  obtain ⟨task, starvedAt⟩ := spawner
  dsimp only [spawnAct] at acted ⊢
  split at acted
  · cases acted
    exact .same rfl rfl
  · exact spawnStep_slots holding acted
  · cases acted
    exact .same rfl rfl
  · cases acted
    exact .same rfl rfl
  · cases acted
    exact .of_update (Nat.le_refl _) rfl (.abandon rfl (holding _ rfl))
  · cases acted

theorem serveStep_slots (acted : serveStep m slot = some after) : PoolStep who added m after := by
  have work {worker : ServeStep} (goes : (m.slot slot).Goes worker) :
      PoolStep who added m (m.setWorker slot worker) :=
    .of_update (Nat.le_refl _) rfl (.work goes)
  rw [serveStep.eq_def] at acted
  split at acted
  · rename_i here
    split at acted <;> cases acted
    · exact work (.stop here)
    · exact work (.see here)
    · exact .same rfl rfl
  · rename_i here
    split_ifs at acted with assigned
    · cases acted
      exact .of_update (Nat.le_refl _) rfl (.take here assigned)
    · cases acted
      exact work (.miss here)
  · rename_i here
    cases acted
    exact work (.loadTid here)
  · rename_i here
    cases acted
    exact work (.loadArg here)
  · rename_i here
    cases acted
    exact .of_update (Nat.le_refl _) rfl (.work (.start here))
  · rename_i here
    split_ifs at acted with running
    · cases acted
      exact .of_update (Nat.le_refl _) rfl (.finish here running)
    · cases acted
      exact work (.outlive here running)
  · rename_i here
    cases acted
    have busy : (m.slot slot).worker.Busy := here ▸ trivial
    refine .of_update (Nat.le_refl _) ?_ (.fault busy)
    simp [Pool.setWorker, Pool.retire, Pool.setState, Pool.setSlot]
  · cases acted

/-- Slots are armed in service, before their first claim, and retired when no spawner holds them. -/
def Orderly (m : Pool Thread) : PoolEvent → Prop
  | .arm slot => slot < m.slots ∧ (m.slot slot).everClaimed = false ∧
      (m.slot slot).everRetired = false
  | .retire slot => slot < m.slots ∧ (m.slot slot).holder = none
  | _ => True

theorem poolHappen_slots (orderly : Orderly m event) (happened : poolHappen event m = some after) :
    PoolStep who added m after := by
  cases event with
  | arm slot =>
    cases happened
    exact .of_update (Nat.le_refl _) rfl (.arm orderly.1 orderly.2.1 orderly.2.2)
  | serve slot => exact serveStep_slots happened
  | fault slot =>
    simp only [poolHappen] at happened
    split at happened
    · rename_i here
      cases happened
      exact .of_update (Nat.le_refl _) rfl (.work (.fault here))
    · cases happened
  | retire slot =>
    cases happened
    exact .of_update (Nat.le_refl _) rfl (.retire orderly.1 orderly.2)
  | bump =>
    simp only [poolHappen] at happened
    split_ifs at happened
    cases happened
    exact .same rfl rfl

theorem spawnStep_holding
    (holding : ∀ slot, step.held = some slot → (m.slot slot).holder = some thread)
    (acted : spawnStep options thread m spawner arg step = some (after, next)) :
    Holding thread after next := by
  have self {slot : Nat} {changed : PoolSlot Thread} (mine : changed.holder = some thread) :
      (Function.update m.slot slot changed slot).holder = some thread := by
    rwa [Function.update_self]
  cases step with
  | loadSlots | count | loadGeneration | loadRoom | wait | restore | storeAssigned =>
    cases acted
    nofun
  | decide => nomatch acted
  | exchange looking slots slot live =>
    simp only [spawnStep] at acted
    split_ifs at acted
    · cases acted
      rintro _ ⟨⟩
      exact self rfl
    · cases acted
      nofun
    · cases acted
      cases looking <;> nofun
  | reserveLoad =>
    simp only [spawnStep] at acted
    split_ifs at acted <;> cases acted <;> nofun
  | reserveExchange slots =>
    simp only [spawnStep] at acted
    split_ifs at acted
    · cases acted
      rintro _ ⟨⟩
      exact self rfl
    · cases acted
      nofun
  | grow slot =>
    cases acted
    exact holding
  | takeTid slot =>
    cases acted
    split_ifs <;> exact holding
  | storeClaimed slot | storeTid slot | storeArg slot =>
    cases acted
    rintro _ ⟨⟩
    exact self (holding slot rfl)

theorem spawnAct_holding (holding : Holding thread m spawner)
    (acted : spawnAct options thread move m spawner = some (after, next)) :
    Holding thread after next := by
  obtain ⟨task, starvedAt⟩ := spawner
  dsimp only [spawnAct] at acted
  split at acted
  · cases acted
    nofun
  · exact spawnStep_holding holding acted
  · cases acted
    dsimp only [decideStep]
    split_ifs <;> nofun
  · cases acted
    split_ifs <;> nofun
  · cases acted
    nofun
  · cases acted

structure RecordStep (thread : Thread) (task : SpawnTask) (move : SpawnMove)
    (m after : Pool Thread) : Prop where
  spawned : after.spawned = m.spawned ++ task.returns move
  late : after.late =
    m.late ++ (task.returns move).filter fun spawn => (m.slot spawn.slot).everRetired
  taken : after.nextTid = m.nextTid ∧ after.takers = m.takers ∨
    (∃ arg slot, task = .spawning arg (.takeTid slot)) ∧ move = .step ∧
      after.nextTid = m.nextTid + 1 ∧ after.takers = m.takers ++ [thread]
  runs : after.runs = m.runs

theorem RecordStep.quiet (returns : task.returns move = [])
    (same : after.spawned = m.spawned ∧ after.late = m.late ∧ after.runs = m.runs ∧
      after.nextTid = m.nextTid ∧ after.takers = m.takers) :
    RecordStep thread task move m after := by
  obtain ⟨spawned, late, runs, taken⟩ := same
  refine ⟨?_, ?_, .inl taken, runs⟩
  · rw [returns, List.append_nil, spawned]
  · rw [returns, List.filter_nil, List.append_nil, late]

theorem spawnStep_records
    (acted : spawnStep options thread m spawner arg step = some (after, next)) :
    RecordStep thread (.spawning arg step) .step m after := by
  cases step with
  | decide => nomatch acted
  | exchange | reserveLoad | reserveExchange =>
    simp only [spawnStep] at acted
    split_ifs at acted <;> cases acted <;> exact .quiet rfl ⟨rfl, rfl, rfl, rfl, rfl⟩
  | takeTid slot =>
    cases acted
    exact ⟨(List.append_nil _).symm, (List.append_nil _).symm,
      .inr ⟨⟨arg, slot, rfl⟩, rfl, rfl, rfl⟩, rfl⟩
  | storeAssigned slot tid =>
    cases acted
    refine ⟨rfl, ?_, .inl ⟨rfl, rfl⟩, rfl⟩
    rw [SpawnTask.returns, List.filter_cons, List.filter_nil]
  | _ =>
    cases acted
    exact .quiet rfl ⟨rfl, rfl, rfl, rfl, rfl⟩

theorem spawnAct_records (acted : spawnAct options thread move m spawner = some (after, next)) :
    RecordStep thread spawner.task move m after := by
  obtain ⟨task, starvedAt⟩ := spawner
  dsimp only [spawnAct] at acted ⊢
  split at acted
  · cases acted
    exact .quiet rfl ⟨rfl, rfl, rfl, rfl, rfl⟩
  · exact spawnStep_records acted
  iterate 3
    · cases acted
      exact .quiet rfl ⟨rfl, rfl, rfl, rfl, rfl⟩
  · cases acted

/-- Events leave what the spawners have recorded; a worker that starts adds a run. -/
theorem poolHappen_records (happened : poolHappen event m = some after) :
    (after.nextTid = m.nextTid ∧ after.takers = m.takers ∧ after.spawned = m.spawned ∧
      after.late = m.late) ∧
    (after.runs = m.runs ∨ ∃ slot tid arg, (m.slot slot).worker = .start tid arg ∧
      after = { m.setWorker slot .body with runs := m.runs ++ [⟨slot, tid, arg⟩] }) := by
  cases event with
  | serve slot =>
    rw [poolHappen, serveStep.eq_def] at happened
    split at happened
    case h_5 worker =>
      cases happened
      exact ⟨⟨rfl, rfl, rfl, rfl⟩, .inr ⟨slot, _, _, worker, rfl⟩⟩
    all_goals
      repeat' split at happened
      all_goals cases happened <;> exact ⟨⟨rfl, rfl, rfl, rfl⟩, .inl rfl⟩
  | fault slot =>
    simp only [poolHappen] at happened
    split at happened
    · cases happened
      exact ⟨⟨rfl, rfl, rfl, rfl⟩, .inl rfl⟩
    · cases happened
  | bump =>
    simp only [poolHappen] at happened
    split_ifs at happened
    cases happened
    exact ⟨⟨rfl, rfl, rfl, rfl⟩, .inl rfl⟩
  | arm | retire =>
    cases happened
    exact ⟨⟨rfl, rfl, rfl, rfl⟩, .inl rfl⟩

end Steps

section Runs
variable {Thread : Type} [DecidableEq Thread] {options : PoolOptions Thread}

abbrev PoolLabel (Thread : Type) := Label Thread SpawnMove PoolEvent
abbrev Threads (Thread : Type) := Config (Pool Thread) Thread Spawner

/-- Slots that `openWasiThreadPoolSlots` has put in service. -/
def poolInitial (opened : Nat) : Threads Thread := ⟨{ slots := opened }, fun _ => {}⟩

/-- Spawners do what they want; slots are armed and retired in order. -/
def OrderlyPool (s : Threads Thread) : PoolLabel Thread → Prop
  | .thread _ _ => True
  | .event event => Orderly s.shared event

structure Seated (m : Pool Thread) : Prop where
  seat : ∀ index, Seat m.slots index (m.slot index)
  late : m.late = []

abbrev Orders : Threads Thread → Prop := Holds Seated Holding

omit [DecidableEq Thread] in
theorem Orders.initial (opened : Nat) : Orders (poolInitial opened : Threads Thread) :=
  ⟨⟨fun _ => ⟨fun _ => ⟨rfl, rfl⟩, fun held => absurd rfl held, nofun, by constructor <;> nofun,
    fun _ => .inl rfl, nofun⟩, rfl⟩, fun _ => nofun⟩

omit [DecidableEq Thread] in
theorem PoolStep.keeps_seats (step : PoolStep who added m after)
    (seats : ∀ index, Seat m.slots index (m.slot index)) (index : Nat) :
    Seat after.slots index (after.slot index) :=
  (step.slot index).keeps_seat (seats index) step.more

omit [DecidableEq Thread] in
theorem PoolStep.keeps_holding (step : PoolStep who added m after)
    (seats : ∀ index, Seat m.slots index (m.slot index)) (different : who ≠ some thread)
    (holding : Holding thread m spawner) : Holding thread after spawner := by
  intro slot held
  have mine := holding slot held
  exact ((step.slot slot).frame (seats slot) mine different).2.2.2.trans mine

theorem Orders.slots (orders : Orders s) (orderly : OrderlyPool s label)
    (taken : Interleaving.next (spawnAct options) poolHappen s label = some t) :
    ∃ who added, PoolStep who added s.shared t.shared := by
  cases label with
  | thread thread move =>
    obtain ⟨⟨after, next⟩, acted, rfl⟩ := Option.map_eq_some_iff.mp taken
    exact ⟨_, _, spawnAct_slots (orders.locals thread) acted⟩
  | event event =>
    obtain ⟨after, happened, rfl⟩ := Option.map_eq_some_iff.mp taken
    exact ⟨none, [], poolHappen_slots orderly happened⟩

omit [DecidableEq Thread] in
theorem Seated.act {m after : Pool Thread} {spawner next : Spawner} (seated : Seated m)
    (holding : Holding thread m spawner)
    (acted : spawnAct options thread move m spawner = some (after, next)) : Seated after := by
  refine ⟨(spawnAct_slots holding acted).keeps_seats seated.seat, ?_⟩
  rw [(spawnAct_records acted).late, seated.late, List.nil_append, List.filter_eq_nil_iff]
  intro spawn returned
  have mine := holding _ (held_of_returns returned)
  rw [((seated.seat _).unheld mine).2.2.1]
  nofun

omit [DecidableEq Thread] in
theorem Seated.happen (seated : Seated m) (orderly : Orderly m event)
    (happened : poolHappen event m = some after) : Seated after := by
  have step : PoolStep none [] m after := poolHappen_slots orderly happened
  exact ⟨step.keeps_seats seated.seat, (poolHappen_records happened).1.2.2.2.trans seated.late⟩

theorem Orders.step (orders : Orders s) (orderly : OrderlyPool s label)
    (taken : Interleaving.next (spawnAct options) poolHappen s label = some t) : Orders t := by
  have seated := orders.shared
  cases label with
  | thread thread move =>
    have holding := orders.locals thread
    refine orders.thread taken ?_ ?_
    · intro after next acted
      exact ⟨seated.act holding acted, spawnAct_holding holding acted⟩
    · intro after next acted other different
      exact (spawnAct_slots holding acted).keeps_holding seated.seat
        fun same => different (Option.some.inj same).symm
  | event event =>
    refine orders.event taken fun after happened => ⟨seated.happen orderly happened, ?_⟩
    have step : PoolStep none [] s.shared after := poolHappen_slots orderly happened
    exact fun thread => step.keeps_holding seated.seat nofun

/-- Where no slot is retired that a spawner holds, a retired slot stays retired and no spawn
returns a tid for it. -/
theorem retired_is_final {opened : Nat} {front back : List (PoolLabel Thread)}
    {middle last : Threads Thread}
    (early : Trace (Interleaving.next (spawnAct options) poolHappen) OrderlyPool
      (poolInitial opened) front middle)
    (later : Trace (Interleaving.next (spawnAct options) poolHappen) OrderlyPool middle back last) :
    (∀ slot, (middle.shared.slot slot).state = .retired →
      (last.shared.slot slot).state = .retired) ∧ last.shared.late = [] := by
  have orders : Orders middle := early.invariant (Orders.initial opened)
    fun _ _ _ orderly taken orders => orders.step orderly taken
  have kept : Orders last ∧ ∀ slot, (middle.shared.slot slot).state = .retired →
      (last.shared.slot slot).everRetired = true := by
    refine later.invariant (P := fun s => Orders s ∧ ∀ slot, (middle.shared.slot slot).state =
      .retired → (s.shared.slot slot).everRetired = true)
      ⟨orders, fun slot => (orders.shared.seat slot).retired.mpr⟩ ?_
    rintro s label t orderly taken ⟨holds, before⟩
    obtain ⟨_, _, step⟩ := holds.slots orderly taken
    exact ⟨holds.step orderly taken, fun slot retired =>
      (step.slot slot).everRetired (before slot retired)⟩
  exact ⟨fun slot retired => (kept.1.shared.seat slot).retired.mp (kept.2 slot retired),
    kept.1.shared.late⟩

instance (m : Pool Thread) (event : PoolEvent) : Decidable (Orderly m event) := by
  unfold Orderly
  split <;> infer_instance

instance (s : Threads Thread) (label : PoolLabel Thread) : Decidable (OrderlyPool s label) := by
  unfold OrderlyPool
  split <;> infer_instance

def onePool : PoolOptions Bool := ⟨1, fun _ => false⟩

structure SlotRecord where
  state : SlotState
  spawned : List Spawn
  late : List Spawn
  deriving DecidableEq

def slotRecord (s : Threads Bool) : SlotRecord where
  state := (s.shared.slot 0).state
  spawned := s.shared.spawned
  late := s.shared.late

def spawnMoves (arg : Int32) : List SpawnMove := .call arg :: List.replicate 6 .step

theorem retired_is_final_fault : ∃ middle last,
    Trace (Interleaving.next (spawnAct onePool) poolHappen) OrderlyPool (poolInitial 1)
      ([.event (.arm 0)] ++ (spawnMoves 7).map (.thread true) ++
        List.replicate 5 (.event (.serve 0)) ++ [.event (.fault 0), .event (.serve 0)]) middle ∧
      slotRecord middle = ⟨.retired, [⟨0, 1, 7⟩], []⟩ ∧
    Trace (Interleaving.next (spawnAct onePool) poolHappen) OrderlyPool middle
      (((spawnMoves 8).take 5).map (.thread false)) last ∧
      slotRecord last = ⟨.retired, [⟨0, 1, 7⟩], []⟩ ∧ (last.shared.slot 0).state = .retired := by
  obtain ⟨middle, last, early, here, later, there⟩ := Trace.of_views slotRecord (by decide :
    ((replay (guarded OrderlyPool (Interleaving.next (spawnAct onePool) poolHappen)) (poolInitial 1)
      ([.event (.arm 0)] ++ (spawnMoves 7).map (.thread true) ++
        List.replicate 5 (.event (.serve 0)) ++ [.event (.fault 0), .event (.serve 0)])).bind
      fun middle => (replay (guarded OrderlyPool (Interleaving.next (spawnAct onePool) poolHappen))
        middle (((spawnMoves 8).take 5).map (.thread false))).map
        fun last => (slotRecord middle, slotRecord last)) =
    some (⟨.retired, [⟨0, 1, 7⟩], []⟩, ⟨.retired, [⟨0, 1, 7⟩], []⟩))
  exact ⟨middle, last, early, here, later, there,
    (retired_is_final early later).1 0 (congrArg SlotRecord.state here)⟩

/-- A slot that is retired while a spawner holds it is assigned all the same. -/
theorem retired_slot_assigned : ∃ middle last,
    Trace (Interleaving.next (spawnAct onePool) poolHappen) Free (poolInitial 1)
      ([.event (.arm 0)] ++ ((spawnMoves 7).take 3).map (.thread true) ++ [.event (.retire 0)])
      middle ∧ slotRecord middle = ⟨.retired, [], []⟩ ∧
    Trace (Interleaving.next (spawnAct onePool) poolHappen) Free middle
      (List.replicate 4 (.thread true .step)) last ∧
      slotRecord last = ⟨.assigned, [⟨0, 1, 7⟩], [⟨0, 1, 7⟩]⟩ :=
  Trace.of_views slotRecord (by decide)

end Runs
end SpaceDataModule.ThreadPool

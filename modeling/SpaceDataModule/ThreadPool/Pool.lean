import Mathlib.Algebra.Group.Nat.Defs
import SpaceDataModule.Interleaving

/-! The pool of WASI threads, one step for each atomic access. Spawners are the threads of the
interleaving; each slot has one worker, whose next step is kept with the slot. What the clock says
is left to the environment. A slot also remembers who holds it and whether it was ever claimed or
retired. -/
namespace SpaceDataModule.ThreadPool

inductive SlotState where
  | pending | idle | claimed | assigned | running | retired
  deriving DecidableEq

/-- The next step of `serveWasiThreadPoolSlot`. -/
inductive ServeStep where
  | load
  | take
  | loadTid
  | loadArg (tid : Int32)
  | start (tid arg : Int32)
  /-- The thread of the guest runs. -/
  | body
  | retire
  | stopped

structure Spawn where
  slot : Nat
  tid : Int32
  arg : Int32
  deriving DecidableEq

structure PoolSlot (Thread : Type) where
  state : SlotState := .pending
  tid : Int32 := 0
  arg : Int32 := 0
  worker : ServeStep := .load
  /-- The spawner that has claimed or reserved the slot and not assigned it yet. -/
  holder : Option Thread := none
  everClaimed : Bool := false
  everRetired : Bool := false

structure Pool (Thread : Type) where
  generation : Int32 := 0
  nextTid : Int32 := 1
  /-- The slots in service. -/
  slots : Nat
  slot : Nat → PoolSlot Thread := fun _ => {}
  /-- Stores of a state whose bump of the generation is still to come. -/
  bumps : Nat := 0
  /-- Who has taken tids, in their order. -/
  takers : List Thread := []
  /-- The spawns that return a tid. -/
  spawned : List Spawn := []
  /-- Those among them whose slot was retired before the assignment was stored. -/
  late : List Spawn := []
  /-- The runs of the workers. -/
  runs : List Spawn := []

/-- A scan is the first one of a spawn, or follows the load of a generation. -/
inductive Looking where
  | first
  | again (generation : Int32)

inductive SpawnStep where
  | loadSlots (looking : Looking)
  | exchange (looking : Looking) (slots slot live : Nat)
  | count (looking : Looking) (slots slot live : Nat)
  | loadGeneration
  | loadRoom (generation : Int32) (live : Nat)
  | decide (generation : Int32) (live : Nat) (room : Bool)
  | wait (room : Bool)
  | reserveLoad
  | reserveExchange (slots : Nat)
  | storeClaimed (slot : Nat)
  | grow (slot : Nat)
  | takeTid (slot : Nat)
  | restore (slot : Nat)
  | storeTid (slot : Nat) (tid : Int32)
  | storeArg (slot : Nat) (tid : Int32)
  | storeAssigned (slot : Nat) (tid : Int32)

inductive SpawnTask where
  | resting
  | spawning (arg : Int32) (step : SpawnStep)

structure Spawner where
  task : SpawnTask := .resting
  starvedAt : Option Int32 := none

inductive SpawnMove where
  | call (arg : Int32)
  | step
  /-- Whether the time to grow has come, and whether that to wait is over. -/
  | clock (due expired : Bool)
  /-- `grow` or `Atomics.wait` throws. -/
  | fail

inductive PoolEvent where
  | arm (slot : Nat)
  | serve (slot : Nat)
  /-- `runThread` returns false. -/
  | fault (slot : Nat)
  | retire (slot : Nat)
  | bump

section Steps
variable {Thread : Type}

def maxTid : Int32 := 0x1fffffff

def Pool.setSlot (m : Pool Thread) (slot : Nat) (after : PoolSlot Thread) : Pool Thread :=
  { m with slot := Function.update m.slot slot after }

def Pool.setWorker (m : Pool Thread) (slot : Nat) (worker : ServeStep) : Pool Thread :=
  m.setSlot slot { m.slot slot with worker := worker }

/-- `setState`, of which the bump of the generation is a later step. -/
def Pool.setState (m : Pool Thread) (slot : Nat) (after : PoolSlot Thread) : Pool Thread :=
  { m.setSlot slot after with bumps := m.bumps + 1 }

/-- `retireWasiThreadPoolSlot`, which leaves a spawner that holds the slot as it is. -/
def Pool.retire (m : Pool Thread) (slot : Nat) : Pool Thread :=
  m.setState slot { m.slot slot with state := .retired, everRetired := true }

def serveStep (m : Pool Thread) (slot : Nat) : Option (Pool Thread) :=
  match (m.slot slot).worker with
  | .load =>
    match (m.slot slot).state with
    | .retired => some (m.setWorker slot .stopped)
    | .assigned => some (m.setWorker slot .take)
    -- it waits, and loads the state again
    | _ => some m
  | .take =>
    if (m.slot slot).state = .assigned then
      some (m.setSlot slot { m.slot slot with state := .running, worker := .loadTid })
    else some (m.setWorker slot .load)
  | .loadTid => some (m.setWorker slot (.loadArg (m.slot slot).tid))
  | .loadArg tid => some (m.setWorker slot (.start tid (m.slot slot).arg))
  | .start tid arg => some { m.setWorker slot .body with runs := m.runs ++ [⟨slot, tid, arg⟩] }
  | .body =>
    if (m.slot slot).state = .running then
      some (m.setState slot { m.slot slot with state := .idle, worker := .load })
    else some (m.setWorker slot .load)
  | .retire => some ((m.retire slot).setWorker slot .stopped)
  | .stopped => none

def poolHappen (event : PoolEvent) (m : Pool Thread) : Option (Pool Thread) :=
  match event with
  | .arm slot => some (m.setState slot { m.slot slot with state := .idle })
  | .serve slot => serveStep m slot
  | .fault slot =>
    match (m.slot slot).worker with
    | .body => some (m.setWorker slot .retire)
    | _ => none
  | .retire slot => some (m.retire slot)
  | .bump =>
    if 0 < m.bumps then
      some { m with bumps := m.bumps - 1, generation := m.generation + 1 }
    else none

/-- The spawn of one thread over a pool: `growable` where it has `grow`. -/
structure PoolOptions (Thread : Type) where
  capacity : Nat
  growable : Thread → Bool

variable (options : PoolOptions Thread) (thread : Thread)

def Looking.missed (live : Nat) : Looking → SpawnStep
  | .first => .loadGeneration
  | .again generation => .loadRoom generation live

/-- `scan`, `reserve` and the rest of a spawn. -/
def spawnStep (m : Pool Thread) (spawner : Spawner) (arg : Int32) :
    SpawnStep → Option (Pool Thread × Spawner)
  | .loadSlots looking => some (m, { spawner with
      task := .spawning arg (.exchange looking (min m.slots options.capacity) 0 0) })
  | .exchange looking slots slot live =>
    if slot < slots then
      if (m.slot slot).state = .idle then
        some (m.setSlot slot { m.slot slot with
            state := .claimed, holder := some thread, everClaimed := true },
          { spawner with task := .spawning arg (.takeTid slot) })
      else some (m, { spawner with task := .spawning arg (.count looking slots slot live) })
    else some (m, { spawner with task := .spawning arg (looking.missed live) })
  | .count looking slots slot live => some (m, { spawner with
      task := .spawning arg (.exchange looking slots (slot + 1)
        (if (m.slot slot).state = .retired then live else live + 1)) })
  | .loadGeneration =>
    some (m, { spawner with task := .spawning arg (.loadSlots (.again m.generation)) })
  | .loadRoom generation live => some (m, { spawner with
      task := .spawning arg (.decide generation live
        (options.growable thread && min m.slots options.capacity < options.capacity)) })
  | .decide _ _ _ => none
  | .wait _ => some (m, { spawner with task := .spawning arg .loadGeneration })
  | .reserveLoad =>
    if options.capacity ≤ m.slots then
      -- another thread took the last reservation
      some (m, { spawner with task := .spawning arg .loadGeneration })
    else some (m, { spawner with task := .spawning arg (.reserveExchange m.slots) })
  | .reserveExchange slots =>
    if m.slots = slots then
      some ({ m.setSlot slots { m.slot slots with holder := some thread, everClaimed := true } with
          slots := slots + 1 },
        { spawner with task := .spawning arg (.storeClaimed slots) })
    else some (m, { spawner with task := .spawning arg .reserveLoad })
  | .storeClaimed slot => some (m.setSlot slot { m.slot slot with state := .claimed },
      { spawner with task := .spawning arg (.grow slot) })
  | .grow slot => some (m, { spawner with task := .spawning arg (.takeTid slot) })
  | .takeTid slot =>
    some ({ m with nextTid := m.nextTid + 1, takers := m.takers ++ [thread] },
      { spawner with
        task := .spawning arg
          (if maxTid < m.nextTid then .restore slot else .storeTid slot m.nextTid) })
  -- the tids are exhausted
  | .restore slot => some (m.setState slot { m.slot slot with state := .idle, holder := none },
      { spawner with task := .resting })
  | .storeTid slot tid => some (m.setSlot slot { m.slot slot with tid := tid },
      { spawner with task := .spawning arg (.storeArg slot tid) })
  | .storeArg slot tid => some (m.setSlot slot { m.slot slot with arg := arg },
      { spawner with task := .spawning arg (.storeAssigned slot tid) })
  | .storeAssigned slot tid =>
    some ({ m.setSlot slot { m.slot slot with state := .assigned, holder := none } with
        spawned := m.spawned ++ [⟨slot, tid, arg⟩]
        late := m.late ++ if (m.slot slot).everRetired then [⟨slot, tid, arg⟩] else [] },
      { spawner with task := .resting })

/-- What a spawn does that has found no idle slot. -/
def decideStep (spawner : Spawner) (arg generation : Int32) (live : Nat) (room due expired : Bool) :
    Spawner :=
  if room && (live == 0 || due) then { spawner with task := .spawning arg .reserveLoad }
  else if live = 0 then { spawner with task := .resting }
  else if some generation = spawner.starvedAt ∧ room = false then { spawner with task := .resting }
  else if room = false ∧ expired = true then ⟨.resting, some generation⟩
  else if expired then { spawner with task := .spawning arg .loadGeneration }
  else { spawner with task := .spawning arg (.wait room) }

def spawnAct (move : SpawnMove) (m : Pool Thread) (spawner : Spawner) :
    Option (Pool Thread × Spawner) :=
  match move, spawner.task with
  | .call arg, .resting => some (m, { spawner with task := .spawning arg (.loadSlots .first) })
  | .step, .spawning arg step => spawnStep options thread m spawner arg step
  | .clock due expired, .spawning arg (.decide generation live room) =>
    some (m, decideStep spawner arg generation live room due expired)
  | .fail, .spawning arg (.wait room) => some (m, { spawner with
      task := if room then .spawning arg .loadGeneration else .resting })
  | .fail, .spawning _ (.grow slot) =>
    some (m.setState slot { m.slot slot with
        state := .retired, everRetired := true, holder := none },
      { spawner with task := .resting })
  | _, _ => none

end Steps
end SpaceDataModule.ThreadPool

import SpaceDataModule.Interleaving
import SpaceDataModule.JavaScript

/-! The request ring in a shared buffer: clients that claim a slot for each request,
the server that services the slots, the supervisor that fails what a dead server left,
and threads that reclaim the slots of a stopped instance. Each atomic access is one step.
A wait may end at any time, since whoever wakes looks at the slot again. -/
namespace SpaceDataModule.SabIoRing
open Interleaving JavaScript

section Slots

/-- `SAB_IO_SLOT_*`. -/
inductive SlotState where
  | free | idle | pending | servicing | done
  deriving DecidableEq

/-- `createSabIoClient` or `createSabIoAsyncClient`. -/
inductive Kind where
  | blocking | async
  deriving DecidableEq

structure Client where
  id : Nat
  kind : Kind
  instanceId : Nat
  deriving DecidableEq

/-- One call of a client's `request`. An async client may have many under way. -/
structure Session where
  client : Client
  call : Nat
  deriving DecidableEq

structure Arguments where
  handle : Int32 := -1
  flags : Int32 := 0
  ptr : Int32 := 0
  len : Int32 := 0
  dataInSlot : Bool := false

structure Request where
  op : Int32
  arguments : Arguments := {}
  offset : Number := .finite 0
  path : List UInt8 := []

/-- What a request returns: `status` and `result`. -/
structure Outcome where
  status : Int32
  result : Number
  deriving DecidableEq

structure Slot where
  state : SlotState := .free
  seq : UInt32 := 0
  doneSeq : UInt32 := 0
  op : Int32 := 0
  instanceId : Nat := 0
  arguments : Arguments := {}
  status : Int32 := 0
  offset : Number := .finite 0
  result : Number := .finite 0
  path : List UInt8 := []
  /-- Kept for the record, not in the buffer: whose claim of the slot was not given
  back, and the last submission. -/
  holder : Option Session := none
  submission : Nat := 0

end Slots

structure Shared where
  slots : Nat → Slot := fun _ => {}
  hint : UInt32 := 0
  /-- The counter of each async client. -/
  counters : Client → UInt32 := fun _ => 0
  /-- A server runs. -/
  alive : Bool := true
  /-- The slots from which the running server has taken a request. -/
  taken : List Nat := []
  /-- The sessions inside a call whose threads have not stopped. -/
  active : List Session := []
  /-- The threads inside `reclaimSabIoSlots`, with its argument. -/
  reclaiming : List (Nat × Nat) := []
  /-- Each request submitted, with its slot. -/
  submissions : List (Session × Nat) := []
  /-- Each completion: the submission it was made for, and its outcome. -/
  completions : List (Nat × Outcome) := []
  /-- Each request that returned: the session, its submission, and what was read. -/
  returns : List (Session × Nat × Outcome) := []
  /-- Each slot that a reclaiming call freed: its argument, and whose claim it was. -/
  reclaimed : List (Nat × Option Session) := []

def Shared.modify (m : Shared) (slot : Nat) (change : Slot → Slot) : Shared :=
  { m with slots := Function.update m.slots slot (change (m.slots slot)) }

section Sessions

/-- The next word `writeRequest` and `roundTrip` store before the state. -/
inductive Word where
  | op | instanceId | arguments | status | offset | result | path | seq
  deriving DecidableEq

def Word.next : Word → Option Word
  | .op => some .instanceId
  | .instanceId => some .arguments
  | .arguments => some .status
  | .status => some .offset
  | .offset => some .result
  | .result => some .path
  | .path => some .seq
  | .seq => none

def Slot.write (client : Client) (request : Request) (seq : UInt32) (e : Slot) : Word → Slot
  | .op => { e with op := request.op }
  | .instanceId => { e with instanceId := client.instanceId }
  | .arguments => { e with arguments := request.arguments }
  | .status => { e with status := 0 }
  | .offset => { e with offset := request.offset }
  | .result => { e with result := .finite 0 }
  | .path => { e with path := request.path }
  | .seq => { e with seq := seq }

/-- The next access of `tryClaimSlot`. -/
inductive ClaimStep where
  | hint
  | exchange (start step : Nat)

/-- The next access of a session that has claimed a slot. -/
inductive HoldStep where
  | number
  | write (word : Word) (seq : UInt32)
  | submit (seq : UInt32)
  | loadState (seq : UInt32) (submission : Nat)
  | loadDone (seq : UInt32) (submission : Nat) (state : SlotState)
  | loadStatus (submission : Nat)
  | loadResult (submission : Nat) (status : Int32)
  | release (submission : Nat) (outcome : Outcome)

inductive Place where
  | resting
  | claiming (request : Request) (step : ClaimStep)
  | holding (request : Request) (slot : Nat) (step : HoldStep)

/-- `(seq + 1) | 0 || 1`. -/
def nextSeq (seq : UInt32) : UInt32 := if seq + 1 = 0 then 1 else seq + 1

/-- A claim that finds no free slot starts over. -/
def claim (slotCount : Nat) (session : Session) (m : Shared) (request : Request) :
    ClaimStep → Shared × Place
  | .hint =>
    ({ m with hint := m.hint + 1 }, .claiming request (.exchange (m.hint.toNat % slotCount) 0))
  | .exchange start step =>
    let slot := (start + step) % slotCount
    if (m.slots slot).state = .free then
      (m.modify slot fun e => { e with state := .idle, holder := some session },
        .holding request slot .number)
    else if step + 1 < slotCount then (m, .claiming request (.exchange start (step + 1)))
    else (m, .claiming request .hint)

/-- A blocking client numbers its request after the slot, an async one by its counter. -/
def number (session : Session) (m : Shared) (request : Request) (slot : Nat) : Shared × Place :=
  match session.client.kind with
  | .blocking => (m, .holding request slot (.write .op (nextSeq (m.slots slot).seq)))
  | .async =>
    let seq := nextSeq (m.counters session.client)
    ({ m with counters := Function.update m.counters session.client seq },
      .holding request slot (.write .op seq))

def hold (session : Session) (m : Shared) (request : Request) (slot : Nat) :
    HoldStep → Shared × Place
  | .number => number session m request slot
  | .write word seq =>
    (m.modify slot fun e => e.write session.client request seq word,
      .holding request slot (match word.next with
        | some next => .write next seq
        | none => .submit seq))
  | .submit seq =>
    ({ m.modify slot fun e => { e with state := .pending, submission := m.submissions.length } with
      submissions := m.submissions ++ [(session, slot)] },
      .holding request slot (.loadState seq m.submissions.length))
  | .loadState seq submission =>
    (m, .holding request slot (.loadDone seq submission (m.slots slot).state))
  | .loadDone seq submission state =>
    (m, .holding request slot (if state = .done ∧ (m.slots slot).doneSeq = seq then
      .loadStatus submission else .loadState seq submission))
  | .loadStatus submission =>
    (m, .holding request slot (.loadResult submission (m.slots slot).status))
  | .loadResult submission status =>
    (m, .holding request slot (.release submission ⟨status, (m.slots slot).result⟩))
  | .release submission outcome =>
    ({ m.modify slot fun e => { e with state := .free, holder := none } with
      active := m.active.filter (· ≠ session)
      returns := m.returns ++ [(session, submission, outcome)] }, .resting)

def Place.step (slotCount : Nat) (session : Session) (m : Shared) : Place → Option (Shared × Place)
  | .resting => none
  | .claiming request step => some (claim slotCount session m request step)
  | .holding request slot step => some (hold session m request slot step)

end Sessions

section Completion

/-- The next access of `completeSabIoSlot`. -/
inductive CompletionStep where
  | result | status | loadSeq
  | storeDone (seq : UInt32)
  | state

def complete (m : Shared) (slot submission : Nat) (outcome : Outcome) :
    CompletionStep → Shared × Option CompletionStep
  | .result => (m.modify slot fun e => { e with result := outcome.result }, some .status)
  | .status => (m.modify slot fun e => { e with status := outcome.status }, some .loadSeq)
  | .loadSeq => (m, some (.storeDone (m.slots slot).seq))
  | .storeDone seq => (m.modify slot fun e => { e with doneSeq := seq }, some .state)
  | .state =>
    ({ m.modify slot fun e => { e with state := .done } with
      completions := m.completions ++ [(submission, outcome)] }, none)

end Completion

section Server

/-- A request as `makeJob` reads it, with the submission it belongs to. -/
structure Job where
  slot : Nat
  op : Int32
  instanceId : Nat
  arguments : Arguments
  offset : Number
  path : List UInt8
  submission : Nat

def makeJob (slot : Nat) (e : Slot) : Job where
  slot := slot
  op := e.op
  instanceId := e.instanceId
  arguments := e.arguments
  offset := e.offset
  path := e.path
  submission := e.submission

inductive ServerStep where
  | idle
  | load (slot : Nat)
  | exchange (slot : Nat)
  | make (slot : Nat)
  | completing (job : Job) (outcome : Outcome) (step : CompletionStep)

/-- The jobs are those of `claimedSlots`; a job is completed in any order, whenever its
work is done, with any outcome. -/
structure Server where
  jobs : List Job := []
  step : ServerStep := .idle

def Server.advance (m : Shared) (server : Server) : Option (Shared × Server) :=
  match server.step with
  | .idle => none
  | .load slot =>
    some (m, { server with
      step := if (m.slots slot).state = .pending then .exchange slot else .idle })
  | .exchange slot =>
    if (m.slots slot).state = .pending then
      some ({ m.modify slot fun e => { e with state := .servicing } with
        taken := m.taken ++ [slot] }, { server with step := .make slot })
    else some (m, { server with step := .idle })
  | .make slot =>
    some (m, { jobs := server.jobs ++ [makeJob slot (m.slots slot)], step := .idle })
  | .completing job outcome step =>
    let (after, next) := complete m job.slot job.submission outcome step
    some (after, { server with step := match next with
      | some next => .completing job outcome next
      | none => .idle })

end Server

section Supervisor

/-- Where `failPendingSabIoRequests` stands. -/
inductive Supervisor where
  | resting
  | load (status : Int32) (slot : Nat)
  | completing (status : Int32) (slot submission : Nat) (step : CompletionStep)

def Supervisor.visit (slotCount : Nat) (status : Int32) (slot : Nat) : Supervisor :=
  if slot < slotCount then .load status slot else .resting

def Supervisor.advance (slotCount : Nat) (m : Shared) : Supervisor → Option (Shared × Supervisor)
  | .resting => none
  | .load status slot =>
    some (m, if (m.slots slot).state = .pending ∨ (m.slots slot).state = .servicing then
      .completing status slot (m.slots slot).submission .result
      else .visit slotCount status (slot + 1))
  | .completing status slot submission step =>
    let (after, next) := complete m slot submission ⟨status, .finite 0⟩ step
    some (after, match next with
      | some next => .completing status slot submission next
      | none => .visit slotCount status (slot + 1))

end Supervisor

section Reclaiming

/-- Where `reclaimSabIoSlots` stands; the exchange is from DONE first, then from IDLE. -/
inductive Reclaimer where
  | resting
  | load (instanceId slot : Nat)
  | exchange (instanceId slot : Nat) (done : Bool)

def Shared.visit (slotCount thread instanceId slot : Nat) (m : Shared) : Shared × Reclaimer :=
  if slot < slotCount then (m, .load instanceId slot)
  else ({ m with reclaiming := m.reclaiming.filter (·.1 ≠ thread) }, .resting)

def Shared.freed (m : Shared) (instanceId slot : Nat) : Shared :=
  { m.modify slot fun e => { e with state := .free, holder := none } with
    reclaimed := m.reclaimed ++ [(instanceId, (m.slots slot).holder)] }

def Reclaimer.advance (slotCount thread : Nat) (m : Shared) :
    Reclaimer → Option (Shared × Reclaimer)
  | .resting => none
  | .load instanceId slot =>
    if (m.slots slot).instanceId = instanceId then some (m, .exchange instanceId slot true)
    else some (m.visit slotCount thread instanceId (slot + 1))
  | .exchange instanceId slot true =>
    if (m.slots slot).state = .done then
      some ((m.freed instanceId slot).visit slotCount thread instanceId (slot + 1))
    else some (m, .exchange instanceId slot false)
  | .exchange instanceId slot false =>
    if (m.slots slot).state = .idle then
      some ((m.freed instanceId slot).visit slotCount thread instanceId (slot + 1))
    else some (m.visit slotCount thread instanceId (slot + 1))

end Reclaiming

section System

inductive Party where
  | session (session : Session)
  | server
  | supervisor
  | reclaimer (thread : Nat)
  deriving DecidableEq

inductive Position where
  | session (place : Place)
  | server (server : Server)
  | supervisor (supervisor : Supervisor)
  | reclaimer (reclaimer : Reclaimer)

inductive Move where
  | request (request : Request)
  /-- The thread of a session is terminated. -/
  | kill
  | scan (slot : Nat)
  /-- The server's work on a job is done. -/
  | finish (job : Nat) (outcome : Outcome)
  | stop
  | replace
  | failPending (status : Int32)
  | reclaim (instanceId : Nat)
  | step

variable (slotCount : Nat)

def actSession (session : Session) (m : Shared) (move : Move) (place : Place) :
    Option (Shared × Place) :=
  match move, place with
  | .request request, .resting =>
    some ({ m with active := m.active ++ [session] }, .claiming request .hint)
  | .kill, place => some ({ m with active := m.active.filter (· ≠ session) }, place)
  | .step, place => if session ∈ m.active then place.step slotCount session m else none
  | _, _ => none

def actServer (m : Shared) (move : Move) (server : Server) :
    Option (Shared × Server) :=
  match move with
  | .stop => some ({ m with alive := false }, {})
  | .replace => if m.alive then none else some ({ m with alive := true, taken := [] }, {})
  | .scan slot =>
    match server.step with
    | .idle =>
      if m.alive ∧ slot < slotCount ∧ slot ∉ server.jobs.map Job.slot then
        some (m, { server with step := .load slot }) else none
    | _ => none
  | .finish index outcome =>
    match server.step, server.jobs[index]? with
    | .idle, some job =>
      if m.alive then
        some (m, ⟨server.jobs.eraseIdx index, .completing job outcome .result⟩) else none
    | _, _ => none
  | .step => if m.alive then server.advance m else none
  | _ => none

def actSupervisor (m : Shared) (move : Move) (supervisor : Supervisor) :
    Option (Shared × Supervisor) :=
  match move, supervisor with
  | .failPending status, .resting => some (m, .visit slotCount status 0)
  | .step, supervisor => supervisor.advance slotCount m
  | _, _ => none

def actReclaimer (slotCount thread : Nat) (m : Shared) (move : Move) (reclaimer : Reclaimer) :
    Option (Shared × Reclaimer) :=
  match move, reclaimer with
  | .reclaim instanceId, .resting =>
    some ({ m with reclaiming := m.reclaiming ++ [(thread, instanceId)] }.visit
      slotCount thread instanceId 0)
  | .step, reclaimer => reclaimer.advance slotCount thread m
  | _, _ => none

def act (party : Party) (move : Move) (m : Shared) (position : Position) :
    Option (Shared × Position) :=
  match party, position with
  | .session session, .session place =>
    (actSession slotCount session m move place).map (Prod.map id .session)
  | .server, .server server => (actServer slotCount m move server).map (Prod.map id .server)
  | .supervisor, .supervisor supervisor =>
    (actSupervisor slotCount m move supervisor).map (Prod.map id .supervisor)
  | .reclaimer thread, .reclaimer reclaimer =>
    (actReclaimer slotCount thread m move reclaimer).map (Prod.map id .reclaimer)
  | _, _ => none

def happen (event : Empty) (_ : Shared) : Option Shared := event.elim

def Party.start : Party → Position
  | .session _ => .session .resting
  | .server => .server {}
  | .supervisor => .supervisor .resting
  | .reclaimer _ => .reclaimer .resting

def initial : Config Shared Party Position := ⟨{}, Party.start⟩

end System

end SpaceDataModule.SabIoRing

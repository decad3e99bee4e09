import SpaceDataModule.FlatsqlIo.Contract
import SpaceDataModule.KeyedQueue

/-! The server half of the I/O channel. One thread holds every file, so each job step, each
settled open and each applied revocation runs to its end; what happens between them is up to
the backend, the clients and whoever revokes and resets instances. A backend call may take
effect at any time between its start and its end. Files are shared by path and counted. -/
namespace SpaceDataModule.FlatsqlIoServer
open FlatsqlIo

section Channel

/-- `SAB_IO_INSTANCE_*`. -/
inductive InstanceState where
  | none | attached | revoking | revoked
  deriving DecidableEq

/-- `SAB_IO_SCRATCH_INSTANCE`. -/
def scratchInstance : Nat := 0x7fff

/-- What the server is created with; `createSabIoChannelBuffer` refuses other values. -/
structure Settings where
  maxInstances : Nat
  maxInstances_le : maxInstances ≤ scratchInstance
  chunkBytes : Nat

/-- The instance words of the channel. Kept for the record, not in the buffer: how often
each id was reset, and how many of its eras ended before the last `REVOKED`. -/
structure Instances where
  state : Int → InstanceState := fun _ => .none
  era : Int → Nat := fun _ => 0
  sealedEras : Int → Nat := fun _ => 0

namespace Instances
variable (settings : Settings) (instances : Instances) (instanceId : Int)

/-- `none` for an id the channel has no word for. -/
def instanceState : Option InstanceState :=
  if instanceId = scratchInstance then some .attached
  else if instanceId < 0 ∨ (settings.maxInstances : Int) ≤ instanceId then none
  else some (instances.state instanceId)

def isRevoked : Bool :=
  instances.instanceState settings instanceId = some .revoking ||
    instances.instanceState settings instanceId = some .revoked

def put (state : InstanceState) : Instances :=
  { instances with state := Function.update instances.state instanceId state }

/-- The store of `REVOKED`, which ends the era. -/
def storeRevoked : Instances :=
  { instances.put instanceId .revoked with
    sealedEras := Function.update instances.sealedEras instanceId (instances.era instanceId + 1) }

/-- `resetSabIoInstance`. -/
def reset : Instances :=
  { instances.put instanceId .none with
    era := Function.update instances.era instanceId (instances.era instanceId + 1) }

/-- `REVOKED` was stored since the id was last reset. -/
def SealedNow : Prop :=
  instances.era instanceId < instances.sealedEras instanceId
  deriving Decidable

end Instances

/-- Whose request it is: an instance id, and how often the id had been reset. -/
structure Owner where
  instanceId : Int
  era : Nat
  deriving DecidableEq

/-- `REVOKED` was stored for the instance since the request was posted, or the request was
posted after that and before the id was reset. -/
def Instances.Sealed (instances : Instances) (owner : Owner) : Prop :=
  owner.era < instances.sealedEras owner.instanceId
  deriving Decidable

end Channel

section Records
variable (Path : Type)

inductive HandleOp where
  | read | write | truncate | sync | size | close
  deriving DecidableEq

/-- A request with its path as `decodeFlatsqlIoPath` and `splitFlatsqlIoPath` give it, joined
again, or the status they refuse it with. -/
inductive Operation where
  | open (flags : Flags) (path : Except Int Path)
  | handle (op : HandleOp) (handleId : Int) (len : Int)
  | unknown

/-- `job.phase`: 0, 1 with `job.entry`, or 2 with `job.result`. -/
inductive Phase where
  | arrived
  | creator (entry : Nat)
  | answered (result : Int)
  deriving DecidableEq

structure Request where
  slot : Nat
  instanceId : Int
  operation : Operation Path

structure Job extends Request Path where
  done : Nat := 0
  phase : Phase := .arrived
  era : Nat

variable {Path} in
def Job.owner (job : Job Path) : Owner := ⟨job.instanceId, job.era⟩

/-- An open file, or one that is being opened. `deleters` is kept for the record: whose
handles asked for the removal. -/
structure Entry where
  path : Path
  file : Bool := false
  opening : Bool := false
  openStatus : Int := 0
  refs : Nat := 0
  pins : Nat := 0
  deleteOnClose : Bool := false
  waiters : List (Job Path) := []
  deleters : List Owner := []

section
variable {Path}

/-- The entry after `addHandle`. -/
def Entry.granted (owner : Owner) (flags : Flags) (e : Entry Path) : Entry Path :=
  let deletes := flags.has Flags.deleteOnClose
  { e with
    refs := e.refs + 1
    deleteOnClose := e.deleteOnClose || deletes
    deleters := if deletes then e.deleters ++ [owner] else e.deleters }

def Entry.settled (status : Int) (e : Entry Path) : Entry Path :=
  { e with opening := false, openStatus := status, file := decide (status = 0), waiters := [] }

end

structure Handle where
  id : Nat
  entry : Nat
  instanceId : Int
  canWrite : Bool
  canRead : Bool
  deriving DecidableEq

/-- A namespace operation that waits in the chain of its path. -/
inductive Task where
  | open (entry : Nat) (flags : Flags) (owner : Option Owner)
  | probe (job : Job Path)
  | remove (job : Job Path)
  /-- `DELETE_ON_CLOSE` of a released entry. -/
  | removeReleased (entry : Nat) (owners : List Owner)

/-- A thrown error as `flatsqlIoStatusOf` reports it. -/
structure Failure where
  status : Int
  negative : status < 0
  deriving DecidableEq

/-- How a backend call ends; `found` is what `exists` answers. -/
inductive Outcome where
  | done (found : Bool)
  | failed (error : Failure)
  deriving DecidableEq

/-- What a synchronous call of a file does, or that the request's bytes are not in memory. -/
inductive Answer where
  | unresolved
  | moved (count : Nat)
  | failed (error : Failure)
  deriving DecidableEq

inductive EffectKind where
  | created | truncated | written | removed
  deriving DecidableEq

structure Effect where
  path : Path
  kind : EffectKind
  /-- `REVOKED` had been stored for an instance it was made for. -/
  late : Bool
  deriving DecidableEq

structure Completion where
  slot : Nat
  status : Int
  value : Nat
  deriving DecidableEq

end Records

section Files
variable {Path : Type} [DecidableEq Path]

/-- The entries by number, the path table, and the handles. -/
structure Files (Path : Type) where
  heap : Nat → Entry Path
  allocated : Nat := 0
  entries : Path → Option Nat := fun _ => none
  handles : List Handle := []
  nextHandleId : Nat := 1

def maxHandleId : Nat := 0xffffff

/-- The loop of `allocateHandleId`: the id it finds, and the next one to try. -/
def allocateHandleId (taken : Nat → Bool) : Nat → Nat → Option Nat × Nat
  | 0, nextId => (none, nextId)
  | attempts + 1, nextId =>
    let following := if maxHandleId ≤ nextId then 1 else nextId + 1
    if taken nextId then allocateHandleId taken attempts following
    else (some nextId, following)

namespace Files
variable (files : Files Path)

def modify (entry : Nat) (change : Entry Path → Entry Path) : Files Path :=
  { files with heap := Function.update files.heap entry (change (files.heap entry)) }

def addHandle (entry : Nat) (owner : Owner) (flags : Flags) : Files Path × Int :=
  let taken id := files.handles.any fun handle => handle.id == id
  match allocateHandleId taken maxHandleId files.nextHandleId with
  | (none, following) => ({ files with nextHandleId := following }, Status.generic)
  | (some id, following) =>
    let writes := flags.has Flags.write
    let handle : Handle :=
      { id, entry, instanceId := owner.instanceId, canWrite := writes,
        canRead := !writes || flags.has Flags.read }
    ({ files.modify entry (Entry.granted owner flags) with
        handles := files.handles ++ [handle], nextHandleId := following }, id)

/-- `handles.delete` and the reference it held. -/
def dropHandle (handle : Handle) : Files Path :=
  { files.modify handle.entry fun e => { e with refs := e.refs - 1 } with
    handles := files.handles.filter fun other => other.id != handle.id }

/-- Take an entry out of the path table, if it is the one there, and close its file. -/
def detach (entry : Nat) : Files Path :=
  let path := (files.heap entry).path
  { files.modify entry fun e => { e with file := false } with
    entries :=
      if files.entries path = some entry then Function.update files.entries path none
      else files.entries }

/-- `entries.set` of a fresh entry whose open is started. -/
def insert (path : Path) : Files Path :=
  { files with
    heap := Function.update files.heap files.allocated { path, opening := true }
    allocated := files.allocated + 1
    entries := Function.update files.entries path (some files.allocated) }

def forget (path : Path) : Files Path :=
  { files with entries := Function.update files.entries path none }

end Files
end Files

/-- The server, the requests posted to it, and what it has done. -/
structure Server (Path : Type) where
  files : Files Path
  instances : Instances := {}
  /-- `pathChains`: the namespace operations in the order they were queued. -/
  queue : List (Path × Task Path) := []
  /-- The first operation of the path has been started. -/
  started : Path → Bool := fun _ => false
  /-- The `preopen` calls that wait for an open. -/
  awaiting : List Nat := []
  /-- The pending slots. -/
  ring : List (Job Path) := []
  ready : List (Job Path) := []
  effects : List (Effect Path) := []
  completed : List Completion := []

namespace Server
variable {Path : Type} [DecidableEq Path] (settings : Settings) (s : Server Path)

section Entries

def chainPath (path : Path) (task : Task Path) : Server Path :=
  { s with queue := s.queue ++ [(path, task)] }

variable (entry : Nat)

def releaseEntry : Server Path :=
  let e := s.files.heap entry
  if 0 < e.refs ∨ 0 < e.pins then s
  else
    let closed := { s with files := s.files.detach entry }
    if e.deleteOnClose ∧ e.openStatus = 0 then
      closed.chainPath e.path (.removeReleased entry e.deleters)
    else closed

def closeHandle (handle : Handle) : Server Path :=
  if s.files.handles.any fun other => other.id == handle.id then
    { s with files := s.files.dropHandle handle }.releaseEntry handle.entry
  else s

/-- `complete` with the number that goes with the status. -/
def completeWith (job : Job Path) (status : Int) (value : Nat) : Server Path :=
  { s with completed := s.completed ++ [⟨job.slot, status, value⟩] }

def complete (job : Job Path) (status : Int) : Server Path := s.completeWith job status 0

def affect (path : Path) (kind : EffectKind) (owners : List Owner) : Server Path :=
  let late := owners.any fun owner => s.instances.Sealed owner
  { s with effects := s.effects ++ [⟨path, kind, late⟩] }

def parkOnEntry (job : Job Path) (entry : Nat) : Server Path :=
  { s with files := s.files.modify entry fun e => { e with waiters := e.waiters ++ [job] } }

/-- `addHandle`, and the status that tells the client its id. -/
def join (job : Job Path) (entry : Nat) (flags : Flags) : Server Path :=
  let (files, id) := s.files.addHandle entry job.owner flags
  { s with files }.complete job id

/-- One waiter of a settled entry goes back to the ready queue. The opener that created the
entry gets its handle here. -/
def wakeWaiter (status : Int) (job : Job Path) : Server Path :=
  match job.operation, job.phase with
  | .open flags _, .creator created =>
    if created = entry then
      if status < 0 then { s with ready := s.ready ++ [{ job with phase := .answered status }] }
      else if s.instances.isRevoked settings job.instanceId then
        { s with ready := s.ready ++ [{ job with phase := .answered Status.access }] }
      else
        let (files, id) := s.files.addHandle entry job.owner flags
        { s with files, ready := s.ready ++ [{ job with phase := .answered id }] }
    else { s with ready := s.ready ++ [job] }
  | _, _ => { s with ready := s.ready ++ [job] }

/-- The last lines of `settleEntry`: an entry nobody took a handle of does not stay. -/
def sweep (status : Int) : Server Path :=
  let e := s.files.heap entry
  if status < 0 ∧ e.refs = 0 ∧ e.pins = 0 ∧ s.files.entries e.path = some entry then
    { s with files := s.files.forget e.path }
  else if status = 0 ∧ e.refs = 0 ∧ e.pins = 0 then s.releaseEntry entry
  else s

def settleEntry (status : Int) : Server Path :=
  let woken := (s.files.heap entry).waiters.foldl
    (fun s job => s.wakeWaiter settings entry status job)
    { s with files := s.files.modify entry (Entry.settled status) }
  woken.sweep entry status

/-- A fresh entry in the table, and its open in the chain. -/
def startOpen (path : Path) (flags : Flags) (owner : Option Owner) : Server Path :=
  { s with files := s.files.insert path }.chainPath path (.open s.files.allocated flags owner)

end Entries

section Jobs

variable (job : Job Path) (flags : Flags)

def openFresh (path : Path) : Server Path :=
  let fresh := s.files.allocated
  let opening := s.startOpen path flags (some job.owner)
  if flags.has Flags.openDeferred then opening.join job fresh flags
  else opening.parkOnEntry { job with phase := .creator fresh } fresh

/-- `stepOpen` after the path is known, without a namespace flag. -/
def stepFile (path : Path) (answer : Answer) : Server Path :=
  match s.files.entries path with
  | some entry =>
    let e := s.files.heap entry
    if e.opening then
      if flags.has Flags.openDeferred then s.join job entry flags
      else s.parkOnEntry job entry
    else if e.openStatus = 0 then
      if flags.has Flags.excl then s.complete job Status.generic
      else if flags.has Flags.trunc && flags.has Flags.write then
        match answer with
        | .failed error => s.complete job error.status
        | _ => (s.affect path .truncated [job.owner]).join job entry flags
      else s.join job entry flags
    -- A failed deferred open still referenced by handles: start afresh.
    else { s with files := s.files.forget path }.openFresh job flags path
  | none => s.openFresh job flags path

/-- `stepOpen` with `PROBE`, `UNLINK` or `UNLINK_IF_UNUSED`. -/
def stepNamespace (path : Path) : Server Path :=
  match s.files.entries path with
  | some entry =>
    let e := s.files.heap entry
    if e.opening then s.parkOnEntry job entry
    else if flags.has Flags.probe then
      if e.openStatus = 0 then s.complete job Status.ok
      else s.chainPath path (.probe job)
    else if 0 < e.refs then s.complete job Status.busy
    else if 0 < e.pins then
      let unpinned := { s with files := s.files.modify entry fun e => { e with pins := 0 } }
      (unpinned.releaseEntry entry).chainPath path (.remove job)
    else s.chainPath path (.remove job)
  | none => s.chainPath path (if flags.has Flags.probe then .probe job else .remove job)

/-- `stepOpen` before the job has a result. -/
def stepUnanswered (path : Except Int Path) (answer : Answer) :
    Server Path :=
  if s.instances.isRevoked settings job.instanceId then s.complete job Status.access
  else
    match path with
    | .error status => s.complete job status
    | .ok path =>
      if flags.has (Flags.probe ||| Flags.unlink ||| Flags.unlinkIfUnused) then
        s.stepNamespace job flags path
      else s.stepFile job flags path answer

def stepOpen (path : Except Int Path) (answer : Answer) :
    Server Path :=
  match job.phase with
  | .answered result => s.complete job result
  | .arrived | .creator _ => s.stepUnanswered settings job flags path answer

def advance (len : Int) (count : Nat) : Server Path :=
  let piece := min settings.chunkBytes (len.toNat - job.done)
  let done := job.done + count
  if count < piece ∨ len ≤ done then s.complete job done
  else { s with ready := s.ready ++ [{ job with done }] }

/-- The `switch` of `stepHandleOp`, on an open file. -/
def stepFileOp (op : HandleOp) (handle : Handle) (path : Path) (len : Int)
    (answer : Answer) : Server Path :=
  match op with
  | .read =>
    if !handle.canRead then s.complete job Status.io
    else if len < 0 then s.complete job Status.generic
    else
      match answer with
      | .unresolved => s.complete job Status.generic
      | .failed error => s.complete job (if 0 < job.done then job.done else error.status)
      | .moved count => s.advance settings job len count
  | .write =>
    if !handle.canWrite then s.complete job Status.io
    else if len < 0 then s.complete job Status.generic
    else
      match answer with
      | .unresolved => s.complete job Status.generic
      | .failed error => (s.affect path .written [job.owner]).complete job error.status
      | .moved count => (s.affect path .written [job.owner]).advance settings job len count
  | .truncate =>
    if !handle.canWrite then s.complete job Status.io
    else
      match answer with
      | .failed error => (s.affect path .truncated [job.owner]).complete job error.status
      | _ => (s.affect path .truncated [job.owner]).complete job Status.ok
  | .sync =>
    match answer with
    | .failed error => s.complete job error.status
    | _ => s.complete job Status.ok
  | .size =>
    match answer with
    | .failed error => s.complete job error.status
    | .moved size => s.completeWith job Status.ok size
    | .unresolved => s.complete job Status.ok
  | .close => s.complete job Status.generic

def stepHandleOp (op : HandleOp) (handleId len : Int) (answer : Answer) :
    Server Path :=
  if s.instances.isRevoked settings job.instanceId then s.complete job Status.access
  else
    match s.files.handles.find? fun handle => (handle.id : Int) == handleId with
    | none => s.complete job Status.badHandle
    | some handle =>
      let e := s.files.heap handle.entry
      if e.opening then s.parkOnEntry job handle.entry
      else if op = .close then (s.closeHandle handle).complete job Status.ok
      else if e.openStatus < 0 then s.complete job e.openStatus
      else if e.file then s.stepFileOp settings job op handle e.path len answer
      else s.complete job Status.badHandle

def step (answer : Answer) : Server Path :=
  match job.operation with
  | .open flags path => s.stepOpen settings job flags path answer
  | .handle op handleId len => s.stepHandleOp settings job op handleId len answer
  | .unknown => s.complete job Status.generic

end Jobs

section Revocation

/-- `handles.get` and `closeHandle` of one id. -/
def closeId (id : Nat) : Server Path :=
  match s.files.handles.find? fun handle => handle.id == id with
  | some handle => s.closeHandle handle
  | none => s

/-- The ids `handlesByInstance` has for an instance. -/
def owned (instanceId : Int) : List Nat :=
  (s.files.handles.filter fun handle => handle.instanceId = instanceId).map Handle.id

/-- The body of the loop of `applyRevocations`, for an id that is `REVOKING`. -/
def applyRevocation (instanceId : Int) : Server Path :=
  let closed := (s.owned instanceId).foldl closeId s
  { closed with instances := closed.instances.storeRevoked instanceId }

end Revocation

section Preopens

/-- One path of `preopen`, up to its `await`. -/
def preopen (path : Path) (flags : Flags) : Server Path :=
  match s.files.entries path with
  | none =>
    let fresh := s.files.allocated
    let opening := s.startOpen path (flags &&& ~~~Flags.openDeferred) none
    { opening with
      files := opening.files.modify fresh fun e => { e with pins := e.pins + 1 }
      awaiting := s.awaiting ++ [fresh] }
  | some entry =>
    let pinned := { s with files := s.files.modify entry fun e => { e with pins := e.pins + 1 } }
    if (s.files.heap entry).opening then { pinned with awaiting := s.awaiting ++ [entry] }
    else if (s.files.heap entry).openStatus < 0 then s
    else pinned

/-- What follows the `await`, once the open is settled. -/
def resume (entry : Nat) : Server Path :=
  if (s.files.heap entry).openStatus < 0 then
    { s with files := s.files.modify entry fun e => { e with pins := e.pins - 1 } }
  else s

def releasePreopen (path : Path) : Server Path :=
  match s.files.entries path with
  | some entry =>
    if 0 < (s.files.heap entry).pins then
      { s with
        files := s.files.modify entry fun e => { e with pins := e.pins - 1 } }.releaseEntry entry
    else s
  | none => s

end Preopens

section Backend

def perform (path : Path) : Task Path → Server Path
  | .open _ flags owner =>
    let created :=
      if flags.has Flags.create then s.affect path .created owner.toList else s
    if flags.has Flags.trunc then created.affect path .truncated owner.toList else created
  | .probe _ => s
  | .remove job => s.affect path .removed [job.owner]
  | .removeReleased _ owners => s.affect path .removed owners

def answer (job : Job Path) (result : Int) : Server Path :=
  { s with ready := s.ready ++ [{ job with phase := .answered result }] }

/-- The operation ends and its continuation runs. -/
def conclude (task : Task Path) (outcome : Outcome) : Server Path :=
  match task, outcome with
  | .open entry _ _, .done _ => s.settleEntry settings entry Status.ok
  | .open entry _ _, .failed error => s.settleEntry settings entry error.status
  | .probe job, .done found => s.answer job (if found then Status.ok else Status.noent)
  | .remove job, .done _ => s.answer job Status.ok
  | .probe job, .failed error | .remove job, .failed error => s.answer job error.status
  | .removeReleased _ _, _ => s

end Backend
end Server

section Runs
variable {Path : Type} [DecidableEq Path] (settings : Settings)

inductive Label (Path : Type) where
  /-- A client makes a slot pending. -/
  | post (request : Request Path)
  /-- `scanSlots` claims a slot. -/
  | scan (index : Nat)
  /-- `runReady` steps the first job; its file calls give this answer. -/
  | run (answer : Answer)
  /-- The first operation of a path is started, acts, and ends. -/
  | start (path : Path)
  | act (path : Path)
  | finish (path : Path) (outcome : Outcome)
  | preopen (path : Path) (flags : Flags)
  | resume (index : Nat)
  | releasePreopen (path : Path)
  /-- `revokeSabIoInstance` stores `REVOKING`; the server answers; `resetSabIoInstance`. -/
  | revoke (instanceId : Int)
  | applyRevocation (instanceId : Int)
  | reset (instanceId : Int)
  /-- The stores of `attachMemory` and `detachMemory`, with the state they loaded before. -/
  | attach (instanceId : Int) (observed : InstanceState)
  | detach (instanceId : Int) (observed : InstanceState)

def Settings.InRange (instanceId : Int) : Prop :=
  0 ≤ instanceId ∧ instanceId < settings.maxInstances
  deriving Decidable

/-- A state the server thread may have loaded when it stores: `REVOKED` is stored by that
thread alone while it runs, so only a first `REVOKING` can come in between. `Simulated` proves
this of the two accesses taken one by one. -/
def Instances.Loaded (instances : Instances) (instanceId : Int) (observed : InstanceState) :
    Prop :=
  observed = instances.state instanceId ∨
    instances.state instanceId = .revoking ∧ ¬ instances.SealedNow instanceId
  deriving Decidable

def Server.startable (s : Server Path) (path : Path) : Option (Task Path) :=
  if s.started path then none else (KeyedQueue.chain s.queue path).head?

def next (s : Server Path) : Label Path → Option (Server Path)
  | .post request =>
    some { s with ring := s.ring ++ [{ request with era := s.instances.era request.instanceId }] }
  | .scan index =>
    s.ring[index]?.map fun job =>
      { s with ring := s.ring.eraseIdx index, ready := s.ready ++ [job] }
  | .run answer =>
    match s.ready with
    | [] => none
    | job :: ready => some ({ s with ready }.step settings job answer)
  | .start path =>
    (s.startable path).map fun _ => { s with started := Function.update s.started path true }
  | .act path =>
    if s.started path then
      (KeyedQueue.chain s.queue path).head?.map fun task => s.perform path task
    else none
  | .finish path outcome =>
    if s.started path then
      (KeyedQueue.pop path s.queue).map fun (task, queue) =>
        { s with queue, started := Function.update s.started path false }.conclude settings
          task outcome
    else none
  | .preopen path flags => some (s.preopen path flags)
  | .resume index =>
    match s.awaiting[index]? with
    | some entry =>
      if (s.files.heap entry).opening then none
      else some ({ s with awaiting := s.awaiting.eraseIdx index }.resume entry)
    | none => none
  | .releasePreopen path => some (s.releasePreopen path)
  | .revoke instanceId =>
    if settings.InRange instanceId then
      some { s with instances := s.instances.put instanceId .revoking }
    else none
  | .applyRevocation instanceId =>
    if settings.InRange instanceId ∧ s.instances.state instanceId = .revoking then
      some (s.applyRevocation instanceId)
    else none
  | .reset instanceId =>
    if settings.InRange instanceId then
      some { s with instances := s.instances.reset instanceId }
    else none
  | .attach instanceId observed =>
    if settings.InRange instanceId ∧ s.instances.Loaded instanceId observed then
      if observed = .revoking ∨ observed = .revoked then some s
      else some { s with instances := s.instances.put instanceId .attached }
    else none
  | .detach instanceId observed =>
    if settings.InRange instanceId ∧ s.instances.Loaded instanceId observed then
      if observed = .attached then some { s with instances := s.instances.put instanceId .none }
      else some s
    else none

def initial [Inhabited Path] : Server Path :=
  { files := { heap := fun _ => { path := default } } }

end Runs
end SpaceDataModule.FlatsqlIoServer

import SpaceDataModule.FlatsqlIo.Contract
import SpaceDataModule.Interleaving

/-! The virtual-handle table that the threads of a store share, with their calls step by step:
each atomic access, each copy of a path and each file-system call is one step. A slot also
remembers what its words do not say: its claimer's path and file, and how often it was claimed. -/
namespace SpaceDataModule.NodeSyncFs
open FlatsqlIo (Flags)

abbrev PathBytes := List UInt8
abbrev FileId := Nat

/-- The bounds `createNodeSyncFsIoTable` checks. -/
structure TableSize where
  maxHandles : Nat
  positive : 0 < maxHandles
  bounded : maxHandles ≤ 2 ^ 23

inductive SlotState where
  | free | claiming | live | closing
  deriving DecidableEq

/-- What of a slot decides whose it is. -/
structure SlotBook (Thread : Type) where
  state : SlotState := .free
  gen : Nat := 0
  /-- How often a generation was stored. -/
  claims : Nat := 0
  /-- The thread that claims or closes the slot. -/
  holder : Option Thread := none

/-- The words of a slot and its bytes of the path area. -/
structure Slot (Thread : Type) extends SlotBook Thread where
  flags : Flags := 0
  pathLen : Nat := 0
  path : Nat → UInt8 := fun _ => 0
  /-- The path of the last claimer. -/
  request : PathBytes := []
  /-- Whether the claimer has written its path. -/
  written : Bool := false
  /-- The file the last claimer has opened. -/
  file : Option FileId := none

/-- `slotPath`, for a length that was loaded. -/
def Slot.pathBytes {Thread : Type} (slot : Slot Thread) (length : Nat) : PathBytes := (List.range length).map slot.path

/-- `(slot << 8) | gen`. -/
def virtualHandle (slot gen : Nat) : Nat := slot <<< 8 ||| gen

/-- `handle >>> 8`, of a handle that is no negative number. -/
def slotOf (handle : Nat) : Nat := handle % 2 ^ 32 / 2 ^ 8
/-- `handle & 0xff`. -/
def genOf (handle : Nat) : Nat := handle % 2 ^ 8

/-- The files below the root, by the name a path stands for. -/
structure Files (Name : Type) where
  entry : Name → Option FileId
  next : FileId := 0

section Files
variable {Name : Type} [DecidableEq Name]

/-- `openSync`; none where the system refuses. -/
def Files.openSync (files : Files Name) (name : Name) (create excl : Bool) :
    Option (Files Name × FileId) :=
  match files.entry name with
  | some file => if create && excl then none else some (files, file)
  | none =>
    if create then some (⟨Function.update files.entry name (some files.next), files.next + 1⟩,
      files.next)
    else none

/-- `unlinkSync`; none where there is no such file. -/
def Files.unlinkSync (files : Files Name) (name : Name) : Option (Files Name × FileId) :=
  (files.entry name).map fun file => ({ files with entry := Function.update files.entry name none },
    file)

end Files

structure Cached where
  gen : Nat
  file : FileId

/-- The `localFds` of a thread, in the order of their insertion. -/
abbrev LocalFds := List (Nat × Cached)

/-- `localFds.set`. -/
def LocalFds.set (fds : LocalFds) (slot : Nat) (cached : Cached) : LocalFds :=
  if (fds.lookup slot).isSome then fds.map fun entry =>
    if entry.1 = slot then (slot, cached) else entry
  else fds ++ [(slot, cached)]

/-- `localFds.delete`. -/
def LocalFds.delete (fds : LocalFds) (slot : Nat) : LocalFds := fds.filter (·.1 ≠ slot)

/-- The next step of an `open` that unlinks. -/
inductive UnlinkStep where
  | scanState (slot : Nat)
  | scanLength (slot : Nat)
  | scanByte (slot index : Nat)
  | unlink

/-- The next step of an `open` that returns a handle. -/
inductive OpenStep where
  | sweepState (rest : LocalFds)
  | sweepGen (slot : Nat) (cached : Cached) (rest : LocalFds)
  | count
  | exchange (start turn : Nat)
  | loadGen (slot : Nat)
  | writePath (slot gen : Nat)
  | storeLength (slot gen : Nat)
  | storeFlags (slot gen : Nat)
  | storeGen (slot gen : Nat)
  | openFile (slot gen : Nat)
  | release (slot : Nat)
  | publish (slot gen : Nat) (file : FileId)

inductive UseStep where
  | loadState
  | loadGen
  | loadLength
  | loadPath (length : Nat)
  | loadFlags (path : PathBytes)
  | openFile (path : PathBytes)
  | checkWrite (file : FileId)
  /-- The call on the descriptor. -/
  | act (file : FileId)

inductive CloseStep where
  | loadGen
  | exchange
  | loadFlags
  | loadLength (flags : Flags)
  | loadPath (flags : Flags) (length : Nat)
  | free (flags : Flags) (path : PathBytes)
  | unlink (path : PathBytes)
  /-- The return of 0. -/
  | finish

inductive Task where
  | resting
  | unlinking (path : PathBytes) (ifUnused : Bool) (step : UnlinkStep)
  | opening (path : PathBytes) (flags : Flags) (step : OpenStep)
  /-- With the handles whose close had returned 0 when the call began. -/
  | using (handle : Nat) (writes : Bool) (closedBefore : List Nat) (step : UseStep)
  | closing (handle : Nat) (step : CloseStep)

structure Worker where
  task : Task := .resting
  fds : LocalFds := []

/-- A handle that `open` has returned, with the claim it stands for. -/
structure Opened where
  handle : Nat
  slot : Nat
  claim : Nat
  deriving DecidableEq

/-- A file that an unlinking `open` has removed, with the slots that had it open. -/
structure Removal where
  ifUnused : Bool
  file : FileId
  /-- The slots that are live with the file. -/
  live : List Nat
  /-- The slots whose `open` has opened the file and not returned yet. -/
  opening : List Nat
  deriving DecidableEq

structure Shared (Thread Name : Type) where
  slots : Nat → Slot Thread := fun _ => {}
  cursor : UInt32 := 0
  files : Files Name
  /-- What `open` has returned so far. -/
  opened : List Opened := []
  /-- The handles `close` was called with, and by whom. -/
  closeCalls : List (Thread × Nat) := []
  /-- The claims that were closed, with the argument of the close. -/
  closed : List Opened := []
  /-- The handles whose close has returned 0. -/
  closeReturned : List Nat := []
  removals : List Removal := []

/-- What a thread begins, or that its next step goes on. A file-system call may fail. -/
inductive WorkerMove where
  | unlinkCall (path : PathBytes) (ifUnused : Bool)
  | openCall (path : PathBytes) (flags : Flags)
  | useCall (handle : Nat) (writes : Bool)
  | closeCall (handle : Nat)
  | step
  | fail

section Steps
variable {Thread Name : Type} [DecidableEq Name] (size : TableSize) (resolve : PathBytes → Name)

variable (m : Shared Thread Name)

def Shared.setSlot (slot : Nat) (after : Slot Thread) : Shared Thread Name :=
  { m with slots := Function.update m.slots slot after }

def Shared.holders (state : SlotState) (file : FileId) : List Nat :=
  (List.range size.maxHandles).filter fun slot =>
    (m.slots slot).state = state ∧ (m.slots slot).file = some file

def Shared.removed (ifUnused : Bool) (files : Files Name) (file : FileId) :
    Shared Thread Name :=
  { m with
    files := files
    removals := m.removals ++ [⟨ifUnused, file, m.holders size .live file,
      m.holders size .claiming file⟩] }

variable (worker : Worker)

/-- `pathInUse` and the unlink; a slot past the last one ends the scan. -/
def unlinkStep (path : PathBytes) (ifUnused : Bool) :
    UnlinkStep → Option (Shared Thread Name × Worker)
  | .scanState slot =>
    if slot < size.maxHandles then
      if (m.slots slot).state = .live ∨ (m.slots slot).state = .claiming then
        some (m, { worker with task := .unlinking path ifUnused (.scanLength slot) })
      else some (m, { worker with task := .unlinking path ifUnused (.scanState (slot + 1)) })
    else some (m, { worker with task := .unlinking path ifUnused .unlink })
  | .scanLength slot =>
    if (m.slots slot).pathLen = path.length then
      some (m, { worker with task := .unlinking path ifUnused (.scanByte slot 0) })
    else some (m, { worker with task := .unlinking path ifUnused (.scanState (slot + 1)) })
  | .scanByte slot index =>
    match path[index]? with
    -- the path is in use: BUSY
    | none => some (m, { worker with task := .resting })
    | some byte =>
      if (m.slots slot).path index = byte then
        some (m, { worker with task := .unlinking path ifUnused (.scanByte slot (index + 1)) })
      else some (m, { worker with task := .unlinking path ifUnused (.scanState (slot + 1)) })
  | .unlink =>
    (m.files.unlinkSync (resolve path)).map fun removed =>
      (m.removed size ifUnused removed.1 removed.2, { worker with task := .resting })

variable (thread : Thread)

/-- `sweep`, `claimSlot` and the rest of `openInternal`. -/
def openStep (m : Shared Thread Name) (worker : Worker) (path : PathBytes) (flags : Flags) :
    OpenStep → Option (Shared Thread Name × Worker)
  | .sweepState [] => some (m, { worker with task := .opening path flags .count })
  | .sweepState ((slot, cached) :: rest) =>
    if (m.slots slot).state = .live then
      some (m, { worker with task := .opening path flags (.sweepGen slot cached rest) })
    else some (m, { task := .opening path flags (.sweepState rest), fds := worker.fds.delete slot })
  | .sweepGen slot cached rest =>
    if (m.slots slot).gen = cached.gen then
      some (m, { worker with task := .opening path flags (.sweepState rest) })
    else some (m, { task := .opening path flags (.sweepState rest), fds := worker.fds.delete slot })
  | .count => some ({ m with cursor := m.cursor + 1 },
      { worker with task := .opening path flags (.exchange (m.cursor.toNat % size.maxHandles) 0) })
  | .exchange start turn =>
    if turn < size.maxHandles then
      let slot := (start + turn) % size.maxHandles
      if (m.slots slot).state = .free then
        some (m.setSlot slot { m.slots slot with
            state := .claiming, holder := some thread, request := path, written := false
            file := none },
          { worker with task := .opening path flags (.loadGen slot) })
      else some (m, { worker with task := .opening path flags (.exchange start (turn + 1)) })
    -- the table is exhausted
    else some (m, { worker with task := .resting })
  | .loadGen slot => some (m, { worker with
      task := .opening path flags (.writePath slot (((m.slots slot).gen + 1) % 2 ^ 8)) })
  | .writePath slot gen => some (m.setSlot slot { m.slots slot with
        path := fun index => (path[index]?).getD ((m.slots slot).path index) },
      { worker with task := .opening path flags (.storeLength slot gen) })
  | .storeLength slot gen => some (m.setSlot slot { m.slots slot with
        pathLen := path.length, written := true },
      { worker with task := .opening path flags (.storeFlags slot gen) })
  | .storeFlags slot gen => some (m.setSlot slot { m.slots slot with flags := flags },
      { worker with task := .opening path flags (.storeGen slot gen) })
  | .storeGen slot gen => some (m.setSlot slot { m.slots slot with
        gen := gen, claims := (m.slots slot).claims + 1 },
      { worker with task := .opening path flags (.openFile slot gen) })
  | .openFile slot gen =>
    (m.files.openSync (resolve path) (flags.has .create) (flags.has .excl)).map fun result =>
      (({ m with files := result.1 }).setSlot slot { m.slots slot with file := some result.2 },
        { worker with task := .opening path flags (.publish slot gen result.2) })
  | .release slot => some (m.setSlot slot { m.slots slot with state := .free, holder := none },
      { worker with task := .resting })
  | .publish slot gen file => some ({ m.setSlot slot { m.slots slot with state := .live, holder := none } with
        opened := m.opened ++ [⟨virtualHandle slot gen, slot, (m.slots slot).claims⟩] },
      ⟨.resting, worker.fds.set slot ⟨gen, file⟩⟩)

def LocalFds.find (fds : LocalFds) (handle : Nat) : Option FileId :=
  (fds.lookup (slotOf handle)).bind fun cached =>
    if cached.gen = genOf handle then some cached.file else none

/-- What comes behind `fdFor`: writers check the flags of the slot first. -/
def behindFd (writes : Bool) (file : FileId) : UseStep :=
  if writes then .checkWrite file else .act file

/-- `fdFor` and the call on the descriptor. -/
def useStep (handle : Nat) (writes : Bool)
    (closedBefore : List Nat) : UseStep → Option (Shared Thread Name × Worker)
  | .loadState =>
    if slotOf handle < size.maxHandles then
      if (m.slots (slotOf handle)).state = .live then
        some (m, { worker with task := .using handle writes closedBefore .loadGen })
      else some (m, ⟨.resting, if (worker.fds.find handle).isSome then
        worker.fds.delete (slotOf handle) else worker.fds⟩)
    else some (m, { worker with task := .resting })
  | .loadGen =>
    if (m.slots (slotOf handle)).gen = genOf handle then
      match worker.fds.find handle with
      | some file =>
        some (m, { worker with task := .using handle writes closedBefore (behindFd writes file) })
      | none => some (m, ⟨.using handle writes closedBefore .loadLength,
          worker.fds.delete (slotOf handle)⟩)
    else some (m, ⟨.resting, if (worker.fds.find handle).isSome then
      worker.fds.delete (slotOf handle) else worker.fds⟩)
  | .loadLength => some (m, { worker with
      task := .using handle writes closedBefore (.loadPath (m.slots (slotOf handle)).pathLen) })
  | .loadPath length => some (m, { worker with
      task := .using handle writes closedBefore
        (.loadFlags ((m.slots (slotOf handle)).pathBytes length)) })
  -- the flags say how the file is opened again, and never create it
  | .loadFlags path =>
    some (m, { worker with task := .using handle writes closedBefore (.openFile path) })
  | .openFile path =>
    (m.files.openSync (resolve path) false false).map fun result =>
      (m, ⟨.using handle writes closedBefore (behindFd writes result.2),
        worker.fds.set (slotOf handle) ⟨genOf handle, result.2⟩⟩)
  | .checkWrite file =>
    if (m.slots (slotOf handle)).flags.has .write then
      some (m, { worker with task := .using handle writes closedBefore (.act file) })
    else some (m, { worker with task := .resting })
  | .act _ => some (m, { worker with task := .resting })

/-- `close` of a handle that is an integer and not negative. -/
def closeStep (m : Shared Thread Name) (worker : Worker) (handle : Nat) :
    CloseStep → Option (Shared Thread Name × Worker)
  | .loadGen =>
    if slotOf handle < size.maxHandles ∧ (m.slots (slotOf handle)).gen = genOf handle then
      some (m, { worker with task := .closing handle .exchange })
    else some (m, { worker with task := .resting })
  | .exchange =>
    if (m.slots (slotOf handle)).state = .live then
      some ({ m.setSlot (slotOf handle)
            { m.slots (slotOf handle) with state := .closing, holder := some thread } with
          closed := m.closed ++
            [⟨handle, slotOf handle, (m.slots (slotOf handle)).claims⟩] },
        { worker with task := .closing handle .loadFlags })
    else some (m, { worker with task := .resting })
  | .loadFlags => some (m, { worker with
      task := .closing handle (.loadLength (m.slots (slotOf handle)).flags) })
  | .loadLength flags => some (m, { worker with
      task := .closing handle (.loadPath flags (m.slots (slotOf handle)).pathLen) })
  | .loadPath flags length => some (m, ⟨.closing handle
        (.free flags ((m.slots (slotOf handle)).pathBytes length)),
      worker.fds.delete (slotOf handle)⟩)
  | .free flags path =>
    some (m.setSlot (slotOf handle)
        { m.slots (slotOf handle) with state := .free, holder := none },
      { worker with
        task := .closing handle (if flags.has .deleteOnClose then .unlink path else .finish) })
  -- the removal is advisory
  | .unlink path => some ({ m with
        files := ((m.files.unlinkSync (resolve path)).map (·.1)).getD m.files },
      { worker with task := .closing handle .finish })
  | .finish => some ({ m with closeReturned := m.closeReturned ++ [handle] },
      { worker with task := .resting })

/-- A file-system call fails: a claimer that cannot open the file, or sync the directory of a new
one, frees its slot; the others return. -/
def failStep : Option (Shared Thread Name × Worker) :=
  match worker.task with
  | .unlinking _ _ .unlink => some (m, { worker with task := .resting })
  | .opening path flags (.openFile slot _) | .opening path flags (.publish slot _ _) =>
    some (m, { worker with task := .opening path flags (.release slot) })
  | .using _ _ _ (.openFile _) => some (m, { worker with task := .resting })
  | .closing handle (.unlink _) => some (m, { worker with task := .closing handle .finish })
  | _ => none

def workerAct (move : WorkerMove) (m : Shared Thread Name) (worker : Worker) :
    Option (Shared Thread Name × Worker) :=
  match move, worker.task with
  | .unlinkCall path ifUnused, .resting =>
    let first : UnlinkStep := if ifUnused then .scanState 0 else .unlink
    some (m, { worker with task := .unlinking path ifUnused first })
  | .openCall path flags, .resting =>
    some (m, { worker with task := .opening path flags (.sweepState worker.fds) })
  | .useCall handle writes, .resting =>
    some (m, { worker with task := .using handle writes m.closeReturned .loadState })
  | .closeCall handle, .resting => some ({ m with closeCalls := m.closeCalls ++ [(thread, handle)] },
      { worker with task := .closing handle .loadGen })
  | .step, .unlinking path ifUnused step => unlinkStep size resolve m worker path ifUnused step
  | .step, .opening path flags step => openStep size resolve thread m worker path flags step
  | .step, .using handle writes closedBefore step =>
    useStep size resolve m worker handle writes closedBefore step
  | .step, .closing handle step => closeStep size resolve thread m worker handle step
  | .fail, _ => failStep m worker
  | _, _ => none

end Steps
end SpaceDataModule.NodeSyncFs

import SpaceDataModule.FlatsqlIo.Contract
import SpaceDataModule.PosixCalls

/-! `createNodeSyncFsIo` on a POSIX host: the path check, `open` with its parents,
and the open a thread makes on first use of another thread's handle. A path is the
list of its components. The shared handle table answers from outside. -/
namespace SpaceDataModule.NodeSyncFs
open Posix FlatsqlIo

/-- What `createNodeSyncFsIo` fixes: `path.resolve` leaves proper components, and
`realRoot` is whatever `fs.realpathSync` answered then. -/
structure Provider where
  rawRoot : List String
  realRoot : List String
  maxPathBytes : Nat
  proper : ∀ name ∈ rawRoot, Proper name

/-- The answers of the handle table during one call: a revoked instance,
`pathInUse`, and the slot and generation of `claimSlot`. -/
structure TableAnswers where
  revoked : Bool := false
  inUse : Bool := false
  claimed : Option (Nat × Nat)

/-- `path.normalize` of an absolute path: there is nothing above the top. -/
def normalizeStep (path : List String) (part : String) : List String :=
  if part = "" ∨ part = "." then path
  else if part = ".." then path.dropLast
  else path ++ [part]

/-- `path.join(base, text)`. -/
def joinPath (base : List String) (text : String) : List String :=
  (base ++ JavaScript.split '/' text).foldl normalizeStep []

/-- `path.dirname` again and again, down to the top. -/
def ancestors (path : List String) : List (List String) := path.inits.reverse

/-- `within(candidate, base)`. -/
def within (candidate base : List String) : Bool := base.isPrefixOf candidate

section Open
variable (links : Nat) (provider : Provider) (realpathSync : List String → Option (List String))

/-- `resolvePath`: the deepest ancestor that `fs.realpathSync` answers for decides.
That is a walk of Node's own over `lstat` and `readlink`, with each target read as
text: it throws on some paths the kernel resolves, and ends elsewhere on others. -/
def resolvePath (relative : String) : Except Int (List String) :=
  let full := joinPath provider.rawRoot relative
  if !within full provider.rawRoot then .error Status.access
  else
    match (ancestors full.dropLast).findSome? realpathSync with
    | none => .ok full
    | some real =>
      if within real provider.realRoot || within real provider.rawRoot then .ok full
      else .error Status.access

/-- The root-relative text of a guest path, or the status that refuses it. -/
def relativePath (bytes : ByteArray) : Except Int String :=
  match decodeFlatsqlIoPath bytes with
  | .error status => .error status
  | .ok decoded =>
    match splitFlatsqlIoPath decoded with
    | .error status => .error status
    | .ok components =>
      let relative := JavaScript.join '/' components
      if provider.maxPathBytes < relative.utf8ByteSize then .error Status.generic
      else .ok relative

def openFlagsFor (flags : Flags) (forReopen : Bool) : OpenMode where
  write := flags.has .write
  create := !forReopen && flags.has .create
  exclusive := !forReopen && flags.has .excl
  truncate := !forReopen && flags.has .trunc

/-- `fs.existsSync`. -/
def existsSync (path : List String) (w : World) : World × Bool :=
  match stat links path w with
  | (w, .ok ()) => (w, true)
  | (w, .error _) => (w, false)

/-- `syncDirectory`: a refused open of the directory is no failure. -/
def syncDirectory (dir : List String) (w : World) : Outcome :=
  match openFile links {} dir w with
  | (w, .error .isDirectory) | (w, .error .access) => (w, .ok ())
  | outcome => outcome

/-- The climbing loop of `ensureParents`; the missing directories, topmost first. -/
def missingParents : List (List String) → World → World × List (List String)
  | [], w => (w, [])
  | probe :: above, w =>
    match existsSync links probe w with
    | (w, true) => (w, [])
    | (w, false) =>
      let climbed := missingParents above w
      (climbed.1, climbed.2 ++ [probe])

/-- The second loop of `ensureParents`. -/
def makeDirectories : List (List String) → World → Outcome
  | [], w => (w, .ok ())
  | dir :: rest, w =>
    if !within dir provider.rawRoot then (w, .error .access)
    else
      match mkdir links dir w with
      | (w, .ok ()) | (w, .error .exist) =>
        Outcome.next (syncDirectory links dir.dropLast w) (makeDirectories rest)
      | (w, .error errno) => (w, .error errno)

def ensureParents (full : List String) (w : World) : Outcome :=
  let climbed := missingParents links (ancestors full.dropLast) w
  makeDirectories links provider climbed.2 climbed.1

def report (value : Int) : Outcome → World × Int
  | (w, .ok ()) => (w, value)
  | (w, .error errno) => (w, statusForError errno)

def probed : Outcome → World × Int
  | (w, .ok ()) => (w, Status.ok)
  | (w, .error _) => (w, Status.noent)

/-- `(slot << 8) | gen`. -/
def handleOf (slot gen : Nat) : Int := (slot <<< 8 ||| gen : Nat)

variable (table : TableAnswers)

/-- The end of `openInternal`: claim a slot, open, and sync the parent of a file
that was not there. -/
def claimAndOpen (flags : Flags) (full : List String)
    (createdFile : Bool) (w : World) : World × Int :=
  match table.claimed with
  | none => (w, Status.generic)
  | some (slot, gen) =>
    report (handleOf slot gen) <| Outcome.next (openFile links (openFlagsFor flags false) full w)
      fun w => if createdFile then syncDirectory links full.dropLast w else (w, .ok ())

def openWithParents (flags : Flags) (full : List String) (w : World) : World × Int :=
  match ensureParents links provider full w with
  | (w, .error errno) => (w, statusForError errno)
  | (w, .ok ()) =>
    let examined := existsSync links full w
    claimAndOpen links table flags full (!examined.2) examined.1

/-- `openInternal` from its first file system call on. -/
def openAdmitted (flags : Flags) (full : List String) (w : World) :
    World × Int :=
  if flags.has .probe then probed (stat links full w)
  else if flags.has (.unlink ||| .unlinkIfUnused) then
    if flags.has .unlinkIfUnused && table.inUse then (w, Status.busy)
    else report Status.ok <| Outcome.next (unlink links full w) (syncDirectory links full.dropLast)
  else if flags.has .create && flags.has .createParents then
    openWithParents links provider table flags full w
  else claimAndOpen links table flags full false w

def openInternal (bytes : ByteArray) (flags : Flags) (w : World) :
    World × Int :=
  match relativePath provider bytes with
  | .error status => (w, status)
  | .ok relative =>
    match resolvePath provider realpathSync relative with
    | .error status => (w, status)
    | .ok full => openAdmitted links provider table flags full w

/-- `open`: `openInternal` under `guarded`. -/
def openPath (bytes : ByteArray) (flags : Flags) (w : World) : World × Int :=
  if table.revoked then (w, Status.access)
  else openInternal links provider realpathSync table bytes flags w

/-- The path `fdFor` opens for a slot: `slotPath` decodes the recorded bytes anew. -/
def reopenedPath (relative : String) : List String :=
  joinPath provider.rawRoot (JavaScript.stripByteOrderMark relative)

/-- `fdFor` in a thread without a descriptor for a live slot. -/
def reopen (relative : String) (flags : Flags) (w : World) : Outcome :=
  openFile links (openFlagsFor flags true) (reopenedPath provider relative) w

end Open

section Lemmas

theorem foldl_normalizeStep {path parts : List String} (proper : ∀ part ∈ parts, Proper part) :
    parts.foldl normalizeStep path = path ++ parts := by
  induction parts generalizing path with
  | nil => rw [List.foldl_nil, List.append_nil]
  | cons part parts ih =>
    obtain ⟨named, notDot, notUp⟩ := proper part List.mem_cons_self
    have step : normalizeStep path part = path ++ [part] := by
      simp [normalizeStep, named, notDot, notUp]
    rw [List.foldl_cons, step, ih fun other member => proper other (List.mem_cons_of_mem _ member),
      List.append_assoc, List.singleton_append]

/-- An accepted guest path is the root followed by proper components. -/
theorem relativePath_ok (accepted : relativePath provider bytes = .ok relative) :
    ∃ parent last, joinPath provider.rawRoot relative = parent ++ [last] ∧
      provider.rawRoot <+: parent ∧ (∀ name ∈ parent, Proper name) ∧ Proper last := by
  unfold relativePath at accepted
  split at accepted
  case h_1 => cases accepted
  case h_2 decoded _ =>
    split at accepted
    case h_1 => cases accepted
    case h_2 components splits =>
      obtain ⟨nonempty, named⟩ := splitFlatsqlIoPath_proper splits
      obtain ⟨parent, last, rfl⟩ := (List.eq_nil_or_concat' components).resolve_left nonempty
      obtain rfl : JavaScript.join '/' (parent ++ [last]) = relative := by
        by_cases long : provider.maxPathBytes < (JavaScript.join '/' (parent ++ [last])).utf8ByteSize
        · simp [long] at accepted
        · simpa [long] using accepted
      have proper : ∀ part ∈ provider.rawRoot ++ parent, Proper part :=
        List.forall_mem_append.mpr ⟨provider.proper, fun part inPath =>
          (named part (List.mem_append_left _ inPath)).1⟩
      have lastProper := (named last (by simp)).1
      refine ⟨provider.rawRoot ++ parent, last, ?_, List.prefix_append .., proper, lastProper⟩
      rw [joinPath, JavaScript.split_join (fun part member => (named part member).2) nonempty,
        ← List.append_assoc, foldl_normalizeStep, List.nil_append]
      exact List.forall_mem_append.mpr ⟨proper, List.forall_mem_singleton.mpr lastProper⟩

@[simp] theorem ancestors_nil : ancestors [] = [[]] := rfl

theorem ancestors_concat (path : List String) (name : String) :
    ancestors (path ++ [name]) = (path ++ [name]) :: ancestors path := by
  simp [ancestors]

end Lemmas

end SpaceDataModule.NodeSyncFs

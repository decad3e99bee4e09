import SpaceDataModule.PosixPaths

/-! The calls a process makes on a tree, with every permission granted. Each call
records the entries it touches, and `Within` says that they all lie below one root. -/
namespace Posix

inductive Access where
  | examined | opened | created | truncated | removed
  deriving DecidableEq

structure Touch where
  access : Access
  location : Location
  deriving DecidableEq

/-- A tree and what was touched in it so far. -/
structure World where
  fs : FileSystem
  touched : List Touch

abbrev Outcome := World × Except Errno Unit

def World.touch (w : World) (access : Access) (location : Location) : World :=
  { w with touched := w.touched ++ [⟨access, location⟩] }

def World.create (w : World) (dir : Location) (name : String) (entry : Entry) : World :=
  { w with fs := w.fs.add dir name entry }.touch .created (dir ++ [name])

def Outcome.next (outcome : Outcome) (proceed : World → Outcome) : Outcome :=
  match outcome with
  | (w, .ok ()) => proceed w
  | (w, .error errno) => (w, .error errno)

def Lookup.place : Lookup → Option Location
  | .found location => some location
  | .missing dir name => some (dir ++ [name])
  | .failed _ => none

/-- The flags of `open`; reading needs none. -/
structure OpenMode where
  write : Bool := false
  create : Bool := false
  exclusive : Bool := false
  truncate : Bool := false

/-- What no directory may be opened for. -/
def OpenMode.changes (mode : OpenMode) : Bool := mode.write || mode.create || mode.truncate

section Calls
variable (links : Nat)

/-- The directory and the name a path ends in. The name is not followed. -/
def locate (fs : FileSystem) (path : List String) : Except Errno (Location × String) :=
  match resolve fs links [] path.dropLast, path.getLast? with
  | .found dir, some name =>
    if fs.entry dir = some .directory then .ok (dir, name) else .error .notDirectory
  | .found _, none => .error .exist
  | .missing _ _, _ => .error .noEntry
  | .failed errno, _ => .error errno

variable (path : List String)

def stat (w : World) : Outcome :=
  match resolve w.fs links [] path with
  | .found location => (w.touch .examined location, .ok ())
  | .missing _ _ => (w, .error .noEntry)
  | .failed errno => (w, .error errno)

def mkdir (w : World) : Outcome :=
  match locate links w.fs path with
  | .error errno => (w, .error errno)
  | .ok (dir, name) =>
    if w.fs.entry (dir ++ [name]) = none then (w.create dir name .directory, .ok ())
    else (w, .error .exist)

def unlink (w : World) : Outcome :=
  match locate links w.fs path with
  | .error errno => (w, .error errno)
  | .ok (dir, name) =>
    match w.fs.entry (dir ++ [name]) with
    | none => (w, .error .noEntry)
    | some .directory => (w, .error .isDirectory)
    | some _ =>
      ({ w with fs := w.fs.remove (dir ++ [name]) }.touch .removed (dir ++ [name]), .ok ())

/-- An exclusive creation does not follow the last name; any other open does,
and creates the file a dangling link points to. -/
def openFile (mode : OpenMode) (path : List String) (w : World) : Outcome :=
  if mode.create && mode.exclusive then
    match locate links w.fs path with
    | .error errno => (w, .error errno)
    | .ok (dir, name) =>
      if w.fs.entry (dir ++ [name]) = none then (w.create dir name .file, .ok ())
      else (w, .error .exist)
  else
    match resolve w.fs links [] path with
    | .failed errno => (w, .error errno)
    | .missing dir name =>
      if mode.create then (w.create dir name .file, .ok ()) else (w, .error .noEntry)
    | .found location =>
      if w.fs.entry location = some .directory ∧ mode.changes then (w, .error .isDirectory)
      else if mode.truncate then
        ((w.touch .truncated location).touch .opened location, .ok ())
      else (w.touch .opened location, .ok ())

/-- The entry an open in this mode touches. -/
def OpenMode.touches (fs : FileSystem) (mode : OpenMode) (path : List String) : Option Location :=
  if mode.create && mode.exclusive then
    match locate links fs path with
    | .error _ => none
    | .ok (dir, name) => if fs.entry (dir ++ [name]) = none then some (dir ++ [name]) else none
  else
    match resolve fs links [] path with
    | .failed _ => none
    | .missing dir name => if mode.create then some (dir ++ [name]) else none
    | .found location =>
      if fs.entry location = some .directory ∧ mode.changes then none else some location

/-- The entry a removal takes away. -/
def removes (fs : FileSystem) (path : List String) : Option Location :=
  match locate links fs path with
  | .error _ => none
  | .ok (dir, name) =>
    match fs.entry (dir ++ [name]) with
    | none | some .directory => none
    | some _ => some (dir ++ [name])

end Calls

section Confinement
variable {w : World}

def Within (root : Location) (w : World) : Prop := ∀ touch ∈ w.touched, root <+: touch.location

theorem within_touch :
    Within root (w.touch access location) ↔ Within root w ∧ root <+: location := by
  simp [Within, World.touch, or_imp, forall_and]

theorem within_create :
    Within root (w.create dir name entry) ↔ Within root w ∧ root <+: dir ++ [name] := by
  rw [World.create, within_touch]
  rfl

@[simp] theorem touch_fs (access : Access) (location : Location) :
    (w.touch access location).fs = w.fs := rfl

theorem sub_create (dir : Location) (name : String) (entry : Entry) :
    w.fs.Sub (w.create dir name entry).fs := w.fs.sub_add dir name entry

/-- Where a located name stands. -/
theorem locate_ok (located : locate links fs (path ++ [name]) = .ok place) :
    realpath fs links path = some place.1 ∧ place.2 = name := by
  rw [realpath_eq_some]
  simp only [locate, List.dropLast_concat, List.getLast?_concat] at located
  split at located
  case h_1 found last =>
    split at located
    case isTrue =>
      cases located
      exact ⟨found, (Option.some.inj last).symm⟩
    case isFalse => cases located
  all_goals cases located

/-- The end of the lookup of `path/name`, or the name itself in its directory. -/
def Offered (links : Nat) (fs : FileSystem) (path : List String) (name : String)
    (location : Location) : Prop :=
  (resolve fs links [] (path ++ [name])).place = some location ∨
    ∃ dir, realpath fs links path = some dir ∧ location = dir ++ [name]

theorem offered_of_real (real : realpath fs links (path ++ [name]) = some location) :
    Offered links fs path name location := by
  rw [realpath_eq_some] at real
  exact .inl (by rw [real]; rfl)

theorem offered_of_touches
    (touched : OpenMode.touches links fs mode (path ++ [name]) = some location) :
    Offered links fs path name location := by
  unfold OpenMode.touches at touched
  split at touched
  · right
    cases located : locate links fs (path ++ [name]) with
    | error errno => simp [located] at touched
    | ok place =>
      obtain ⟨real, same⟩ := locate_ok located
      simp only [located, same, Option.ite_none_right_eq_some, Option.some.injEq] at touched
      exact ⟨place.1, real, touched.2.symm⟩
  · left
    cases lookup : resolve fs links [] (path ++ [name]) with
    | failed errno => simp [lookup] at touched
    | missing dir last =>
      simp only [lookup, Option.ite_none_right_eq_some] at touched
      exact touched.2
    | found there =>
      simp only [lookup, Option.ite_none_left_eq_some] at touched
      exact touched.2

theorem offered_of_removes (removed : removes links fs (path ++ [name]) = some location) :
    Offered links fs path name location := by
  unfold removes at removed
  cases located : locate links fs (path ++ [name]) with
  | error errno => simp [located] at removed
  | ok place =>
    obtain ⟨real, same⟩ := locate_ok located
    refine .inr ⟨place.1, real, ?_⟩
    rw [located] at removed
    dsimp only at removed
    split at removed
    · cases removed
    · cases removed
    · exact same ▸ (Option.some.inj removed).symm

theorem next_within_iff {outcome : Outcome}
    (second : outcome.2 = .ok () →
      (Within root (proceed outcome.1).1 ↔ Within root outcome.1)) :
    Within root (outcome.next proceed).1 ↔ Within root outcome.1 := by
  obtain ⟨w, result⟩ := outcome
  cases result with
  | error errno => exact Iff.rfl
  | ok _ => exact second rfl

@[simp] theorem stat_fs : (stat links path w).1.fs = w.fs := by
  unfold stat
  split <;> rfl

theorem stat_eq_of_real (real : realpath w.fs links path = some location) :
    stat links path w = (w.touch .examined location, .ok ()) := by
  rw [realpath_eq_some] at real
  simp [stat, real]

theorem stat_of_unreal (unreal : realpath w.fs links path = none) :
    ∃ errno, stat links path w = (w, .error errno) := by
  unfold realpath at unreal
  unfold stat
  split at unreal
  case h_1 => cases unreal
  case h_2 notFound =>
    split
    case h_1 location found => exact (notFound location found).elim
    case h_2 => exact ⟨_, rfl⟩
    case h_3 => exact ⟨_, rfl⟩

theorem stat_within_iff : Within root (stat links path w).1 ↔
    Within root w ∧ ∀ location ∈ realpath w.fs links path, root <+: location := by
  unfold stat realpath
  cases resolve w.fs links [] path with
  | found location => simp [within_touch]
  | missing dir name => simp
  | failed errno => simp

theorem unlink_within_iff : Within root (unlink links path w).1 ↔
    Within root w ∧ ∀ location ∈ removes links w.fs path, root <+: location := by
  unfold unlink removes
  cases locate links w.fs path with
  | error errno => simp
  | ok place =>
    match present : w.fs.entry (place.1 ++ [place.2]) with
    | none => simp [present]
    | some .directory => simp [present]
    | some .file | some (.link _ _) =>
      simp only [present, within_touch, Option.mem_some_iff, forall_eq']
      rfl

/-- What was removed stood in the directory the path ends in. -/
theorem unlink_ok (done : (unlink links (path ++ [name]) w).2 = .ok ()) :
    ∃ dir, realpath w.fs links path = some dir ∧
      removes links w.fs (path ++ [name]) = some (dir ++ [name]) ∧
      w.fs.entry (dir ++ [name]) ≠ some .directory := by
  unfold unlink at done
  cases located : locate links w.fs (path ++ [name]) with
  | error errno => simp [located] at done
  | ok place =>
    obtain ⟨dir, last⟩ := place
    obtain ⟨real, rfl⟩ := locate_ok located
    refine ⟨dir, real, ?_⟩
    dsimp only at located ⊢
    match present : w.fs.entry (dir ++ [last]) with
    | none => simp [located, present] at done
    | some .directory => simp [located, present] at done
    | some .file | some (.link _ _) => simp [removes, located, present]

theorem unlink_sub : (unlink links path w).1.fs.Sub w.fs := by
  unfold unlink
  split
  case h_1 => exact fun _ _ present => present
  case h_2 dir name located =>
    split
    case h_1 => exact fun _ _ present => present
    case h_2 => exact fun _ _ present => present
    case h_3 => exact w.fs.remove_sub _

theorem openFile_within_iff : Within root (openFile links mode path w).1 ↔
    Within root w ∧ ∀ location ∈ mode.touches links w.fs path, root <+: location := by
  unfold openFile OpenMode.touches
  split
  · cases locate links w.fs path with
    | error errno => simp
    | ok place =>
      dsimp only
      split
      · simp [within_create]
      · simp
  · cases resolve w.fs links [] path with
    | failed errno => simp
    | missing dir name =>
      dsimp only
      split
      · simp [within_create]
      · simp
    | found location =>
      dsimp only
      split
      · simp
      · split <;> simp [within_touch]

theorem sub_openFile : w.fs.Sub (openFile links mode path w).1.fs := by
  have same : w.fs.Sub w.fs := fun _ _ present => present
  unfold openFile
  split
  case isTrue =>
    split
    case h_1 => exact same
    case h_2 =>
      split
      case isTrue => exact sub_create _ _ _
      case isFalse => exact same
  case isFalse =>
    split
    case h_1 => exact same
    case h_2 =>
      split
      case isTrue => exact sub_create _ _ _
      case isFalse => exact same
    case h_3 =>
      split
      case isTrue => exact same
      case isFalse =>
        split
        case isTrue => exact same
        case isFalse => exact same

/-- Nothing is opened or created under a path that names nothing. -/
theorem openFile_of_unreal (unreal : realpath w.fs links path = none) (name : String) :
    (openFile links mode (path ++ [name]) w).1 = w := by
  unfold openFile
  split
  case isTrue =>
    cases located : locate links w.fs (path ++ [name]) with
    | error errno => rfl
    | ok place =>
      have parent := (locate_ok located).1
      rw [unreal] at parent
      cases parent
  case isFalse =>
    obtain ⟨errno, failed⟩ := resolve_past_none unreal [name] (by simp)
    rw [failed]

/-- An open leaves the path of its parent as it was. -/
theorem realpath_openFile :
    realpath (openFile links mode (path ++ [name]) w).1.fs links path =
      realpath w.fs links path := by
  cases real : realpath w.fs links path with
  | none => rw [openFile_of_unreal real, real]
  | some dir => exact realpath_mono sub_openFile real

end Confinement

end Posix

import Mathlib.Data.List.AList
import SpaceDataModule.ByteFiles
import SpaceDataModule.FlatsqlIo.Contract

/-! The in-memory backend: which paths are files and which are directories, and what an open does
to a file that is there. A path is the list of the components that the source joins; as
`splitFlatsqlIoPath` yields them, joining is injective. -/
namespace SpaceDataModule.FlatsqlIo
open ByteFiles (Bytes)

structure MemoryFile where
  bytes : Bytes := []
  length : Nat := 0

def MemoryFile.content (file : MemoryFile) : Bytes := file.bytes.take file.length

structure Memory (Name : Type) where
  files : AList fun _ : List Name => MemoryFile := ∅
  directories : List (List Name) := [[]]
  allocated : Nat := 0

inductive MemoryCall (Name : Type) where
  | openFile (components : List Name) (flags : Flags)
  | remove (path : List Name)
  | reset

section Calls
variable {Name : Type}

def parents (components : List Name) : List (List Name) :=
  (List.range' 1 (components.length - 1)).map components.take

namespace Memory
variable [DecidableEq Name] (m : Memory Name) (path components : List Name) (flags : Flags)

def MakesParents : Prop :=
  components.dropLast ∉ m.directories ∧ flags.has .createParents ∧ flags.has .create

instance : Decidable (m.MakesParents components flags) := inferInstanceAs (Decidable (_ ∧ _))

def emptied (file : MemoryFile) : Memory Name :=
  { m with files := m.files.insert path { file with length := 0 } }

/-- The rest of `openFile`, once the parent is there. -/
def openBelow : Int × Memory Name :=
  if path ∈ m.directories then (Status.access, m)
  else
    match m.files.lookup path with
    | some file =>
      if flags.has .excl then (Status.generic, m)
      else if flags.has .trunc then
        (Status.ok, m.emptied path file)
      else (Status.ok, m)
    | none =>
      if flags.has .create then (Status.ok, { m with files := m.files.insert path {} })
      else (Status.noent, m)

/-- The status of a call that throws is negative. -/
def openFile : Int × Memory Name :=
  if m.MakesParents components flags then
    openBelow { m with directories := m.directories ++ parents components } components flags
  else if components.dropLast ∈ m.directories then m.openBelow components flags
  else (Status.noent, m)

def remove : Int × Memory Name :=
  match m.files.lookup path with
  | some file => (Status.ok, { m with
      files := m.files.erase path
      allocated := m.allocated - file.bytes.length })
  | none => (Status.noent, m)

def call : MemoryCall Name → Int × Memory Name
  | .openFile components flags => m.openFile components flags
  | .remove path => m.remove path
  | .reset => (Status.ok, {})

/-- `stepOpen` of the server over this backend, where other handles hold the file open or
do not. The status of an open that yields a handle is zero. -/
def stepOpen (held : Bool) : Int × Memory Name :=
  if flags.has .probe then
    (if held ∨ path ∈ m.files ∨ path ∈ m.directories then Status.ok else Status.noent, m)
  else if flags.has (.unlink ||| .unlinkIfUnused) then
    if held then (Status.busy, m) else m.remove path
  else if held then
    if flags.has .excl then (Status.generic, m)
    else if flags.has .trunc && flags.has .write then
      match m.files.lookup path with
      | some file => (Status.ok, m.emptied path file)
      | none => (Status.noent, m)
    else (Status.ok, m)
  else if flags.has .openDeferred then (Status.ok, (m.openFile path flags).2)
  else m.openFile path flags

def contentAt : Option Bytes := (m.files.lookup path).map MemoryFile.content

end Memory

def afterCalls [DecidableEq Name] (calls : List (MemoryCall Name)) : Memory Name :=
  calls.foldl (fun m call => (m.call call).2) {}

end Calls

section Trees
variable {Name : Type} [DecidableEq Name] {m : Memory Name}

/-- No path is both a file and a directory, and what is above a file is a directory. -/
structure Tree (m : Memory Name) : Prop where
  apart : ∀ path ∈ m.files, path ∉ m.directories
  above : ∀ path ∈ m.files, ∀ dir, dir <+: path → dir ≠ path → dir ∈ m.directories

def MemoryCall.Clear (m : Memory Name) : MemoryCall Name → Prop
  | .openFile components flags =>
    m.MakesParents components flags → ∀ dir ∈ parents components, dir ∉ m.files
  | _ => True

/-- What is there is below a directory. -/
structure Founded (m : Memory Name) : Prop where
  root : [] ∈ m.directories
  files : ∀ path ∈ m.files, path.dropLast ∈ m.directories
  dirs : ∀ path ∈ m.directories, path.dropLast ∈ m.directories

structure Rooted (m : Memory Name) : Prop extends Founded m where
  apart : ∀ path ∈ m.files, path ∉ m.directories

section
omit [DecidableEq Name]

theorem Rooted.empty : Rooted ({} : Memory Name) where
  root := List.mem_singleton_self _
  files _ file := absurd file (AList.notMem_empty _)
  dirs := by simp
  apart _ file := absurd file (AList.notMem_empty _)

theorem Rooted.above (rooted : Rooted m) (within : dir <+: path) (there : path ∈ m.directories) :
    dir ∈ m.directories := by
  induction path using List.reverseRecOn with
  | nil => rwa [List.prefix_nil.mp within]
  | append_singleton path last ih =>
    rcases List.prefix_concat_iff.mp within with rfl | within
    · exact there
    · have parent := rooted.dirs _ there
      rw [List.dropLast_concat] at parent
      exact ih within parent

theorem Rooted.tree (rooted : Rooted m) : Tree m where
  apart := rooted.apart
  above path file dir within other := by
    have parent := rooted.files path file
    rcases List.eq_nil_or_concat' path with rfl | ⟨front, last, rfl⟩
    · exact absurd (List.prefix_nil.mp within) other
    · rw [List.dropLast_concat] at parent
      exact rooted.above ((List.prefix_concat_iff.mp within).resolve_left other) parent

/-- With the parents of a path that has none. -/
theorem Founded.parents (founded : Founded m) (missing : components.dropLast ∉ m.directories) :
    Founded { m with directories := m.directories ++ parents components } ∧
      components.dropLast ∈ parents components := by
  constructor
  · refine ⟨List.mem_append_left _ founded.root,
      fun path file => List.mem_append_left _ (founded.files path file), fun path dir => ?_⟩
    rcases List.mem_append.mp dir with old | new
    · exact List.mem_append_left _ (founded.dirs path old)
    · obtain ⟨count, within, rfl⟩ := List.mem_map.mp new
      rw [List.mem_range'_1] at within
      rw [List.dropLast_take (by omega)]
      by_cases first : count = 1
      · rw [first]
        exact List.mem_append_left _ founded.root
      · exact List.mem_append_right _
          (List.mem_map.mpr ⟨count - 1, List.mem_range'_1.mpr (by omega), rfl⟩)
  · rw [List.dropLast_eq_take] at missing ⊢
    refine List.mem_map.mpr ⟨_, List.mem_range'_1.mpr ⟨?_, by omega⟩, rfl⟩
    by_contra short
    rw [Nat.lt_one_iff.mp (Nat.lt_of_not_le short)] at missing
    exact missing founded.root

theorem notMem_parents (components : List Name) : components ∉ parents components := by
  intro listed
  obtain ⟨count, within, same⟩ := List.mem_map.mp listed
  have := congrArg List.length same
  rw [List.length_take] at this
  rw [List.mem_range'_1] at within
  omega

end

/-- An open leaves all as it is, or stores a file at a path that is no directory. -/
theorem openBelow_cases (m : Memory Name) (path : List Name) (flags : Flags) :
    (m.openBelow path flags).2 = m ∧ ((m.openBelow path flags).1 < 0 →
        path ∈ m.directories ∨ path ∈ m.files ∨ flags.has .create = false) ∨
      path ∉ m.directories ∧ (m.openBelow path flags).1 = Status.ok ∧
        ∃ file, (m.openBelow path flags).2 = { m with files := m.files.insert path file } := by
  rw [Memory.openBelow]
  by_cases dir : path ∈ m.directories
  · rw [if_pos dir]
    exact .inl ⟨rfl, fun _ => .inl dir⟩
  · rw [if_neg dir]
    cases found : m.files.lookup path with
    | some file =>
      have there : path ∈ m.files := AList.lookup_isSome.mp (by rw [found]; rfl)
      dsimp only
      split_ifs
      · exact .inl ⟨rfl, fun _ => .inr (.inl there)⟩
      · exact .inr ⟨dir, rfl, _, rfl⟩
      · exact .inl ⟨rfl, fun _ => .inr (.inl there)⟩
    | none =>
      dsimp only
      split_ifs with create
      · exact .inr ⟨dir, rfl, _, rfl⟩
      · exact .inl ⟨rfl, fun _ => .inr (.inr (Bool.eq_false_iff.mpr create))⟩

theorem openBelow_founded (founded : Founded m) (parent : path.dropLast ∈ m.directories) :
    Founded (m.openBelow path flags).2 := by
  rcases openBelow_cases m path flags with ⟨same, _⟩ | ⟨_, _, file, stored⟩
  · rwa [same]
  · rw [stored]
    refine ⟨founded.root, ?_, founded.dirs⟩
    intro other there
    rcases (AList.mem_insert _).mp there with rfl | before
    · exact parent
    · exact founded.files other before

theorem call_founded (founded : Founded m) : Founded (m.call call).2 := by
  cases call with
  | openFile components flags =>
    simp only [Memory.call, Memory.openFile]
    split_ifs with makes parent
    · obtain ⟨later, made⟩ := founded.parents makes.1
      exact openBelow_founded later (List.mem_append_right _ made)
    · exact openBelow_founded founded parent
    · exact founded
  | remove path =>
    simp only [Memory.call, Memory.remove]
    split
    · exact ⟨founded.root, fun other file => founded.files other (AList.mem_erase.mp file).2,
        founded.dirs⟩
    · exact founded
  | reset => exact Rooted.empty.toFounded

theorem openBelow_apart (apart : ∀ path ∈ m.files, path ∉ m.directories) :
    ∀ other ∈ (m.openBelow path flags).2.files, other ∉ (m.openBelow path flags).2.directories := by
  rcases openBelow_cases m path flags with ⟨same, _⟩ | ⟨free, _, file, stored⟩
  · rwa [same]
  · rw [stored]
    intro other there
    rcases (AList.mem_insert _).mp there with rfl | before
    · exact free
    · exact apart other before

/-- A call that throws has done nothing, and the others keep the tree. -/
theorem call_rooted (rooted : Rooted m) (clear : call.Clear m) :
    Rooted (m.call call).2 ∧ ((m.call call).1 < 0 → (m.call call).2 = m) := by
  rw [show Rooted (m.call call).2 ↔ ∀ path ∈ (m.call call).2.files,
    path ∉ (m.call call).2.directories from ⟨Rooted.apart, .mk (call_founded rooted.toFounded)⟩]
  cases call with
  | openFile components flags =>
    simp only [Memory.call, Memory.openFile]
    split_ifs with makes parent
    · refine ⟨openBelow_apart fun path file dir => (List.mem_append.mp dir).elim
        (rooted.apart path file) (clear makes path · file), fun refused => ?_⟩
      rcases openBelow_cases _ components flags with ⟨_, why⟩ | ⟨_, ok, _⟩
      · rcases why refused with dir | file | uncreated
        · rcases List.mem_append.mp dir with old | new
          · exact absurd (rooted.dirs _ old) makes.1
          · exact absurd new (notMem_parents components)
        · exact absurd (rooted.files _ file) makes.1
        · exact absurd makes.2.2 (Bool.eq_false_iff.mp uncreated)
      · rw [ok] at refused
        exact absurd refused (Int.lt_irrefl 0)
    · refine ⟨openBelow_apart rooted.apart, fun refused => ?_⟩
      rcases openBelow_cases m components flags with ⟨same, _⟩ | ⟨_, ok, _⟩
      · exact same
      · rw [ok] at refused
        exact absurd refused (Int.lt_irrefl 0)
    · exact ⟨rooted.apart, fun _ => rfl⟩
  | remove path =>
    simp only [Memory.call, Memory.remove]
    split
    · exact ⟨fun other file => rooted.apart other (AList.mem_erase.mp file).2,
        fun refused => absurd refused (Int.lt_irrefl 0)⟩
    · exact ⟨rooted.apart, fun _ => rfl⟩
  | reset =>
    exact ⟨Rooted.empty.apart, fun refused => absurd refused (Int.lt_irrefl 0)⟩

/-- An open that makes a parent of a file leaves it both a file and a directory. -/
theorem clear_of_tree (tree : Tree (m.call call).2) : call.Clear m := by
  cases call with
  | remove path | reset => trivial
  | openFile components flags =>
    intro makes dir listed file
    simp only [Memory.call, Memory.openFile, if_pos makes] at tree
    rcases openBelow_cases { m with directories := m.directories ++ parents components }
      components flags with ⟨same, _⟩ | ⟨_, _, _, stored⟩
    · rw [same] at tree
      exact tree.apart dir file (List.mem_append_right _ listed)
    · rw [stored] at tree
      exact tree.apart dir ((AList.mem_insert _).mpr (.inr file)) (List.mem_append_right _ listed)

theorem afterCalls_rooted {calls : List (MemoryCall Name)}
    (clear : ∀ front call, front ++ [call] <+: calls → call.Clear (afterCalls front)) :
    Rooted (afterCalls calls) := by
  induction calls using List.reverseRecOn with
  | nil => exact .empty
  | append_singleton calls call ih =>
    rw [afterCalls, List.foldl_concat]
    exact (call_rooted (ih fun front call within =>
      clear front call (within.trans (List.prefix_append _ _))) (clear _ _ List.prefix_rfl)).1

theorem memory_tree_iff (calls : List (MemoryCall Name)) :
    (∀ front call, front ++ [call] <+: calls →
      Tree (afterCalls (front ++ [call])) ∧
        (((afterCalls front).call call).1 < 0 → afterCalls (front ++ [call]) = afterCalls front)) ↔
      ∀ front call, front ++ [call] <+: calls → call.Clear (afterCalls front) := by
  simp only [afterCalls, List.foldl_concat]
  constructor
  · intro trees front call within
    exact clear_of_tree (trees front call within).1
  · intro clear front call within
    have rooted : Rooted (afterCalls front) := afterCalls_rooted fun before call earlier =>
      clear before call (earlier.trans ((List.prefix_append _ _).trans within))
    have after := call_rooted rooted (clear front call within)
    exact ⟨after.1.tree, after.2⟩

/-- A file is opened below another file. -/
theorem file_becomes_directory :
    ["a"] ∈ (afterCalls [.openFile ["a"] .create,
        .openFile ["a", "b"] (.create ||| .createParents)]).files ∧
      ["a"] ∈ (afterCalls [.openFile ["a"] .create,
        .openFile ["a", "b"] (.create ||| .createParents)]).directories := by
  decide

end Trees

section Reopening
variable {Name : Type} [DecidableEq Name] {m : Memory Name}

/-- The memories of whole runs. A handle of a file that is there may store any bytes. -/
inductive Reached : Memory Name → Prop where
  | start : Reached {}
  | call {old : Memory Name} (before : Reached old) (call : MemoryCall Name) :
      Reached (old.call call).2
  | stored {old : Memory Name} (before : Reached old) (there : path ∈ old.files)
      (file : MemoryFile) : Reached { old with files := old.files.insert path file }

theorem Reached.founded (reached : Reached m) : Founded m := by
  induction reached with
  | start => exact Rooted.empty.toFounded
  | call _ _ founded => exact call_founded founded
  | stored _ there file founded =>
    refine ⟨founded.root, ?_, founded.dirs⟩
    intro other member
    rcases (AList.mem_insert _).mp member with rfl | before
    · exact founded.files other there
    · exact founded.files other before

/-- The server and the backend agree on an open of a file with some content. -/
def Flags.Uniform (flags : Flags) (directory : Prop) (content : Bytes) : Prop :=
  flags.has .probe ∨ ¬ flags.has (.unlink ||| .unlinkIfUnused) ∧
    if flags.has .excl then ¬ flags.has .openDeferred ∧ ¬ directory
    else (flags.has .openDeferred ∨ ¬ directory) ∧
      (flags.has .trunc → (¬ directory ↔ flags.has .write) ∨ content = [])

/-- They agree on an open of a path that is no file, as one that was reset under its
handles; `creates` is whether a fresh open makes the file. -/
def Flags.UniformGone (flags : Flags) (directory creates : Prop) : Prop :=
  if flags.has .probe then directory
  else ¬ flags.has (.unlink ||| .unlinkIfUnused) ∧ ¬ flags.has .excl ∧ ¬ creates ∧
    if flags.has .trunc ∧ flags.has .write then ¬ flags.has .openDeferred ∧ ¬ directory
    else flags.has .openDeferred

def Memory.Creates (m : Memory Name) (path : List Name) (flags : Flags) : Prop :=
  flags.has .create ∧ path ∉ m.directories ∧
    (path.dropLast ∈ m.directories ∨ flags.has .createParents)

def Memory.Uniform (m : Memory Name) (path : List Name) (flags : Flags) : Prop :=
  match m.files.lookup path with
  | some file => flags.Uniform (path ∈ m.directories) file.content
  | none => flags.UniformGone (path ∈ m.directories) (m.Creates path flags)

theorem openFile_there (founded : Founded m) (there : m.files.lookup path = some file) :
    m.openFile path flags = m.openBelow path flags := by
  have parent := founded.files path (AList.lookup_isSome.mp (by rw [there]; rfl))
  rw [Memory.openFile, if_neg (fun makes => makes.1 parent), if_pos parent]

/-- A fresh open of a path that is no file. -/
theorem openFile_gone (founded : Founded m) (gone : m.files.lookup path = none) (flags : Flags) :
    (m.Creates path flags → (m.openFile path flags).1 = Status.ok ∧
      (m.openFile path flags).2.contentAt path = some []) ∧
    (¬ m.Creates path flags → (m.openFile path flags).1 =
        (if path ∈ m.directories then Status.access else Status.noent) ∧
      (m.openFile path flags).2.contentAt path = none) := by
  have fresh := notMem_parents path
  have above := founded.dirs path
  simp only [Memory.openFile, Memory.MakesParents, Memory.openBelow, Memory.Creates,
    Memory.contentAt, gone, List.mem_append]
  by_cases create : flags.has .create <;> split_ifs <;> simp_all [MemoryFile.content]

def oneFile : Memory String := { files := AList.singleton ["a"] ⟨[7], 1⟩ }

theorem oneFile_reached : Reached oneFile :=
  (Reached.call .start (.openFile ["a"] .create)).stored (show ["a"] ∈ _ by decide) ⟨[7], 1⟩

end Reopening
end SpaceDataModule.FlatsqlIo

import Mathlib.Data.List.Infix
import Mathlib.Data.List.Induction
import Mathlib.Logic.Function.Basic

/-! Path resolution over a tree with symbolic links. Locations are real: they name
entries by directories only. A path may pass links; resolution follows a bounded
number of them. -/
namespace Posix

/-- The components of a real path below the top directory. -/
abbrev Location := List String

inductive Entry where
  | file | directory
  | link (absolute : Bool) (target : List String)
  deriving DecidableEq

/-- A tree: whatever has a name stands in a directory. -/
structure FileSystem where
  entry : Location → Option Entry
  top : entry [] = some .directory
  parents : ∀ dir name, entry (dir ++ [name]) ≠ none → entry dir = some .directory

inductive Errno where
  | noEntry | notDirectory | loop | exist | isDirectory | access
  deriving DecidableEq

/-- Where a path leads: to an entry, to a free name in a directory, or nowhere. -/
inductive Lookup where
  | found (location : Location)
  | missing (dir : Location) (name : String)
  | failed (errno : Errno)
  deriving DecidableEq

/-- Neither empty nor a dot name. -/
def Proper (name : String) : Prop := name ≠ "" ∧ name ≠ "." ∧ name ≠ ".."
  deriving Decidable

namespace FileSystem

/-- The tree of a table that lists every directory it uses. -/
def ofEntries (entries : List (Location × Entry))
    (rooted : ∀ row ∈ entries, row.1 ≠ [] ∧
      (row.1.dropLast = [] ∨ entries.lookup row.1.dropLast = some .directory)) : FileSystem where
  entry location := if location = [] then some .directory else entries.lookup location
  top := rfl
  parents dir name present := by
    simp only [List.append_eq_nil_iff, List.cons_ne_self, and_false, if_false] at present
    obtain ⟨entry, listed⟩ := Option.ne_none_iff_exists'.mp present
    obtain ⟨front, back, table, _⟩ := List.lookup_eq_some_iff.mp listed
    have parent := (rooted (dir ++ [name], entry) (by simp [table])).2
    rw [List.dropLast_concat] at parent
    by_cases empty : dir = []
    · rw [if_pos empty]
    · rw [if_neg empty]
      exact parent.resolve_left empty

variable (fs : FileSystem)

/-- A new entry under a free name of a directory. -/
def add (dir : Location) (name : String) (entry : Entry) : FileSystem :=
  if free : fs.entry dir = some .directory ∧ fs.entry (dir ++ [name]) = none then
    { entry := Function.update fs.entry (dir ++ [name]) (some entry)
      top := by rw [Function.update_of_ne (by simp), fs.top]
      parents := by
        intro parent child present
        by_cases same : parent = dir ++ [name]
        · -- a free name has nothing below it
          subst same
          rw [Function.update_of_ne (by simp)] at present
          exact absurd (fs.parents _ _ present) (by simp [free.2])
        · rw [Function.update_of_ne same]
          by_cases here : parent ++ [child] = dir ++ [name]
          · rw [(List.append_inj' here rfl).1, free.1]
          · rw [Function.update_of_ne here] at present
            exact fs.parents _ _ present }
  else fs

def remove (location : Location) : FileSystem :=
  if plain : fs.entry location ≠ some .directory then
    { entry := Function.update fs.entry location none
      top := by
        rw [Function.update_of_ne, fs.top]
        rintro rfl
        exact plain fs.top
      parents := by
        intro parent child present
        have before : fs.entry (parent ++ [child]) ≠ none := by
          intro gone
          by_cases here : parent ++ [child] = location
          · simp [here] at present
          · exact present (by rw [Function.update_of_ne here, gone])
        have directory := fs.parents _ _ before
        rwa [Function.update_of_ne]
        rintro rfl
        exact plain directory }
  else fs

def Sub (smaller larger : FileSystem) : Prop :=
  ∀ location entry, smaller.entry location = some entry → larger.entry location = some entry

theorem sub_add (dir : Location) (name : String) (entry : Entry) : fs.Sub (fs.add dir name entry) := by
  intro location old present
  unfold add
  split
  case isTrue free =>
    have other : location ≠ dir ++ [name] := by
      rintro rfl
      simp [free.2] at present
    simpa only [Function.update_of_ne other] using present
  case isFalse => exact present

theorem remove_sub (location : Location) : (fs.remove location).Sub fs := by
  intro other entry present
  unfold remove at present
  split at present
  case isTrue =>
    by_cases same : other = location
    · simp [same] at present
    · simpa only [Function.update_of_ne same] using present
  case isFalse => exact present

end FileSystem

section Resolution
variable (fs : FileSystem)

/-- Walk along the components of a path; `follow` goes on at a link. -/
def walk (follow : Location → List String → Lookup) : Location → List String → Lookup
  | here, [] => .found here
  | here, name :: rest =>
    if fs.entry here ≠ some .directory then .failed .notDirectory
    else if name = "" ∨ name = "." then walk follow here rest
    else if name = ".." then walk follow here.dropLast rest
    else
      match fs.entry (here ++ [name]) with
      | none => if rest = [] then .missing here name else .failed .noEntry
      | some (.link absolute target) => follow (if absolute then [] else here) (target ++ rest)
      | some .file | some .directory => walk follow (here ++ [name]) rest

/-- Resolve a path, following at most the given number of links. -/
def resolve : Nat → Location → List String → Lookup
  | 0 => walk fs fun _ _ => .failed .loop
  | links + 1 => walk fs (resolve links)

/-- The location of an absolute path, if it names an entry. -/
def realpath (links : Nat) (path : List String) : Option Location :=
  match resolve fs links [] path with
  | .found location => some location
  | _ => none

variable {fs}

@[simp] theorem resolve_nil (links : Nat) (here : Location) :
    resolve fs links here [] = .found here := by
  cases links <;> rfl

/-- Resolution is a walk with some way to go on at a link. -/
theorem resolve_eq_walk (fs : FileSystem) (links : Nat) : ∃ follow, resolve fs links = walk fs follow := by
  cases links with
  | zero => exact ⟨_, rfl⟩
  | succ next => exact ⟨_, rfl⟩

/-- A lookup that finds something goes on from there along a longer path; one that
does not fails along any longer path. -/
def Extends (fs : FileSystem) (lookup : List String → Lookup) (path : List String) : Prop :=
  (∃ location left, lookup path = .found location ∧
    ∀ more, lookup (path ++ more) = resolve fs left location more) ∨
  (∀ location, lookup path ≠ .found location) ∧
    ∀ more ≠ [], ∃ errno, lookup (path ++ more) = .failed errno

theorem Extends.step (extends' : Extends fs next rest)
    (same : ∀ more, lookup (path ++ more) = next (rest ++ more)) : Extends fs lookup path := by
  have whole := same []
  rw [List.append_nil, List.append_nil] at whole
  rcases extends' with ⟨location, left, found, past⟩ | ⟨lost, fails⟩
  · exact .inl ⟨location, left, whole.trans found, fun more => (same more).trans (past more)⟩
  · refine .inr ⟨fun location => whole ▸ lost location, fun more some => ?_⟩
    rw [same more]
    exact fails more some

theorem walk_extends (links : Nat) (here : Location) (path : List String)
    (walks : walk fs follow = resolve fs links)
    (beyond : ∀ here path, Extends fs (follow here) path) : Extends fs (walk fs follow here) path := by
  induction path generalizing here with
  | nil => exact .inl ⟨here, links, rfl, fun more => by rw [walks, List.nil_append]⟩
  | cons name rest ih =>
    have fails (errno : Errno) (all : ∀ more, walk fs follow here (name :: rest ++ more) = .failed errno) :
        Extends fs (walk fs follow here) (name :: rest) := by
      refine .inr ⟨fun location => ?_, fun more _ => ⟨errno, all more⟩⟩
      have whole := all []
      rw [List.append_nil] at whole
      simp [whole]
    by_cases inside : fs.entry here = some .directory
    swap
    · exact fails .notDirectory fun more => by simp [walk, inside]
    by_cases dot : name = "" ∨ name = "."
    · exact (ih here).step fun more => by simp [walk, inside, dot]
    by_cases dots : name = ".."
    · exact (ih here.dropLast).step fun more => by simp [walk, inside, dots]
    match present : fs.entry (here ++ [name]) with
    | none =>
      refine .inr ⟨fun location => ?_, fun more some => ⟨.noEntry, ?_⟩⟩
      · by_cases last : rest = [] <;> simp [walk, inside, dot, dots, present, last]
      · simp [walk, inside, dot, dots, present, some]
    | some (.link absolute target) =>
      exact (beyond (if absolute then [] else here) (target ++ rest)).step fun more => by
        simp [walk, inside, dot, dots, present]
    | some .file | some .directory =>
      exact (ih (here ++ [name])).step fun more => by simp [walk, inside, dot, dots, present]

theorem resolve_extends (links : Nat) (here : Location) (path : List String) :
    Extends fs (resolve fs links here) path := by
  induction links generalizing here path with
  | zero =>
    exact walk_extends 0 here path rfl fun here path =>
      .inr ⟨by simp, fun more _ => ⟨.loop, rfl⟩⟩
  | succ links ih => exact walk_extends (links + 1) here path rfl ih

theorem realpath_eq_some :
    realpath fs links path = some location ↔ resolve fs links [] path = .found location := by
  unfold realpath
  cases resolve fs links [] path <;> simp

/-- Past a real directory, resolution goes on from its location. -/
theorem resolve_past (real : realpath fs links path = some location) :
    ∃ left, ∀ more, resolve fs links [] (path ++ more) = resolve fs left location more := by
  rw [realpath_eq_some] at real
  rcases resolve_extends links [] path with ⟨there, left, found, past⟩ | ⟨lost, _⟩
  · rw [real] at found
    cases found
    exact ⟨left, past⟩
  · exact (lost location real).elim

/-- Nothing is found, and no name is free, below a path that names nothing. -/
theorem resolve_past_none (unreal : realpath fs links path = none) (more : List String)
    (longer : more ≠ []) :
    ∃ errno, resolve fs links [] (path ++ more) = .failed errno := by
  rcases resolve_extends links [] path with ⟨there, left, found, _⟩ | ⟨_, fails⟩
  · rw [realpath_eq_some.mpr found] at unreal
    cases unreal
  · exact fails more longer

theorem realpath_append_none (unreal : realpath fs links path = none) (more : List String) :
    realpath fs links (path ++ more) = none := by
  by_cases empty : more = []
  · rwa [empty, List.append_nil]
  · obtain ⟨_, failed⟩ := resolve_past_none unreal more empty
    simp [realpath, failed]

theorem walk_mono (sub : fs.Sub larger)
    (beyond : ∀ {here path}, follow here path = .found location →
      follow' here path = .found location) :
    walk fs follow here path = .found location → walk larger follow' here path = .found location := by
  induction path generalizing here with
  | nil => exact id
  | cons name rest ih =>
    by_cases inside : fs.entry here = some .directory
    swap
    · simp [walk, inside]
    by_cases dot : name = "" ∨ name = "."
    · simpa [walk, inside, sub _ _ inside, dot] using ih
    by_cases dots : name = ".."
    · simpa [walk, inside, sub _ _ inside, dots] using ih
    match present : fs.entry (here ++ [name]) with
    | none => by_cases last : rest = [] <;> simp [walk, inside, dot, dots, present, last]
    | some (.link absolute target) =>
      simpa [walk, inside, dot, dots, present, sub _ _ inside, sub _ _ present] using beyond
    | some .file | some .directory =>
      simpa [walk, inside, dot, dots, present, sub _ _ inside, sub _ _ present] using ih

theorem realpath_mono (sub : fs.Sub larger) (real : realpath fs links path = some location) :
    realpath larger links path = some location := by
  have mono : ∀ links here path, resolve fs links here path = .found location →
      resolve larger links here path = .found location := by
    intro links
    induction links with
    | zero => exact fun here path => walk_mono sub (by simp)
    | succ links ih => exact fun here path => walk_mono sub (ih _ _)
  rw [realpath_eq_some] at real ⊢
  exact mono links [] path real

theorem resolve_name (fs : FileSystem) (links : Nat) (dir : Location) (proper : Proper name) :
    (fs.entry dir ≠ some .directory ∧ resolve fs links dir [name] = .failed .notDirectory) ∨
      (fs.entry dir = some .directory ∧
        ((fs.entry (dir ++ [name]) = none ∧ resolve fs links dir [name] = .missing dir name) ∨
          (∃ absolute target, fs.entry (dir ++ [name]) = some (.link absolute target)) ∨
          fs.entry (dir ++ [name]) ≠ none ∧
            resolve fs links dir [name] = .found (dir ++ [name]))) := by
  obtain ⟨named, notDot, notUp⟩ := proper
  obtain ⟨follow, same⟩ := resolve_eq_walk fs links
  rw [same]
  by_cases inside : fs.entry dir = some .directory
  · refine .inr ⟨inside, ?_⟩
    match present : fs.entry (dir ++ [name]) with
    | none => exact .inl ⟨rfl, by simp [walk, inside, named, notDot, notUp, present]⟩
    | some (.link absolute target) => exact .inr (.inl ⟨absolute, target, rfl⟩)
    | some .file | some .directory =>
      exact .inr (.inr ⟨nofun, by simp [walk, inside, named, notDot, notUp, present]⟩)
  · exact .inl ⟨inside, by simp [walk, inside]⟩

end Resolution

end Posix

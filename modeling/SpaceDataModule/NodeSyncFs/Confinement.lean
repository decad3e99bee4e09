import SpaceDataModule.NodeSyncFs.Provider

/-! What `open` touches outside the real root. The path check covers the parent
directory, and the directories made on the way, as far as `fs.realpathSync` sees
them as the kernel does; the last component is left to the system call, which
follows it when it is a link. -/
namespace SpaceDataModule.NodeSyncFs
open Posix FlatsqlIo

def Covered (links : Nat) (root : Location) (fs : FileSystem) (path : List String) : Prop :=
  ∀ dir, realpath fs links path = some dir → root <+: dir

theorem covered_of_real (reached : realpath fs links path = some real) (below : root <+: real) :
    Covered links root fs path := by
  intro dir other
  rw [reached] at other
  cases other
  exact below

section Calls

theorem existsSync_world : (existsSync links path w).1 = (stat links path w).1 := by
  unfold existsSync
  split
  case h_1 heq => rw [heq]
  case h_2 heq => rw [heq]

@[simp] theorem existsSync_fs : (existsSync links path w).1.fs = w.fs := by
  rw [existsSync_world, stat_fs]

theorem existsSync_of_real (real : realpath w.fs links path = some location) :
    existsSync links path w = (w.touch .examined location, true) := by
  rw [existsSync, stat_eq_of_real real]

theorem syncDirectory_world : (syncDirectory links path w).1 = (openFile links {} path w).1 := by
  unfold syncDirectory
  split
  case h_1 heq => rw [heq]
  case h_2 heq => rw [heq]
  case h_3 => rfl

/-- A plain open for reading makes nothing. -/
theorem syncDirectory_fs (links : Nat) (path : List String) (w : World) :
    (syncDirectory links path w).1.fs = w.fs := by
  rw [syncDirectory_world, openFile]
  simp only [Bool.false_and, Bool.false_eq_true, if_false]
  split
  case h_1 => rfl
  case h_2 => rfl
  case h_3 =>
    split
    case isTrue => rfl
    case isFalse => rfl

theorem syncDirectory_within_iff
    (covered : Covered links root w.fs path) :
    Within root (syncDirectory links path w).1 ↔ Within root w := by
  rw [syncDirectory_world, openFile_within_iff]
  refine and_iff_left fun location touched => ?_
  cases lookup : resolve w.fs links [] path with
  | found found =>
    obtain rfl : found = location := by
      simpa [OpenMode.touches, OpenMode.changes, lookup] using touched
    exact covered found (realpath_eq_some.mpr lookup)
  | missing dir name => simp [OpenMode.touches, lookup] at touched
  | failed errno => simp [OpenMode.touches, lookup] at touched

theorem within_of_syncDirectory (inside : Within root (syncDirectory links path w).1) :
    Within root w := by
  rw [syncDirectory_world, openFile_within_iff] at inside
  exact inside.1

theorem syncDirectory_of_unreal (unreal : realpath w.fs links path = none) :
    (syncDirectory links path w).1 = w := by
  rw [syncDirectory_world, openFile]
  cases lookup : resolve w.fs links [] path with
  | found found => simp [realpath_eq_some.mpr lookup] at unreal
  | missing dir name => rfl
  | failed errno => rfl

end Calls

section Parents

/-- The paths `probe/n₁`, `probe/n₁/n₂`, … -/
def extensions (probe : List String) : List String → List (List String)
  | [] => []
  | name :: names => (probe ++ [name]) :: extensions (probe ++ [name]) names

theorem extensions_concat (probe names : List String) (name : String) :
    extensions probe (names ++ [name]) = extensions probe names ++ [probe ++ names ++ [name]] := by
  induction names generalizing probe with
  | nil => simp [extensions]
  | cons head names ih => simp [extensions, ih]

/-- `probe` is the deepest ancestor of `probe/names` that exists, at `real`. Both
loops of the source find it. -/
structure Deepest (links : Nat) (w : World) (probe names : List String) (real : Location) :
    Prop where
  reached : realpath w.fs links probe = some real
  next : ∀ name rest, names = name :: rest → realpath w.fs links (probe ++ [name]) = none
  whole : names ≠ [] → realpath w.fs links (probe ++ names) = none
  decides : (ancestors (probe ++ names)).findSome? (realpath w.fs links) = some real
  climbed : missingParents links (ancestors (probe ++ names)) w =
    (w.touch .examined real, extensions probe names)

theorem exists_deepest (links : Nat) (w : World) (path : List String) :
    ∃ probe names real, path = probe ++ names ∧ Deepest links w probe names real := by
  induction path using List.reverseRecOn with
  | nil =>
    have top : realpath w.fs links [] = some [] := by rw [realpath_eq_some, resolve_nil]
    refine ⟨[], [], [], rfl, top, by simp, by simp, by simp [top], ?_⟩
    simp [missingParents, existsSync_of_real top, extensions]
  | append_singleton path name ih =>
    cases here : realpath w.fs links (path ++ [name]) with
    | some real =>
      refine ⟨path ++ [name], [], real, by simp, here, by simp, by simp, ?_, ?_⟩
      · rw [List.append_nil, ancestors_concat, List.findSome?_cons, here]
      · rw [List.append_nil, ancestors_concat, missingParents, existsSync_of_real here, extensions]
    | none =>
      obtain ⟨probe, names, real, rfl, deepest⟩ := ih
      refine ⟨probe, names ++ [name], real, by simp, deepest.reached, ?_, ?_, ?_, ?_⟩
      · intro first rest split
        cases names with
        | nil =>
          obtain ⟨rfl, _⟩ := List.cons.inj split
          simpa using here
        | cons head names =>
          obtain ⟨rfl, _⟩ := List.cons.inj split
          exact deepest.next head names rfl
      · intro _
        rw [← List.append_assoc, here]
      · rw [← List.append_assoc, ancestors_concat, List.findSome?_cons, here]
        exact deepest.decides
      · obtain ⟨errno, failed⟩ := stat_of_unreal here
        rw [← List.append_assoc, ancestors_concat, missingParents, existsSync, failed]
        simp only [deepest.climbed, extensions_concat]

theorem Deepest.of_real (deepest : Deepest links w probe names real)
    (whole : realpath w.fs links (probe ++ names) = some dir) : names = [] ∧ real = dir := by
  obtain rfl : names = [] := by
    by_contra some
    simp [deepest.whole some] at whole
  rw [List.append_nil, deepest.reached] at whole
  exact ⟨rfl, Option.some.inj whole⟩

/-- Whatever this path leads to is an empty directory below the root. -/
def Fresh (links : Nat) (root : Location) (fs : FileSystem) (path : List String) : Prop :=
  ∀ dir, realpath fs links path = some dir →
    root <+: dir ∧ ∀ name, fs.entry (dir ++ [name]) = none

theorem not_offered (unreal : realpath fs links path = none) :
    ¬ Offered links fs path name location := by
  intro offered
  obtain ⟨errno, failed⟩ := resolve_past_none unreal [name] (by simp)
  rcases offered with place | ⟨dir, real, _⟩
  · simp [failed, Lookup.place] at place
  · simp [unreal] at real

/-- Past a directory below the root, only a link leads out. -/
theorem link_of_outside (proper : Proper last) (real : realpath fs links parent = some dir)
    (below : root <+: dir) (offered : Offered links fs parent last location)
    (outside : ¬ root <+: location) :
    ∃ absolute target, fs.entry (dir ++ [last]) = some (.link absolute target) := by
  have inside : location ≠ dir ++ [last] := by
    rintro rfl
    exact outside (below.trans (List.prefix_append ..))
  rcases offered with place | ⟨other, same, rfl⟩
  · obtain ⟨left, past⟩ := resolve_past real
    rw [past] at place
    rcases resolve_name fs left dir proper with
      ⟨_, failed⟩ | ⟨_, ⟨_, missing⟩ | link | ⟨_, found⟩⟩
    · simp [failed, Lookup.place] at place
    · simp [missing, Lookup.place, inside.symm] at place
    · exact link
    · simp [found, Lookup.place, inside.symm] at place
  · rw [real] at same
    cases same
    exact (inside rfl).elim

theorem Fresh.offers (fresh : Fresh links root fs path) (proper : Proper name)
    (offered : Offered links fs path name location) : root <+: location := by
  cases real : realpath fs links path with
  | none => exact (not_offered real offered).elim
  | some dir =>
    obtain ⟨below, empty⟩ := fresh dir real
    by_contra outside
    obtain ⟨_, _, link⟩ := link_of_outside proper real below offered outside
    simp [empty] at link

theorem mkdir_of_unreal (unreal : realpath w.fs links path = none) (name : String) :
    ∃ errno, mkdir links (path ++ [name]) w = (w, .error errno) := by
  unfold mkdir
  cases located : locate links w.fs (path ++ [name]) with
  | error errno => exact ⟨errno, rfl⟩
  | ok place =>
    have parent := (locate_ok located).1
    rw [unreal] at parent
    cases parent

/-- Below a name that leads nowhere no directory is made. -/
theorem makeDirectories_of_unreal (unreal : realpath w.fs links path = none) (provider : Provider)
    (names : List String) : (makeDirectories links provider (extensions path names) w).1 = w := by
  induction names generalizing path with
  | nil => rfl
  | cons name names ih =>
    rw [extensions, makeDirectories]
    split
    case isTrue => rfl
    case isFalse =>
      obtain ⟨errno, failed⟩ := mkdir_of_unreal unreal name
      rw [failed]
      have below := realpath_append_none unreal [name]
      have synced := syncDirectory_of_unreal unreal
      cases errno with
      | exist =>
        simp only [List.dropLast_concat]
        cases outcome : syncDirectory links path w with
        | mk after result =>
          rw [outcome] at synced
          obtain rfl : after = w := synced
          cases result with
          | error errno => rfl
          | ok _ => exact ih below
      | _ => rfl

/-- A new directory is real and empty. -/
theorem created_directory {w : World} (proper : Proper name)
    (reached : realpath w.fs links probe = some real)
    (directory : w.fs.entry real = some .directory) (free : w.fs.entry (real ++ [name]) = none) :
    realpath (w.create real name .directory).fs links (probe ++ [name]) = some (real ++ [name]) ∧
      ∀ child, (w.create real name .directory).fs.entry (real ++ [name] ++ [child]) = none := by
  have entries : (w.create real name .directory).fs.entry =
      Function.update w.fs.entry (real ++ [name]) (some .directory) := by
    rw [World.create, FileSystem.add, dif_pos ⟨directory, free⟩]
    rfl
  constructor
  · have still := realpath_mono (sub_create (w := w) real name .directory) reached
    obtain ⟨left, past⟩ := resolve_past still
    rw [realpath_eq_some, past]
    rcases resolve_name (w.create real name .directory).fs left real proper with
      ⟨notDirectory, _⟩ | ⟨_, ⟨gone, _⟩ | ⟨absolute, target, link⟩ | ⟨_, found⟩⟩
    · exact absurd (sub_create real name .directory _ _ directory) notDirectory
    · simp [entries] at gone
    · simp [entries] at link
    · exact found
  · intro child
    rw [entries, Function.update_of_ne (by simp)]
    by_contra present
    simp [w.fs.parents _ _ present] at free

theorem realpath_of_empty (proper : Proper name) (real : realpath fs links path = some dir)
    (empty : fs.entry (dir ++ [name]) = none) : realpath fs links (path ++ [name]) = none := by
  obtain ⟨left, past⟩ := resolve_past real
  rcases resolve_name fs left dir proper with
    ⟨_, failed⟩ | ⟨_, ⟨_, missing⟩ | ⟨_, _, link⟩ | ⟨present, _⟩⟩
  · simp [realpath, past, failed]
  · simp [realpath, past, missing]
  · simp [empty] at link
  · exact (present empty).elim

theorem mkdir_of_real (reached : realpath w.fs links probe = some real) :
    mkdir links (probe ++ [name]) w =
      if w.fs.entry real = some .directory then
        if w.fs.entry (real ++ [name]) = none then (w.create real name .directory, .ok ())
        else (w, .error .exist)
      else (w, .error .notDirectory) := by
  rw [realpath_eq_some] at reached
  simp only [mkdir, locate, List.dropLast_concat, reached, List.getLast?_concat]
  by_cases directory : w.fs.entry real = some .directory
  · rw [if_pos directory, if_pos directory]
  · rw [if_neg directory, if_neg directory]

/-- How `ensureParents` leaves a path: nothing outside the root was touched, and
unless it threw, the path ends in a new directory or nowhere. -/
def Made (links : Nat) (root : Location) (path : List String) (outcome : Outcome) : Prop :=
  Within root outcome.1 ∧ (outcome.2 = .ok () → Fresh links root outcome.1.fs path)

theorem made_error (inside : Within root w) :
    Made links root path (w, .error errno) := ⟨inside, by simp⟩

theorem made_next {outcome : Outcome} (first : Within root outcome.1)
    (second : Made links root path (proceed outcome.1)) :
    Made links root path (outcome.next proceed) := by
  obtain ⟨w, result⟩ := outcome
  cases result with
  | error errno => exact made_error first
  | ok _ => exact second

theorem makeDirectories_made (proper : ∀ name ∈ names, Proper name) (nonempty : names ≠ [])
    (reached : realpath w.fs links probe = some real) (below : root <+: real)
    (next : ∀ name rest, names = name :: rest → realpath w.fs links (probe ++ [name]) = none)
    (inside : Within root w) :
    Made links root (probe ++ names)
      (makeDirectories links provider (extensions probe names) w) := by
  induction names generalizing probe real w with
  | nil => exact (nonempty rfl).elim
  | cons name names ih =>
    rw [extensions, makeDirectories]
    by_cases outside : (!within (probe ++ [name]) provider.rawRoot) = true
    · rw [if_pos outside]
      exact made_error inside
    rw [if_neg outside, mkdir_of_real reached, List.dropLast_concat]
    by_cases directory : w.fs.entry real = some .directory
    swap
    · rw [if_neg directory]
      exact made_error inside
    rw [if_pos directory]
    by_cases free : w.fs.entry (real ++ [name]) = none
    · -- the directory is made, and the next one is made in it
      obtain ⟨made, empty⟩ :=
        created_directory (proper name List.mem_cons_self) reached directory free
      have still := realpath_mono (sub_create real name .directory) reached
      have grown : Within root (w.create real name .directory) :=
        within_create.mpr ⟨inside, below.trans (List.prefix_append ..)⟩
      have synced : Within root
          (syncDirectory links probe (w.create real name .directory)).1 := by
        rwa [syncDirectory_within_iff (covered_of_real still below)]
      rw [if_pos free]
      refine made_next synced ?_
      rw [List.append_cons]
      rw [← syncDirectory_fs links probe] at made empty
      by_cases last : names = []
      · subst last
        refine ⟨synced, fun _ dir real' => ?_⟩
        rw [List.append_nil] at real'
        obtain rfl : real ++ [name] = dir := Option.some.inj (made.symm.trans real')
        exact ⟨below.trans (List.prefix_append ..), empty⟩
      · refine ih (fun other member => proper other (List.mem_cons_of_mem _ member)) last made
          (below.trans (List.prefix_append ..)) ?_ synced
        rintro child rest rfl
        exact realpath_of_empty (proper child (by simp)) made (empty child)
    · -- a name that exists and leads nowhere: a dangling link
      have unreal := next name names rfl
      have synced : Within root (syncDirectory links probe w).1 := by
        rwa [syncDirectory_within_iff (covered_of_real reached below)]
      rw [if_neg free]
      refine made_next synced ?_
      rw [← syncDirectory_fs links probe] at unreal
      have unchanged := makeDirectories_of_unreal unreal provider names
      have gone := realpath_append_none unreal names
      rw [List.append_cons]
      refine ⟨by rwa [unchanged], fun _ dir real' => ?_⟩
      rw [unchanged, gone] at real'
      cases real'

end Parents

section Open

section Reached
variable (links : Nat) (fs : FileSystem) (table : TableAnswers) (flags : Flags)

/-- What a call that gets a slot opens. -/
def opened (full : List String) : Option Location :=
  if table.claimed.isNone then none else (openFlagsFor flags false).touches links fs full

/-- Once the path is admitted, the entries a call with these flags finds, opens,
removes or climbs to. What it makes on the way is not listed. -/
def reached (parent : List String) (last : String) : List Location :=
  let full := parent ++ [last]
  if flags.has .probe then (realpath fs links full).toList
  else if flags.has (.unlink ||| .unlinkIfUnused) then
    if flags.has .unlinkIfUnused && table.inUse then [] else (removes links fs full).toList
  else if flags.has .create && flags.has .createParents then
    ((ancestors parent).findSome? (realpath fs links)).toList ++
      ((realpath fs links full).toList ++ (opened links fs table flags full).toList)
  else (opened links fs table flags full).toList

end Reached

theorem offered_of_opened (opens : opened links fs table flags (path ++ [name]) = some location) :
    Offered links fs path name location := by
  unfold opened at opens
  split at opens
  · cases opens
  · exact offered_of_touches opens

/-- The root with all links resolved; one that does not exist yet stands for itself. -/
def realRootOf (links : Nat) (fs : FileSystem) (rawRoot : List String) : Location :=
  (realpath fs links rawRoot).getD rawRoot

@[simp] theorem report_world (value : Int) (outcome : Outcome) :
    (report value outcome).1 = outcome.1 := by
  obtain ⟨w, result⟩ := outcome
  cases result <;> rfl

@[simp] theorem probed_world (outcome : Outcome) : (probed outcome).1 = outcome.1 := by
  obtain ⟨w, result⟩ := outcome
  cases result <;> rfl

theorem claimAndOpen_within_iff (covered : createdFile = true → Covered links root w.fs parent) :
    Within root (claimAndOpen links table flags (parent ++ [last]) createdFile w).1 ↔
      Within root w ∧ ∀ location ∈ opened links w.fs table flags (parent ++ [last]),
        root <+: location := by
  unfold claimAndOpen opened
  cases table.claimed with
  | none => simp
  | some handle =>
    simp only [report_world, Option.isNone_some, Bool.false_eq_true, if_false]
    rw [← openFile_within_iff]
    refine next_within_iff fun _ => ?_
    cases createdFile with
    | false => exact Iff.rfl
    | true =>
      rw [List.dropLast_concat]
      refine syncDirectory_within_iff fun dir real => ?_
      rw [realpath_openFile] at real
      exact covered rfl dir real

theorem within_of_next {outcome : Outcome} (later : ∀ w, Within root (proceed w).1 → Within root w)
    (inside : Within root (outcome.next proceed).1) : Within root outcome.1 := by
  obtain ⟨w, result⟩ := outcome
  cases result with
  | error errno => exact inside
  | ok _ => exact later w inside

theorem within_of_claimAndOpen
    (inside : Within root (claimAndOpen links table flags full createdFile w).1) : Within root w := by
  unfold claimAndOpen at inside
  split at inside
  · exact inside
  · rw [report_world] at inside
    refine (openFile_within_iff.mp (within_of_next (fun w later => ?_) inside)).1
    split at later
    · exact within_of_syncDirectory later
    · exact later

/-- A directory that holds something else than a directory below the root lies
below the root: the root is passed on the way there. -/
theorem below_of_entry (rooted : rawRoot <+: parent) (real : realpath fs links parent = some dir)
    (other : fs.entry (dir ++ [last]) ≠ some .directory)
    (inside : realRootOf links fs rawRoot <+: dir ++ [last]) : realRootOf links fs rawRoot <+: dir := by
  obtain ⟨more, rfl⟩ := rooted
  cases atRoot : realpath fs links rawRoot with
  | none => simp [realpath_append_none atRoot more] at real
  | some root =>
    simp only [realRootOf, atRoot, Option.getD_some] at inside ⊢
    rcases List.prefix_concat_iff.mp inside with rfl | below
    · obtain ⟨left, past⟩ := resolve_past atRoot
      rw [realpath_eq_some, past] at real
      cases more with
      | nil => simp at real
      | cons name more =>
        obtain ⟨follow, same⟩ := resolve_eq_walk fs left
        simp [same, walk, other] at real
    · exact below

theorem removal_within_iff (rooted : rawRoot <+: parent) :
    Within (realRootOf links w.fs rawRoot) (Outcome.next (unlink links (parent ++ [last]) w)
        (syncDirectory links (parent ++ [last]).dropLast)).1 ↔
      Within (realRootOf links w.fs rawRoot) w ∧
        ∀ location ∈ removes links w.fs (parent ++ [last]),
          realRootOf links w.fs rawRoot <+: location := by
  rw [List.dropLast_concat, ← unlink_within_iff]
  refine next_within_iff fun done => ⟨within_of_syncDirectory, fun inside => ?_⟩
  obtain ⟨dir, real, removed, other⟩ := unlink_ok done
  have below := below_of_entry rooted real other ((unlink_within_iff.mp inside).2 _ removed)
  -- what is left of the path after the removal leads where it led before
  refine (syncDirectory_within_iff fun later found => ?_).mpr inside
  obtain rfl : dir = later := Option.some.inj (real.symm.trans (realpath_mono unlink_sub found))
  exact below

theorem within_of_mkdir (inside : Within root (mkdir links path w).1) : Within root w := by
  unfold mkdir at inside
  split at inside
  · exact inside
  · split at inside
    · exact (within_create.mp inside).1
    · exact inside

theorem within_of_makeDirectories (inside : Within root (makeDirectories links provider dirs w).1) :
    Within root w := by
  induction dirs generalizing w with
  | nil => exact inside
  | cons dir rest ih =>
    rw [makeDirectories] at inside
    split at inside
    · exact inside
    · refine within_of_mkdir (?_ : Within root (mkdir links dir w).1)
      cases made : mkdir links dir w with
      | mk after result =>
        rw [made] at inside
        match result with
        | .ok _ | .error .exist =>
          exact within_of_syncDirectory (within_of_next (fun _ => ih) inside)
        | .error .noEntry | .error .notDirectory | .error .loop | .error .isDirectory
        | .error .access => exact inside

theorem within_of_openWithParents (climbed : ensureParents links provider full w =
      makeDirectories links provider dirs (w.touch .examined real))
    (inside : Within root (openWithParents links provider table flags full w).1) :
    root <+: real := by
  have before : Within root (ensureParents links provider full w).1 → root <+: real := by
    rw [climbed]
    exact fun made => (within_touch.mp (within_of_makeDirectories made)).2
  apply before
  unfold openWithParents at inside
  split at inside
  case h_1 failed => rwa [failed]
  case h_2 ensured =>
    have before := within_of_claimAndOpen inside
    rw [existsSync_world, stat_within_iff] at before
    rw [ensured]
    exact before.1

/-- Below a parent that does not exist, `open` makes directories and a new file. -/
theorem openWithParents_within (made : Made links root parent
      (ensureParents links provider (parent ++ [last]) w)) (proper : Proper last) :
    Within root (openWithParents links provider table flags (parent ++ [last]) w).1 := by
  obtain ⟨inside, fresh⟩ := made
  unfold openWithParents
  split
  case h_1 failed => rwa [failed] at inside
  case h_2 w' ensured =>
    rw [ensured] at inside fresh
    have fresh : Fresh links root w'.fs parent := fresh rfl
    refine (claimAndOpen_within_iff fun _ => ?_).mpr ⟨?_, fun location opens => ?_⟩
    · rw [existsSync_fs]
      exact fun dir found => (fresh dir found).1
    · rw [existsSync_world, stat_within_iff]
      exact ⟨inside, fun location found => fresh.offers proper (offered_of_real found)⟩
    · rw [existsSync_fs] at opens
      exact fresh.offers proper (offered_of_opened opens)

/-- An `open` that makes its parents keeps to the root exactly if the directory it
climbs to, and what it then finds and opens, lies there. -/
theorem openWithParents_within_iff (deepest : Deepest links ⟨fs, []⟩ probe names real)
    (proper : ∀ name ∈ names, Proper name) (lastProper : Proper last) :
    Within root (openWithParents links provider table flags (probe ++ names ++ [last])
        ⟨fs, []⟩).1 ↔
      root <+: real ∧ (∀ location ∈ realpath fs links (probe ++ names ++ [last]),
          root <+: location) ∧
        ∀ location ∈ opened links fs table flags (probe ++ names ++ [last]), root <+: location := by
  have climbed : ensureParents links provider (probe ++ names ++ [last]) ⟨fs, []⟩ =
      makeDirectories links provider (extensions probe names)
        ((⟨fs, []⟩ : World).touch .examined real) := by
    rw [ensureParents, List.dropLast_concat, deepest.climbed]
  by_cases below : root <+: real
  swap
  · exact iff_of_false (fun inside => below (within_of_openWithParents climbed inside))
      fun inside => below inside.1
  have arrived : Within root ((⟨fs, []⟩ : World).touch .examined real) :=
    within_touch.mpr ⟨by simp [Within], below⟩
  by_cases whole : names = []
  · -- the parent exists: nothing is made
    subst whole
    have covered : Covered links root fs (probe ++ []) := by
      rw [List.append_nil]
      exact covered_of_real deepest.reached below
    rw [openWithParents, climbed]
    simp only [extensions, makeDirectories]
    rw [claimAndOpen_within_iff fun _ => by rwa [existsSync_fs], existsSync_world, stat_within_iff,
      and_iff_right arrived, stat_fs, touch_fs, and_iff_right below]
  · -- all that is found is new
    have none : ∀ location, ¬ Offered links fs (probe ++ names) last location :=
      fun _ => not_offered (deepest.whole whole)
    refine iff_of_true (openWithParents_within ?_ lastProper)
      ⟨below, fun location found => (none location (offered_of_real found)).elim,
        fun location opens => (none location (offered_of_opened opens)).elim⟩
    rw [climbed]
    exact makeDirectories_made proper whole deepest.reached below deepest.next arrived

theorem openAdmitted_within_iff (rooted : provider.rawRoot <+: parent)
    (proper : ∀ name ∈ parent, Proper name) (lastProper : Proper last) :
    Within (realRootOf links fs provider.rawRoot)
        (openAdmitted links provider table flags (parent ++ [last]) ⟨fs, []⟩).1 ↔
      ∀ location ∈ reached links fs table flags parent last,
        realRootOf links fs provider.rawRoot <+: location := by
  have nothing : Within (realRootOf links fs provider.rawRoot) ⟨fs, []⟩ := by simp [Within]
  unfold openAdmitted reached
  split_ifs with probe unlinks busy parents
  · rw [probed_world, stat_within_iff, and_iff_right nothing]
    simp
  · simpa using nothing
  · rw [report_world, removal_within_iff (w := ⟨fs, []⟩) rooted, and_iff_right nothing]
    simp
  · obtain ⟨climbed, names, real, rfl, deepest⟩ := exists_deepest links ⟨fs, []⟩ parent
    have decides : (ancestors (climbed ++ names)).findSome? (realpath fs links) = some real :=
      deepest.decides
    rw [openWithParents_within_iff deepest
      (fun name member => proper name (List.mem_append_right _ member)) lastProper, decides]
    simp [or_imp, forall_and]
  · rw [claimAndOpen_within_iff (by simp), and_iff_right nothing]
    simp

end Open

section Store
variable (links : Nat) (provider : Provider) (realpathSync : List String → Option (List String))
  (table : TableAnswers) (fs : FileSystem)

/-- The check lets the path pass, but the directory it stands in lies outside the
real root, or its last component is a link there, and the call goes out. -/
def LedOut (bytes : ByteArray) (flags : Flags) : Prop :=
  let root := realRootOf links fs provider.rawRoot
  table.revoked = false ∧ ∃ relative parent last dir,
    relativePath provider bytes = .ok relative ∧
      resolvePath provider realpathSync relative = .ok (parent ++ [last]) ∧
      (ancestors parent).findSome? (realpath fs links) = some dir ∧
      (¬ root <+: dir ∨ ∃ absolute target, fs.entry (dir ++ [last]) = some (.link absolute target)) ∧
      ∃ location ∈ reached links fs table flags parent last, ¬ root <+: location

def ReopenOut (relative : String) (flags : Flags) : Prop :=
  ∃ location, realpath fs links (reopenedPath provider relative) = some location ∧
    ¬ realRootOf links fs provider.rawRoot <+: location ∧
    (fs.entry location = some .directory → flags.has .write = false)

variable {links provider realpathSync table fs}

theorem resolvePath_ok (admitted : resolvePath provider realpathSync relative = .ok full) :
    full = joinPath provider.rawRoot relative := by
  simp only [resolvePath] at admitted
  split at admitted
  · cases admitted
  · split at admitted
    · exact (Except.ok.inj admitted).symm
    · split at admitted
      · exact (Except.ok.inj admitted).symm
      · cases admitted

/-- What leads out of a directory inside the root is a link. -/
theorem cause_of_outside (proper : Proper last)
    (decides : (ancestors parent).findSome? (realpath fs links) = some dir)
    (member : location ∈ reached links fs table flags parent last) (outside : ¬ root <+: location) :
    ¬ root <+: dir ∨ ∃ absolute target, fs.entry (dir ++ [last]) = some (.link absolute target) := by
  refine not_or_of_imp fun below => ?_
  have offered : Offered links fs parent last location := by
    simp only [reached] at member
    split_ifs at member
    · exact offered_of_real (Option.mem_toList.mp member)
    · cases member
    · exact offered_of_removes (Option.mem_toList.mp member)
    · rw [decides, List.mem_append, List.mem_append] at member
      rcases member with climbed | found | opens
      · exact (outside (Option.some.inj (Option.mem_toList.mp climbed) ▸ below)).elim
      · exact offered_of_real (Option.mem_toList.mp found)
      · exact offered_of_opened (Option.mem_toList.mp opens)
    · exact offered_of_opened (Option.mem_toList.mp member)
  obtain ⟨probe, names, real, rfl, deepest⟩ := exists_deepest links ⟨fs, []⟩ parent
  cases there : realpath fs links (probe ++ names) with
  | none => exact (not_offered there offered).elim
  | some place =>
    obtain ⟨rfl, rfl⟩ := deepest.of_real there
    obtain rfl : real = dir := Option.some.inj (deepest.decides.symm.trans decides)
    exact link_of_outside proper there below offered outside

/-- `open` touches only what lies in the real root unless the call is led out. -/
theorem openPath_within_iff (bytes : ByteArray) (flags : Flags) :
    Within (realRootOf links fs provider.rawRoot)
        (openPath links provider realpathSync table bytes flags ⟨fs, []⟩).1 ↔
      ¬ LedOut links provider realpathSync table fs bytes flags := by
  have nothing : Within (realRootOf links fs provider.rawRoot) ⟨fs, []⟩ := by simp [Within]
  unfold openPath
  cases live : table.revoked with
  | true => simp [LedOut, live, nothing]
  | false =>
    cases accepted : relativePath provider bytes with
    | error status => simp [openInternal, LedOut, accepted, nothing]
    | ok relative =>
      obtain ⟨parent, last, joined, rooted, proper, lastProper⟩ := relativePath_ok accepted
      cases admitted : resolvePath provider realpathSync relative with
      | error status => simp [openInternal, LedOut, accepted, admitted, nothing]
      | ok full =>
        obtain rfl := (resolvePath_ok admitted).trans joined
        simp only [Bool.false_eq_true, if_false, openInternal, accepted, admitted]
        rw [openAdmitted_within_iff rooted proper lastProper]
        obtain ⟨probe, names, dir, rfl, deepest⟩ := exists_deepest links ⟨fs, []⟩ parent
        constructor
        · rintro confined ⟨_, relative', parent', last', _, accepted', admitted', _, _, location,
            member, outside⟩
          obtain rfl : relative = relative' := Except.ok.inj (accepted.symm.trans accepted')
          obtain ⟨rfl, same⟩ :=
            List.append_inj' (Except.ok.inj (admitted.symm.trans admitted')) rfl
          cases same
          exact outside (confined location member)
        · intro kept location member
          by_contra outside
          have cause := cause_of_outside lastProper deepest.decides member outside
          exact kept ⟨live, relative, _, last, dir, accepted, admitted, deepest.decides, cause,
            location, member, outside⟩

/-- `fdFor` checks nothing: a recorded path is opened wherever it leads. -/
theorem reopen_within_iff (relative : String) (flags : Flags) :
    Within (realRootOf links fs provider.rawRoot)
        (reopen links provider relative flags ⟨fs, []⟩).1 ↔
      ¬ ReopenOut links provider fs relative flags := by
  rw [reopen, openFile_within_iff, and_iff_right (by simp [Within])]
  unfold ReopenOut realpath OpenMode.touches
  cases resolve fs links [] (reopenedPath provider relative) with
  | found location =>
    simp only [openFlagsFor, OpenMode.changes, Bool.not_true, Bool.false_and, Bool.or_false,
      Bool.false_eq_true, if_false, Option.some.injEq, exists_eq_left', Option.mem_def,
      Option.ite_none_left_eq_some, not_and, Bool.not_eq_true, and_imp]
    constructor
    · intro confined outside follows
      exact outside (confined location follows rfl)
    · rintro led _ follows rfl
      by_contra outside
      exact led outside follows
  | missing dir name => simp [openFlagsFor]
  | failed errno => simp [openFlagsFor]

/-- A store with three planted links: to a file outside, to a free name there, and
to a directory there whose name stands for the bytes `6F 75 74 E9`, no text. -/
def planted : FileSystem :=
  .ofEntries [(["store"], .directory), (["outside"], .directory), (["outside", "secret"], .file),
    (["store", "link"], .link true ["outside", "secret"]),
    (["store", "dangling"], .link true ["outside", "new"]),
    (["outé"], .directory), (["outé", "secret"], .file),
    (["store", "dir"], .link true ["outé"])] (by decide)

/-- `fs.realpathSync` there: what `readlink` gives for the last link does not exist. -/
def plantedRealpath (path : List String) : Option (List String) :=
  if ["store", "dir"] <+: path then none else realpath planted 40 path

def store : Provider := ⟨["store"], ["store"], 1024, by decide⟩

def firstSlot : TableAnswers := { claimed := some (0, 1) }

-- A recorded path that starts with a byte order mark loses it on the way back, and
-- what is left is normalised: the thread opens a file above the root.
example : (reopen 40 store "\uFEFF../outside/secret" .read ⟨planted, []⟩).1.touched =
    [⟨.opened, ["outside", "secret"]⟩] := by decide

end Store
end SpaceDataModule.NodeSyncFs

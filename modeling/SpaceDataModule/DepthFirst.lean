import Mathlib.Algebra.GroupWithZero.Nat
import Mathlib.Algebra.BigOperators.Group.Finset.Basic
import Mathlib.Data.List.Induction
import Mathlib.Logic.Function.Iterate
import Mathlib.Logic.Relation

/-! Depth-first search with an explicit stack over an ordered multigraph. What
the search sees of the graph depends on the order of its roots and edges. The
back edges it meets are characterized without it: they are the edges that close a
loop on the first path to their source, where a first path chooses at every node
the first edge that leads on to the goal. -/
namespace DepthFirst
open Relation

structure Graph (V E : Type*) where
  out : V → List E
  target : E → V

variable {V E A : Type*} (g : Graph V E) (roots : List V)

section FirstPaths

/-- There is a way from one node to another that does not enter `avoid`. -/
def Walk (avoid : List V) : V → V → Prop :=
  ReflTransGen fun a b => (∃ edge ∈ g.out a, g.target edge = b) ∧ b ∉ avoid

/-- Where a path can go next: to a root, or along an edge of its last node. -/
def choices : List V → List V
  | [] => roots
  | node :: _ => (g.out node).map g.target

/-- Each node of the path is new, and the first choice that leads to the goal
without returning to the path. Paths are written innermost node first. -/
def Leads (goal : V) : List V → Prop
  | [] => True
  | node :: path => Leads goal path ∧ node ∉ path ∧
      ∃ earlier later, choices g roots path = earlier ++ node :: later ∧
        ∀ other ∈ earlier, other ∈ path ∨ ¬ Walk g path other goal

def FirstPath (path : List V) : Prop := ∃ goal rest, path = goal :: rest ∧ Leads g roots goal path

def Closes (path : List V) (edge : E) : Prop :=
  ∃ node rest, path = node :: rest ∧ edge ∈ g.out node ∧ g.target edge ∈ path

variable {g roots}

theorem Leads.outer {inner outer : List V} (leads : Leads g roots goal (inner ++ outer)) :
    Leads g roots goal outer := by
  induction inner with
  | nil => exact leads
  | cons node rest ih => exact ih leads.1

variable {inner outer : List V}

/-- A path goes on along an edge of its last node. -/
theorem Leads.step (leads : Leads g roots goal (last :: (inner ++ node :: outer))) :
    ∃ edge ∈ g.out ((inner ++ [node]).head (by simp)), g.target edge = last := by
  obtain ⟨_, _, earlier, later, listed, _⟩ := leads
  have member : last ∈ choices g roots (inner ++ node :: outer) := by simp [listed]
  cases inner with
  | nil => simpa [choices] using member
  | cons next rest => simpa [choices] using member

/-- A path leads from each of its nodes to its innermost one, without the nodes
before. -/
theorem Leads.walk (leads : Leads g roots goal (inner ++ node :: outer)) :
    Walk g outer node ((inner ++ [node]).head (by simp)) := by
  induction inner with
  | nil => exact .refl
  | cons last rest ih =>
    refine ReflTransGen.tail (ih leads.1) ⟨Leads.step leads, fun inside => ?_⟩
    have entered : last ∈ outer := inside
    exact leads.2.1 (by simp [entered])

/-- First paths to one goal that agree at the root agree on the next node. -/
theorem Leads.next_eq (leftLeads : Leads g roots goal (innerLeft ++ left :: outer))
    (rightLeads : Leads g roots goal (innerRight ++ right :: outer))
    (leftGoal : (innerLeft ++ [left]).head (by simp) = goal)
    (rightGoal : (innerRight ++ [right]).head (by simp) = goal) : left = right := by
  classical
  -- both are the first choice that is new and leads on
  have chosen {inner node} (leads : Leads g roots goal (inner ++ node :: outer))
      (reaches : (inner ++ [node]).head (by simp) = goal) : (choices g roots outer).find?
        (fun next => decide (next ∉ outer ∧ Walk g outer next goal)) = some node := by
    obtain ⟨_, new, earlier, later, listed, first⟩ := leads.outer
    refine List.find?_eq_some_iff_append.mpr
      ⟨decide_eq_true ⟨new, reaches ▸ leads.walk⟩, earlier, later, listed, ?_⟩
    intro other before
    simpa [or_iff_not_imp_left] using first other before
  exact Option.some.inj ((chosen leftLeads leftGoal).symm.trans (chosen rightLeads rightGoal))

theorem Walk.mono (subset : fewer ⊆ more) (walk : Walk g more first last) :
    Walk g fewer first last :=
  ReflTransGen.mono (fun _ _ turn => ⟨turn.1, fun inside => turn.2 (subset inside)⟩) _ _ walk

/-- A first path passes through first paths to its nodes. -/
theorem Leads.retarget (leads : Leads g roots goal path) (walk : Walk g path.tail node goal) :
    Leads g roots node path := by
  induction path with
  | nil => trivial
  | cons last path ih =>
    obtain ⟨before, new, earlier, later, listed, first⟩ := leads
    refine ⟨ih before (walk.mono (List.tail_subset path)), new, earlier, later, listed, ?_⟩
    intro other member
    rcases first other member with old | none
    · exact .inl old
    · exact .inr fun through => none (through.trans walk)

theorem Leads.through (leads : Leads g roots goal (inner ++ node :: outer))
    (reaches : (inner ++ [node]).head (by simp) = goal) : Leads g roots node (node :: outer) :=
  leads.outer.retarget (reaches ▸ leads.walk)

theorem FirstPath.unique (leftLeads : Leads g roots goal (goal :: left))
    (rightLeads : Leads g roots goal (goal :: right)) : left = right := by
  -- extend the common part of the two paths from the root inwards
  have agree : ∀ innerLeft innerRight outer : List V,
      goal :: left = innerLeft ++ outer → goal :: right = innerRight ++ outer → left = right := by
    intro innerLeft
    induction innerLeft using List.reverseRecOn with
    | nil =>
      intro innerRight outer leftSplit rightSplit
      cases innerRight with
      | nil => exact (List.cons.inj (leftSplit.trans rightSplit.symm)).2
      | cons first rest =>
        obtain ⟨rfl, tail⟩ := List.cons.inj rightSplit
        rw [List.nil_append] at leftSplit
        exact (rightLeads.2.1 (by simp [tail, ← leftSplit])).elim
    | append_singleton innerLeft node ih =>
      intro innerRight outer leftSplit rightSplit
      cases innerRight using List.reverseRecOn with
      | nil =>
        cases innerLeft
        all_goals
          obtain ⟨rfl, tail⟩ := List.cons.inj leftSplit
          exact (leftLeads.2.1 (by simp [tail, ← rightSplit])).elim
      | append_singleton innerRight other =>
        simp only [List.append_assoc] at leftSplit rightSplit
        have leftGoal : (innerLeft ++ [node]).head (by simp) = goal := by
          cases innerLeft <;> simp_all
        have rightGoal : (innerRight ++ [other]).head (by simp) = goal := by
          cases innerRight <;> simp_all
        have same : node = other := Leads.next_eq (leftSplit ▸ leftLeads) (rightSplit ▸ rightLeads)
          leftGoal rightGoal
        subst same
        exact ih innerRight (node :: outer) leftSplit rightSplit
  exact agree (goal :: left) (goal :: right) [] (by simp) (by simp)

end FirstPaths

section Loops
variable {g roots}

/-- After its last visit to its first node a walk does not come back to it. -/
theorem Walk.leave (walk : Walk g path node goal) (other : node ≠ goal) :
    ∃ edge ∈ g.out node, g.target edge ∉ node :: path ∧
      Walk g (node :: path) (g.target edge) goal := by
  induction walk with
  | refl => exact (other rfl).elim
  | @tail middle last walk turn ih =>
    have outside : last ∉ node :: path := by simp [other.symm, turn.2]
    by_cases here : node = middle
    · subst here
      obtain ⟨⟨edge, member, rfl⟩, _⟩ := turn
      exact ⟨edge, member, outside, .refl⟩
    · obtain ⟨edge, member, fresh, rest⟩ := ih here
      exact ⟨edge, member, fresh, rest.tail ⟨turn.1, outside⟩⟩

/-- A walk none of whose nodes is on the path. -/
theorem Walk.clear (walk : Walk g [] first last)
    (apart : ∀ node, Walk g [] first node → Walk g [] node last → node ∉ path) :
    Walk g path first last := by
  induction walk with
  | refl => exact .refl
  | tail walk turn ih =>
    refine (ih fun node before after => apart node before (after.tail turn)).tail
      ⟨turn.1, apart _ (walk.tail turn) .refl⟩

/-- Some choice leads to the goal, so there is a first one. -/
theorem Leads.choose (leads : Leads g roots goal path) (member : node ∈ choices g roots path)
    (fresh : node ∉ path) (walk : Walk g path node goal) :
    ∃ next ∈ choices g roots path, Leads g roots goal (next :: path) ∧ Walk g path next goal := by
  classical
  have some : ((choices g roots path).find?
      fun next => decide (next ∉ path ∧ Walk g path next goal)).isSome := by
    refine List.find?_isSome.mpr ⟨node, member, ?_⟩
    exact decide_eq_true ⟨fresh, walk⟩
  obtain ⟨next, found⟩ := Option.isSome_iff_exists.mp some
  obtain ⟨holds, earlier, later, listed, first⟩ := List.find?_eq_some_iff_append.mp found
  obtain ⟨new, onward⟩ := of_decide_eq_true holds
  refine ⟨next, by simp [listed], ⟨leads, new, earlier, later, listed, fun other before => ?_⟩,
    onward⟩
  have passed := first other before
  simp only [Bool.not_eq_true', decide_eq_false_iff_not, not_and] at passed
  exact or_iff_not_imp_left.mpr passed

variable [DecidableEq V] {scope : Finset V}
  (edgesKnown : ∀ node, ∀ edge ∈ g.out node, g.target edge ∈ scope)
include edgesKnown

/-- A path that leads to the goal goes on to the first path to it. -/
theorem Leads.extend (leads : Leads g roots goal (node :: path)) (walk : Walk g path node goal) :
    ∃ rest, Leads g roots goal (goal :: rest) ∧ node :: path <:+ goal :: rest := by
  -- each turn takes one more node of the scope
  induction room : (scope.filter (· ∉ node :: path)).card using Nat.strong_induction_on
    generalizing node path with
  | _ size ih =>
    by_cases arrived : node = goal
    · subst arrived
      exact ⟨path, leads, List.suffix_rfl⟩
    obtain ⟨edge, leaves, outside, onward⟩ := walk.leave arrived
    obtain ⟨next, chosen, extended, walk⟩ :=
      leads.choose (List.mem_map_of_mem leaves) outside onward
    have fewer : (scope.filter (· ∉ next :: node :: path)).card < size := by
      obtain ⟨taken, member, rfl⟩ := List.mem_map.mp chosen
      rw [← room]
      refine Finset.card_lt_card (Finset.ssubset_iff_of_subset ?_ |>.mpr ⟨g.target taken, ?_, ?_⟩)
      · exact Finset.monotone_filter_right scope fun other _ apart inside =>
          apart (List.mem_cons_of_mem _ inside)
      · exact Finset.mem_filter.mpr ⟨edgesKnown node taken member, extended.2.1⟩
      · simp
    obtain ⟨rest, first, inside⟩ := ih _ fewer extended walk rfl
    exact ⟨rest, first, (List.suffix_cons next _).trans inside⟩

/-- Where a first path meets no other node of a loop through its goal, the
search closes the loop. -/
theorem FirstPath.closes (first : Leads g roots goal (goal :: path))
    (apart : ∀ node, Walk g [] goal node → Walk g [] node goal → node ∉ path)
    (leaves : edge ∈ g.out goal) (back : Walk g [] (g.target edge) goal) :
    ∃ loop closing, FirstPath g roots loop ∧ Closes g loop closing := by
  have enter : Walk g [] goal (g.target edge) := .single ⟨⟨edge, leaves, rfl⟩, by simp⟩
  -- the last node of the loop before its goal
  obtain ⟨last, around, closing, member, returns⟩ : ∃ last, Walk g [] goal last ∧
      ∃ closing ∈ g.out last, g.target closing = goal := by
    rcases ReflTransGen.cases_tail back with same | ⟨last, walk, ⟨closing, member, returns⟩, _⟩
    · exact ⟨goal, .refl, edge, leaves, same.symm⟩
    · exact ⟨last, enter.trans walk, closing, member, returns⟩
  have finish : Walk g [] last goal := .single ⟨⟨closing, member, returns⟩, by simp⟩
  have onward := around.clear fun node before after => apart node before (after.trans finish)
  have home := finish.clear fun node before after => apart node (around.trans before) after
  obtain ⟨rest, leads, inside⟩ := (first.retarget home).extend edgesKnown onward
  refine ⟨last :: rest, closing, ⟨last, rest, rfl, leads⟩, last, rest, rfl, member, ?_⟩
  rw [returns]
  exact inside.subset (by simp)

/-- The loop is closed on the first path to its node that is entered first. -/
theorem FirstPath.loop (first : Leads g roots goal (goal :: path)) (leaves : edge ∈ g.out goal)
    (back : Walk g [] (g.target edge) goal) :
    ∃ loop closing, FirstPath g roots loop ∧ Closes g loop closing := by
  induction size : path.length using Nat.strong_induction_on generalizing goal path edge with
  | _ length ih =>
    by_cases apart : ∀ node, Walk g [] goal node → Walk g [] node goal → node ∉ path
    · exact FirstPath.closes edgesKnown first apart leaves back
    push Not at apart
    obtain ⟨node, there, here, inside⟩ := apart
    obtain ⟨inner, outer, rfl⟩ := List.append_of_mem inside
    have entered : Leads g roots node (node :: outer) :=
      Leads.through (show Leads g roots goal ((goal :: inner) ++ node :: outer) from first) rfl
    have shorter : outer.length < length := by
      rw [← size, List.length_append, List.length_cons]
      omega
    rcases ReflTransGen.cases_head here with rfl | ⟨_, ⟨⟨step, member, rfl⟩, _⟩, rest⟩
    · exact ih _ shorter entered leaves back rfl
    · exact ih _ shorter entered member (rest.trans there) rfl

/-- A loop that can be reached from a root is closed on some first path. -/
theorem loop_closes (rooted : root ∈ roots) (reach : Walk g [] root node)
    (leaves : edge ∈ g.out node) (back : Walk g [] (g.target edge) node) :
    ∃ path closing, FirstPath g roots path ∧ Closes g path closing := by
  have begun : Leads g roots node [] := trivial
  obtain ⟨next, _, leads, walk⟩ := begun.choose rooted (by simp) reach
  obtain ⟨path, first, _⟩ := leads.extend edgesKnown walk
  exact FirstPath.loop edgesKnown first leaves back

end Loops

section Machine

inductive Color where
  | white | gray | black
  deriving DecidableEq

structure Frame (V E : Type*) where
  node : V
  remaining : List E

/-- `roots` are the roots not yet looked at; the innermost frame stands first. -/
structure Search (V E A : Type*) where
  color : V → Color
  frames : List (Frame V E)
  roots : List V
  result : A

def nodes (frames : List (Frame V E)) : List V := frames.map (·.node)

variable [DecidableEq V] (note : A → List V → E → A)

/-- One turn of the search: the loop over the roots where the stack is empty,
else the loop over the edges of the innermost node. -/
def step (s : Search V E A) : Search V E A :=
  match s.frames with
  | [] =>
    match s.roots with
    | [] => s
    | root :: rest =>
      if s.color root = .white then
        { s with
          color := Function.update s.color root .gray
          frames := [⟨root, g.out root⟩]
          roots := rest }
      else { s with roots := rest }
  | frame :: outer =>
    match frame.remaining with
    | [] => { s with color := Function.update s.color frame.node .black, frames := outer }
    | edge :: rest =>
      let advanced := { frame with remaining := rest } :: outer
      match s.color (g.target edge) with
      | .gray => { s with frames := advanced, result := note s.result (nodes s.frames) edge }
      | .white =>
        { s with
          color := Function.update s.color (g.target edge) .gray
          frames := ⟨g.target edge, g.out (g.target edge)⟩ :: advanced }
      | .black => { s with frames := advanced }

def start (init : A) : Search V E A := ⟨fun _ => .white, [], roots, init⟩

/-- The search, with `note` told of every back edge and the stack it closes on. -/
def search (fuel : Nat) (init : A) : A := ((step g note)^[fuel] (start roots init)).result

def meet (met : List (List V × E)) (path : List V) (edge : E) : List (List V × E) :=
  met ++ [(path, edge)]

/-- The back edges in the order the search meets them. -/
def meetings (fuel : Nat) : List (List V × E) := search g roots meet fuel []

/-- What a search does is done to the back edges it meets, one after the other. -/
theorem search_eq_foldl (fuel : Nat) (init : A) : search g roots note fuel init =
    (meetings g roots fuel).foldl (fun result entry => note result entry.1 entry.2) init := by
  let replay (s : Search V E (List (List V × E))) : Search V E A :=
    { s with result := s.result.foldl (fun result entry => note result entry.1 entry.2) init }
  have turn : Function.Semiconj replay (step g meet) (step g note) := by
    rintro ⟨color, _ | ⟨⟨node, _ | ⟨edge, rest⟩⟩, outer⟩, _ | ⟨root, pending⟩, result⟩
    all_goals simp only [replay, step]
    case nil.cons => split_ifs <;> rfl
    all_goals cases color (g.target edge) <;> simp [meet]
  exact congrArg Search.result (turn.iterate_right fuel (start roots [])).symm

inductive Turn (s : Search V E A) : Search V E A → Prop where
  | ended : s.frames = [] → s.roots = [] → Turn s s
  | enter {root rest} : s.frames = [] → s.roots = root :: rest → s.color root = .white →
      Turn s { s with
        color := Function.update s.color root .gray
        frames := [⟨root, g.out root⟩]
        roots := rest }
  | pass {root rest} : s.frames = [] → s.roots = root :: rest → s.color root ≠ .white →
      Turn s { s with roots := rest }
  | leave {node outer} : s.frames = ⟨node, []⟩ :: outer →
      Turn s { s with color := Function.update s.color node .black, frames := outer }
  | back {node edge rest outer} : s.frames = ⟨node, edge :: rest⟩ :: outer →
      s.color (g.target edge) = .gray →
      Turn s { s with
        frames := ⟨node, rest⟩ :: outer
        result := note s.result (node :: nodes outer) edge }
  | descend {node edge rest outer} : s.frames = ⟨node, edge :: rest⟩ :: outer →
      s.color (g.target edge) = .white →
      Turn s { s with
        color := Function.update s.color (g.target edge) .gray
        frames := ⟨g.target edge, g.out (g.target edge)⟩ :: ⟨node, rest⟩ :: outer }
  | skip {node edge rest outer} : s.frames = ⟨node, edge :: rest⟩ :: outer →
      s.color (g.target edge) = .black →
      Turn s { s with frames := ⟨node, rest⟩ :: outer }

theorem step_turn (s : Search V E A) : Turn g note s (step g note s) := by
  obtain ⟨color, frames, pending, result⟩ := s
  cases frames with
  | nil =>
    cases pending with
    | nil => exact .ended rfl rfl
    | cons root rest =>
      simp only [step]
      split_ifs with fresh
      · exact .enter rfl rfl fresh
      · exact .pass rfl rfl fresh
  | cons frame outer =>
    obtain ⟨node, remaining⟩ := frame
    cases remaining with
    | nil => exact .leave rfl
    | cons edge rest =>
      cases seen : color (g.target edge) with
      | white =>
        simp only [step, seen]
        exact .descend rfl seen
      | gray =>
        simp only [step, seen]
        exact .back rfl seen
      | black =>
        simp only [step, seen]
        exact .skip rfl seen

end Machine

section Explored

def Closed (path : List V) (done : V → Prop) : Prop :=
  ∀ node, done node → ∀ edge ∈ g.out node, g.target edge ∈ path ∨ done (g.target edge)

variable {done : V → Prop}

variable {g} in
theorem Closed.walk (closed : Closed g path done) (walk : Walk g path first last)
    (inside : done first) : done last := by
  induction walk with
  | refl => exact inside
  | tail _ turn ih =>
    obtain ⟨⟨edge, member, rfl⟩, outside⟩ := turn
    rcases closed _ ih edge member with returned | on
    · exact (outside returned).elim
    · exact on

def pending (rest : List V) : List (Frame V E) → List V
  | [] => rest
  | frame :: _ => frame.remaining.map g.target

/-- The stack as it grew. `done` are the nodes finished when the innermost frame
was pushed: what was passed over before it is on the stack or among them. -/
inductive Trail (rest : List V) : List (Frame V E) → (V → Prop) → Prop where
  | empty : Trail rest [] fun _ => False
  | push {frames before done earlier node remaining} : Trail rest frames before →
      choices g roots (nodes frames) = earlier ++ node :: pending g rest frames →
      node ∉ nodes frames → ¬ done node → (∀ other, before other → done other) →
      Closed g (nodes frames) done →
      (∀ other ∈ earlier, other ∈ nodes frames ∨ done other) →
      Trail rest (⟨node, remaining⟩ :: frames) done

/-- Every back edge of a level looked at so far was met on that level's path. -/
def Noted (met : List (List V × E)) : List (Frame V E) → Prop
  | [] => True
  | frame :: outer => Noted met outer ∧ ∃ earlier, g.out frame.node = earlier ++ frame.remaining ∧
      ∀ edge ∈ earlier, g.target edge ∈ frame.node :: nodes outer →
        (frame.node :: nodes outer, edge) ∈ met

/-- The invariant of the search that lists the back edges it meets. -/
structure Explored (s : Search V E (List (List V × E))) : Prop where
  trail : ∃ done, Trail g roots s.roots s.frames done ∧ ∀ node, done node → s.color node = .black
  looked : ∃ earlier, choices g roots (nodes s.frames) = earlier ++ pending g s.roots s.frames ∧
    ∀ other ∈ earlier, other ∈ nodes s.frames ∨ s.color other = .black
  closed : Closed g (nodes s.frames) fun node => s.color node = .black
  gray : ∀ node, s.color node = .gray ↔ node ∈ nodes s.frames
  noted : Noted g s.result s.frames
  finished : ∀ node, s.color node = .black → ∃ path, Leads g roots node (node :: path) ∧
    ∀ edge ∈ g.out node, g.target edge ∈ node :: path → (node :: path, edge) ∈ s.result
  real : ∀ entry ∈ s.result, FirstPath g roots entry.1 ∧ Closes g entry.1 entry.2

variable {g roots}

theorem Trail.leads (trail : Trail g roots rest frames done) (fresh : ¬ done goal) :
    Leads g roots goal (nodes frames) := by
  induction trail with
  | empty => trivial
  | push _ listed new _ grows closed passed ih =>
    refine ⟨ih fun early => fresh (grows _ early), new, _, _, listed, ?_⟩
    intro other member
    rcases passed other member with old | finished
    · exact .inl old
    · exact .inr fun walk => fresh (closed.walk walk finished)

theorem Trail.leads_innermost (trail : Trail g roots rest (⟨node, remaining⟩ :: outer) done) :
    Leads g roots node (node :: nodes outer) := by
  have leads : ¬ done node → Leads g roots node (node :: nodes outer) := trail.leads
  cases trail with
  | push _ _ _ unfinished => exact leads unfinished

/-- How far the innermost level was looked at is not part of the trail. -/
theorem Trail.advance (trail : Trail g roots rest (⟨node, remaining⟩ :: outer) done) (left : List E) :
    Trail g roots rest (⟨node, left⟩ :: outer) done := by
  cases trail with
  | push before listed new unfinished grows closed passed =>
    exact .push before listed new unfinished grows closed passed

theorem Noted.mono (noted : Noted g met frames) : Noted g (met ++ more) frames := by
  induction frames with
  | nil => trivial
  | cons frame outer ih =>
    obtain ⟨below, earlier, listed, recorded⟩ := noted
    refine ⟨ih below, earlier, listed, fun edge member inside => ?_⟩
    exact List.mem_append_left _ (recorded edge member inside)

theorem start_explored : Explored g roots (start roots []) where
  trail := ⟨_, .empty, fun _ none => none.elim⟩
  looked := ⟨[], rfl, by simp⟩
  closed := by
    intro node black
    cases black
  gray := by simp [start, nodes]
  noted := trivial
  finished := by
    intro node black
    cases black
  real := by simp [start]

variable [DecidableEq V]

/-- A white node is pushed on the stack. The level it was chosen on has looked at
everything before it. -/
theorem push_explored (explored : Explored g roots s) (white : s.color node = .white)
    (same : nodes frames = nodes s.frames)
    (trail : ∃ done, Trail g roots rest frames done ∧ ∀ other, done other → s.color other = .black)
    (listed : choices g roots (nodes frames) = earlier ++ node :: pending g rest frames)
    (passed : ∀ other ∈ earlier, other ∈ nodes s.frames ∨ s.color other = .black)
    (noted : Noted g s.result frames) :
    Explored g roots
      { s with
        color := Function.update s.color node .gray
        frames := ⟨node, g.out node⟩ :: frames
        roots := rest } := by
  have black : ∀ other, Function.update s.color node .gray other = .black ↔
      s.color other = .black := by
    intro other
    by_cases here : other = node
    · simp [here, white]
    · simp [here]
  have fresh : node ∉ nodes frames := by
    rw [same]
    exact mt (explored.gray node).mpr (by simp [white])
  obtain ⟨done, trail, below⟩ := trail
  refine ⟨⟨fun other => s.color other = .black, ?_, fun other => (black other).mpr⟩,
    ⟨[], rfl, by simp⟩, ?_, ?_, ⟨noted, [], rfl, by simp⟩, ?_, explored.real⟩
  · refine .push trail listed fresh (by simp [white]) below (same ▸ explored.closed) ?_
    exact fun other member => same ▸ passed other member
  · intro other finished edge member
    rcases explored.closed other ((black other).mp finished) edge member with inside | done
    · rw [← same] at inside
      exact .inl (List.mem_cons_of_mem _ inside)
    · exact .inr ((black _).mpr done)
  · intro other
    by_cases here : other = node
    · simp [here, nodes]
    · have outer := explored.gray other
      rw [← same] at outer
      simpa [nodes, here] using outer
  · exact fun other finished => explored.finished other ((black other).mp finished)

omit [DecidableEq V] in
/-- An edge to a node on the stack or to a finished one is looked at; `more` is
what it adds to the back edges met. -/
theorem advance_explored (more : List (List V × E)) (explored : Explored g roots s)
    (stack : s.frames = ⟨node, edge :: rest⟩ :: outer)
    (seen : g.target edge ∈ node :: nodes outer ∨ s.color (g.target edge) = .black)
    (record : g.target edge ∈ node :: nodes outer → (node :: nodes outer, edge) ∈ s.result ++ more)
    (real : ∀ entry ∈ more, FirstPath g roots entry.1 ∧ Closes g entry.1 entry.2) :
    Explored g roots
      { s with frames := ⟨node, rest⟩ :: outer, result := s.result ++ more } := by
  obtain ⟨done, trail, below⟩ := explored.trail
  obtain ⟨earlier, listed, passed⟩ := explored.looked
  have noted := explored.noted
  have closed := explored.closed
  have gray := explored.gray
  rw [stack] at trail listed passed noted closed gray
  obtain ⟨noted, looked, all, recorded⟩ := noted
  refine ⟨⟨done, trail.advance rest, below⟩, ⟨earlier ++ [g.target edge], ?_, ?_⟩, closed,
    gray, ⟨noted.mono, looked ++ [edge], ?_, ?_⟩, ?_, ?_⟩
  · rw [List.append_assoc]
    exact listed
  · exact List.forall_mem_append.mpr ⟨passed, List.forall_mem_singleton.mpr seen⟩
  · rw [List.append_assoc]
    exact all
  · exact List.forall_mem_append.mpr ⟨fun other old back =>
      List.mem_append_left _ (recorded other old back), List.forall_mem_singleton.mpr record⟩
  · intro other finished
    obtain ⟨path, leads, known⟩ := explored.finished other finished
    exact ⟨path, leads, fun edge member back => List.mem_append_left _ (known edge member back)⟩
  · exact List.forall_mem_append.mpr ⟨explored.real, real⟩

/-- The innermost node is finished: everything it points to was looked at. -/
theorem leave_explored (explored : Explored g roots s) (stack : s.frames = ⟨node, []⟩ :: outer) :
    Explored g roots
      { s with color := Function.update s.color node .black, frames := outer } := by
  obtain ⟨done, trail, below⟩ := explored.trail
  obtain ⟨earlier, listed, passed⟩ := explored.looked
  have noted := explored.noted
  rw [stack] at trail listed passed noted
  have leads := trail.leads_innermost
  have black : ∀ other, Function.update s.color node .black other = .black ↔
      other = node ∨ s.color other = .black := by
    intro other
    by_cases here : other = node
    · simp [here]
    · simp [here]
  obtain ⟨noted, looked, all, recorded⟩ := noted
  have complete : ∀ edge ∈ g.out node,
      g.target edge ∈ node :: nodes outer ∨ s.color (g.target edge) = .black := by
    intro edge member
    refine passed _ ?_
    have inside : g.target edge ∈ choices g roots (nodes (⟨node, []⟩ :: outer)) :=
      List.mem_map_of_mem member
    simpa [listed, pending] using inside
  cases trail with
  | @push _ before _ earlier _ _ outerTrail outerListed new _ grows _ outerPassed =>
    refine ⟨⟨before, outerTrail, fun other early => ?_⟩,
      ⟨earlier ++ [node], by simpa using outerListed, ?_⟩, ?_, ?_, noted, ?_, explored.real⟩
    · exact (black other).mpr (.inr (below other (grows other early)))
    · refine List.forall_mem_append.mpr ⟨fun other old => ?_, by simp⟩
      exact (outerPassed other old).imp_right fun finished =>
        (black other).mpr (.inr (below other finished))
    · -- what the node or a finished node points to is on the rest of the stack or finished
      intro other finished edge member
      have next : g.target edge ∈ node :: nodes outer ∨ s.color (g.target edge) = .black := by
        rcases (black other).mp finished with rfl | old
        · exact complete edge member
        · have closed := explored.closed other old edge member
          rwa [stack] at closed
      rcases next with inside | done
      · rcases List.mem_cons.mp inside with here | further
        · exact .inr ((black _).mpr (.inl here))
        · exact .inl further
      · exact .inr ((black _).mpr (.inr done))
    · intro other
      have gray := explored.gray other
      rw [stack] at gray
      by_cases here : other = node
      · subst here
        simpa using new
      · simpa [nodes, here] using gray
    · intro other finished
      rcases (black other).mp finished with rfl | old
      · refine ⟨nodes outer, leads, fun edge member inside => recorded edge ?_ inside⟩
        rw [List.append_nil] at all
        exact all ▸ member
      · exact explored.finished other old

/-- A turn keeps the invariant; a back edge is met on its stack. -/
theorem turn_explored (turn : Turn g meet s t) (explored : Explored g roots s) :
    Explored g roots t := by
  obtain ⟨done, trail, below⟩ := explored.trail
  obtain ⟨earlier, listed, passed⟩ := explored.looked
  have noted := explored.noted
  cases turn with
  | ended => exact explored
  | @enter root rest empty waiting white =>
    rw [empty, waiting] at listed
    exact push_explored explored white (by rw [empty]) ⟨_, .empty, fun _ none => none.elim⟩ listed
      passed trivial
  | @pass root rest empty waiting seen =>
    rw [waiting] at listed
    have black : s.color root = .black := by
      cases color : s.color root with
      | white => exact (seen color).elim
      | gray =>
        have inside := (explored.gray root).mp color
        rw [empty] at inside
        cases inside
      | black => rfl
    have trail : Trail g roots rest s.frames fun _ => False := by
      rw [empty]
      exact .empty
    refine ⟨⟨_, trail, fun _ none => none.elim⟩, ⟨earlier ++ [root], ?_, ?_⟩, explored.closed,
      explored.gray, explored.noted, explored.finished, explored.real⟩
    · simpa [empty, pending] using listed
    · exact List.forall_mem_append.mpr ⟨passed, List.forall_mem_singleton.mpr (.inr black)⟩
  | leave stack => exact leave_explored explored stack
  | @back node edge rest outer stack gray =>
    rw [stack] at trail noted
    have inside : g.target edge ∈ node :: nodes outer := by
      have member := (explored.gray _).mp gray
      rwa [stack] at member
    refine advance_explored [_] explored stack (.inl inside) (by simp) ?_
    intro entry member
    rw [List.mem_singleton.mp member]
    obtain ⟨_, looked, all, _⟩ := noted
    refine ⟨⟨node, _, rfl, trail.leads_innermost⟩, node, _, rfl, ?_, inside⟩
    rw [all]
    simp
  | @descend node edge rest outer stack white =>
    rw [stack] at trail listed noted
    obtain ⟨noted, looked, all, recorded⟩ := noted
    have outside := mt (explored.gray (g.target edge)).mpr (by simp [white])
    rw [stack] at outside
    refine push_explored explored white (by rw [stack]; rfl) ⟨done, trail.advance rest, below⟩
      listed passed ⟨noted, looked ++ [edge], by simpa using all, ?_⟩
    exact List.forall_mem_append.mpr ⟨recorded, List.forall_mem_singleton.mpr fun back =>
      (outside back).elim⟩
  | @skip node edge rest outer stack black =>
    have outside := mt (explored.gray (g.target edge)).mpr (by simp [black])
    rw [stack] at outside
    have advanced := advance_explored [] explored stack (.inr black)
      (fun inside => (outside inside).elim) (by simp)
    rwa [List.append_nil] at advanced

end Explored

section Termination
variable {g roots} [DecidableEq V] (scope : Finset V)

/-- Turns to come: one for each root and each edge not yet looked at, and one for
leaving each node. -/
def turnsLeft (g : Graph V E) (scope : Finset V) (s : Search V E A) : Nat :=
  s.roots.length + (s.frames.map fun frame => frame.remaining.length + 1).sum +
    ∑ node ∈ scope, if s.color node = .white then (g.out node).length + 1 else 0

theorem sum_update_white (color : V → Color) (weight : V → Nat) (inside : node ∈ scope)
    (white : color node = .white) (colored : next ≠ .white) :
    weight node + (∑ v ∈ scope, if Function.update color node next v = .white then weight v else 0) =
      ∑ v ∈ scope, if color v = .white then weight v else 0 := by
  rw [← Finset.add_sum_erase scope _ inside, ← Finset.add_sum_erase scope _ inside]
  have others : ∀ v ∈ scope.erase node,
      (if Function.update color node next v = .white then weight v else 0) =
        if color v = .white then weight v else 0 := by
    intro v member
    rw [Function.update_of_ne (Finset.ne_of_mem_erase member)]
  rw [Finset.sum_congr rfl others]
  simp [white, colored]

theorem turn_progress (explored : Explored g roots s)
    (rootsKnown : ∀ root ∈ roots, root ∈ scope)
    (edgesKnown : ∀ node, ∀ edge ∈ g.out node, g.target edge ∈ scope) (turn : Turn g meet s t) :
    s.frames = [] ∧ s.roots = [] ∨ turnsLeft g scope t + 1 = turnsLeft g scope s := by
  have listed := explored.looked
  have noted := explored.noted
  cases turn with
  | ended empty none => exact .inl ⟨empty, none⟩
  | @enter root rest empty waiting white =>
    obtain ⟨earlier, listed, _⟩ := listed
    rw [empty, waiting] at listed
    have inside : root ∈ scope := by
      apply rootsKnown
      have all : roots = earlier ++ root :: rest := listed
      simp [all]
    have visited := sum_update_white scope s.color (fun node => (g.out node).length + 1) inside
      white (show Color.gray ≠ .white by simp)
    right
    simp only [turnsLeft, empty, waiting, List.map_cons, List.sum_cons, List.length_cons]
    omega
  | @pass root rest empty waiting seen =>
    right
    simp only [turnsLeft, waiting, List.length_cons]
    omega
  | @leave node outer stack =>
    have visited : s.color node = .gray := (explored.gray node).mpr (by simp [stack, nodes])
    have same : ∀ other, (Function.update s.color node .black other = .white) ↔
        s.color other = .white := by
      intro other
      by_cases here : other = node
      · simp [here, visited]
      · simp [here]
    right
    simp only [turnsLeft, same, stack, List.map_cons, List.sum_cons, List.length_nil]
    omega
  | @back node edge rest outer stack gray =>
    right
    simp only [turnsLeft, stack, List.map_cons, List.sum_cons, List.length_cons]
    omega
  | @descend node edge rest outer stack white =>
    rw [stack] at noted
    obtain ⟨_, earlier, all, _⟩ := noted
    have inside : g.target edge ∈ scope := edgesKnown node edge (by rw [all]; simp)
    have visited := sum_update_white scope s.color (fun node => (g.out node).length + 1) inside
      white (show Color.gray ≠ .white by simp)
    right
    simp only [turnsLeft, stack, List.map_cons, List.sum_cons, List.length_cons]
    omega
  | @skip node edge rest outer stack black =>
    right
    simp only [turnsLeft, stack, List.map_cons, List.sum_cons, List.length_cons]
    omega

theorem run_explored (rootsKnown : ∀ root ∈ roots, root ∈ scope)
    (edgesKnown : ∀ node, ∀ edge ∈ g.out node, g.target edge ∈ scope) (fuel : Nat)
    (explored : Explored g roots s) (enough : turnsLeft g scope s ≤ fuel) :
    Explored g roots ((step g meet)^[fuel] s) ∧
      ((step g meet)^[fuel] s).frames = [] ∧ ((step g meet)^[fuel] s).roots = [] := by
  induction fuel generalizing s with
  | zero =>
    have none : turnsLeft g scope s = 0 := by omega
    simp only [turnsLeft, Nat.add_eq_zero_iff, List.length_eq_zero_iff] at none
    refine ⟨explored, ?_, none.1.1⟩
    cases stack : s.frames with
    | nil => exact stack
    | cons frame outer =>
      have some := none.1.2
      rw [stack] at some
      simp at some
  | succ fuel ih =>
    rw [Function.iterate_succ_apply]
    have turn := step_turn g meet s
    rcases turn_progress scope explored rootsKnown edgesKnown turn with ⟨empty, none⟩ | less
    · have same : step g meet s = s := by simp only [step, empty, none]
      have fixed : (step g meet)^[fuel] s = s := Function.iterate_fixed same fuel
      rw [same, fixed]
      exact ⟨explored, empty, none⟩
    · exact ih (turn_explored turn explored) (by omega)

omit [DecidableEq V] in
/-- Every node of a path from the roots is finished when the search is over. -/
theorem Explored.path_black (explored : Explored g roots s) (empty : s.frames = [])
    (none : s.roots = []) (leads : Leads g roots goal path) :
    ∀ node ∈ path, s.color node = .black := by
  have closed := explored.closed
  obtain ⟨earlier, listed, passed⟩ := explored.looked
  rw [empty] at closed passed listed
  rw [none] at listed
  have rootsBlack : ∀ root ∈ roots, s.color root = .black := by
    intro root member
    have all : roots = earlier ++ [] := listed
    rw [List.append_nil] at all
    rcases passed root (all ▸ member) with inside | black
    · cases inside
    · exact black
  induction path with
  | nil => simp
  | cons node path ih =>
    have before := ih leads.1
    obtain ⟨_, _, first, later, chosen, _⟩ := leads
    have member : node ∈ choices g roots path := by
      rw [chosen]
      simp
    intro other inside
    rcases List.mem_cons.mp inside with rfl | old
    · cases path with
      | nil => exact rootsBlack _ member
      | cons last path =>
        obtain ⟨edge, leaves, rfl⟩ := List.mem_map.mp member
        rcases closed last (before last (by simp)) edge leaves with inside | black
        · cases inside
        · exact black
    · exact before other old

/-- The search meets exactly the edges that close a loop on the first path to their
source. -/
theorem mem_meetings (rootsKnown : ∀ root ∈ roots, root ∈ scope)
    (edgesKnown : ∀ node, ∀ edge ∈ g.out node, g.target edge ∈ scope)
    (enough : roots.length + ∑ node ∈ scope, ((g.out node).length + 1) ≤ fuel) :
    (path, edge) ∈ meetings g roots fuel ↔ FirstPath g roots path ∧ Closes g path edge := by
  have turns : turnsLeft g scope (start roots [] : Search V E (List (List V × E))) ≤ fuel := by
    simpa [turnsLeft, start] using enough
  obtain ⟨explored, empty, none⟩ :=
    run_explored scope rootsKnown edgesKnown fuel start_explored turns
  refine ⟨explored.real (path, edge), ?_⟩
  rintro ⟨⟨goal, rest, rfl, leads⟩, node, tail, same, leaves, back⟩
  obtain ⟨rfl, rfl⟩ := List.cons.inj same
  have black := explored.path_black empty none leads goal (by simp)
  obtain ⟨other, first, recorded⟩ := explored.finished goal black
  rw [FirstPath.unique leads first] at back ⊢
  exact recorded edge leaves back

end Termination

end DepthFirst

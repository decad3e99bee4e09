import SpaceDataModule.Flow.Document
import SpaceDataModule.DepthFirst
import Mathlib.Algebra.BigOperators.Group.Finset.Piecewise
import Mathlib.Algebra.Order.BigOperators.Group.Finset

/-! Cycle detection of the flow compiler: `findFlowCycles`, `edgeIsBounded` and
the cycle check of `checkFlowProgram`. -/
namespace SpaceDataModule.Flow
open JavaScript

structure Cycle where
  nodeIds : List String
  edges : List Edge
  deriving DecidableEq

/-- The keys of `color`, in declaration order; nodes without an id are skipped.
A repeated id stays listed: when it comes up again it is no longer white. -/
def knownIds (nodes : List Node) : List String :=
  (nodes.map (·.nodeId)).filter fun nodeId => nodeId ≠ ""

/-- The map `out`, with the edges between known nodes in declaration order. -/
def nodeGraph (nodes : List Node) (edges : List Edge) : DepthFirst.Graph String Edge where
  out nodeId := edges.filter fun edge => edge.fromNodeId = nodeId ∧
    edge.fromNodeId ∈ knownIds nodes ∧ edge.toNodeId ∈ knownIds nodes
  target := Edge.toNodeId

/-- The part of the stack from the target of a back edge on, outermost first. -/
def loopNodes (path : List String) (edge : Edge) : List String :=
  let stack := path.reverse
  stack.drop (stack.idxOf edge.toNodeId)

/-- The first edge between each node of a loop and the next. -/
def cycleEdges (graph : DepthFirst.Graph String Edge) (nodeIds : List String) : List Edge :=
  (nodeIds.zip (nodeIds.tail ++ nodeIds.take 1)).filterMap fun pair =>
    (graph.out pair.1).find? fun candidate => candidate.toNodeId = pair.2

def cycleKey (nodeIds : List String) : String := join '\x00' (sorted nodeIds)

/-- The back-edge branch of `visit`, over the cycles found and the keys seen. -/
def recordCycle (graph : DepthFirst.Graph String Edge) (found : List Cycle × List String)
    (path : List String) (edge : Edge) : List Cycle × List String :=
  let nodeIds := loopNodes path edge
  let key := cycleKey nodeIds
  if key ∈ found.2 then found
  else (found.1 ++ [⟨nodeIds, cycleEdges graph nodeIds⟩], found.2 ++ [key])

/-- The turns the loops of `findFlowCycles` may take. The bound is never reached:
each known node is entered and left once and each edge is looked at once. -/
def turnBound (nodes : List Node) (edges : List Edge) : Nat := 2 * nodes.length + edges.length

def findFlowCycles (nodes : List Node) (edges : List Edge) : List Cycle :=
  let graph := nodeGraph nodes edges
  (DepthFirst.search graph (knownIds nodes) (recordCycle graph) (turnBound nodes edges) ([], [])).1

def edgeIsBounded (edge : Edge) : Bool :=
  let policy := toLowerCase (edge.backpressurePolicy.elim "queue" EnumValue.spelled)
  let boundedPolicy := policy = "queue" ∨ policy = "drop-oldest" ∨ policy = "drop-newest"
  match edge.queueDepth.getD (.finite 1) with
  | .finite depth => decide (boundedPolicy ∧ 0 < depth ∧ depth ≤ 65536)
  | _ => false

inductive Severity where
  | error | warning
  deriving DecidableEq

structure Issue where
  severity : Severity
  code : String
  message : String
  location : String
  deriving DecidableEq

/-- The issue `checkFlowProgram` pushes for one cycle. -/
def cycleIssue (allowCycles : Bool) (cycle : Cycle) : Issue :=
  let path := " -> ".intercalate (cycle.nodeIds ++ cycle.nodeIds.take 1)
  if !allowCycles then
    { severity := .error
      code := "flow-cycle"
      message := "Flow graph contains a cycle: " ++ path ++
        ". Cycles hang the scheduler; break the loop, " ++
        "or set flow.allowCycles = true AND give every edge in the cycle a bounded " ++
        "backpressure policy (finite queueDepth)."
      location := "flow.edges" }
  else
    let unbounded := cycle.edges.filter fun edge => !edgeIsBounded edge
    if unbounded.isEmpty then
      { severity := .warning
        code := "sanctioned-cycle"
        message := "Flow contains a sanctioned feedback cycle (" ++ path ++
          "); all cycle edges are bounded."
        location := "flow.edges" }
    else
      { severity := .error
        code := "unbounded-cycle"
        message := "Flow cycle " ++ path ++
          " is allowed by flow.allowCycles but has unbounded edges (" ++
          ", ".intercalate (unbounded.map fun edge => edge.fromNodeId ++ " -> " ++ edge.toNodeId) ++
          "); every cycle edge needs backpressurePolicy queue|drop-oldest|drop-newest " ++
          "with a finite queueDepth."
        location := "flow.edges" }

variable (document : Document)

/-- The cycle check of `checkFlowProgram`. -/
def cycleIssues : List Issue :=
  (findFlowCycles document.nodes document.edges).map (cycleIssue document.allowCycles)

section Search

theorem mem_out :
    edge ∈ (nodeGraph nodes edges).out nodeId ↔ edge ∈ edges ∧ edge.fromNodeId = nodeId ∧
      edge.fromNodeId ∈ knownIds nodes ∧ edge.toNodeId ∈ knownIds nodes := by
  simp [nodeGraph]

variable (nodes : List Node)

theorem sum_out_le (edges : List Edge) (scope : Finset String) :
    ∑ nodeId ∈ scope, ((nodeGraph nodes edges).out nodeId).length ≤ edges.length := by
  induction edges with
  | nil => simp [nodeGraph]
  | cons edge rest ih =>
    have one : ∀ nodeId, ((nodeGraph nodes (edge :: rest)).out nodeId).length ≤
        ((nodeGraph nodes rest).out nodeId).length + if edge.fromNodeId = nodeId then 1 else 0 := by
      intro nodeId
      simp only [nodeGraph, List.filter_cons]
      split_ifs with kept leaves
      · simp
      · simp_all
      · omega
      · omega
    calc ∑ nodeId ∈ scope, ((nodeGraph nodes (edge :: rest)).out nodeId).length
        ≤ ∑ nodeId ∈ scope, (((nodeGraph nodes rest).out nodeId).length +
            if edge.fromNodeId = nodeId then 1 else 0) :=
          Finset.sum_le_sum fun nodeId _ => one nodeId
      _ ≤ rest.length + 1 := by
          rw [Finset.sum_add_distrib, Finset.sum_ite_eq]
          have last : (if edge.fromNodeId ∈ scope then 1 else 0) ≤ 1 := by split_ifs <;> omega
          omega

theorem knownIds_length_le : (knownIds nodes).length ≤ nodes.length := by
  simpa [knownIds] using List.length_filter_le (fun nodeId => nodeId ≠ "") (nodes.map (·.nodeId))

/-- The back edges in the order the search meets them, each with its stack. -/
def metEdges (edges : List Edge) : List (List String × Edge) :=
  DepthFirst.meetings (nodeGraph nodes edges) (knownIds nodes) (turnBound nodes edges)

theorem findFlowCycles_met (edges : List Edge) : findFlowCycles nodes edges =
    ((metEdges nodes edges).foldl (fun found entry =>
      recordCycle (nodeGraph nodes edges) found entry.1 entry.2) ([], [])).1 :=
  congrArg Prod.fst (DepthFirst.search_eq_foldl ..)

/-- The search meets exactly the edges that close a loop on a first path. -/
theorem mem_metEdges {path : List String} {edge : Edge} (edges : List Edge) :
    (path, edge) ∈ metEdges nodes edges ↔
      DepthFirst.FirstPath (nodeGraph nodes edges) (knownIds nodes) path ∧
        DepthFirst.Closes (nodeGraph nodes edges) path edge := by
  refine DepthFirst.mem_meetings (knownIds nodes).toFinset
    (fun root member => List.mem_toFinset.mpr member)
    (fun nodeId edge member => List.mem_toFinset.mpr (mem_out.mp member).2.2.2) ?_
  have edgesOnce := sum_out_le nodes edges (knownIds nodes).toFinset
  have nodesOnce := (knownIds nodes).toFinset_card_le
  have declared := knownIds_length_le nodes
  rw [Finset.sum_add_distrib, ← Finset.card_eq_sum_ones, turnBound]
  omega

end Search

section Record

/-- Where a back edge closes the path, and what the stack slice is. -/
theorem loopNodes_closes (closes : DepthFirst.Closes graph path edge) (distinct : path.Nodup)
    (target : graph.target edge = edge.toNodeId) :
    ∃ inner outer, path = inner ++ edge.toNodeId :: outer ∧
      loopNodes path edge = edge.toNodeId :: inner.reverse := by
  obtain ⟨_, _, _, _, inside⟩ := closes
  rw [target] at inside
  obtain ⟨inner, outer, rfl⟩ := List.append_of_mem inside
  refine ⟨inner, outer, rfl, ?_⟩
  have outside : edge.toNodeId ∉ outer.reverse := by
    have tail := (List.nodup_append.mp distinct).2.1
    simpa using (List.nodup_cons.mp tail).1
  simp [loopNodes, List.idxOf_append_of_notMem outside]

theorem mem_of_mem_loopNodes (member : nodeId ∈ loopNodes path edge) : nodeId ∈ path :=
  List.mem_reverse.mp (List.mem_of_mem_drop member)

theorem leads_nodup (leads : DepthFirst.Leads graph roots goal path) : path.Nodup := by
  induction path with
  | nil => exact List.nodup_nil
  | cons node path ih => exact List.nodup_cons.mpr ⟨leads.2.1, ih leads.1⟩

/-- A first path whose innermost node lies on another one is its outer part. -/
theorem firstPath_suffix (leads : DepthFirst.Leads graph roots goal path)
    (innermost : path.head? = some goal) (through : path = front ++ node :: outer)
    (first : DepthFirst.Leads graph roots node (node :: rest)) : path = front ++ node :: rest := by
  subst through
  have reaches : (front ++ [node]).head (by simp) = goal := by
    cases front <;> simpa using innermost
  rw [DepthFirst.FirstPath.unique (leads.through reaches) first]

variable {graph : DepthFirst.Graph String Edge} (target : ∀ edge, graph.target edge = edge.toNodeId)
  (leftFirst : DepthFirst.FirstPath graph roots left)
  (rightFirst : DepthFirst.FirstPath graph roots right)
  (leftCloses : DepthFirst.Closes graph left leftEdge)
  (rightCloses : DepthFirst.Closes graph right rightEdge)
include target leftFirst rightFirst leftCloses rightCloses

/-- Loops on first paths are told apart by their nodes. -/
theorem loopNodes_perm (same : (loopNodes left leftEdge).Perm (loopNodes right rightEdge)) :
    loopNodes left leftEdge = loopNodes right rightEdge := by
  obtain ⟨leftGoal, leftRest, leftPath, leftLeads⟩ := leftFirst
  obtain ⟨rightGoal, rightRest, rightPath, rightLeads⟩ := rightFirst
  obtain ⟨leftInner, leftOuter, leftSplit, leftLoop⟩ :=
    loopNodes_closes leftCloses (leads_nodup leftLeads) (target leftEdge)
  obtain ⟨rightInner, rightOuter, rightSplit, rightLoop⟩ :=
    loopNodes_closes rightCloses (leads_nodup rightLeads) (target rightEdge)
  -- the innermost node of either path lies on the other's loop
  have onRight : leftGoal ∈ right := by
    have here : leftGoal ∈ loopNodes left leftEdge := by
      cases leftInner <;> simp_all
    exact mem_of_mem_loopNodes (same.mem_iff.mp here)
  have onLeft : rightGoal ∈ left := by
    have here : rightGoal ∈ loopNodes right rightEdge := by
      cases rightInner <;> simp_all
    exact mem_of_mem_loopNodes (same.mem_iff.mpr here)
  obtain ⟨ahead, behind, rightThrough⟩ := List.append_of_mem onRight
  obtain ⟨ahead', behind', leftThrough⟩ := List.append_of_mem onLeft
  have rightSuffix := firstPath_suffix rightLeads (by rw [rightPath]; rfl) rightThrough
    (leftPath ▸ leftLeads)
  have leftSuffix := firstPath_suffix leftLeads (by rw [leftPath]; rfl) leftThrough
    (rightPath ▸ rightLeads)
  have samePath : left = right := by
    have lengths := congrArg List.length rightSuffix
    have lengths' := congrArg List.length leftSuffix
    rw [← leftPath, List.length_append] at lengths
    rw [← rightPath, List.length_append] at lengths'
    have none : ahead = [] := List.length_eq_zero_iff.mp (by omega)
    rw [rightSuffix, none, List.nil_append, ← leftPath]
  have sameLength := same.length_eq
  rw [leftLoop, rightLoop] at sameLength ⊢
  rw [samePath, rightSplit] at leftSplit
  obtain ⟨inner, tail⟩ := List.append_inj leftSplit (by simpa using sameLength.symm)
  rw [inner, (List.cons.inj tail).1]

end Record

/-- Of the loops met under one key, this is the loop the search meets first. -/
def FirstMet (met : List (List String × Edge)) (entry : List String × Edge) : Prop :=
  met.find? (fun other => cycleKey (loopNodes other.1 other.2) =
    cycleKey (loopNodes entry.1 entry.2)) = some entry

/-- The edge is the first between two neighbors of a loop made of the first path
to a node and an edge from there back to the path, and no loop with the same key
is met before it. -/
def Watched (edge : Edge) : Prop :=
  let graph := nodeGraph document.nodes document.edges
  ∃ path closing, DepthFirst.FirstPath graph (knownIds document.nodes) path ∧
    DepthFirst.Closes graph path closing ∧
    FirstMet (metEdges document.nodes document.edges) (path, closing) ∧
    edge ∈ cycleEdges graph (loopNodes path closing)

/-- The edge joins two nodes of the flow and its source can be reached from its
target: it lies on a directed cycle. -/
def OnCycle (edge : Edge) : Prop :=
  edge.fromNodeId ∈ knownIds document.nodes ∧ edge.toNodeId ∈ knownIds document.nodes ∧
    DepthFirst.Walk (nodeGraph document.nodes document.edges) [] edge.toNodeId edge.fromNodeId

section Check

/-- What the back-edge branch has recorded of the entries met so far. -/
structure Recorded (graph : DepthFirst.Graph String Edge) (met : List (List String × Edge))
    (found : List Cycle × List String) : Prop where
  cycles : ∀ cycle, cycle ∈ found.1 ↔ ∃ entry, FirstMet met entry ∧
    cycle = ⟨loopNodes entry.1 entry.2, cycleEdges graph (loopNodes entry.1 entry.2)⟩
  keys : ∀ key, key ∈ found.2 ↔ ∃ entry ∈ met, cycleKey (loopNodes entry.1 entry.2) = key

theorem FirstMet.mem (first : FirstMet met entry) : entry ∈ met :=
  List.mem_of_find?_eq_some first

theorem firstMet_append : FirstMet (met ++ [new]) entry ↔ FirstMet met entry ∨ entry = new ∧
    ∀ other ∈ met, cycleKey (loopNodes other.1 other.2) ≠ cycleKey (loopNodes new.1 new.2) := by
  unfold FirstMet
  rw [List.find?_append]
  cases known : met.find? fun other =>
      cycleKey (loopNodes other.1 other.2) = cycleKey (loopNodes entry.1 entry.2) with
  | some first =>
    have member := List.mem_of_find?_eq_some known
    have same : cycleKey (loopNodes first.1 first.2) = cycleKey (loopNodes entry.1 entry.2) := by
      simpa using List.find?_some known
    constructor
    · exact fun here => .inl (by simpa using here)
    · rintro (here | ⟨rfl, fresh⟩)
      · simpa using here
      · exact (fresh first member same).elim
  | none =>
    simp only [List.find?_eq_none, decide_eq_true_eq] at known
    rw [Option.none_or, List.find?_singleton]
    constructor
    · intro here
      obtain rfl := Option.some.inj (Option.ite_none_right_eq_some.mp here).2
      exact .inr ⟨rfl, known⟩
    · rintro (old | ⟨rfl, _⟩)
      · cases old
      · simp

theorem record_recorded (recorded : Recorded graph met found) (entry : List String × Edge) :
    Recorded graph (met ++ [entry]) (recordCycle graph found entry.1 entry.2) := by
  rw [recordCycle]
  split_ifs with known
  all_goals rw [recorded.keys] at known
  · refine ⟨fun cycle => ?_, fun key => ?_⟩
    · have old : ∀ other, FirstMet (met ++ [entry]) other ↔ FirstMet met other := by
        intro other
        rw [firstMet_append, or_iff_left]
        rintro ⟨_, fresh⟩
        obtain ⟨first, member, same⟩ := known
        exact fresh first member same
      simp only [recorded.cycles, old]
    · rw [recorded.keys]
      constructor
      · rintro ⟨other, member, same⟩
        exact ⟨other, List.mem_append_left _ member, same⟩
      · rintro ⟨other, member, same⟩
        rcases List.mem_append.mp member with old | new
        · exact ⟨other, old, same⟩
        · rw [List.mem_singleton.mp new] at same
          exact same ▸ known
  · refine ⟨fun cycle => ?_, fun key => ?_⟩
    · have fresh : ∀ other ∈ met, cycleKey (loopNodes other.1 other.2) ≠
          cycleKey (loopNodes entry.1 entry.2) :=
        fun other member same => known ⟨other, member, same⟩
      simp only [List.mem_append, recorded.cycles, firstMet_append, List.mem_singleton, or_and_right,
        exists_or, and_iff_left fresh, exists_eq_left]
    · simp [recorded.keys, or_and_right, exists_or, eq_comm]

theorem records_recorded (graph : DepthFirst.Graph String Edge) (met : List (List String × Edge)) :
    Recorded graph met
      (met.foldl (fun found entry => recordCycle graph found entry.1 entry.2) ([], [])) := by
  induction met using List.reverseRecOn with
  | nil => exact ⟨by simp [FirstMet], by simp⟩
  | append_singleton met entry ih =>
    rw [List.foldl_append]
    exact record_recorded ih entry

theorem firstPath_known
    (leads : DepthFirst.Leads (nodeGraph nodes edges) (knownIds nodes) goal path) :
    ∀ nodeId ∈ path, nodeId ∈ knownIds nodes := by
  induction path with
  | nil => simp
  | cons node path ih =>
    obtain ⟨before, _, earlier, later, listed, _⟩ := leads
    have member : node ∈ DepthFirst.choices (nodeGraph nodes edges) (knownIds nodes) path := by
      rw [listed]
      simp
    intro nodeId inside
    rcases List.mem_cons.mp inside with rfl | old
    · cases path with
      | nil => exact member
      | cons last path =>
        obtain ⟨edge, leaves, rfl⟩ := List.mem_map.mp member
        exact (mem_out.mp leaves).2.2.2
    · exact ih before nodeId old

/-- The edges of the cycles found are the watched edges. -/
theorem findFlowCycles_watches (document : Document) (edge : Edge) :
    (∃ cycle ∈ findFlowCycles document.nodes document.edges, edge ∈ cycle.edges) ↔
      Watched document edge := by
  have recorded := records_recorded (nodeGraph document.nodes document.edges)
    (metEdges document.nodes document.edges)
  rw [findFlowCycles_met]
  constructor
  · rintro ⟨cycle, member, inside⟩
    obtain ⟨⟨path, closing⟩, first, rfl⟩ := (recorded.cycles cycle).mp member
    obtain ⟨leads, closes⟩ := (mem_metEdges _ _).mp first.mem
    exact ⟨path, closing, leads, closes, first, inside⟩
  · rintro ⟨path, closing, _, _, first, inside⟩
    exact ⟨_, (recorded.cycles _).mpr ⟨(path, closing), first, rfl⟩, inside⟩

theorem cycleIssue_unbounded (cycle : Cycle) :
    (cycleIssue true cycle).code = "unbounded-cycle" ↔
      ∃ edge ∈ cycle.edges, edgeIsBounded edge = false := by
  have some : (cycle.edges.filter fun edge => !edgeIsBounded edge).isEmpty = true ↔
      ¬ ∃ edge ∈ cycle.edges, edgeIsBounded edge = false := by
    simp [List.isEmpty_iff]
  simp only [cycleIssue, Bool.not_true, Bool.false_eq_true, if_false]
  split_ifs with none
  · exact iff_of_false (by simp) (some.mp none)
  · exact iff_of_true rfl (not_not.mp (mt some.mpr none))

def echo : Document where
  nodes := [{ nodeId := "a" }, { nodeId := "b" }]
  edges := [{ fromNodeId := "a", toNodeId := "b" },
    { fromNodeId := "b", toNodeId := "a", queueDepth := some (.infinity false) }]
  triggers := []
  triggerBindings := []
  allowCycles := true

/-- A shortcut `a -> c -> b` into the loop `a -> b -> a`, its second edge unbounded:
`b` is finished before the search comes to `c`. -/
def shortcut : Document where
  nodes := [{ nodeId := "a" }, { nodeId := "b" }, { nodeId := "c" }]
  edges := [{ fromNodeId := "a", toNodeId := "b" }, { fromNodeId := "b", toNodeId := "a" },
    { fromNodeId := "a", toNodeId := "c" },
    { fromNodeId := "c", toNodeId := "b", queueDepth := some (.infinity false) }]
  triggers := []
  triggerBindings := []
  allowCycles := true

def doubled : Document where
  nodes := [{ nodeId := "a" }, { nodeId := "b" }]
  edges := [{ fromNodeId := "a", toNodeId := "b" },
    { fromNodeId := "a", toNodeId := "b", queueDepth := some (.infinity false) },
    { fromNodeId := "b", toNodeId := "a" }]
  triggers := []
  triggerBindings := []
  allowCycles := true

/-- Two loops of two nodes whose ids join to one key; only the first is recorded. -/
def colliding : Document where
  nodes := [{ nodeId := "a" }, { nodeId := "b\x00c" }, { nodeId := "a\x00b" }, { nodeId := "c" }]
  edges := [{ fromNodeId := "a", toNodeId := "b\x00c" }, { fromNodeId := "b\x00c", toNodeId := "a" },
    { fromNodeId := "a\x00b", toNodeId := "c" },
    { fromNodeId := "c", toNodeId := "a\x00b", queueDepth := some (.infinity false) }]
  triggers := []
  triggerBindings := []
  allowCycles := true

end Check

end SpaceDataModule.Flow

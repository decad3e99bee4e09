import SpaceDataModule.Flow.Cycles

/-! What `findFlowCycles` returns are cycles of the graph, and it returns one
wherever there is one. -/
namespace SpaceDataModule.Flow

/-- The cycles recorded and the keys seen go together, and no key comes twice. -/
theorem records_keys (graph : DepthFirst.Graph String Edge) (met : List (List String × Edge)) :
    let found := met.foldl (fun found entry => recordCycle graph found entry.1 entry.2) ([], [])
    found.1.map (cycleKey ·.nodeIds) = found.2 ∧ found.2.Nodup := by
  induction met using List.reverseRecOn with
  | nil => simp
  | append_singleton met entry ih =>
    simp only [List.foldl_append, List.foldl_cons]
    obtain ⟨keys, distinct⟩ := ih
    rw [recordCycle]
    split_ifs with known
    · exact ⟨keys, distinct⟩
    · refine ⟨by simp [keys], List.nodup_append.mpr ⟨distinct, by simp, ?_⟩⟩
      intro key seen last member same
      rw [same, List.mem_singleton.mp member] at seen
      exact known seen

/-- A cycle of the graph without repeated nodes: its edges are given ones, one
from each node to the next and one back to the first. -/
structure Elementary (nodes : List Node) (edges : List Edge) (cycle : Cycle) : Prop where
  nonempty : cycle.nodeIds ≠ []
  distinct : cycle.nodeIds.Nodup
  declared : ∀ nodeId ∈ cycle.nodeIds, nodeId ∈ knownIds nodes
  given : ∀ edge ∈ cycle.edges, edge ∈ edges
  around : cycle.edges.map (fun edge => (edge.fromNodeId, edge.toNodeId)) =
    cycle.nodeIds.zip (cycle.nodeIds.rotate 1)

def Arc (nodes : List Node) (edges : List Edge) (source target : String) : Prop :=
  source ∈ knownIds nodes ∧ target ∈ knownIds nodes ∧
    ∃ edge ∈ edges, edge.fromNodeId = source ∧ edge.toNodeId = target

def Acyclic (nodes : List Node) (edges : List Edge) : Prop :=
  ∀ nodeId, ¬ Relation.TransGen (Arc nodes edges) nodeId nodeId

theorem arc_iff : Arc nodes edges source target ↔
    ∃ edge ∈ (nodeGraph nodes edges).out source, edge.toNodeId = target := by
  constructor
  · rintro ⟨fromKnown, toKnown, edge, given, rfl, rfl⟩
    exact ⟨edge, mem_out.mpr ⟨given, rfl, fromKnown, toKnown⟩, rfl⟩
  · rintro ⟨edge, leaves, rfl⟩
    obtain ⟨given, rfl, fromKnown, toKnown⟩ := mem_out.mp leaves
    exact ⟨fromKnown, toKnown, edge, given, rfl, rfl⟩

/-- The first edges of a list of node pairs that are all joined. -/
theorem firstEdges_ends (pairs : List (String × String))
    (joined : ∀ pair ∈ pairs, Arc nodes edges pair.1 pair.2) :
    (pairs.filterMap fun pair => ((nodeGraph nodes edges).out pair.1).find? fun candidate =>
      candidate.toNodeId = pair.2).map (fun edge => (edge.fromNodeId, edge.toNodeId)) = pairs := by
  induction pairs with
  | nil => rfl
  | cons pair pairs ih =>
    obtain ⟨edge, member, target⟩ := arc_iff.mp (joined pair (by simp))
    cases found : ((nodeGraph nodes edges).out pair.1).find? fun candidate =>
        candidate.toNodeId = pair.2 with
    | none => simpa [target] using List.find?_eq_none.mp found edge member
    | some first =>
      have source := (mem_out.mp (List.mem_of_find?_eq_some found)).2.1
      have ends := List.find?_some found
      have others := ih fun other inside => joined other (List.mem_cons_of_mem pair inside)
      rw [List.filterMap_cons, found, List.map_cons, others, source, of_decide_eq_true ends]

/-- Neighbors on a path are joined, and the last node to where an edge of it goes. -/
theorem leads_joined {inner : List String}
    (leads : DepthFirst.Leads (nodeGraph nodes edges) roots goal (inner ++ node :: outer))
    (arc : Arc nodes edges ((inner ++ [node]).head (by simp)) next) :
    ∀ pair ∈ (node :: inner.reverse).zip (inner.reverse ++ [next]),
      Arc nodes edges pair.1 pair.2 := by
  induction inner generalizing next with
  | nil => simpa using arc
  | cons last inner ih =>
    have before := ih leads.1 (arc_iff.mpr (DepthFirst.Leads.step leads))
    rw [List.reverse_cons, ← List.cons_append, List.zip_append (by simp)]
    exact List.forall_mem_append.mpr ⟨before, List.forall_mem_singleton.mpr arc⟩

section Closes
variable (first : DepthFirst.FirstPath (nodeGraph nodes edges) (knownIds nodes) path)
  (closes : DepthFirst.Closes (nodeGraph nodes edges) path edge)
include first closes

/-- The loop that is closed on a first path, and the path that it is a part of. -/
theorem closes_loop : ∃ goal inner outer, loopNodes path edge = edge.toNodeId :: inner.reverse ∧
    DepthFirst.Leads (nodeGraph nodes edges) (knownIds nodes) goal
      (inner ++ edge.toNodeId :: outer) ∧
    Arc nodes edges ((inner ++ [edge.toNodeId]).head (by simp)) edge.toNodeId := by
  obtain ⟨goal, rest, rfl, leads⟩ := first
  obtain ⟨inner, outer, split, loop⟩ := loopNodes_closes closes (leads_nodup leads) rfl
  obtain ⟨node, tail, same, leaves, _⟩ := closes
  refine ⟨goal, inner, outer, loop, split ▸ leads, arc_iff.mpr ⟨edge, ?_, rfl⟩⟩
  have innermost : (inner ++ [edge.toNodeId]).head (by simp) = node := by
    cases inner <;> simp_all
  rwa [innermost]

theorem closes_elementary (loop : cycle.nodeIds = loopNodes path edge)
    (between : cycle.edges = cycleEdges (nodeGraph nodes edges) cycle.nodeIds) :
    Elementary nodes edges cycle := by
  obtain ⟨goal, inner, outer, split, leads, arc⟩ := closes_loop first closes
  rw [split] at loop
  have distinct : (inner ++ [edge.toNodeId]).Nodup :=
    (leads_nodup leads).sublist (List.Sublist.append_left (by simp) inner)
  refine ⟨by simp [loop], ?_, fun nodeId member => ?_, fun edge member => ?_, ?_⟩
  · rw [loop, ← List.reverse_concat]
    exact List.nodup_reverse.mpr distinct
  · refine firstPath_known leads nodeId ?_
    simp only [loop, List.mem_cons, List.mem_reverse, List.mem_append] at member ⊢
    tauto
  · rw [between] at member
    obtain ⟨pair, _, found⟩ := List.mem_filterMap.mp member
    exact (mem_out.mp (List.mem_of_find?_eq_some found)).1
  · simpa [between, loop, cycleEdges] using firstEdges_ends _ (leads_joined leads arc)

theorem closes_transGen : Relation.TransGen (Arc nodes edges) edge.toNodeId edge.toNodeId := by
  obtain ⟨goal, inner, outer, _, leads, arc⟩ := closes_loop first closes
  refine Relation.TransGen.tail' (Relation.ReflTransGen.mono ?_ _ _ leads.walk) arc
  exact fun _ _ turn => arc_iff.mpr turn.1

end Closes

/-- A cycle of the graph is met by the search. -/
theorem transGen_closes (around : Relation.TransGen (Arc nodes edges) nodeId nodeId) :
    ∃ path edge, DepthFirst.FirstPath (nodeGraph nodes edges) (knownIds nodes) path ∧
      DepthFirst.Closes (nodeGraph nodes edges) path edge := by
  obtain ⟨next, arc, back⟩ := Relation.TransGen.head'_iff.mp around
  obtain ⟨edge, leaves, rfl⟩ := arc_iff.mp arc
  have edgesKnown : ∀ node, ∀ edge ∈ (nodeGraph nodes edges).out node,
      edge.toNodeId ∈ (knownIds nodes).toFinset :=
    fun _ _ member => List.mem_toFinset.mpr (mem_out.mp member).2.2.2
  refine DepthFirst.loop_closes edgesKnown arc.1 .refl leaves ?_
  exact Relation.ReflTransGen.mono (fun _ _ turn => ⟨arc_iff.mp turn, by simp⟩) _ _ back

/-- What is reported are elementary cycles, each node set once; nothing is
reported exactly when there is no cycle. -/
theorem findFlowCycles_elementary (nodes : List Node) (edges : List Edge) :
    (∀ cycle ∈ findFlowCycles nodes edges, Elementary nodes edges cycle) ∧
    (findFlowCycles nodes edges).Pairwise (fun cycle other =>
      ¬ ∀ nodeId, nodeId ∈ cycle.nodeIds ↔ nodeId ∈ other.nodeIds) ∧
    (findFlowCycles nodes edges = [] ↔ Acyclic nodes edges) := by
  have recorded := records_recorded (nodeGraph nodes edges) (metEdges nodes edges)
  obtain ⟨keys, distinct⟩ := records_keys (nodeGraph nodes edges) (metEdges nodes edges)
  rw [findFlowCycles_met]
  generalize (metEdges nodes edges).foldl (fun found entry => recordCycle (nodeGraph nodes edges) found entry.1 entry.2)
    ([], []) = result at *
  have elementary : ∀ cycle ∈ result.1, Elementary nodes edges cycle := by
    intro cycle member
    obtain ⟨⟨path, edge⟩, entry, rfl⟩ := (recorded.cycles cycle).mp member
    obtain ⟨first, closes⟩ := (mem_metEdges _ _).mp entry.mem
    exact closes_elementary first closes rfl rfl
  refine ⟨elementary, ?_, ?_⟩
  · rw [← keys] at distinct
    refine (List.pairwise_map.mp distinct).imp_of_mem fun {cycle other} here there apart same => ?_
    have perm := (List.perm_ext_iff_of_nodup (elementary cycle here).distinct
      (elementary other there).distinct).mpr same
    obtain ⟨⟨path, edge⟩, entry, rfl⟩ := (recorded.cycles cycle).mp here
    obtain ⟨⟨path', edge'⟩, entry', rfl⟩ := (recorded.cycles other).mp there
    obtain ⟨first, closes⟩ := (mem_metEdges _ _).mp entry.mem
    obtain ⟨first', closes'⟩ := (mem_metEdges _ _).mp entry'.mem
    exact apart (congrArg cycleKey (loopNodes_perm (fun _ => rfl) first first' closes closes' perm))
  · constructor
    · intro none nodeId around
      obtain ⟨path, edge, first, closes⟩ := transGen_closes around
      have seen := (recorded.keys _).mpr ⟨_, (mem_metEdges _ _).mpr ⟨first, closes⟩, rfl⟩
      simp [← keys, none] at seen
    · intro acyclic
      by_contra some
      obtain ⟨cycle, member⟩ := List.exists_mem_of_ne_nil _ some
      obtain ⟨⟨path, edge⟩, entry, _⟩ := (recorded.cycles cycle).mp member
      obtain ⟨first, closes⟩ := (mem_metEdges _ _).mp entry.mem
      exact acyclic _ (closes_transGen first closes)

end SpaceDataModule.Flow

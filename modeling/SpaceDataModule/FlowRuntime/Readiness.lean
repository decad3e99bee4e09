import SpaceDataModule.FlowRuntime.Changes

/-! Readiness against delivery. The scheduler decides readiness over a node's
whole queue; an invocation takes only its head. A required input reaches the
entry exactly when it is queued within the first 64 frames. -/
namespace SpaceDataModule.FlowRuntime

/-- The node owns a continuation: it yielded and reported a backlog. -/
def NodeRuntimeState.Continues (state : NodeRuntimeState) : Prop :=
  state.yielded = true ∧ 0 < state.backlogRemaining

/-- Without a continuation a ready node has a frame queued for every required port. -/
theorem nodeIsReady_required (ready : nodeIsReady tables s node = true)
    (fresh : ¬ (s.nodeStates node).Continues) (listed : required ∈ tables.requiredPorts)
    (owner : required.nodeIndex = node) :
    ∃ frame ∈ s.queues node, frame.port = required.portId := by
  have waits : ¬ (((s.nodeStates node).yielded && decide (0 < (s.nodeStates node).backlogRemaining))
      = true) := by
    simpa only [NodeRuntimeState.Continues, Bool.and_eq_true, decide_eq_true_eq] using fresh
  unfold nodeIsReady readyWith at ready
  split_ifs at ready with empty
  have present := List.all_eq_true.mp ready required listed
  simpa only [owner, bne_self_eq_false, Bool.false_or, List.any_eq_true, beq_iff_eq] using present

/-- The first `limit` frames hold one of the port exactly when the first such
frame of the queue is among them. -/
theorem mem_take_iff_findIdx (queue : List QueuedFrame) (port : CString) (limit : Nat)
    (present : ∃ frame ∈ queue, frame.port = port) :
    (∃ frame ∈ queue.take limit, frame.port = port) ↔
      queue.findIdx (fun frame => frame.port == port) < limit := by
  induction queue generalizing limit with
  | nil =>
    obtain ⟨frame, member, _⟩ := present
    cases member
  | cons first rest ih =>
    cases limit with
    | zero => simp
    | succ limit =>
      by_cases here : first.port = port
      · simp [List.findIdx_cons, here]
      · have later : ∃ frame ∈ rest, frame.port = port := by simpa [here] using present
        have missed : (first.port == port) = false := by simpa using here
        rw [List.findIdx_cons, missed, cond_false, Nat.add_lt_add_iff_right, ← ih limit later]
        simp [here]

/-- A node selected for its queued frames is handed a frame for each required
port exactly when, for each of them, fewer than 64 frames are queued in front of
the port's first frame. -/
theorem required_inputs_delivered_iff (artifact : Artifact) (s : State) (node : Nat)
    (selected : findReadyNode artifact.toFlowTables s = some node)
    (fresh : ¬ (s.nodeStates node).Continues) :
    (∃ invocation, (beginNodeInvocation artifact s node 64).1.current = some invocation ∧
      ∀ required ∈ artifact.requiredPorts, required.nodeIndex = node →
        ∃ frame ∈ invocation.frames, frame.port = required.portId) ↔
      ∀ required ∈ artifact.requiredPorts, required.nodeIndex = node →
        (s.queues node).findIdx (fun frame => frame.port == required.portId) < 64 := by
  obtain ⟨inside, ready⟩ := findReadyNode_ready selected
  have opens := (beginNodeInvocation_opens (s := s) node 64 inside).1
  have taken : ∀ required ∈ artifact.requiredPorts, required.nodeIndex = node →
      ((∃ frame ∈ (s.queues node).take 64, frame.port = required.portId) ↔
        (s.queues node).findIdx (fun frame => frame.port == required.portId) < 64) :=
    fun required listed owner =>
      mem_take_iff_findIdx _ _ _ (nodeIsReady_required ready fresh listed owner)
  rw [opens.current]
  constructor
  · rintro ⟨invocation, opened, delivered⟩ required listed owner
    cases opened
    exact (taken required listed owner).mp (delivered required listed owner)
  · intro near
    refine ⟨_, rfl, fun required listed owner => ?_⟩
    exact (taken required listed owner).mpr (near required listed owner)

def joiner : Artifact where
  nodeCount := 1
  triggerCount := 2
  routeEdgeCount := 0
  edges := [
    { fromNode := 0, fromPort := [], toNode := 0, toPort := [97] },
    { fromNode := 0, fromPort := [], toNode := 0, toPort := [98] }]
  triggerBindings := [⟨0, 0, [97], 0⟩, ⟨1, 0, [98], 1⟩]
  requiredPorts := [⟨0, [98]⟩]
  nodeIsLinked _ := true
  nodes_pos := Nat.one_pos
  route_edges := by decide
  edges_indexed := by decide
  edges_valid := by decide
  bindings_valid := by decide
  place index _ := 4096 * (index + 1)

theorem required_inputs_delivered_joiner :
    let s := [Call.enqueueTriggerFrames 0, .enqueueTriggerFrames 1].foldl (step joiner) State.initial
    (findReadyNode joiner.toFlowTables s = some 0 ∧ ¬ (s.nodeStates 0).Continues) ∧
      ∃ invocation, (beginNodeInvocation joiner s (0 : Nat) 64).1.current = some invocation ∧
        ∀ required ∈ joiner.requiredPorts, required.nodeIndex = 0 →
          ∃ frame ∈ invocation.frames, frame.port = required.portId := by
  intro s
  have selected : findReadyNode joiner.toFlowTables s = some 0 := by decide
  have fresh : ¬ (s.nodeStates 0).Continues := by simp [NodeRuntimeState.Continues]; decide
  refine ⟨⟨selected, fresh⟩, (required_inputs_delivered_iff joiner s 0 selected fresh).mpr ?_⟩
  decide

def runAhead : List Call :=
  List.replicate 64 (.enqueueTriggerFrames 0) ++ [.enqueueTriggerFrames 1]

def overrun : State := runAhead.foldl (step joiner) State.initial

theorem required_input_left_behind :
    (Reachable joiner overrun ∧ findReadyNode joiner.toFlowTables overrun = some 0 ∧
      ¬ (overrun.nodeStates 0).Continues) ∧
      ¬ ∃ invocation, (beginNodeInvocation joiner overrun (0 : Nat) 64).1.current = some invocation ∧
        ∀ required ∈ joiner.requiredPorts, required.nodeIndex = 0 →
          ∃ frame ∈ invocation.frames, frame.port = required.portId := by
  have ports : ∀ frame ∈ (overrun.queues 0).take 64, frame.port = [97] := by decide +kernel
  have selected : findReadyNode joiner.toFlowTables overrun = some 0 := by decide +kernel
  refine ⟨⟨⟨runAhead, Transition.Run.of_foldl runAhead⟩, selected, ?_⟩, ?_⟩
  · rintro ⟨yielded, _⟩
    cases yielded
  · rintro ⟨invocation, opened, delivered⟩
    cases opened
    obtain ⟨frame, member, port⟩ := delivered ⟨0, [98]⟩ (by decide) rfl
    dsimp only at member port
    have same : ([97] : CString) = [98] := (ports frame member).symm.trans port
    cases same

end SpaceDataModule.FlowRuntime

import SpaceDataModule.FlowRuntime.Changes

/-! The node-state table a host reads is exact between calls: the published
queue length and readiness are those of the queues themselves. -/
namespace SpaceDataModule.FlowRuntime
variable {serial : Prop}

/-- The cached words of one node agree with its queue and continuation words. -/
def Published (tables : FlowTables) (s : State) (node : Nat) : Prop :=
  (s.nodeStates node).queuedFrames = (s.queues node).length ∧
    (s.nodeStates node).ready = nodeIsReady tables s node

theorem Published.congr (published : Published tables s node)
    (queue : t.queues node = s.queues node) (state : t.nodeStates node = s.nodeStates node) :
    Published tables t node := by
  unfold Published nodeIsReady at published ⊢
  rw [queue, state]
  exact published

/-- Whatever happened to a node's queue, publishing it restores the node and
touches no other. -/
theorem publish_published (touched : Nat)
    (others : ∀ node, node ≠ touched → Published tables s node) (node : Nat) :
    Published tables (s.publish touched tables) node := by
  by_cases same : node = touched
  · subst same
    constructor
    · simp [State.publish, State.setNodeState]
    · simp [nodeIsReady, State.publish, State.setNodeState, readyWith]
  · refine (others node same).congr rfl ?_
    simp [State.publish, State.setNodeState, Function.update_of_ne same]

theorem pushBack_published (touched : Nat) (frame : QueuedFrame)
    (published : ∀ node, Published tables s node) (node : Nat) :
    Published tables ((s.pushBack touched frame).publish touched tables) node := by
  refine publish_published touched (fun other distinct => ?_) node
  refine (published other).congr ?_ rfl
  simp [Function.update_of_ne distinct]

theorem deliver_published (delivered : Delivers tables s t)
    (published : ∀ node, Published tables s node) (node : Nat) : Published tables t node := by
  cases delivered with
  | quiet same =>
    exact (published node).congr (congrFun same.queues node) (congrFun same.nodeStates node)
  | push touched frame => exact pushBack_published touched frame published node

theorem admit_published (admitted : Admits tables s t) (published : ∀ node, Published tables s node)
    (node : Nat) : Published tables t node := by
  cases admitted with
  | deliver delivered => exact deliver_published delivered published node
  | pushExternal touched token frame =>
    exact pushBack_published (s := s.retainExternal token) touched frame
      (fun other => (published other).congr rfl rfl) node

theorem begin_published (nodeIndex budget : Int)
    (published : ∀ node, Published artifact.toFlowTables s node) (node : Nat) :
    Published artifact.toFlowTables (beginNodeInvocation artifact s nodeIndex budget).1 node := by
  simp only [beginNodeInvocation]
  split
  · exact published node
  · refine publish_published _ (fun other distinct => ?_) node
    refine (published other).congr ?_ rfl
    simp [State.setQueue, Function.update_of_ne distinct]

/-- Settling rewrites the continuation words and recomputes readiness from
them; the queue, and so the published length, is left alone. -/
theorem settle_published (touched count : Nat) (status : Int) (backlog : Nat) (yielded : Bool)
    (published : ∀ node, Published artifact.toFlowTables s node) (node : Nat) :
    Published artifact.toFlowTables
      (settleNode artifact s touched count status backlog yielded) node := by
  by_cases same : node = touched
  · subst same
    constructor
    · simpa [settleNode, State.setNodeState] using (published node).1
    · simp [nodeIsReady, settleNode, State.setNodeState, readyWith]
  · refine (published node).congr rfl ?_
    simp [settleNode, State.setNodeState, Function.update_of_ne same]

theorem initial_published (tables : FlowTables) (allocations : Nat) (node : Nat) :
    Published tables { State.initial with allocations := allocations } node := by
  constructor
  · rfl
  · simp [State.initial, nodeIsReady, readyWith]

theorem change_published (change : Change artifact serial s t)
    (published : ∀ node, Published artifact s node) (node : Nat) :
    Published artifact t node := by
  cases change with
  | accept admitted => exact admit_published admitted published node
  | begin nodeIndex budget => exact begin_published nodeIndex budget published node
  | hand invocation => exact (published node).congr rfl rfl
  | settle invocation status backlog yielded =>
    exact settle_published _ _ status backlog yielded published node
  | complete =>
    unfold completeNodeInvocation
    split
    · exact published node
    · exact (published node).congr rfl rfl
  | reset => exact initial_published _ _ node

/-- After any sequence of exported calls, failed ones included, `queued_frames`
is the length of the queue and `ready` is the readiness rule, at every node. -/
theorem bookkeeping_exact (artifact : Artifact) (calls : List Call) (node : Nat) :
    let s := calls.foldl (step artifact) State.initial
    (s.nodeStates node).queuedFrames = (s.queues node).length ∧
      (s.nodeStates node).ready = nodeIsReady artifact.toFlowTables s node := by
  have reachable : Reachable artifact (calls.foldl (step artifact) State.initial) :=
    ⟨calls, Transition.Run.of_foldl calls⟩
  exact reachable.invariant (P := fun s => ∀ node, Published artifact.toFlowTables s node)
    (initial_published _ 0) change_published node

/-- Nothing stands past the node tables, an open invocation fits its frame array, and the cursor
is a node. -/
structure InBounds (tables : FlowTables) (s : State) : Prop where
  beyond : ∀ node, tables.nodeCount ≤ node → s.queues node = [] ∧ s.nodeStates node = {}
  current : ∀ invocation, s.current = some invocation →
    invocation.node < tables.nodeCount ∧ invocation.frames.length ≤ maxInvocationFrames
  cursor : s.readyCursor ≤ tables.nodeCount - 1

theorem InBounds.touch (inBounds : InBounds tables s) (inside : touched < tables.nodeCount)
    (queue : List QueuedFrame) (state : NodeRuntimeState) (node : Nat)
    (past : tables.nodeCount ≤ node) :
    Function.update s.queues touched queue node = [] ∧
      Function.update s.nodeStates touched state node = {} := by
  have other : node ≠ touched := by omega
  rw [Function.update_of_ne other, Function.update_of_ne other]
  exact inBounds.beyond node past

theorem change_inBounds (change : Change artifact serial s t) (inBounds : InBounds artifact s) :
    InBounds artifact t := by
  cases change with
  | accept admitted =>
    cases admitted with
    | deliver delivered =>
      cases delivered with
      | quiet same =>
        obtain ⟨beyond, current, cursor⟩ := inBounds
        rw [← same.queues, ← same.nodeStates] at beyond
        rw [← same.current] at current
        exact ⟨beyond, current, same.cursor ▸ cursor⟩
      | push node frame inside =>
        exact { inBounds with beyond := inBounds.touch inside _ _ }
    | pushExternal node token frame inside =>
      exact { inBounds with beyond := inBounds.touch inside _ _ }
  | begin nodeIndex budget =>
    unfold beginNodeInvocation
    split_ifs with outside
    · exact inBounds
    · have inside : nodeIndex.toNat < artifact.nodeCount := by omega
      refine { inBounds with beyond := inBounds.touch inside _ _, current := ?_ }
      rintro invocation ⟨⟩
      exact ⟨inside, Nat.le_trans (List.length_take_le _ _) (Nat.min_le_right _ _)⟩
  | hand invocation => exact { inBounds with }
  | settle invocation status backlog yielded opened =>
    have inside := (inBounds.current invocation opened).1
    refine { inBounds with beyond := fun node past => ⟨(inBounds.beyond node past).1, ?_⟩ }
    exact (inBounds.touch inside [] _ node past).2
  | complete =>
    unfold completeNodeInvocation
    split
    · exact inBounds
    · rename_i invocation opened
      have inside := (inBounds.current invocation opened).1
      have turned := Nat.mod_lt (invocation.node + 1) (Nat.zero_lt_of_lt inside)
      exact { inBounds with current := nofun, cursor := Nat.le_sub_one_of_lt turned }
  | reset => exact ⟨fun _ _ => ⟨rfl, rfl⟩, nofun, Nat.zero_le _⟩

/-- No sequence of exported calls leaves the tables, whatever its arguments. -/
theorem tables_in_bounds (artifact : Artifact) (calls : List Call) :
    InBounds artifact (calls.foldl (step artifact) State.initial) := by
  have reachable : Reachable artifact (calls.foldl (step artifact) State.initial) :=
    ⟨calls, Transition.Run.of_foldl calls⟩
  exact reachable.invariant ⟨fun _ _ => ⟨rfl, rfl⟩, nofun, Nat.zero_le _⟩ change_inBounds

end SpaceDataModule.FlowRuntime

import SpaceDataModule.Flow.Cycles
import SpaceDataModule.FlowInterpreter.Backpressure
import SpaceDataModule.FlowRuntime.Readiness

/-! Declared queue depths against the queues of the compiled runtime. The tables
carry no depth, and no operation looks at the length of a queue before it pushes:
the bounds hold in the runs whose producers keep to them. -/
namespace SpaceDataModule.FlowRuntime
open Flow FlowInterpreter

section Declared

/-- The bytes of a table string; a C string ends at its first zero byte. -/
def tableString (text : String) : CString := text.toUTF8.data.toList.takeWhile (· ≠ 0)

variable (document : Document)

/-- `nodeIndex` of the table generator: the last node of an id wins. -/
def nodeIndex (nodeId : String) : Option Nat :=
  (document.nodes.zipIdx.filter fun entry => entry.1.nodeId = nodeId).getLast?.map (·.2)

def triggerIndex (triggerId : String) : Option Nat :=
  (document.triggers.zipIdx.filter fun entry => entry.1 = triggerId).getLast?.map (·.2)

/-- The route row `generateFlowTables` emits for an edge, up to its type columns. -/
structure RouteRow (edge : Edge) (row : FlowEdge) : Prop where
  fromNode : nodeIndex document edge.fromNodeId = some row.fromNode
  fromPort : row.fromPort = tableString edge.fromPortId
  toNode : nodeIndex document edge.toNodeId = some row.toNode
  toPort : row.toPort = tableString edge.toPortId

structure BindingRow (binding : TriggerBinding) (row : FlowTriggerBinding) :
    Prop where
  trigger : triggerIndex document binding.triggerId = some row.triggerIndex
  target : nodeIndex document binding.targetNodeId = some row.targetNode
  port : row.port = tableString binding.targetPortId

structure Emits (tables : FlowTables) : Prop where
  nodes : tables.nodeCount = document.nodes.length
  triggers : tables.triggerCount = document.triggers.length
  routes : List.Forall₂ (RouteRow document) document.edges
    (tables.edges.take tables.routeEdgeCount)
  bindings : List.Forall₂ (BindingRow document) document.triggerBindings tables.triggerBindings

def totalDepth : List (Option Nat) → Option Nat
  | [] => some 0
  | depth :: rest => depth.bind fun first => (totalDepth rest).map (first + ·)

/-- The depths of the edges and trigger bindings that lead to a port, as the
interpreter reads them. -/
def declaredBound (node : Nat) (port : CString) : Option Nat :=
  totalDepth (
    (document.edges.filter fun edge =>
      nodeIndex document edge.toNodeId = some node ∧ tableString edge.toPortId = port).map
        (fun edge => normalizeQueueDepth (edge.queueDepth.getD (.finite 1))) ++
    (document.triggerBindings.filter fun binding =>
      nodeIndex document binding.targetNodeId = some node ∧
        tableString binding.targetPortId = port).map
        fun binding => normalizeQueueDepth (binding.queueDepth.getD (.finite 1)))

def Fits (count : Nat) (bound : Option Nat) : Prop := ∀ limit, bound = some limit → count ≤ limit

instance (count : Nat) (bound : Option Nat) : Decidable (Fits count bound) :=
  decidable_of_iff (bound.all fun limit => decide (count ≤ limit)) (by cases bound <;> simp [Fits])

end Declared

def State.waitingFor (s : State) (node : Nat) (port : CString) : Nat :=
  (s.queues node).countP fun frame => frame.port == port

section Arrivals
variable (tables : FlowTables)

def triggerArrivals (trigger node : Nat) (port : CString) : Nat :=
  (tables.bindingsOf trigger).countP fun binding =>
    binding.targetNode == node && binding.port == port

/-- Frames that outputs on the given ports of a node send to a port. -/
def outputArrivals (fromNode : Nat) (ports : List CString) (node : Nat) (port : CString) : Nat :=
  (ports.map fun output => (tables.matchingEdges fromNode output).countP fun row =>
    row.1.toNode == node && row.1.toPort == port).sum

/-- The ports of the outputs a linked entry has pushed when it returns. -/
def shimPorts (calls : List ShimCall) : List CString :=
  calls.foldl (fun ports call =>
    match call with
    | .push output => ports ++ [output.portId.getD []]
    | .resetOutputState => []
    | _ => ports) []

def framePorts (artifact : Artifact) (memory : LinearMemory) (frames : List FlowFrameDescriptor) :
    List CString :=
  (frames.filter (·.occupied)).map fun fd => (hostOutputView artifact memory fd).port.getD []

end Arrivals

section Room
variable (artifact : Artifact) (bound : Nat → CString → Option Nat)

def HasRoom (s : State) (arrivals : Nat → CString → Nat) : Prop :=
  ∀ node port, 0 < arrivals node port →
    Fits (s.waitingFor node port + arrivals node port) (bound node port)

/-- Every invocation the drain loop serves finds room for its outputs. -/
def DrainHasRoom (guests : Nat → GuestRun) : Nat → State → Nat → Prop
  | 0, _, _ => True
  | remaining + 1, s, dispatched =>
    ∀ node, findReadyNode artifact.toFlowTables s = some node →
      artifact.nodeIsLinked node = true →
      let opened := (beginNodeInvocation artifact s node 64).1
      HasRoom bound opened
          (outputArrivals artifact.toFlowTables node (shimPorts (guests dispatched).calls)) ∧
        DrainHasRoom guests remaining (completeNodeInvocation artifact
          (dispatchCurrentInvocationDirect artifact (guests dispatched) opened).1) (dispatched + 1)

def Roomy (s : State) : Call → Prop
  | .enqueueTriggerFrames trigger | .enqueueTriggerFrame _ trigger _ =>
    0 ≤ trigger → HasRoom bound s (triggerArrivals artifact.toFlowTables trigger.toNat)
  | .applyNodeInvocationResult memory node _ _ _ framesPtr frameCount =>
    HasRoom bound s (outputArrivals artifact.toFlowTables node.toNat
      (framePorts artifact memory ((List.range frameCount.toNat).map fun i =>
        memory.frameDescriptor (framesPtr.toNat + i * frameDescriptorSize))))
  | .dispatchCurrentInvocationDirect guest _ => ∀ invocation, s.current = some invocation →
    HasRoom bound s
      (outputArrivals artifact.toFlowTables invocation.node (shimPorts guest.calls))
  | .drainLinked guests maxIterations => s.current = none →
    DrainHasRoom artifact bound guests
      (if 0 < maxIterations then maxIterations.toNat else 1024) s 0
  | .resetState | .beginNodeInvocation _ _ | .completeNodeInvocation _ => True

end Room

section Waiting
variable (artifact : Artifact) (node : Nat) (port : CString)

/-- What a loop that pushes one frame per item adds to a port. -/
theorem waiting_of_arrives (arrives : Arrives items target QueuedFrame.port h s t node) :
    t.waitingFor node port =
      s.waitingFor node port + items.countP fun item => target item == node && h item == port := by
  obtain ⟨frames, queue, ports⟩ := arrives
  have counted := congrArg (List.countP (· == port)) ports
  rw [List.countP_map, List.countP_map, List.countP_filter] at counted
  rw [State.waitingFor, queue]
  simpa [State.waitingFor, Function.comp_def, Bool.and_comm] using counted

theorem routeEdges_waiting (out : FlowOutputFrameView)
    (aliased : Option (Option PayloadStorage × Nat)) (rows : List (FlowEdge × Nat)) :
    (rows.foldl (routeEdge artifact out aliased) s).waitingFor node port =
      s.waitingFor node port + rows.countP fun row => row.1.toNode == node && row.1.toPort == port := by
  have arrives : Arrives rows (·.1.toNode) QueuedFrame.port (·.1.toPort) s
      (rows.foldl (routeEdge artifact out aliased) s) node := by
    refine foldl_arrives rows (fun row _ s => ?_) s node
    exact ⟨_, rfl, rfl⟩
  exact waiting_of_arrives node port arrives

section
variable (memory : LinearMemory)

theorem routeOutput_waiting (s : State) (fromNode : Nat) (out : FlowOutputFrameView) :
    (routeOutput artifact memory s fromNode out).1.waitingFor node port ≤
      s.waitingFor node port +
        outputArrivals artifact fromNode [out.port.getD []] node port := by
  rcases routeOutput_spec artifact memory s fromNode out with
    ⟨-, -, same⟩ | ⟨-, output, named, -, result⟩
  · rw [State.waitingFor, same.queues]
    exact Nat.le_add_right _ _
  · rw [result, routeEdges_waiting, named]
    simp [outputArrivals]

theorem outputArrivals_cons (tables : FlowTables) (fromNode : Nat) (output : CString)
    (ports : List CString) :
    outputArrivals tables fromNode (output :: ports) node port =
      outputArrivals tables fromNode [output] node port +
        outputArrivals tables fromNode ports node port := by
  simp [outputArrivals]

theorem applyFrames_waiting (fromNode : Nat)
    (frames : List FlowFrameDescriptor) (s : State) (routed : Nat) :
    (applyFrames artifact memory fromNode frames s routed).1.waitingFor node port ≤
      s.waitingFor node port + outputArrivals artifact fromNode
        (framePorts artifact memory frames) node port := by
  induction frames generalizing s routed with
  | nil => exact Nat.le_add_right _ _
  | cons fd rest ih =>
    have first := routeOutput_waiting artifact node port memory s fromNode
      (hostOutputView artifact memory fd)
    simp only [applyFrames]
    cases taken : fd.occupied with
    | false => simpa [framePorts, taken] using ih s routed
    | true =>
      have ports : framePorts artifact memory (fd :: rest) =
          (hostOutputView artifact memory fd).port.getD [] :: framePorts artifact memory rest := by
        simp [framePorts, taken]
      rw [ports, outputArrivals_cons]
      simp only [Bool.not_true, Bool.false_eq_true, if_false]
      split_ifs
      · exact Nat.le_add_right _ _
      · omega
      · exact (ih _ _).trans (by omega)

theorem routeShimOutputs_waiting (fromNode : Nat)
    (outputs : List ShimOutput) (s : State) (routed : Nat) (status : Int) :
    (routeShimOutputs artifact memory fromNode outputs s routed status).1.waitingFor node port ≤
      s.waitingFor node port + outputArrivals artifact fromNode
        (outputs.map (·.port)) node port := by
  induction outputs generalizing s routed with
  | nil => exact Nat.le_add_right _ _
  | cons out rest ih =>
    have first : (routeOutput artifact memory s fromNode (shimOutputView out)).1.waitingFor node port ≤
        s.waitingFor node port + outputArrivals artifact fromNode [out.port] node port :=
      routeOutput_waiting artifact node port memory s fromNode (shimOutputView out)
    rw [List.map_cons, outputArrivals_cons]
    simp only [routeShimOutputs]
    split_ifs
    · exact first.trans (by omega)
    · exact (ih _ _).trans (by omega)

theorem map_modify_port (outputs : List ShimOutput) (index : Nat) (change : ShimOutput → ShimOutput)
    (keeps : ∀ output, (change output).port = output.port) :
    (outputs.modify index change).map (·.port) = outputs.map (·.port) := by
  apply List.ext_getElem?
  intro position
  simp only [List.getElem?_map, List.getElem?_modify]
  cases outputs[position]? with
  | none => rfl
  | some output => by_cases here : index = position <;> simp [here, keeps]

/-- The outputs an entry leaves behind are those of its pushes since the last reset. -/
theorem shimCalls_ports (calls : List ShimCall) (s : State) :
    (calls.foldl (shimStep artifact) (s, {})).2.outputs.map (·.port) = shimPorts calls := by
  induction calls using List.reverseRecOn with
  | nil => rfl
  | append_singleton calls call ih =>
    have last : shimPorts (calls ++ [call]) =
        match call with
        | .push output => shimPorts calls ++ [output.portId.getD []]
        | .resetOutputState => []
        | _ => shimPorts calls := by
      simp only [shimPorts, List.foldl_append, List.foldl_cons, List.foldl_nil]
    rw [last, List.foldl_append, ← ih]
    cases call with
    | push output =>
      simp only [List.foldl_cons, shimStep, shimPushOutput]
      split
      · simp
      · split <;> simp
    | setOutputFrameId index => exact map_modify_port _ _ _ fun _ => rfl
    | setOutputStreamFrame index => exact map_modify_port _ _ _ fun _ => rfl
    | setYielded | setBacklogRemaining | resetOutputState => rfl

theorem shimCalls_waiting (calls : List ShimCall) (state : State × ShimState) :
    (calls.foldl (shimStep artifact) state).1.waitingFor node port = state.1.waitingFor node port := by
  induction calls generalizing state with
  | nil => rfl
  | cons call rest ih =>
    rw [List.foldl_cons, ih]
    simp only [State.waitingFor, (shimStep_same artifact state call).queues]

/-- A dispatch adds at most what its entry's outputs send. -/
theorem dispatch_waiting (guest : GuestRun) (opened : s.current = some invocation) :
    (dispatchCurrentInvocationDirect artifact guest s).1.waitingFor node port ≤
      s.waitingFor node port + outputArrivals artifact invocation.node
        (shimPorts guest.calls) node port := by
  simp only [dispatchCurrentInvocationDirect, opened]
  split
  · exact Nat.le_add_right _ _
  · have routed := routeShimOutputs_waiting artifact node port guest.memory invocation.node
      (guest.calls.foldl (shimStep artifact) (s.enterEntry invocation, {})).2.outputs
      (guest.calls.foldl (shimStep artifact) (s.enterEntry invocation, {})).1 0 guest.status
    rw [shimCalls_ports, shimCalls_waiting] at routed
    exact routed

theorem enqueueAll_waiting (payload : List UInt8) (descriptor : Option FlowFrameDescriptor)
    (trigger : Nat) (s : State) :
    (enqueueAll artifact payload descriptor s trigger).waitingFor node port =
      s.waitingFor node port + triggerArrivals artifact trigger node port :=
  waiting_of_arrives node port (enqueueAll_arrives payload descriptor trigger s node)

end

theorem begin_waiting (nodeIndex budget : Int) (s : State) :
    (beginNodeInvocation artifact s nodeIndex budget).1.waitingFor node port ≤
      s.waitingFor node port := by
  rcases @beginNodeInvocation_cases artifact s nodeIndex budget with
    same | ⟨opened, _, _, opens⟩
  · rw [same]
  · simp only [State.waitingFor, opens.queues]
    by_cases here : node = opened
    · subst here
      rw [Function.update_self]
      exact (List.drop_sublist _ _).countP_le
    · rw [Function.update_of_ne here]

theorem complete_waiting (s : State) :
    (completeNodeInvocation artifact s).waitingFor node port = s.waitingFor node port := by
  unfold completeNodeInvocation
  split <;> rfl

end Waiting

def Bounded (bound : Nat → CString → Option Nat) (s : State) : Prop :=
  ∀ node port, Fits (s.waitingFor node port) (bound node port)

section Run
variable {bound : Nat → CString → Option Nat}

theorem Bounded.of_le (bounded : Bounded bound s)
    (less : ∀ node port, t.waitingFor node port ≤ s.waitingFor node port) : Bounded bound t :=
  fun node port limit declared => (less node port).trans (bounded node port limit declared)

/-- A step that adds no more than there is room for. -/
theorem Bounded.arrive (bounded : Bounded bound s) {arrivals : Nat → CString → Nat}
    (room : HasRoom bound s arrivals)
    (adds : ∀ node port, t.waitingFor node port ≤ s.waitingFor node port + arrivals node port) :
    Bounded bound t := by
  intro node port limit declared
  have added := adds node port
  by_cases some : 0 < arrivals node port
  · exact added.trans (room node port some limit declared)
  · have before := bounded node port limit declared
    omega

theorem drainLoop_bounded (guests : Nat → GuestRun) (remaining dispatched : Nat)
    (room : DrainHasRoom artifact bound guests remaining s dispatched) (bounded : Bounded bound s) :
    Bounded bound (drainLoop artifact guests remaining s dispatched).1 := by
  induction remaining generalizing s dispatched with
  | zero => exact bounded
  | succ remaining ih =>
    rw [drainLoop_succ]
    cases choice : selected artifact s with
    | none => exact bounded
    | some node =>
      obtain ⟨found, inside, linked⟩ := selected_spec choice
      obtain ⟨fits, further⟩ := room node found linked
      have opened : Bounded bound (beginNodeInvocation artifact s node 64).1 :=
        bounded.of_le fun other port => begin_waiting artifact other port node 64 s
      have opens := (beginNodeInvocation_opens (s := s) node 64 inside).1
      have served : Bounded bound (dispatchCurrentInvocationDirect artifact (guests dispatched)
          (beginNodeInvocation artifact s node 64).1).1 :=
        opened.arrive fits fun other port =>
          dispatch_waiting artifact other port (guests dispatched) opens.current
      refine ih _ further (served.of_le fun other port => ?_)
      exact (complete_waiting artifact other port _).le

theorem step_bounded (call : Call) (roomy : Roomy artifact bound s call) (bounded : Bounded bound s) :
    Bounded bound (step artifact s call) := by
  cases call with
  | resetState => exact fun _ _ _ _ => Nat.zero_le _
  | enqueueTriggerFrames trigger =>
    simp only [step, enqueueTriggerFrames]
    split_ifs with outside
    · exact bounded
    · exact bounded.arrive (roomy (by omega)) fun node port =>
        (enqueueAll_waiting artifact node port [] none trigger.toNat s).le
  | enqueueTriggerFrame memory trigger ptr =>
    rw [step]
    rcases enqueueTriggerFrame_cases artifact memory s trigger ptr with
      ⟨-, same | same⟩ | ⟨-, token, size, same⟩ | ⟨inside, ⟨payload, descriptor, served⟩, -⟩
    · rwa [same]
    · rw [same]
      exact bounded.of_le fun _ _ => Nat.le_refl _
    · rw [same]
      exact bounded.of_le fun _ _ => Nat.le_refl _
    · rw [served]
      exact bounded.arrive (roomy inside.1) fun node port =>
        (enqueueAll_waiting artifact node port payload descriptor trigger.toNat s).le
  | beginNodeInvocation nodeIndex budget =>
    exact bounded.of_le fun node port => begin_waiting artifact node port nodeIndex budget s
  | applyNodeInvocationResult memory nodeIndex status backlog yielded framesPtr frameCount =>
    have routed := bounded.arrive roomy fun node port =>
      applyFrames_waiting artifact node port memory nodeIndex.toNat _ s 0
    rw [step]
    rcases applyNodeInvocationResult_cases artifact memory s nodeIndex status backlog yielded
      framesPtr frameCount with ⟨-, same⟩ | ⟨-, invocation, -, -, result⟩
    · rwa [same]
    · rw [result]
      split
      · exact routed
      · exact routed.of_le fun _ _ => Nat.le_refl _
  | completeNodeInvocation =>
    exact bounded.of_le fun node port => (complete_waiting artifact node port s).le
  | dispatchCurrentInvocationDirect guest =>
    cases opened : s.current with
    | none =>
      simp only [step, dispatchCurrentInvocationDirect, opened]
      exact bounded
    | some invocation =>
      exact bounded.arrive (roomy invocation opened) fun node port =>
        dispatch_waiting artifact node port guest opened
  | drainLinked guests maxIterations =>
    simp only [step, drainLinked]
    split
    · exact bounded
    · rename_i idle
      split
      · exact bounded
      · exact drainLoop_bounded guests _ _ (roomy (by simpa using idle)) bounded

end Run

/-- In every run whose calls send no port more frames than it has room for, the
frames waiting for a port never exceed the depths declared for it. This holds of
every flow and every artifact, the one compiled from the flow among them. -/
theorem queue_bounds_hold (document : Document) (artifact : Artifact) (calls : List Call) (s : State)
    (run : Transition.Run (Roomy artifact (declaredBound document)) (step artifact) State.initial
      calls s) (node : Nat) (port : CString) :
    Fits (s.waitingFor node port) (declaredBound document node port) := by
  have bounded : Bounded (declaredBound document) s := by
    refine run.invariant ?_ fun _ call roomy before => step_bounded call roomy before
    intro _ _ _ _
    exact Nat.zero_le _
  exact bounded node port

/-- A node that feeds itself, with a trigger on the same port: depth one each. -/
def oscillator : Document where
  nodes := [{ nodeId := "n" }]
  edges := [{ fromNodeId := "n", fromPortId := "out", toNodeId := "n", toPortId := "in" }]
  triggers := ["t"]
  triggerBindings := [{ triggerId := "t", targetNodeId := "n", targetPortId := "in" }]
  allowCycles := true

def oscillatorArtifact : Artifact where
  nodeCount := 1
  triggerCount := 1
  routeEdgeCount := 1
  edges := [
    { fromNode := 0, fromPort := tableString "out", toNode := 0, toPort := tableString "in",
      canonicalFallbackAvailable := true },
    { fromNode := 0, fromPort := tableString "@trigger:t:0", toNode := 0, toPort := tableString "in",
      canonicalFallbackAvailable := true }]
  triggerBindings := [⟨0, 0, tableString "in", 1⟩]
  requiredPorts := [⟨0, tableString "in"⟩]
  nodeIsLinked _ := true
  nodes_pos := Nat.one_pos
  route_edges := by decide
  edges_indexed := by decide
  edges_valid := by decide
  bindings_valid := by decide
  place index _ := 4096 * (index + 1)

def burst (count : Nat) : GuestRun where
  calls := List.replicate count (pluginPushOutput (some (tableString "out")) none none 0 [])
  status := 0
  memory := { size := 65536, byte := fun _ => 0, frameDescriptor := fun _ => {} }

theorem queue_bounds_hold_oscillator :
    let calls := [Call.enqueueTriggerFrames 0, .enqueueTriggerFrames 0]
    let s := calls.foldl (step oscillatorArtifact) State.initial
    (Transition.Run (Roomy oscillatorArtifact (declaredBound oscillator)) (step oscillatorArtifact)
        State.initial calls s ∧ s.waitingFor 0 (tableString "in") = 2) ∧
      Fits (s.waitingFor 0 (tableString "in")) (declaredBound oscillator 0 (tableString "in")) := by
  intro calls s
  have only : ∀ node port, 0 < triggerArrivals oscillatorArtifact.toFlowTables 0 node port →
      node = 0 ∧ port = tableString "in" := by
    intro node port some
    obtain ⟨binding, member, target⟩ := List.countP_pos_iff.mp some
    have listed := oscillatorArtifact.mem_of_mem_bindingsOf member
    rw [List.mem_singleton.mp listed, Bool.and_eq_true, beq_iff_eq, beq_iff_eq] at target
    exact ⟨target.1.symm, target.2.symm⟩
  have run : Transition.Run (Roomy oscillatorArtifact (declaredBound oscillator))
      (step oscillatorArtifact) State.initial calls s := by
    refine .cons (fun _ node port some => ?_) (.cons (fun _ node port some => ?_) .start)
    all_goals
      obtain ⟨rfl, rfl⟩ := only node port some
      decide +kernel
  exact ⟨⟨run, by decide +kernel⟩, queue_bounds_hold oscillator oscillatorArtifact calls s run 0 _⟩

/-- A sanctioned feedback loop of total depth two holds three frames after one
trigger and one linked invocation. -/
theorem feedback_exceeds_declared_depth :
    let calls := [Call.enqueueTriggerFrames 0, .drainLinked (fun _ => burst 3) 1]
    let s := calls.foldl (step oscillatorArtifact) State.initial
    ((∀ issue ∈ cycleIssues oscillator, issue.severity ≠ .error) ∧
        Emits oscillator oscillatorArtifact.toFlowTables ∧ Reachable oscillatorArtifact s) ∧
      ¬ Fits (s.waitingFor 0 (tableString "in")) (declaredBound oscillator 0 (tableString "in")) := by
  intro calls s
  have emits : Emits oscillator oscillatorArtifact.toFlowTables := by
    refine ⟨rfl, rfl, .cons ⟨?_, rfl, ?_, rfl⟩ .nil, .cons ⟨?_, ?_, rfl⟩ .nil⟩ <;> decide
  exact ⟨⟨by decide +kernel, emits, calls, Transition.Run.of_foldl calls⟩, by decide +kernel⟩

end SpaceDataModule.FlowRuntime

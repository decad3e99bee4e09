import SpaceDataModule.Flow.Document
import SpaceDataModule.FlowInterpreter.Backpressure
import SpaceDataModule.Transition
import Mathlib.Logic.Function.Basic

/-! The JavaScript `FlowRuntime` over a loaded program. `drain` is asynchronous:
it is modelled as a process that advances by the segments between two of its
`await` points, so that enqueue calls and other drains may run in between. -/
namespace SpaceDataModule.FlowInterpreter
open JavaScript Flow

structure Place where
  nodeId : String
  portId : String
  deriving DecidableEq

structure InputPort where
  portId : String
  /-- `port.required !== false`. -/
  required : Bool := true
  deriving DecidableEq

structure Method where
  inputPorts : List InputPort
  /-- `Number(method.maxBatch)` of a declared batch. -/
  maxBatch : Option Number := none
  deriving DecidableEq

/-- `registry.getMethod(pluginId, methodId)`. -/
abbrev Registry := String → String → Option Method

/-- `Math.max(1, Number(maxBatch ?? 1) || 1)`. -/
def Method.batch (method : Method) : Number :=
  ((method.maxBatch.getD (.finite 1)).orElse (.finite 1)).atLeastOne

variable {α : Type}

/-- One call of `registry.invoke`. -/
structure Invocation (α : Type) where
  node : Node
  inputs : List (Frame α)
  deriving DecidableEq

/-- Where a drain stands: at the head of its loop, awaiting `registry.invoke`,
with outputs left to route, or returned. -/
inductive Phase (α : Type) where
  | scanning
  | invoking (node : Node)
  | routing (node : Node) (outputs : List (Frame α)) (yielded : Bool)
  | returned
  deriving DecidableEq

structure Drain (α : Type) where
  maxInvocations : Number
  invocations : Nat := 0
  phase : Phase α := .scanning
  deriving DecidableEq

structure State (α : Type) where
  queues : Place → PortQueue α
  drains : List (Drain α)
  /-- History variable: the calls of `registry.invoke`, oldest first. -/
  invoked : List (Invocation α)

/-- After `loadProgram`, which clears the queue map. -/
def State.initial : State α where
  queues _ := {}
  drains := []
  invoked := []

/-- `drainReadyFrames`: the frames taken and the frames left. -/
def drainReadyFrames (queue : List (Frame α)) (maxBatch : Number) : List (Frame α) × List (Frame α) :=
  queue.splitAt (Number.spliceCount queue.length maxBatch)

section Scan

/-- The port loop of one candidate node. Frames leave their queues as the loop
goes; the flag reports a required port found empty. -/
def takeInputs (nodeId : String) (maxBatch : Number) :
    List InputPort → (Place → PortQueue α) → List (Frame α) →
      (Place → PortQueue α) × List (Frame α) × Bool
  | [], queues, candidates => (queues, candidates, false)
  | port :: rest, queues, candidates =>
    let place : Place := ⟨nodeId, port.portId⟩
    let queue := queues place
    if port.required && queue.waiting.isEmpty then (queues, candidates, true)
    else
      let split := drainReadyFrames queue.waiting maxBatch
      takeInputs nodeId maxBatch rest
        (Function.update queues place { queue with waiting := split.2 }) (candidates ++ split.1)

/-- The node loop of `drain`: the node selected and its inputs. -/
def scan (registry : Registry) :
    List Node → (Place → PortQueue α) → (Place → PortQueue α) × Option (Invocation α)
  | [], queues => (queues, none)
  | node :: rest, queues =>
    match registry node.pluginId node.methodId with
    | none => scan registry rest queues
    | some method =>
      let taken := takeInputs node.nodeId method.batch method.inputPorts queues []
      if taken.2.2 || taken.2.1.isEmpty then scan registry rest taken.1
      else (taken.1, some ⟨node, taken.2.1⟩)

end Scan

/-- The call of `registry.invoke`, recorded in the history of the queues its
inputs were taken from: a queued frame carries the port id of its queue. -/
def State.invoke (s : State α) (invocation : Invocation α) : State α :=
  { s with
    queues := fun place =>
      if place.nodeId = invocation.node.nodeId then
        { s.queues place with
          departed := (s.queues place).departed ++
            (invocation.inputs.filter fun frame => frame.portId = place.portId).map (·, .invoked) }
      else s.queues place
    invoked := s.invoked ++ [invocation] }

/-- `applyBackpressure` on the queue `getFrameQueue` finds, over frames cloned
for its port. -/
def State.enqueue (s : State α) (place : Place) (frames : List (Frame α)) (policy : Option String)
    (queueDepth : Number) : State α :=
  { s with
    queues := Function.update s.queues place
      (applyBackpressure (s.queues place) (frames.map (cloneFrame · place.portId)) policy queueDepth) }

variable (program : Program)

def enqueueTriggerFrames (s : State α) (triggerId : String)
    (frames : List (Frame α)) : State α :=
  (program.triggerBindings.filter fun binding => binding.triggerId = triggerId).foldl
    (fun s binding => s.enqueue ⟨binding.targetNodeId, binding.targetPortId⟩ frames
      (some binding.backpressurePolicy) binding.queueDepth) s

def enqueueNodeFrames (s : State α) (nodeId portId : String) (frames : List (Frame α))
    (backpressurePolicy : Option String) (queueDepth : Number) : State α :=
  s.enqueue ⟨nodeId, portId⟩ frames backpressurePolicy queueDepth

/-- The routing of one output frame. A frame no edge takes goes to the sink. -/
def routeOutput (s : State α) (node : Node) (output : Frame α) : State α :=
  (program.edges.filter fun edge =>
      edge.fromNodeId = node.nodeId ∧ edge.fromPortId = output.portId).foldl
    (fun s edge => s.enqueue ⟨edge.toNodeId, edge.toPortId⟩ [output]
      (some edge.backpressurePolicy) edge.queueDepth) s

/-- What `registry.invoke` resolves to; `none` is a rejected promise. -/
structure Response (α : Type) where
  outputs : List (Frame α)
  yielded : Bool
  deriving DecidableEq

/-- One segment of a drain: a scan up to the invocation it awaits, the arrival of
the response, or the routing of one output. -/
def advance (registry : Registry) (s : State α) (drain : Drain α)
    (response : Option (Response α)) : State α × Drain α :=
  match drain.phase with
  | .scanning =>
    if drain.maxInvocations.exceeds drain.invocations then
      let scanned := scan registry program.nodes s.queues
      match scanned.2 with
      | none => ({ s with queues := scanned.1 }, { drain with phase := .returned })
      | some invocation =>
        (State.invoke { s with queues := scanned.1 } invocation,
          { drain with phase := .invoking invocation.node })
    else (s, { drain with phase := .returned })
  | .invoking node =>
    match response with
    | none => (s, { drain with phase := .returned })
    | some response =>
      (s, { drain with
        invocations := drain.invocations + 1
        phase := .routing node response.outputs response.yielded })
  | .routing node outputs yielded =>
    match outputs with
    | [] => (s, { drain with phase := if yielded then .returned else .scanning })
    | output :: rest =>
      (routeOutput program s node output, { drain with phase := .routing node rest yielded })
  | .returned => (s, drain)

inductive Event (α : Type) where
  | enqueueTriggerFrames (triggerId : String) (frames : List (Frame α))
  | enqueueNodeFrames (nodeId portId : String) (frames : List (Frame α))
      (backpressurePolicy : Option String) (queueDepth : Number)
  | drain (maxInvocations : Number)
  | resume (index : Nat) (response : Option (Response α))

def step (registry : Registry) (s : State α) : Event α → State α
  | .enqueueTriggerFrames triggerId frames =>
    FlowInterpreter.enqueueTriggerFrames program s triggerId frames
  | .enqueueNodeFrames nodeId portId frames policy queueDepth =>
    FlowInterpreter.enqueueNodeFrames s nodeId portId frames policy queueDepth
  | .drain maxInvocations => { s with drains := s.drains ++ [{ maxInvocations }] }
  | .resume index response =>
    match s.drains[index]? with
    | none => s
    | some drain =>
      let advanced := advance program registry s drain response
      { advanced.1 with drains := advanced.1.drains.set index advanced.2 }

end SpaceDataModule.FlowInterpreter

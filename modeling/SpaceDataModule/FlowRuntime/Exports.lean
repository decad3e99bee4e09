import SpaceDataModule.FlowRuntime.Routing
import SpaceDataModule.Transition

/-! The exported calls of the runtime. Each is a function from the state before
to the state after and the returned status. Guests appear only through the calls
their entries make on the invoke shim and the status they return. -/
namespace SpaceDataModule.FlowRuntime

/-- `kMaxInvocationFrames`. -/
def maxInvocationFrames : Nat := 64

/-- `static_cast<uint32_t>` of a signed word. -/
def asUInt32 (value : Int) : Nat := (value % 2 ^ 32).toNat

section External

variable (active : List ExternalFrameLifetime)

/-- `flow_external_frame_id_active`. -/
def externalFrameIdActive (frameId : Nat) : Bool :=
  frameId != 0 && active.any fun lifetime => lifetime.frameId == frameId

/-- The search loop of `flow_retain_external_frame_id`. -/
def retainIn (frameId : Nat) : List ExternalFrameLifetime → List ExternalFrameLifetime
  | [] => [⟨frameId, 1⟩]
  | active :: rest =>
    if active.frameId == frameId then { active with references := active.references + 1 } :: rest
    else active :: retainIn frameId rest

def retainExternalFrameId (frameId : Nat) :
    List ExternalFrameLifetime :=
  if frameId == 0 then active else retainIn frameId active

/-- The search loop of `flow_release_external_frame_id`; the last reference
erases the entry. -/
def releaseIn (frameId : Nat) : List ExternalFrameLifetime → List ExternalFrameLifetime
  | [] => []
  | active :: rest =>
    if active.frameId == frameId then
      if 1 < active.references then { active with references := active.references - 1 } :: rest
      else rest
    else active :: releaseIn frameId rest

def releaseExternalFrameId (frame : QueuedFrame) :
    List ExternalFrameLifetime :=
  if !frame.tracksExternalLifetime || frame.frameId == 0 then active
  else releaseIn frame.frameId active

end External

section Invocation
variable (artifact : Artifact)

def invocationBudget (frameBudget : Int) : Nat :=
  min (if 0 < frameBudget then frameBudget.toNat else maxInvocationFrames) maxInvocationFrames

/-- `space_data_module_runtime_begin_node_invocation`. -/
def beginNodeInvocation (s : State) (nodeIndex frameBudget : Int) : State × Int :=
  if nodeIndex < 0 ∨ (artifact.nodeCount : Int) ≤ nodeIndex then (s, -1)
  else
    let node := nodeIndex.toNat
    let budget := invocationBudget frameBudget
    let taken := (s.queues node).take budget
    let generation := (s.invocationGeneration + 1) % 2 ^ 32
    let opened : State :=
      { s.setQueue node ((s.queues node).drop budget) with
        invocationGeneration := if generation == 0 then 1 else generation
        current := some ⟨node, taken⟩ }
    (opened.publish node artifact.toFlowTables, taken.length)

/-- The words both result paths write once the outputs are routed. -/
def settleNode (s : State) (node frameCount : Nat) (status : Int) (backlogRemaining : Nat)
    (yielded : Bool) : State :=
  let before := s.nodeStates node
  let settled : NodeRuntimeState :=
    { before with
      invocationCount := (before.invocationCount + 1) % 2 ^ 64
      consumedFrames := (before.consumedFrames + frameCount) % 2 ^ 64
      backlogRemaining := backlogRemaining
      lastStatus := asUInt32 status
      yielded := yielded }
  s.setNodeState node
    { settled with ready := readyWith artifact.toFlowTables node settled (s.queues node) }

/-- The checks of `flow_validate_frame_descriptor` on the descriptor alone. -/
def frameStatus (memory : LinearMemory) (s : State) (fd : FlowFrameDescriptor)
    (requireActiveGeneration : Bool) : Int :=
  let alignment := effectiveAlignment fd.alignment
  if !isPowerOfTwo alignment then -30
  else if decide (alignedBinaryFormat < fd.wireFormat) || decide (transferredOwnership < fd.ownership) ||
      decide (appendOnlyMutability < fd.mutability) then -31
  else if fd.mutability != 0 && fd.ownership != transferredOwnership then -32
  else if decide (0 < fd.size) &&
      (fd.offset == 0 || !validMemoryRange memory fd.offset fd.size) then -33
  else if decide (0 < fd.size) && fd.offset % alignment != 0 then -34
  else if !validCString memory fd.portIdPtr then -35
  else if requireActiveGeneration &&
      (s.current.isNone || fd.ingressIndex != s.invocationGeneration) then -36
  else 0

/-- Its checks of an aligned frame against the type it names. -/
def alignedTypeStatus (fd : FlowFrameDescriptor) (requireActiveGeneration : Bool) : Int :=
  if requireActiveGeneration && decide (artifact.routeEdgeCount ≤ fd.typeDescriptorIdx) then -37
  else
    match artifact.resolveTypeDescriptor fd.typeDescriptorIdx with
    | none => -37
    | some type =>
      if type.opaqueBytes then 0
      else if !type.alignedEligible || type.alignedByteLength == 0 ||
          !isPowerOfTwo type.alignedRequiredAlignment || fd.size != type.alignedByteLength ||
          decide (effectiveAlignment fd.alignment < type.alignedRequiredAlignment) ||
          fd.offset % type.alignedRequiredAlignment != 0 then -38
      else 0

/-- `flow_validate_frame_descriptor`; zero accepts. -/
def validateFrameDescriptor (memory : LinearMemory) (s : State) (fd : FlowFrameDescriptor)
    (requireActiveGeneration : Bool) : Int :=
  if !fd.occupied then 0
  else
    let status := frameStatus memory s fd requireActiveGeneration
    if status < 0 then status
    else if fd.wireFormat == alignedBinaryFormat then
      alignedTypeStatus artifact fd requireActiveGeneration
    else 0

/-- The view `apply_node_invocation_result` builds of a host frame. -/
def hostOutputView (memory : LinearMemory) (fd : FlowFrameDescriptor) : FlowOutputFrameView :=
  let port := if fd.portIdPtr == 0 then []
    else (readCString memory fd.portIdPtr (cStringLimit memory fd.portIdPtr)).getD []
  let bare : FlowOutputFrameView :=
    { port := some port
      payload := fd.offset
      contents := memory.read fd.offset fd.size
      length := fd.size
      wireFormat := fd.wireFormat
      streamId := fd.streamId
      sequence := fd.sequence
      frameId := fd.traceToken
      endOfStream := fd.endOfStream
      ownership := fd.ownership
      mutability := fd.mutability }
  if fd.typeDescriptorIdx < artifact.routeEdgeCount then
    match artifact.resolveTypeDescriptor fd.typeDescriptorIdx with
    | none => bare
    | some edge =>
      { bare with
        schemaName := edge.schemaName
        fileIdentifier := edge.fileIdentifier
        rootTypeName := edge.rootTypeName
        byteLength := edge.alignedByteLength
        fixedStringLength := edge.alignedFixedStringLength
        requiredAlignment := edge.alignedRequiredAlignment }
  else bare

/-- The output loop of `apply_node_invocation_result`: frames before a refused
one stay routed. -/
def applyFrames (memory : LinearMemory) (node : Nat) :
    List FlowFrameDescriptor → State → Nat → State × Int
  | [], s, routed => (s, routed)
  | fd :: rest, s, routed =>
    if !fd.occupied then applyFrames memory node rest s routed
    else
      let validation := validateFrameDescriptor artifact memory s fd true
      if validation < 0 then (s.reject, validation)
      else
        let result := routeOutput artifact memory s node (hostOutputView artifact memory fd)
        if result.2 < 0 then result
        else applyFrames memory node rest result.1 (routed + result.2.toNat)

/-- `sizeof(FlowFrameDescriptorC)`. -/
def frameDescriptorSize : Nat := 48

/-- `space_data_module_runtime_apply_node_invocation_result`. -/
def applyNodeInvocationResult (memory : LinearMemory) (s : State)
    (nodeIndex statusCode backlogRemaining yielded framesPtr frameCount : Int) : State × Int :=
  if nodeIndex < 0 ∨ (artifact.nodeCount : Int) ≤ nodeIndex then (s, -40)
  else
    let node := nodeIndex.toNat
    match s.current with
    | none => (s, -41)
    | some invocation =>
      if invocation.node ≠ node then (s, -41)
      else if frameCount < 0 ∨ (maxInvocationFrames : Int) < frameCount then (s, -42)
      else if 0 < frameCount ∧ (framesPtr ≤ 0 ∨
          validMemoryRange memory framesPtr.toNat (frameCount.toNat * frameDescriptorSize) = false) then
        (s, -43)
      else
        let frames := (List.range frameCount.toNat).map fun i =>
          memory.frameDescriptor (framesPtr.toNat + i * frameDescriptorSize)
        let result := applyFrames artifact memory node frames s 0
        if result.2 < 0 then result
        else (settleNode artifact result.1 node invocation.frames.length statusCode
          (asUInt32 backlogRemaining) (decide (yielded ≠ 0)), result.2)

/-- `space_data_module_runtime_complete_node_invocation`; the index is ignored. -/
def completeNodeInvocation (s : State) : State :=
  match s.current with
  | none => s
  | some invocation =>
    { s with
      activeExternalFrames := invocation.frames.foldl releaseExternalFrameId s.activeExternalFrames
      current := none
      readyCursor := (invocation.node + 1) % artifact.nodeCount }

end Invocation

section Triggers
variable (artifact : Artifact) (payload : List UInt8)

/-- The frame `flow_enqueue_binding` builds; no descriptor is a bare tick.
`payload` is what the descriptor's offset and size point to. -/
def bindingFrame (s : State) (binding : FlowTriggerBinding) :
    Option FlowFrameDescriptor → QueuedFrame
  | none =>
    { port := binding.port
      typeDescriptorIdx := binding.typeDescriptorIdx
      frameId := s.nextFrameId
      storage := some (copyPayload artifact s [] 1).1 }
  | some fd =>
    let alignment := effectiveAlignment fd.alignment
    let copy := copyPayload artifact s payload alignment
    let bare : QueuedFrame :=
      { port := binding.port
        storage := some copy.1
        payloadOffset := copy.2
        payloadSize := fd.size
        typeDescriptorIdx := binding.typeDescriptorIdx
        alignment := alignment
        streamId := fd.streamId
        sequence := fd.sequence
        endOfStream := fd.endOfStream
        frameId := if fd.traceToken != 0 then fd.traceToken else s.nextFrameId
        tracksExternalLifetime := fd.traceToken != 0
        wireFormat := fd.wireFormat }
    if fd.wireFormat == alignedBinaryFormat then
      match artifact.resolveTypeDescriptor binding.typeDescriptorIdx with
      | some type =>
        if type.opaqueBytes then bare
        else
          { bare with
            byteLength := type.alignedByteLength
            fixedStringLength := type.alignedFixedStringLength
            requiredAlignment := type.alignedRequiredAlignment }
      | none => bare
    else bare

variable (descriptor : Option FlowFrameDescriptor)

/-- The external id a descriptor carries; zero is none. -/
def externalToken : Nat :=
  descriptor.elim 0 (·.traceToken)

def State.charge (s : State) (token payloadSize : Nat) : State :=
  { s with
    nextFrameId := if token != 0 then s.nextFrameId else (s.nextFrameId + 1) % 2 ^ 64
    allocations := if payloadSize == 0 then s.allocations else s.allocations + 1 }

def State.retainExternal (s : State) (token : Nat) : State :=
  { s with activeExternalFrames := retainExternalFrameId s.activeExternalFrames token }

/-- `flow_enqueue_binding`. -/
def enqueueBinding (s : State)
    (binding : FlowTriggerBinding) : State :=
  let frame := bindingFrame artifact payload s binding descriptor
  let token := externalToken descriptor
  let retained := (s.charge token frame.payloadSize).retainExternal token
  (retained.pushBack binding.targetNode frame).publish binding.targetNode artifact.toFlowTables

def receiveIngress (s : State) (trigger : Nat) : State :=
  let before := s.ingressStates trigger
  let after : IngressRuntimeState :=
    { totalReceived := (before.totalReceived + 1) % 2 ^ 64
      queuedFrames := (before.queuedFrames + 1) % 2 ^ 32 }
  { s with ingressStates := Function.update s.ingressStates trigger after }

/-- Push one frame for every binding of the trigger, then count the ingress. -/
def enqueueAll (s : State)
    (trigger : Nat) : State :=
  receiveIngress ((artifact.bindingsOf trigger).foldl (enqueueBinding artifact payload descriptor) s)
    trigger

/-- `space_data_module_runtime_enqueue_trigger_frames`. -/
def enqueueTriggerFrames (s : State) (triggerIndex : Int) : State :=
  if triggerIndex < 0 ∨ (artifact.triggerCount : Int) ≤ triggerIndex then s
  else enqueueAll artifact [] none s triggerIndex.toNat

/-- The common-identity loop for a payload that names no type descriptor. -/
def commonTypeRefused (common : Option FlowEdge) : List FlowTriggerBinding → Bool
  | [] => false
  | binding :: rest =>
    match artifact.resolveTypeDescriptor binding.typeDescriptorIdx with
    | none => true
    | some bindingType =>
      match common with
      | none => commonTypeRefused (some bindingType) rest
      | some first => !typeIdentityEqual first bindingType || commonTypeRefused (some first) rest

/-- `space_data_module_runtime_enqueue_trigger_frame`; no status is a trap. -/
def enqueueTriggerFrame (memory : LinearMemory) (s : State) (triggerIndex framePtr : Int) :
    State × Option Int :=
  if triggerIndex < 0 ∨ (artifact.triggerCount : Int) ≤ triggerIndex then (s, some (-50))
  else if framePtr = 0 then (enqueueTriggerFrames artifact s triggerIndex, some 0)
  else if framePtr < 0 ∨ validMemoryRange memory framePtr.toNat frameDescriptorSize = false then
    (s.reject, some (-51))
  else
    let fd := memory.frameDescriptor framePtr.toNat
    let bindings := artifact.bindingsOf triggerIndex.toNat
    let validation := validateFrameDescriptor artifact memory s fd false
    if validation < 0 then (s.reject, some validation)
    else if externalFrameIdActive s.activeExternalFrames fd.traceToken then (s.reject, some (-52))
    else if 0 < fd.size ∧ fd.typeDescriptorIdx = invalidIndex ∧
        commonTypeRefused artifact none bindings = true then (s.reject, some (-54))
    else if fd.typeDescriptorIdx ≠ invalidIndex ∧ bindings.any (fun binding =>
        !bindingAcceptsDescriptor artifact.toFlowTables binding fd.typeDescriptorIdx fd.wireFormat) = true then
      (s.reject, some (-53))
    else if bindings ≠ [] ∧ 0 < fd.size ∧ validMemoryRange memory fd.offset fd.size = false then
      -- only an unoccupied descriptor gets here: the copy for the first binding leaves memory
      (s.charge fd.traceToken fd.size, none)
    else
      (enqueueAll artifact (memory.read fd.offset fd.size) (some fd) s triggerIndex.toNat,
        some bindings.length)

end Triggers

section Linked
variable (artifact : Artifact)

structure ShimOutput where
  port : CString
  schemaName : CString
  fileIdentifier : CString
  rootTypeName : CString
  storage : Option PayloadStorage
  payloadOffset : Nat
  payloadLength : Nat
  wireFormat : Nat
  fixedStringLength : Nat
  byteLength : Nat
  requiredAlignment : Nat
  sequence : Nat := 0
  endOfStream : Bool := false
  deriving DecidableEq

/-- The arguments of `shim_push_output`, with the bytes at `payload_ptr`. -/
structure ShimPush where
  portId : Option CString
  schemaName : Option CString := none
  fileIdentifier : Option CString := none
  wireFormat : Nat := flatbufferFormat
  rootTypeName : Option CString := none
  fixedStringLength : Nat := 0
  byteLength : Nat := 0
  requiredAlignment : Nat := 1
  payloadPtr : Nat := 0
  payload : List UInt8 := []
  deriving DecidableEq

/-- The invoke-shim calls that change what a linked entry hands back.
`plugin_push_output_typed` is `push` itself, `plugin_push_output_ex` gives it the
payload's own byte length. -/
inductive ShimCall where
  | push (output : ShimPush)
  | setOutputFrameId (index frameId : Nat)
  | setOutputStreamFrame (index sequence : Nat) (endOfStream : Int)
  | setYielded (yielded : Int)
  | setBacklogRemaining (backlogRemaining : Nat)
  | resetOutputState

variable (portId schemaName fileIdentifier : Option CString)

/-- `plugin_push_output`: canonical format, no layout claim. -/
def pluginPushOutput (payloadPtr : Nat)
    (payload : List UInt8) : ShimCall :=
  .push { portId, schemaName, fileIdentifier, payloadPtr, payload }

structure ShimState where
  outputs : List ShimOutput := []
  yielded : Bool := false
  backlogRemaining : Nat := 0

/-- `shim_push_output`: the payload is retained or copied while it is alive. -/
def shimPushOutput (s : State) (push : ShimPush) : State × ShimOutput :=
  let alignment := effectiveAlignment push.requiredAlignment
  let output (storage : Option PayloadStorage) (offset : Nat) : ShimOutput :=
    { port := push.portId.getD []
      schemaName := push.schemaName.getD []
      fileIdentifier := push.fileIdentifier.getD []
      rootTypeName := push.rootTypeName.getD []
      storage := storage
      payloadOffset := offset
      payloadLength := push.payload.length
      wireFormat := push.wireFormat
      fixedStringLength := push.fixedStringLength
      byteLength := push.byteLength
      requiredAlignment := alignment }
  if push.payloadPtr == 0 || push.payload.isEmpty then (s, output none 0)
  else
    match findCurrentAlias s push.payloadPtr push.payload.length with
    | some (storage, offset) => (s, output storage offset)
    | none =>
      let copy := copyPayload artifact s push.payload alignment
      ({ s with allocations := s.allocations + 1 }, output (some copy.1) copy.2)

def shimStep (state : State × ShimState) : ShimCall → State × ShimState
  | .push output =>
    let pushed := shimPushOutput artifact state.1 output
    (pushed.1, { state.2 with outputs := state.2.outputs ++ [pushed.2] })
  | .setOutputFrameId index frameId =>
    (state.1, { state.2 with outputs := state.2.outputs.modify index fun output =>
      { output with sequence := frameId / 2, endOfStream := frameId % 2 == 1 } })
  | .setOutputStreamFrame index sequence endOfStream =>
    (state.1, { state.2 with outputs := state.2.outputs.modify index fun output =>
      { output with sequence := sequence, endOfStream := decide (endOfStream ≠ 0) } })
  | .setYielded yielded => (state.1, { state.2 with yielded := decide (yielded ≠ 0) })
  | .setBacklogRemaining backlog => (state.1, { state.2 with backlogRemaining := backlog })
  | .resetOutputState => (state.1, {})

/-- The view `dispatch_current_invocation_direct` builds of a shim output. -/
def shimOutputView (out : ShimOutput) : FlowOutputFrameView where
  port := some out.port
  schemaName := some out.schemaName
  fileIdentifier := some out.fileIdentifier
  rootTypeName := some out.rootTypeName
  payload := out.storage.elim 0 fun storage => storage.address + out.payloadOffset
  contents := out.storage.elim [] fun storage =>
    (storage.bytes.drop out.payloadOffset).take out.payloadLength
  ownedStorage := out.storage
  ownedOffset := out.payloadOffset
  length := out.payloadLength
  wireFormat := out.wireFormat
  byteLength := out.byteLength
  fixedStringLength := out.fixedStringLength
  requiredAlignment := out.requiredAlignment
  sequence := out.sequence % 2 ^ 32
  frameId := out.sequence * 2 % 2 ^ 64 + (if out.endOfStream then 1 else 0)
  endOfStream := if out.endOfStream then 1 else 0
  ownership := 1

/-- What one run of a linked entry does: its shim calls, its status, and linear
memory as the routing loop finds it afterwards. -/
structure GuestRun where
  calls : List ShimCall
  status : Int
  memory : LinearMemory

/-- The output loop of `dispatch_current_invocation_direct`: a refused output
ends the loop and becomes the node's status. -/
def routeShimOutputs (memory : LinearMemory) (node : Nat) :
    List ShimOutput → State → Nat → Int → State × Nat × Int
  | [], s, routed, status => (s, routed, status)
  | out :: rest, s, routed, status =>
    let result := routeOutput artifact memory s node (shimOutputView out)
    if result.2 < 0 then (result.1, routed, result.2)
    else routeShimOutputs memory node rest result.1 (routed + result.2.toNat) status

/-- `flow_call_entry`: the entry is handed the frames of the open invocation. -/
def State.enterEntry (s : State) (invocation : Invocation) : State :=
  { s with
    handed := Function.update s.handed invocation.node
      (s.handed invocation.node ++ invocation.frames) }

/-- `space_data_module_runtime_dispatch_current_invocation_direct`. -/
def dispatchCurrentInvocationDirect (guest : GuestRun) (s : State) : State × Int :=
  match s.current with
  | none => (s, -1)
  | some invocation =>
    let node := invocation.node
    if !artifact.nodeIsLinked node then (s, -2)
    else
      let called := guest.calls.foldl (shimStep artifact) (s.enterEntry invocation, {})
      let routed :=
        routeShimOutputs artifact guest.memory node called.2.outputs called.1 0 guest.status
      (settleNode artifact routed.1 node invocation.frames.length routed.2.2
        called.2.backlogRemaining called.2.yielded, routed.2.1)

/-- The scheduler loop of `drain_linked`. `guests i` is what the entry selected
in iteration `i` does. -/
def drainLoop (guests : Nat → GuestRun) : Nat → State → Nat → State × Int
  | 0, s, dispatched => (s, dispatched)
  | remaining + 1, s, dispatched =>
    match findReadyNode artifact.toFlowTables s with
    | none => (s, dispatched)
    | some node =>
      if !artifact.nodeIsLinked node then (s, dispatched)
      else
        let opened := beginNodeInvocation artifact s node 64
        if opened.2 < 0 then (completeNodeInvocation artifact opened.1, dispatched)
        else
          let served := (dispatchCurrentInvocationDirect artifact (guests dispatched) opened.1).1
          drainLoop guests remaining (completeNodeInvocation artifact served) (dispatched + 1)

/-- `space_data_module_runtime_drain_linked`. -/
def drainLinked (guests : Nat → GuestRun) (s : State) (maxIterations : Int) : State × Int :=
  if s.current.isSome then (s, -1)
  else if maxIterations = 0 then (s, 0)
  else drainLoop artifact guests (if 0 < maxIterations then maxIterations.toNat else 1024) s 0

end Linked

inductive Call where
  | resetState
  | enqueueTriggerFrames (triggerIndex : Int)
  | enqueueTriggerFrame (memory : LinearMemory) (triggerIndex framePtr : Int)
  | beginNodeInvocation (nodeIndex frameBudget : Int)
  | applyNodeInvocationResult (memory : LinearMemory)
      (nodeIndex statusCode backlogRemaining yielded framesPtr frameCount : Int)
  | completeNodeInvocation (nodeIndex : Int)
  | dispatchCurrentInvocationDirect (guest : GuestRun) (frameBudget : Int)
  | drainLinked (guests : Nat → GuestRun) (maxIterations : Int)

def step (artifact : Artifact) (s : State) : Call → State
  | .resetState => { State.initial with allocations := s.allocations }
  | .enqueueTriggerFrames trigger => FlowRuntime.enqueueTriggerFrames artifact s trigger
  | .enqueueTriggerFrame memory trigger ptr =>
    (FlowRuntime.enqueueTriggerFrame artifact memory s trigger ptr).1
  | .beginNodeInvocation node budget => (FlowRuntime.beginNodeInvocation artifact s node budget).1
  | .applyNodeInvocationResult memory node status backlog yielded ptr count =>
    (FlowRuntime.applyNodeInvocationResult artifact memory s node status backlog yielded ptr count).1
  | .completeNodeInvocation _ => FlowRuntime.completeNodeInvocation artifact s
  | .dispatchCurrentInvocationDirect guest _ =>
    (FlowRuntime.dispatchCurrentInvocationDirect artifact guest s).1
  | .drainLinked guests maxIterations => (FlowRuntime.drainLinked artifact guests s maxIterations).1

/-- States some sequence of exported calls leads to from a fresh instance. -/
def Reachable (artifact : Artifact) (s : State) : Prop :=
  ∃ calls, Transition.Run Transition.Free (step artifact) State.initial calls s

end SpaceDataModule.FlowRuntime

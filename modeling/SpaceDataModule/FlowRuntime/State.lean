import SpaceDataModule.FlowRuntime.Tables

/-! Scheduler state of the compiled runtime, readiness, and the storage helpers
frames are made with. Counters wrap at the width of their words. -/
namespace SpaceDataModule.FlowRuntime

/-- One allocation of `std::vector<uint8_t>`: `bytes.data()` and the bytes. -/
structure PayloadStorage where
  address : Nat
  bytes : List UInt8
  deriving DecidableEq

structure QueuedFrame where
  port : CString
  storage : Option PayloadStorage := none
  payloadOffset : Nat := 0
  payloadSize : Nat := 0
  typeDescriptorIdx : Nat := invalidIndex
  alignment : Nat := 1
  byteLength : Nat := 0
  fixedStringLength : Nat := 0
  requiredAlignment : Nat := 1
  streamId : Nat := 0
  sequence : Nat := 0
  frameId : Nat := 0
  endOfStream : Nat := 0
  wireFormat : Nat := flatbufferFormat
  tracksExternalLifetime : Bool := false
  deriving DecidableEq

/-- `QueuedFrame::data`, with the null pointer as address zero. -/
def QueuedFrame.data (frame : QueuedFrame) : Nat :=
  match frame.storage with
  | none => 0
  | some storage => if frame.payloadSize == 0 then 0 else storage.address + frame.payloadOffset

def QueuedFrame.payload (frame : QueuedFrame) : List UInt8 :=
  match frame.storage with
  | none => []
  | some storage => (storage.bytes.drop frame.payloadOffset).take frame.payloadSize

structure NodeRuntimeState where
  invocationCount : Nat := 0
  consumedFrames : Nat := 0
  queuedFrames : Nat := 0
  backlogRemaining : Nat := 0
  lastStatus : Nat := 0
  ready : Bool := false
  yielded : Bool := false
  deriving DecidableEq

structure IngressRuntimeState where
  totalReceived : Nat := 0
  queuedFrames : Nat := 0
  deriving DecidableEq

structure RoutingRuntimeState where
  alignedSharedRoutes : Nat := 0
  alignedCopiedRoutes : Nat := 0
  canonicalRoutes : Nat := 0
  rejectedFrames : Nat := 0
  deriving DecidableEq

structure ExternalFrameLifetime where
  frameId : Nat
  references : Nat
  deriving DecidableEq

/-- `g_current_node`, `g_current_desc.frame_count` and the live prefix of
`g_current_owned`; later slots of that array are never read. -/
structure Invocation where
  node : Nat
  frames : List QueuedFrame
  deriving DecidableEq

structure State where
  queues : Nat → List QueuedFrame
  nodeStates : Nat → NodeRuntimeState
  ingressStates : Nat → IngressRuntimeState
  current : Option Invocation
  invocationGeneration : Nat
  nextFrameId : Nat
  activeExternalFrames : List ExternalFrameLifetime
  routingState : RoutingRuntimeState
  readyCursor : Nat
  /-- Storages placed so far; selects the next answer of the allocator. -/
  allocations : Nat
  /-- History variables, read by no operation: the frames pushed on each queue
  and the frames handed to each node's entry, oldest first. -/
  pushed : Nat → List QueuedFrame
  handed : Nat → List QueuedFrame

/-- The static storage of a fresh instance, which `reset_state` restores. -/
def State.initial : State where
  queues _ := []
  nodeStates _ := {}
  ingressStates _ := {}
  current := none
  invocationGeneration := 0
  nextFrameId := 1
  activeExternalFrames := []
  routingState := {}
  readyCursor := 0
  allocations := 0
  pushed _ := []
  handed _ := []

/-- A linked artifact: its tables and the C library's allocator. The address of
the `n`-th storage may depend on `n` and on the requested size in any way. -/
structure Artifact extends FlowTables where
  place : Nat → Nat → Nat

instance : Coe Artifact FlowTables := ⟨Artifact.toFlowTables⟩

structure FlowFrameDescriptor where
  ingressIndex : Nat := 0
  typeDescriptorIdx : Nat := invalidIndex
  portIdPtr : Nat := 0
  alignment : Nat := 0
  offset : Nat := 0
  size : Nat := 0
  streamId : Nat := 0
  sequence : Nat := 0
  traceToken : Nat := 0
  endOfStream : Nat := 0
  occupied : Bool := true
  wireFormat : Nat := flatbufferFormat
  ownership : Nat := 0
  mutability : Nat := 0
  deriving DecidableEq

/-- What a call sees of linear memory: its size in bytes, single bytes, and the
frame descriptor a pointer is cast to. -/
structure LinearMemory where
  size : Nat
  byte : Nat → UInt8
  frameDescriptor : Nat → FlowFrameDescriptor

/-- Readiness of a node, over exactly the words it depends on. -/
def readyWith (tables : FlowTables) (node : Nat) (state : NodeRuntimeState)
    (queue : List QueuedFrame) : Bool :=
  if state.yielded && 0 < state.backlogRemaining then true
  else if queue.isEmpty then false
  else tables.requiredPorts.all fun required =>
    required.nodeIndex != node || queue.any fun frame => frame.port == required.portId

/-- `flow_node_is_ready`. -/
def nodeIsReady (tables : FlowTables) (s : State) (node : Nat) : Bool :=
  readyWith tables node (s.nodeStates node) (s.queues node)

/-- `flow_find_ready_node`: the scan starts at the fair cursor and wraps once. -/
def findReadyNode (tables : FlowTables) (s : State) : Option Nat :=
  ((List.range tables.nodeCount).map fun offset =>
    (s.readyCursor + offset) % tables.nodeCount).find? (nodeIsReady tables s)

/-- `flow_valid_memory_range`. -/
def validMemoryRange (memory : LinearMemory) (offset size : Nat) : Bool :=
  decide (offset ≤ memory.size) && decide (size ≤ memory.size - offset)

def effectiveAlignment (alignment : Nat) : Nat :=
  if alignment == 0 then 1 else alignment

/-- The terminator search of `flow_valid_c_string`; `limit` bounds the bytes read. -/
def readCString (memory : LinearMemory) (ptr : Nat) : Nat → Option CString
  | 0 => none
  | limit + 1 =>
    if memory.byte ptr == 0 then some []
    else (readCString memory (ptr + 1) limit).map (memory.byte ptr :: ·)

def cStringLimit (memory : LinearMemory) (ptr : Nat) : Nat := min (memory.size - ptr) 1024

/-- `flow_valid_c_string` with its default length. -/
def validCString (memory : LinearMemory) (ptr : Nat) : Bool :=
  ptr == 0 || (decide (ptr < memory.size) && (readCString memory ptr (cStringLimit memory ptr)).isSome)

def LinearMemory.read (memory : LinearMemory) (offset size : Nat) : List UInt8 :=
  (List.range size).map fun i => memory.byte (offset + i)

/-- `flow_copy_payload`: the copy is padded to the next aligned address. -/
def copyPayload (artifact : Artifact) (s : State) (payload : List UInt8) (alignment : Nat) :
    PayloadStorage × Nat :=
  let normalized := if isPowerOfTwo alignment then alignment else 1
  if payload.isEmpty then (⟨0, []⟩, 0)
  else
    let address := artifact.place s.allocations (payload.length + normalized - 1)
    let padding := (normalized - address % normalized) % normalized
    (⟨address, List.replicate padding 0 ++ payload ++
      List.replicate (normalized - 1 - padding) 0⟩, padding)

/-- `flow_find_current_alias`: a slice of a frame of the open invocation.
Pointer arithmetic wraps at 32 bits, as `uintptr_t` does on wasm32. -/
def findCurrentAlias (s : State) (payload length : Nat) : Option (Option PayloadStorage × Nat) :=
  if payload == 0 && decide (0 < length) then none
  else
    let requestedEnd := (payload + length) % 2 ^ 32
    if requestedEnd < payload then none
    else
      match s.current with
      | none => none
      | some invocation =>
        (invocation.frames.find? fun frame =>
          !(frame.data == 0 && decide (0 < frame.payloadSize)) &&
          decide (frame.data ≤ payload) &&
          decide (requestedEnd ≤ (frame.data + frame.payloadSize) % 2 ^ 32)).map
          fun frame => (frame.storage, frame.payloadOffset + (payload - frame.data))

section Updates
variable (s : State) (node : Nat)

def State.setQueue (queue : List QueuedFrame) : State :=
  { s with queues := Function.update s.queues node queue }

def State.setNodeState (state : NodeRuntimeState) : State :=
  { s with nodeStates := Function.update s.nodeStates node state }

/-- The trailer every queue change ends with: `queued_frames`, then `ready`. -/
def State.publish (tables : FlowTables) : State :=
  let counted := { s.nodeStates node with queuedFrames := (s.queues node).length }
  s.setNodeState node { counted with ready := readyWith tables node counted (s.queues node) }

/-- `g_queues[node].push_back(frame)`. -/
def State.pushBack (frame : QueuedFrame) : State :=
  { s.setQueue node (s.queues node ++ [frame]) with
    pushed := Function.update s.pushed node (s.pushed node ++ [frame]) }

/-- `g_routing_state.rejected_frames++`. -/
def State.reject : State :=
  { s with routingState.rejectedFrames := (s.routingState.rejectedFrames + 1) % 2 ^ 64 }

section
variable (tables : FlowTables)

@[simp] theorem State.publish_queues :
    (s.publish node tables).queues = s.queues := rfl

@[simp] theorem State.publish_current :
    (s.publish node tables).current = s.current := rfl

@[simp] theorem State.publish_external :
    (s.publish node tables).activeExternalFrames = s.activeExternalFrames := rfl

@[simp] theorem State.publish_pushed :
    (s.publish node tables).pushed = s.pushed := rfl

@[simp] theorem State.publish_handed :
    (s.publish node tables).handed = s.handed := rfl

@[simp] theorem State.publish_consumed (other : Nat) :
    ((s.publish node tables).nodeStates other).consumedFrames =
      (s.nodeStates other).consumedFrames := by
  by_cases same : other = node
  · subst same
    simp [State.publish, State.setNodeState]
  · simp [State.publish, State.setNodeState, Function.update_of_ne same]

end

section
variable (frame : QueuedFrame)

@[simp] theorem State.pushBack_queues :
    (s.pushBack node frame).queues = Function.update s.queues node (s.queues node ++ [frame]) := rfl

@[simp] theorem State.pushBack_nodeStates :
    (s.pushBack node frame).nodeStates = s.nodeStates := rfl

@[simp] theorem State.pushBack_pushed :
    (s.pushBack node frame).pushed = Function.update s.pushed node (s.pushed node ++ [frame]) := rfl

@[simp] theorem State.pushBack_handed :
    (s.pushBack node frame).handed = s.handed := rfl

end

end Updates

end SpaceDataModule.FlowRuntime

import SpaceDataModule.FlowRuntime.State

/-! `route_output`: admission of one output frame against every edge leaving its
port, then one queue entry per edge. Admission of the whole fan-out precedes the
first queue change. -/
namespace SpaceDataModule.FlowRuntime

/-- `ownership` and `mutability` codes; larger ones are refused. -/
def transferredOwnership : Nat := 2
def appendOnlyMutability : Nat := 2

structure FlowOutputFrameView where
  port : Option CString
  schemaName : Option CString := none
  fileIdentifier : Option CString := none
  rootTypeName : Option CString := none
  /-- The payload pointer, and the bytes it points to when the frame is routed. -/
  payload : Nat := 0
  contents : List UInt8 := []
  ownedStorage : Option PayloadStorage := none
  ownedOffset : Nat := 0
  length : Nat := 0
  wireFormat : Nat := flatbufferFormat
  byteLength : Nat := 0
  fixedStringLength : Nat := 0
  requiredAlignment : Nat := 1
  streamId : Nat := 0
  sequence : Nat := 0
  frameId : Nat := 0
  endOfStream : Nat := 0
  ownership : Nat := 0
  mutability : Nat := 0
  deriving DecidableEq

/-- A declared identity component: neither null nor the empty text. -/
def declared (text : Option CString) : Bool := text.any fun bytes => !bytes.isEmpty

variable (out : FlowOutputFrameView)

/-- `flow_output_declares_identity`. -/
def outputDeclaresIdentity : Bool :=
  declared out.schemaName || declared out.fileIdentifier || declared out.rootTypeName

/-- One comparison of `flow_output_matches_edge_identity`. A null table string
is compared as the empty text at address zero. -/
def identityAgrees (output edge : Option CString) : Bool :=
  !declared output || output.getD [] == edge.getD []

variable (edge : FlowEdge)

def outputMatchesEdgeIdentity : Bool :=
  identityAgrees out.schemaName edge.schemaName &&
    identityAgrees out.fileIdentifier edge.fileIdentifier &&
    identityAgrees out.rootTypeName edge.rootTypeName

/-- The layout proof an aligned frame owes to an edge with an aligned route. A
declared stride of zero is a variable-length stream. -/
def layoutAdmits : Bool :=
  let fixedStride := edge.alignedByteLength != 0
  isPowerOfTwo edge.alignedRequiredAlignment &&
    !(fixedStride && out.length != edge.alignedByteLength) &&
    !(fixedStride && out.byteLength != 0 && out.byteLength != edge.alignedByteLength) &&
    !(out.fixedStringLength != 0 && out.fixedStringLength != edge.alignedFixedStringLength) &&
    !(out.requiredAlignment != 0 && out.requiredAlignment != edge.alignedRequiredAlignment) &&
    out.payload % edge.alignedRequiredAlignment == 0

/-- The body of the admission loop: the status a single edge refuses with. -/
def edgeRefusal : Option Int :=
  if edge.opaqueBytes then
    if outputDeclaresIdentity out then some (-27) else none
  else if !outputMatchesEdgeIdentity out edge then some (-24)
  else if out.wireFormat == flatbufferFormat then
    if edge.canonicalFallbackAvailable then none else some (-25)
  else if !edge.alignedEligible then
    -- no aligned route on a typed edge: the canonical one still carries bytes
    if edge.canonicalFallbackAvailable then none else some (-26)
  else if layoutAdmits out edge then none
  else some (-26)

/-- The frame keeps its aligned layout across the edge; every other frame
travels as untyped bytes at alignment one. -/
def ridesAligned : Bool :=
  !edge.opaqueBytes && edge.alignedEligible && out.wireFormat == alignedBinaryFormat

/-- How `route_output` came by the storage of a routed frame. -/
inductive RouteSource where
  | preowned | aliased | copied
  deriving DecidableEq

variable (artifact : Artifact)

/-- The storage of a payload the caller does not own: a slice of a current
frame where there is one, else a copy. -/
def borrowedStorage (s : State) (out : FlowOutputFrameView)
    (aliased : Option (Option PayloadStorage × Nat)) (copyAlignment : Nat) :
    Option PayloadStorage × Nat × RouteSource :=
  match aliased with
  | some (storage, offset) => (storage, offset, .aliased)
  | none =>
    let copy := copyPayload artifact s (out.contents.take out.length) copyAlignment
    (some copy.1, copy.2, .copied)

def routeStorage (s : State) (out : FlowOutputFrameView)
    (aliased : Option (Option PayloadStorage × Nat)) (copyAlignment : Nat) :
    Option PayloadStorage × Nat × RouteSource :=
  match out.ownedStorage with
  | some storage =>
    if decide (0 < out.length) && (decide (copyAlignment ≤ 1) ||
        (storage.address + out.ownedOffset) % copyAlignment == 0) then
      (some storage, out.ownedOffset, .preowned)
    else borrowedStorage artifact s out aliased copyAlignment
  | none => borrowedStorage artifact s out aliased copyAlignment

def routedFrame (row : FlowEdge × Nat) (frameId : Nat)
    (storage : Option PayloadStorage) (offset : Nat) : QueuedFrame :=
  let aligned := ridesAligned out row.1
  { port := row.1.toPort
    storage := storage
    payloadOffset := offset
    payloadSize := out.length
    typeDescriptorIdx := row.2
    streamId := out.streamId
    sequence := out.sequence
    endOfStream := out.endOfStream
    frameId := frameId
    wireFormat := if aligned then out.wireFormat else flatbufferFormat
    alignment := if aligned then row.1.alignedRequiredAlignment else 1
    byteLength :=
      if aligned then
        if row.1.alignedByteLength != 0 then row.1.alignedByteLength else out.length
      else 0
    fixedStringLength := if aligned then row.1.alignedFixedStringLength else 0
    requiredAlignment := if aligned then row.1.alignedRequiredAlignment else 1 }

def RoutingRuntimeState.count (routing : RoutingRuntimeState) (aligned : Bool) :
    RouteSource → RoutingRuntimeState
  | .copied =>
    if aligned then { routing with alignedCopiedRoutes := (routing.alignedCopiedRoutes + 1) % 2 ^ 64 }
    else { routing with canonicalRoutes := (routing.canonicalRoutes + 1) % 2 ^ 64 }
  | .preowned | .aliased =>
    if aligned then { routing with alignedSharedRoutes := (routing.alignedSharedRoutes + 1) % 2 ^ 64 }
    else { routing with canonicalRoutes := (routing.canonicalRoutes + 1) % 2 ^ 64 }

/-- The body of the delivery loop of `route_output` for one matching edge. -/
def routeEdge (out : FlowOutputFrameView)
    (aliased : Option (Option PayloadStorage × Nat)) (s : State) (row : FlowEdge × Nat) : State :=
  let aligned := ridesAligned out row.1
  let copyAlignment := if aligned then row.1.alignedRequiredAlignment else 1
  let stored := routeStorage artifact s out aliased copyAlignment
  let frame := routedFrame out row (if out.frameId != 0 then out.frameId else s.nextFrameId)
    stored.1 stored.2.1
  let charged : State :=
    { s with
      nextFrameId := if out.frameId != 0 then s.nextFrameId else (s.nextFrameId + 1) % 2 ^ 64
      routingState := s.routingState.count aligned stored.2.2
      allocations :=
        if stored.2.2 = .copied ∧ 0 < out.length then s.allocations + 1 else s.allocations }
  (charged.pushBack row.1.toNode frame).publish row.1.toNode artifact.toFlowTables

/-- `route_output`; a negative status leaves every queue as it was. -/
def routeOutput (memory : LinearMemory) (s : State) (fromNode : Nat)
    (out : FlowOutputFrameView) : State × Int :=
  match out.port with
  | none => (s, -20)
  | some port =>
    if decide (alignedBinaryFormat < out.wireFormat) || decide (transferredOwnership < out.ownership) ||
        decide (appendOnlyMutability < out.mutability) then (s.reject, -21)
    else if decide (0 < out.length) &&
        (out.payload == 0 || !validMemoryRange memory out.payload out.length) then (s.reject, -22)
    else
      let matching := artifact.matchingEdges fromNode port
      if matching.isEmpty then (s, 0)
      else if out.mutability != 0 &&
          (out.ownership != transferredOwnership || matching.length != 1) then (s.reject, -23)
      else
        match matching.findSome? fun row => edgeRefusal out row.1 with
        | some status => (s.reject, status)
        | none =>
          let aliased := findCurrentAlias s out.payload out.length
          (matching.foldl (routeEdge artifact out aliased) s, matching.length)

end SpaceDataModule.FlowRuntime

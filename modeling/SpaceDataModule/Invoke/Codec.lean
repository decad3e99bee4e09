import SpaceDataModule.ByteFiles
import SpaceDataModule.Invoke.Leases

/-! The PIV envelope: frames are packed into one arena, or point into one of the host, and come
back as views of it. The FlatBuffers builder and reader stand in `Flatbuffers`. -/
namespace SpaceDataModule.Invoke
open Checked (require)

section Envelopes

/-- A TAB table: the frame of an envelope, its numbers as they are stored. -/
structure Tab where
  offset : Nat
  size : Nat
  alignment : Nat
  wireFormat : Nat
  typeRef : Option TypeRefTable
  mutability : Nat
  ownership : Nat
  frameId : Nat
  portId : Option String
  deriving DecidableEq

def toUint32 (value : Int) : Nat := (value % 2 ^ 32).toNat
def toUint64 (value : Int) : Nat := (value % 2 ^ 64).toNat

inductive Status where
  | ok | yielded | failed
  deriving DecidableEq

inductive Header where
  | request (methodId : Option String) (traceId outputStreamCap : Nat)
  | response (statusCode : Int) (status : Status) (yielded : Bool) (backlogRemaining : Nat)
      (errorCode errorMessage : Option String) (traceId : Nat)
  deriving DecidableEq

def Header.isRequest : Header → Bool
  | .request .. => true
  | .response .. => false

structure Envelope where
  header : Header
  frames : List Tab
  payloadArena : Bytes
  deriving DecidableEq

/-- What is read from a PIV buffer: the envelope, with its arena as a view of the buffer. -/
structure Root where
  header : Header
  frames : List Tab
  arena : View

/-- The FlatBuffers runtime and the generated code. -/
structure Flatbuffers where
  /-- A finished buffer, its arena aligned; none where the builder fails. -/
  finish : Envelope → (arenaAlignment : Nat) → Option View
  /-- The root of a buffer with the PIV identifier. -/
  read : View → Option Root

end Envelopes

section Packing
variable (state : State)

structure Packed where
  payload : Bytes
  tab : Tab

variable (frame : Frame)

def tabOf (offset : Int) (size alignment : Nat) (wireFormat : WireFormat)
    (typeRef : TypeRefTable) : Except String Tab := do
  let mutability ← toSdsMutability frame.mutability
  let ownership ← toSdsOwnership frame.ownership
  return {
    offset := toUint32 offset
    size := size
    alignment := alignment
    wireFormat := wireFormat.sds
    typeRef := some typeRef
    mutability := mutability
    ownership := ownership
    frameId := toUint64 (encodeSdsFrameId frame)
    portId := frame.portId }

def normalizeSdsArenaFrame (offset : Nat) : Except String Packed := do
  let payload := (frame.payload.map View.bytes).getD []
  let _ ← assertRetainedAliasSafe state frame "SDS PIV/TAB frame forwarding"
  let (typeRef, wireFormat) ← normalizeFrameTypeRef frame
  let alignment ← resolveFrameAlignment frame typeRef.requiredAlignment
  assertAlignedFrameSize wireFormat typeRef payload.length
  let alignedOffset := alignOffset offset alignment
  assertUint32FrameRange alignedOffset payload.length "SDS PIV/TAB frame"
  let tab ← tabOf frame alignedOffset payload.length alignment wireFormat typeRef
  return ⟨payload, tab⟩

def packFrames (offset : Nat) : List Frame → Except String (List Packed)
  | [] => .ok []
  | frame :: frames => do
    let packed ← normalizeSdsArenaFrame state frame offset
    let rest ← packFrames (packed.tab.offset + packed.tab.size) frames
    return packed :: rest

def arenaLength (packed : List Packed) : Nat :=
  (packed.getLast?.map fun last => last.tab.offset + last.tab.size).getD 0

def arenaAlignment (tabs : List Tab) : Nat :=
  tabs.foldl (fun alignment tab => max alignment tab.alignment) invokeArenaAlignment

structure Arena where
  frames : List Tab
  arena : Bytes
  alignment : Nat

/-- The arena is filled once all frames have their place. -/
def packArenaFrames (frames : List Frame) : Except String Arena := do
  let packed ← packFrames state 0 frames
  let tabs := packed.map (·.tab)
  return {
    frames := tabs
    arena := packed.foldl (fun arena frame =>
      ByteFiles.writeAt arena frame.tab.offset frame.payload)
        (List.replicate (arenaLength packed) 0)
    alignment := arenaAlignment tabs }

variable (externalArena : View)

/-- Where a frame stands in the arena of the host: as it says, or where its payload is, which may
be before the arena. -/
def externalOffset (given : Nat) : Int :=
  match frame.offset, frame.payload with
  | none, some payload =>
    if payload.buffer = externalArena.buffer then
      (payload.byteOffset : Int) - externalArena.byteOffset
    else given
  | _, _ => given

/-- The arena of the host lies in that of the lease. -/
def assertExternalArena : Option LeaseState → Except String Unit
  | some found => assertViewWithinArena externalArena found.arena "SDS PIV/TAB external arena"
  | none => .ok ()

/-- A frame that has bytes lies in the arena of the host, aligned. -/
def checkExternalRange (offset : Int)
    (size alignment : Nat) : Except String Unit :=
  if size = 0 then .ok ()
  else do
    require (offset + size ≤ externalArena.byteLength)
      "SDS PIV external arena frame range exceeds externalArena."
    let absoluteOffset := externalArena.byteOffset + offset
    require (alignment ≤ 1 || absoluteOffset % alignment == 0)
      ("SDS PIV external arena frame \"" ++ frame.portId.getD "" ++
        "\" is misaligned: absolute offset " ++ toString absoluteOffset ++ " violates alignment " ++
        toString alignment ++ ".")

def normalizeExternalArenaFrame (frame : Frame) : Except String Tab := do
  let leaseState ← assertRetainedAliasSafe state frame "SDS PIV/TAB external frame forwarding"
  assertExternalArena externalArena leaseState
  let (typeRef, wireFormat) ← normalizeFrameTypeRef frame
  let alignment ← resolveFrameAlignment frame typeRef.requiredAlignment
  let given ← readBoundedInteger "SDS PIV/TAB external arena frame offset" (some 0) uint32Max
    frame.offset
  let offset := externalOffset frame externalArena given
  let size ← readBoundedInteger "SDS PIV/TAB external arena frame size" (some 0) uint32Max
    ((frame.size.or frame.byteLength).or
      (frame.payload.map fun payload => .finite payload.byteLength))
  assertUint32FrameRange offset size "SDS PIV/TAB external arena frame"
  assertAlignedFrameSize wireFormat typeRef size
  checkExternalRange frame externalArena offset size alignment
  tabOf frame offset size alignment wireFormat typeRef

/-- The frames of an arena of the host: nothing is copied. -/
def packExternalArenaFrames (frames : List Frame) (externalArena : Option View) :
    Except String Arena :=
  match externalArena with
  | none => .error "SDS PIV external arena encoding requires externalArena bytes."
  | some view => do
    let tabs ← frames.mapM (normalizeExternalArenaFrame state view)
    return ⟨tabs, [], arenaAlignment tabs⟩

end Packing

section Encoding
variable (fb : Flatbuffers) (state : State)

/-- `assertAlignedInvokeBuffer` on a finished buffer and the arena read from it. -/
def assertAlignedInvokeBuffer (bytes : View) (arena : Option View) (kind : String)
    (alignment : Nat) : Except String Unit := do
  require (bytes.byteOffset % invokeArenaAlignment == 0) (kind ++ " buffer base is not " ++
    toString invokeArenaAlignment ++ "-byte aligned (byteOffset " ++ toString bytes.byteOffset ++
    ").")
  require (arena.all fun view => view.byteLength == 0 || view.byteOffset % alignment == 0)
    (kind ++ " payload arena base is not " ++ toString alignment ++ "-byte aligned (byteOffset " ++
      toString ((arena.map (·.byteOffset)).getD 0) ++ ").")

/-- The frames an envelope is given: in an arena of its own, or in one of the host. The arena of
the host is none where there is no such property. -/
def packFramesOf (frames : List Frame) (externalArena : Option (Option View)) :
    Except String Arena :=
  match externalArena with
  | some given => packExternalArenaFrames state frames given
  | none => packArenaFrames state frames

/-- `kind` is `describeInvokeBufferKind`. -/
def encodeEnvelope (kind : String) (header : Header) (frames : List Frame)
    (externalArena : Option (Option View)) : Except String View := do
  let packed ← packFramesOf state frames externalArena
  match fb.finish ⟨header, packed.frames, packed.arena⟩ packed.alignment with
  | none => .error "FlatBuffers: cannot grow buffer beyond 2 gigabytes."
  | some bytes => do
    assertAlignedInvokeBuffer bytes ((fb.read bytes).map (·.arena)) kind packed.alignment
    return bytes

structure Request where
  methodId : Option String := none
  inputs : List Frame := []
  externalArena : Option (Option View) := none
  traceId : Option BigIntLike := none
  outputStreamCap : Nat := 0

structure Response where
  statusCode : Int := 0
  status : Option Status := none
  yielded : Bool := false
  backlogRemaining : Nat := 0
  outputs : List Frame := []
  externalArena : Option (Option View) := none
  errorCode : Option String := none
  errorMessage : Option String := none
  traceId : Option BigIntLike := none

variable (response : Response)

def resolvePivStatus : Status :=
  response.status.getD
    (if response.yielded then .yielded
    else if response.statusCode ≠ 0 ∨ response.errorCode.any (· ≠ "") then .failed
    else .ok)

def Request.header (request : Request) : Header :=
  .request request.methodId (toUint64 (normalizeBigInt request.traceId)) request.outputStreamCap

def Response.header : Header :=
  .response response.statusCode (resolvePivStatus response) response.yielded
    response.backlogRemaining response.errorCode response.errorMessage
    (toUint64 (normalizeBigInt response.traceId))

def encodePluginInvokeRequest (request : Request) : Except String View :=
  encodeEnvelope fb state "PIV request" request.header request.inputs request.externalArena

def encodePluginInvokeResponse : Except String View :=
  encodeEnvelope fb state "PIV response" response.header response.outputs response.externalArena

end Encoding

/-- A builder that finishes one envelope, to a buffer of its arena. -/
def storing (envelope : Envelope) : Flatbuffers where
  finish other _ := if other = envelope then some ⟨0, 0, envelope.payloadArena⟩ else none
  read _ := some ⟨envelope.header, envelope.frames, ⟨0, 0, envelope.payloadArena⟩⟩

theorem storing_encodes (packed : packArenaFrames state frames = .ok arena) :
    encodeEnvelope (storing ⟨header, arena.frames, arena.arena⟩) state kind header frames none =
      .ok ⟨0, 0, arena.arena⟩ := by
  rw [encodeEnvelope, packFramesOf, packed, Checked.ok_bind]
  simp only [storing, if_pos, assertAlignedInvokeBuffer, Checked.bind_eq_ok,
    Checked.require_eq_ok]
  exact ⟨⟨⟩, ⟨⟨⟩, rfl, by simp⟩, rfl⟩

def bareTypeRef : TypeRefTable := ⟨none, none, none, none, [], false, 0, 0, 0, 0⟩

section Decoding
variable (fb : Flatbuffers) (state : State)

def decodeSdsTypeRef (typeRef : TypeRefTable) : Except String (TypeRef × WireFormat) := do
  let wireFormat ← fromSdsWireFormat typeRef.wireFormat
  let fixedStringLength ← readBoundedInteger "SDS PIV/TAB decoded fixedStringLength" (some 0)
    uint16Max (some (.finite typeRef.fixedStringLength))
  let byteLength ← readBoundedInteger "SDS PIV/TAB decoded byteLength" (some 0) uint32Max
    (some (.finite typeRef.byteLength))
  let requiredAlignment ← readBoundedInteger "SDS PIV/TAB decoded requiredAlignment" (some 0)
    uint16Max (some (.finite typeRef.requiredAlignment))
  return ({
    schemaName := typeRef.schemaName
    fileIdentifier := typeRef.fileIdentifier
    schemaVersion := typeRef.schemaVersion
    rootTypeName := typeRef.rootType
    schemaHash := if typeRef.schemaHash = [] then .absent else .bytes typeRef.schemaHash
    acceptsAnyFlatbuffer := typeRef.acceptsAnyFlatbuffer
    wireFormat := some (.name wireFormat.name)
    fixedStringLength := some (.finite fixedStringLength)
    byteLength := some (.finite byteLength)
    requiredAlignment := some (.finite requiredAlignment) }, wireFormat)

def requiredAlignmentOf (typeRef : Option TypeRefTable) : Nat :=
  (typeRef.map (·.requiredAlignment)).getD 0

/-- `validateDecodedFrameContract`: a frame keeps to its type. -/
def validateDecodedFrameContract (tab : Tab) (wireFormat : WireFormat)
    (typed : Option WireFormat) : Except String Unit := do
  require (typed.all (· == wireFormat)) "SDS PIV/TAB frame and typeRef wire formats disagree."
  let required := requiredAlignmentOf tab.typeRef
  require (required == 0 || isPositivePowerOfTwo required)
    "SDS PIV/TAB decoded requiredAlignment must be a positive power of two."
  require (required ≤ tab.alignment) ("SDS PIV/TAB frame alignment " ++ toString tab.alignment ++
    " is below required alignment " ++ toString required ++ ".")
  require (wireFormat != .alignedBinary || tab.typeRef.isSome)
    "SDS PIV/TAB aligned frame requires a typeRef."
  require (wireFormat != .alignedBinary || isPositivePowerOfTwo required)
    "SDS PIV/TAB aligned type requiredAlignment must be a positive power of two."
  require (wireFormat != .alignedBinary || tab.typeRef.all fun typeRef =>
      typeRef.byteLength == 0 || tab.size == typeRef.byteLength)
    ("SDS PIV/TAB aligned payload size " ++ toString tab.size ++
      " does not match declared byteLength " ++
      toString ((tab.typeRef.map (·.byteLength)).getD 0) ++ ".")

def decodeSdsTabFrame (tab : Tab) : Except String Frame := do
  let alignment ← readAlignment "SDS PIV/TAB frame alignment" (some invokeArenaAlignment) uint32Max
    (some (.finite tab.alignment))
  let wireFormat ← fromSdsWireFormat tab.wireFormat
  let stream := decodeSdsFrameId tab.frameId
  let typeRef ← tab.typeRef.mapM decodeSdsTypeRef
  let ownership ← fromSdsOwnership tab.ownership
  let mutability ← fromSdsMutability tab.mutability
  validateDecodedFrameContract { tab with alignment := alignment } wireFormat
    (typeRef.map (·.2))
  return {
    typeRef := typeRef.map (·.1)
    portId := tab.portId
    alignment := some (.finite alignment)
    offset := some (.finite tab.offset)
    size := some (.finite tab.size)
    ownership := some (.code ownership.code)
    generation := some 0
    mutability := some (.code mutability.code)
    frameId := some (.bigint tab.frameId)
    traceId := some (.bigint tab.frameId)
    sequence := some (.bigint stream.1)
    endOfStream := some stream.2
    wireFormat := some (.name wireFormat.name) }

structure DecodeOptions where
  externalArena : Option View := none
  arenaLease : Option Nat := none

def sourceArena (arena : View) (options : DecodeOptions) : Option View :=
  if arena.byteLength > 0 then some arena else options.externalArena

def resolveDecodedArenaLease (arena : View) (options : DecodeOptions) :
    Except String (Nat × State) :=
  let source := (sourceArena arena options).getD arena
  match options.arenaLease with
  | none => createInvokeArenaLease state (some source) none
  | some lease => do
    let found ← requireArenaLeaseState state lease
    require (!found.closed) "SDS PIV/TAB decoded arena lease is closed."
    assertViewWithinArena source found.arena "SDS PIV/TAB decoded arena"
    return (lease, state)

def materializedPayload (tab : Tab) (arena : View) (options : DecodeOptions) :
    Except String View :=
  match sourceArena arena options with
  | none => do
    require (tab.size == 0)
      "SDS PIV external arena bytes are required when PAYLOAD_ARENA is empty."
    return ⟨0, 0, []⟩
  | some source => do
    require (tab.offset + tab.size ≤ source.byteLength) ("SDS PIV TAB payload range exceeds " ++
      (if arena.byteLength > 0 then "PAYLOAD_ARENA" else "external arena") ++ ".")
    let absoluteOffset := source.byteOffset + tab.offset
    require (tab.alignment ≤ 1 || tab.size == 0 || absoluteOffset % tab.alignment == 0)
      ("SDS PIV TAB \"" ++ tab.portId.getD "" ++ "\" payload is misaligned: absolute offset " ++
        toString absoluteOffset ++ " violates alignment " ++ toString tab.alignment ++ ".")
    return source.subarray tab.offset (tab.offset + tab.size)

/-- One frame of `materializeSdsArenaFrames`, under the lease. -/
def materializeSdsArenaFrame (arena : View) (options : DecodeOptions) (lease generation : Nat)
    (decoded : Tab × Frame) : Except String Frame := do
  assertUint32FrameRange decoded.1.offset decoded.1.size "SDS PIV/TAB decoded frame"
  let payload ← materializedPayload decoded.1 arena options
  return { decoded.2 with
    payload := some payload
    arenaLease := some lease
    arenaGeneration := some generation
    generation := some generation }

structure Decoded where
  header : Header
  frames : List Frame
  payloadArena : View
  arenaLease : Nat

def decodeEnvelope (root : Root) (options : DecodeOptions) : Except String (Decoded × State) := do
  let frames ← root.frames.mapM fun tab => (decodeSdsTabFrame tab).map fun frame => (tab, frame)
  let (lease, after) ← resolveDecodedArenaLease state root.arena options
  let found ← requireArenaLeaseState after lease
  let materialized ← frames.mapM
    (materializeSdsArenaFrame root.arena options lease found.generation)
  return (⟨root.header, materialized, root.arena, lease⟩, after)

def decodePluginInvokeRequest (data : View) (options : DecodeOptions) :
    Except String (Decoded × State) :=
  match fb.read data with
  | none => .error "SDS PIV invoke request buffer identifier mismatch."
  | some root =>
    match root.header with
    | .request .. => decodeEnvelope state root options
    | .response .. => .error "SDS PIV invoke envelope does not contain a request."

def decodePluginInvokeResponse (data : View) (options : DecodeOptions) :
    Except String (Decoded × State) :=
  match fb.read data with
  | none => .error "SDS PIV invoke response buffer identifier mismatch."
  | some root =>
    match root.header with
    | .response .. => decodeEnvelope state root options
    | .request .. => .error "SDS PIV invoke envelope does not contain a response."

end Decoding

end SpaceDataModule.Invoke

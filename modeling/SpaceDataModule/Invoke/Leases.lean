import SpaceDataModule.Invoke.Frames

/-! Leases of arenas: the tables of leases, transfer tokens and receipts, and the calls that read
and write them. A lease, a token and a forwarded frame are known by their numbers. -/
namespace SpaceDataModule.Invoke
open Checked (require)
open JavaScript (Number)

structure LeaseState where
  arena : View
  generation : Nat
  closed : Bool := false

structure Transfer where
  lease : Nat
  generation : Nat
  payload : Range
  frameId : Int
  ownership : Ownership
  mutability : Mutability
  consumed : Bool := false
  deriving DecidableEq

/-- The hidden tables of the codec. A receipt is what its token was minted for. -/
structure State where
  leases : List LeaseState := []
  transfers : List Transfer := []
  receipts : List (Nat × Transfer) := []
  /-- The objects forwards have returned so far. -/
  forwards : Nat := 0

section Checks
variable (state : State)

def requireArenaLeaseState (lease : Nat) : Except String LeaseState :=
  match state.leases[lease]? with
  | some found => .ok found
  | none => .error "SDS PIV/TAB arena lease is invalid."

variable (frame : Frame)

/-- `firstDefined(frame.generation, frame.arenaGeneration)`. -/
def Frame.capturedGeneration : Option Nat := frame.generation.or frame.arenaGeneration

/-- No payload is not checked. -/
def assertPayloadWithinArena (payload : Option View) (arena : View) (description : String) :
    Except String Unit :=
  match payload with
  | some view => assertViewWithinArena view arena description
  | none => .ok ()

def assertLiveArenaLease (lease : Nat) (generation : Option Nat) (payload : Option View)
    (description : String) : Except String LeaseState := do
  let found ← requireArenaLeaseState state lease
  require (!found.closed) (description ++ " arena lease is closed.")
  require (generation == some found.generation) (description ++
    " has stale arena lease generation " ++ (generation.map toString).getD "undefined" ++
    "; active generation is " ++ toString found.generation ++ ".")
  assertPayloadWithinArena payload found.arena description
  return found

def assertFrameArenaLease (description : String) (required : Bool := false) :
    Except String (Option LeaseState) :=
  match frame.arenaLease with
  | some lease =>
    (assertLiveArenaLease state lease frame.capturedGeneration frame.payload description).map some
  | none =>
    if required then .error (description ++ " requires a live arena lease.") else .ok none

/-- The receipt was written for a frame that is what this one is now. -/
def receiptMatches (receipt : Transfer) (frame : Frame) (ownership : Ownership)
    (mutability : Mutability) : Bool :=
  ownership == .shared && some receipt.lease == frame.arenaLease &&
    some receipt.generation == frame.capturedGeneration &&
    some receipt.payload == frame.payload.map View.range &&
    receipt.frameId == encodeSdsFrameId frame && receipt.ownership == ownership &&
    receipt.mutability == mutability

def receiptOf : Option Transfer :=
  frame.object.bind fun object => state.receipts.lookup object

/-- `assertRetainedAliasSafe`: without a lease nothing is checked. -/
def assertRetainedAliasSafe (description : String) :
    Except String (Option LeaseState) := do
  match ← assertFrameArenaLease state frame description with
  | none => return none
  | some leaseState => do
    let ownership ← normalizeFrameOwnership frame.ownership
    let mutability ← normalizeFrameMutability frame.mutability
    require ((ownership != .producerOwned && mutability == .immutable) ||
        (receiptOf state frame).any fun receipt =>
          receiptMatches receipt frame ownership mutability)
      (description ++ " producer-owned or mutable cross-invocation alias requires explicit " ++
        "compatible transfer forwarding.")
    return some leaseState

end Checks

section Leases
variable (state : State)

def createInvokeArenaLease (arena : Option View) (generation : Option Number) :
    Except String (Nat × State) :=
  match arena with
  | none => .error "createInvokeArenaLease requires Uint8Array-compatible arena bytes."
  | some view => do
    let first ← readBoundedInteger "SDS PIV/TAB arena lease generation" (some 1) uint32Max generation
    return (state.leases.length,
      { state with leases := state.leases ++ [{ arena := view, generation := first }] })

/-- The arena a lease goes on with: the one it has, or another one. -/
def advancedArena (arena : View) : Option (Option View) → Except String View
  | none => .ok arena
  | some (some view) => .ok view
  | some none => .error "SDS PIV/TAB arena lease advance requires Uint8Array-compatible bytes."

/-- `advance` of a lease; an argument that is no bytes is refused. -/
def advance (lease : Nat) (nextArena : Option (Option View)) : Except String (Nat × State) := do
  let found ← requireArenaLeaseState state lease
  require (!found.closed) "SDS PIV/TAB arena lease is closed."
  require (found.generation < uint32Max)
    "SDS PIV/TAB arena lease generation exceeds the uint32 range."
  let arena ← advancedArena found.arena nextArena
  let generation := found.generation + 1
  return (generation, { state with
    leases := state.leases.set lease { found with arena := arena, generation := generation } })

def close (lease : Nat) : Except String State := do
  let found ← requireArenaLeaseState state lease
  return { state with leases := state.leases.set lease { found with closed := true } }

/-- The payload of a frame that passed with a lease; there is nothing to transfer without one. -/
def transferPayload : Option View → Except String Range
  | some view => .ok view.range
  | none => .error "Cannot read properties of null (reading 'buffer')"

/-- `createTransferToken` of a lease. -/
def createTransferToken (lease : Nat) (frame : Frame) (ownership mutability : Option Tag) :
    Except String (Nat × State) := do
  let _ ← assertFrameArenaLease state frame "SDS PIV/TAB arena transfer" true
  require (frame.arenaLease == some lease)
    "SDS PIV/TAB arena transfer frame belongs to a different lease."
  let found ← requireArenaLeaseState state lease
  let owner ← normalizeFrameOwnership (ownership.or (some (.name "transferred")))
  require (owner == .shared) "SDS PIV/TAB arena transfer ownership must be transferred/shared."
  let access ← normalizeFrameMutability (mutability.or frame.mutability)
  let payload ← transferPayload frame.payload
  return (state.transfers.length, { state with transfers := state.transfers ++ [{
    lease := lease
    generation := found.generation
    payload := payload
    frameId := encodeSdsFrameId frame
    ownership := owner
    mutability := access }] })

end Leases

section Forwarding
variable (state : State)

structure Overrides where
  portId : Option String := none
  typeRef : Option TypeRef := none
  alignment : Option Number := none
  ownership : Option Tag := none
  mutability : Option Tag := none
  traceId : Option BigIntLike := none
  sequence : Option BigIntLike := none
  endOfStream : Option Bool := none
  copyCanonical : Bool := false
  /-- The buffer a canonical copy is put in. -/
  copyBuffer : Nat := 0
  arenaTransfer : Option Nat := none

def findTransfer (token : Nat) : Except String Transfer :=
  match state.transfers[token]? with
  | some transfer => .ok transfer
  | none => .error "SDS PIV/TAB arena transfer token is invalid."

/-- What was transferred, and the tables with the token consumed. -/
def consumeArenaTransferToken (token : Nat) (outputFrame : Frame) (payload : View) :
    Except String (Transfer × State) := do
  let transfer ← findTransfer state token
  require (!transfer.consumed) "SDS PIV/TAB arena transfer token was already consumed."
  require (some transfer.lease == outputFrame.arenaLease &&
      some transfer.generation == outputFrame.capturedGeneration &&
      transfer.payload == payload.range && transfer.frameId == encodeSdsFrameId outputFrame)
    "SDS PIV/TAB arena transfer token is incompatible with this frame."
  let _ ← assertLiveArenaLease state transfer.lease (some transfer.generation) (some payload)
    "SDS PIV/TAB arena transfer"
  return (transfer, { state with
    transfers := state.transfers.set token { transfer with consumed := true } })

def consumeOptional (token : Option Nat) (outputFrame : Frame) (payload : View) :
    Except String (Option Transfer × State) :=
  match token with
  | some token => (consumeArenaTransferToken state token outputFrame payload).map fun consumed =>
      (some consumed.1, consumed.2)
  | none => .ok (none, state)

variable (outputFrame : Frame) (overrides : Overrides)

/-- `overrides.alignment ?? (outputFrame.alignment > 0 ? outputFrame.alignment : undefined)`. -/
def forwardedAlignment : Option Number :=
  overrides.alignment.or (outputFrame.alignment.filter fun alignment => alignment.exceeds 0)

def forwardedFrame (portId : String)
    (wireFormat : WireFormat) (frameId : Int) : Frame where
  portId := some portId
  typeRef := overrides.typeRef.or outputFrame.typeRef
  frameId := some (.bigint frameId)
  traceId := overrides.traceId.or outputFrame.traceId
  sequence := overrides.sequence.or outputFrame.sequence
  endOfStream := overrides.endOfStream.or (outputFrame.endOfStream.filter id)
  wireFormat := some (.name wireFormat.name)

def canonicalCopy (carried : Frame) (payload : View) (overrides : Overrides) (frameId : Int) :
    Frame :=
  { carried with
    payload := some ⟨overrides.copyBuffer, 0, payload.bytes⟩
    alignment := overrides.alignment.or (some (.finite invokeArenaAlignment))
    ownership := some (.code Ownership.hostOwned.code)
    mutability := some (.code Mutability.immutable.code)
    traceId := carried.traceId.or (some (.bigint frameId)) }

/-- The token is required where the alias is not one that many may read. -/
def requiresTransfer (source requested : Ownership × Mutability) : Bool :=
  source.1 == .producerOwned || source.2 != .immutable || requested.1 == .producerOwned ||
    requested.2 != .immutable || requested.1 != source.1 || requested.2 != source.2

def accessOf (ownership mutability : Option Tag) : Except String (Ownership × Mutability) := do
  let owner ← normalizeFrameOwnership ownership
  let access ← normalizeFrameMutability mutability
  return (owner, access)

/-- A forward without a copy: the same bytes under the same lease. -/
def forwardAlias (outputFrame carried : Frame) (payload : View) (overrides : Overrides) :
    Except String (Frame × State) := do
  let _ ← assertFrameArenaLease state outputFrame "SDS PIV/TAB zero-copy forwarding" true
  let source ← accessOf outputFrame.ownership outputFrame.mutability
  let requested ← accessOf (overrides.ownership.or (some (.code source.1.code)))
    (overrides.mutability.or (some (.code source.2.code)))
  require (!requiresTransfer source requested || overrides.arenaTransfer.isSome)
    ("SDS PIV/TAB producer-owned or mutable cross-invocation alias requires an explicit arena " ++
      "transfer token.")
  let consumed ← consumeOptional state overrides.arenaTransfer outputFrame payload
  let access := (consumed.1.map fun transfer => (transfer.ownership, transfer.mutability)).getD source
  let forwarded : Frame := { carried with
    object := some state.forwards
    payload := some payload
    alignment := forwardedAlignment outputFrame overrides
    ownership := some (.code access.1.code)
    mutability := some (.code access.2.code)
    arenaLease := outputFrame.arenaLease
    arenaGeneration := outputFrame.arenaGeneration.or outputFrame.generation
    generation := outputFrame.generation }
  return (forwarded, { consumed.2 with
    receipts := (consumed.1.map fun transfer => (state.forwards, transfer)).toList ++
      consumed.2.receipts
    forwards := state.forwards + 1 })

def forwardedPayload : Option View → Except String View
  | some view => .ok view
  | none => .error "forwardOutputFrameAsInput requires an output frame with payload bytes."

def forwardedPort (portId : Option String) : Except String String :=
  match portId.filter (· ≠ "") with
  | some name => .ok name
  | none =>
    .error "forwardOutputFrameAsInput requires a portId (from the frame or overrides)."

def forwardOutputFrameAsInput :
    Except String (Frame × State) := do
  let payload ← forwardedPayload outputFrame.payload
  let portId ← forwardedPort (overrides.portId.or outputFrame.portId)
  let typeRef := overrides.typeRef.or outputFrame.typeRef
  let wireFormat ← normalizePayloadWireFormat
    ((typeRef.bind (·.wireFormat)).or outputFrame.wireFormat)
  let frameId := encodeSdsFrameId outputFrame
  let carried := forwardedFrame outputFrame overrides portId wireFormat frameId
  if overrides.copyCanonical then do
    require (wireFormat == .flatbuffer) ("SDS PIV/TAB canonical copy forwarding cannot copy an " ++
      "aligned-binary frame without schema transcoding.")
    return ({ canonicalCopy carried payload overrides frameId with object := some state.forwards },
      { state with forwards := state.forwards + 1 })
  else forwardAlias state outputFrame carried payload overrides

end Forwarding

end SpaceDataModule.Invoke

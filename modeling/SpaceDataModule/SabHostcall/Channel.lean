import Mathlib.Algebra.Group.Nat.Defs
import Mathlib.Logic.Function.Basic
import SpaceDataModule.Transition

/-! The one-request hostcall channel over a shared buffer: a client that blocks on
the state word and a server that completes requests when the host answers. Each
access to the shared buffer is a step of its own. -/
namespace SpaceDataModule.SabHostcall

abbrev Bytes := List UInt8

/-- What a caught error carries; a missing or null property is `none`. -/
structure Thrown (Value : Type) where
  name : Option Value := none
  message : Option Value := none
  code : Option Value := none
  operation : Option Value := none
  capability : Option Value := none
  hostcallCode : Option Value := none

/-- The object `serializeChannelError` builds. -/
structure ChannelError (Value : Type) where
  name : Value
  message : Value
  code : Option Value
  operation : Option Value
  capability : Option Value
  hostcallCode : Option Value

/-- The value envelopes of `hostcallWire.js` and the values they carry. -/
structure Wire (Value : Type) where
  null : Value
  text : String → Value
  object : ChannelError Value → Value
  /-- `value?.key`, `none` where it is undefined or null. -/
  property : Value → String → Option Value
  truthy : Value → Bool
  /-- `String(error)`. -/
  describe : Thrown Value → Value
  encodeHostcallValueEnvelope : Value → Except (Thrown Value) Bytes
  /-- `none` where decoding throws. -/
  decodeHostcallValueEnvelope : Bytes → Option Value

inductive Status where
  | ok | error
  deriving DecidableEq

/-- What `handleRequest` completes a request with. -/
structure Reply where
  status : Status
  bytes : Bytes
  deriving DecidableEq

section Host
variable {Value : Type} (wire : Wire Value)

def serializeChannelError (error : Thrown Value) (operation : String) : ChannelError Value where
  name := error.name.getD (wire.text "Error")
  message := error.message.getD (wire.describe error)
  code := error.code
  operation := some (error.operation.getD (wire.text operation))
  capability := error.capability
  hostcallCode := error.hostcallCode

/-- The envelope of an error; `none` where `handleRequest` rejects. -/
def errorReply (error : Thrown Value) (operation : String) : Option Reply :=
  match wire.encodeHostcallValueEnvelope
    (wire.object (serializeChannelError wire error operation)) with
  | .ok bytes => some ⟨.error, bytes⟩
  | .error _ => none

def capacityError (length capacity : Nat) : Thrown Value where
  name := some (wire.text "RangeError")
  message := some (wire.text ("Hostcall response (" ++ toString length ++
    " bytes) exceeds the channel capacity (" ++ toString capacity ++
    " bytes); raise maxHostcallResponseBytes on the worker harness."))

/-- What the host's dispatch came to: a value (or undefined), or an error. -/
abbrev Dispatched (Value : Type) := Except (Thrown Value) (Option Value)

variable (operation : String)

/-- The value or the error of the host, encoded. -/
def encodedReply (dispatched : Dispatched Value) : Option Reply :=
  let (status, value) := match dispatched with
    | .ok value => (Status.ok, value.getD wire.null)
    | .error error => (Status.error, wire.object (serializeChannelError wire error operation))
  match wire.encodeHostcallValueEnvelope value with
  | .ok bytes => some ⟨status, bytes⟩
  | .error error => errorReply wire error operation

/-- An error takes the place of a reply that exceeds the capacity. -/
def fittedReply (capacity : Nat) (operation : String) (reply : Reply) : Option Reply :=
  if reply.bytes.length > capacity then
    errorReply wire (capacityError wire reply.bytes.length capacity) operation
  else some reply

/-- What `handleRequest` completes a request with. A reply that still does not fit
makes `data.set` throw, so the request is never completed. -/
def handleRequest (capacity : Nat) (operation : String) (dispatched : Dispatched Value) :
    Option Reply :=
  ((encodedReply wire operation dispatched).bind (fittedReply wire capacity operation)).filter
    fun reply => reply.bytes.length ≤ capacity

/-- The error the client throws for a request that failed on the host. -/
structure HostError (Value : Type) where
  message : Value
  name : Value
  code : Option Value
  operation : Value
  capability : Option Value
  hostcallCode : Option Value
  deriving DecidableEq

def hostError (value : Value) : HostError Value where
  message := (wire.property value "message").getD
    (wire.text ("Hostcall \"" ++ operation ++ "\" failed on the host thread."))
  name := (wire.property value "name").getD (wire.text "Error")
  code := wire.property value "code"
  operation := (wire.property value "operation").getD (wire.text operation)
  capability := wire.property value "capability"
  hostcallCode := (wire.property value "hostcallCode").filter wire.truthy

inductive Result (Value : Type) where
  | returned (value : Value)
  | threw (error : HostError Value)
  | timedOut
  | lengthRejected (length : Int)
  | undecodable
  deriving DecidableEq

def settle (reply : Reply) : Result Value :=
  match wire.decodeHostcallValueEnvelope reply.bytes with
  | none => .undecodable
  | some value =>
    match reply.status with
    | .ok => .returned value
    | .error => .threw (hostError wire operation value)

end Host

/-- A value stored in an `Int32Array`. -/
def toInt32 (value : Int) : Int := Int.bmod value (2 ^ 32)

inductive ChannelState where
  | idle | pending | done
  deriving DecidableEq

structure Buffer where
  state : ChannelState := .idle
  status : Status := .ok
  length : Int := 0
  data : Nat → UInt8 := fun _ => 0

/-- Where the client stands in `sabHostcallDispatch`. -/
inductive Client where
  | resting
  /-- PENDING is stored, `postRequest` comes next. -/
  | announcing
  /-- `Atomics.wait` comes next. -/
  | entering
  | asleep
  | expired
  | awake
  | sized (status : Status)
  | rejecting (length : Int)
  | copying (status : Status) (length : Nat) (copied : Bytes)

/-- Where the server stands in `complete`. -/
inductive Completion where
  | writing (written : Nat)
  | status | length | done | notify
  deriving DecidableEq

/-- The server inside `complete` for one request. -/
structure Completing where
  request : Nat
  reply : Reply
  position : Completion

structure State (Value : Type) where
  buffer : Buffer := {}
  client : Client := .resting
  /-- The operations dispatched, oldest first; a request is named by its index. -/
  operations : List String := []
  /-- How many of them were posted to the server. -/
  posted : Nat := 0
  /-- What the host's dispatch came to, for the requests it has answered. -/
  outcomes : List (Nat × Dispatched Value) := []
  completing : Option Completing := none
  /-- How the dispatches ended, oldest first. -/
  results : List (Result Value) := []

inductive Label (Value : Type) where
  /-- The guest calls `sabHostcallDispatch`: PENDING is stored. -/
  | dispatch (operation : String)
  /-- The client's next step. -/
  | client
  /-- The wait times out. -/
  | expire
  /-- The host's dispatch of a posted request settles. -/
  | answer (request : Nat) (dispatched : Dispatched Value)
  /-- The next step of `complete`. -/
  | server

section Steps
variable {Value : Type} (wire : Wire Value) (capacity : Nat) (s : State Value)

/-- Store IDLE and leave `sabHostcallDispatch`. -/
def State.leave (result : Result Value) : State Value :=
  { s with
    buffer := { s.buffer with state := .idle }
    client := .resting
    results := s.results ++ [result] }

def State.operation : String := s.operations.getLast?.getD ""

def State.clientStep : Option (State Value) :=
  match s.client with
  | .resting | .asleep => none
  | .announcing => some { s with client := .entering, posted := s.posted + 1 }
  | .entering =>
    if s.buffer.state = .pending then some { s with client := .asleep }
    else some { s with client := .awake }
  | .expired => some (s.leave .timedOut)
  | .awake => some { s with client := .sized s.buffer.status }
  | .sized status =>
    if s.buffer.length < 0 ∨ (capacity : Int) < s.buffer.length then
      some { s with client := .rejecting s.buffer.length }
    else some { s with client := .copying status s.buffer.length.toNat [] }
  | .rejecting length => some (s.leave (.lengthRejected length))
  | .copying status length copied =>
    if copied.length < length then
      some { s with client := .copying status length (copied ++ [s.buffer.data copied.length]) }
    else some (s.leave (settle wire s.operation ⟨status, copied⟩))

/-- `Atomics.notify`: a client that sleeps wakes, whatever the state word is now. -/
def wake : Client → Client
  | .asleep => .awake
  | client => client

def State.serverStep (completing : Completing) : State Value :=
  let ⟨request, reply, position⟩ := completing
  let resume (position : Completion) := some (Completing.mk request reply position)
  match position with
  | .writing written =>
    if inside : written < reply.bytes.length then
      { s with
        buffer := { s.buffer with
          data := Function.update s.buffer.data written (reply.bytes[written]) }
        completing := resume (.writing (written + 1)) }
    else { s with completing := resume .status }
  | .status => { s with
      buffer := { s.buffer with status := reply.status }, completing := resume .length }
  | .length => { s with
      buffer := { s.buffer with length := toInt32 reply.bytes.length }, completing := resume .done }
  | .done => { s with buffer := { s.buffer with state := .done }, completing := resume .notify }
  | .notify => { s with client := wake s.client, completing := none }

def next : Label Value → Option (State Value)
  | .dispatch operation =>
    match s.client with
    | .resting => some { s with
        buffer := { s.buffer with state := .pending }
        client := .announcing
        operations := s.operations ++ [operation] }
    | _ => none
  | .client => s.clientStep wire capacity
  | .expire =>
    match s.client with
    | .asleep => some { s with client := .expired }
    | _ => none
  | .answer request dispatched =>
    if request < s.posted ∧ request ∉ s.outcomes.map Prod.fst ∧ s.completing.isNone then
      some { s with
        outcomes := s.outcomes ++ [(request, dispatched)]
        completing := (handleRequest wire capacity (s.operations.getD request "") dispatched).map
          fun reply => ⟨request, reply, .writing 0⟩ }
    else none
  | .server => s.completing.map s.serverStep

end Steps

end SpaceDataModule.SabHostcall

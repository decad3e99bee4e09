import SpaceDataModule.ByteFiles
import SpaceDataModule.Checked
import SpaceDataModule.JavaScript

/-! The `acquire` import of provider access: the port pins a buffer and numbers it before the
bridge has found room for the descriptor. -/
namespace SpaceDataModule.ProviderAccess
open ByteFiles (Bytes)
open Checked

/-! `ProviderError`. -/
def invalidRequest : Int := -1
def noProvider : Int := -3
def bounds : Int := -6
def unsupported : Int := -9
def host : Int := -11

inductive Kind where
  | code (code : Nat)
  | name (name : String)

/-- What the port reads of a request; adapters read the rest. -/
structure Request where
  op : Option String := none
  providerId : Option String := none
  kind : Option Kind := none
  maxCost : Option Int := none
  /-- `positionsPtr` and `positionsCount | 0`. -/
  positions : Option (Int × Int) := none

/-- What an adapter returns; a plane that is no buffer is none. -/
structure Reply where
  planes : List (Option Bytes)
  encoding : Option Nat := none
  costClass : Option Int := none
  /-- `>>> 0` and `Number` convert the other fields of the descriptor. -/
  convertible : Bool := true

/-- What calling an adapter comes to, at once or by a promise. Whatever else `pin` throws on
before it numbers the handle (a result that is no object, a `width` or `flags` that is a BigInt)
counts as thrown by the adapter. -/
structure Outcome where
  promise : Bool
  result : Except Int Reply

structure Adapter where
  id : String
  encoding : Nat
  costClass : Int := 0
  /-- The method of an op, if the adapter has it. -/
  method : String → Option (Request → Outcome)

structure Pinned where
  adapter : String
  planes : List Bytes
  deriving DecidableEq

structure Port where
  adapters : List Adapter
  selected : Nat → Option String
  handles : List (Nat × Pinned) := []
  nextHandle : Nat := 1
  /-- `stats.pinned`. -/
  pinned : Nat := 0

def defaultMaxCost : Int := 1

/-- A name that every object has, such as `constructor`, is found in the source's table. Where
such a kind or op is refused later, the code is another one; nothing is pinned either. -/
def normalizeKind : Option Kind → Except Int (Option Nat)
  | none | some (.name "") => .ok none
  | some (.code code) => .ok (some code)
  | some (.name name) =>
    if JavaScript.toLowerCase name = "terrain" then .ok (some 1)
    else if JavaScript.toLowerCase name = "imagery" then .ok (some 2)
    else .error invalidRequest

namespace Port
variable (port : Port) (request : Request)

def findAdapter (id : String) : Except Int Adapter :=
  (port.adapters.find? (·.id == id)).elim (.error noProvider) .ok

def resolveAdapter : Except Int Adapter := do
  match request.providerId.filter (· ≠ "") with
  | some id => port.findAdapter id
  | none =>
    match ((← normalizeKind request.kind).filter (· ≠ 0)).bind port.selected with
    | some id => port.findAdapter id
    | none => .error noProvider

def withinCost (costClass : Int) : Bool := costClass ≤ request.maxCost.getD defaultMaxCost

/-- `acquire` of the port up to what its adapter does. -/
def call : Except Int (Adapter × Outcome) := do
  require (request.op.getD "tile" ∈ ["tile", "profile", "region"]) invalidRequest
  let adapter ← port.resolveAdapter request
  match adapter.method (request.op.getD "tile") with
  | none => .error unsupported
  | some method =>
    require (withinCost request adapter.costClass) unsupported
    return (adapter, method request)

end Port

/-- The checks of `pin`. -/
def pinnable (adapter : Adapter) (request : Request) (reply : Reply) : Except Int Pinned := do
  require (reply.planes.all Option.isSome && !reply.planes.isEmpty) host
  require (reply.encoding.getD adapter.encoding ∈ [1, 2, 16, 17, 18, 19, 20]) host
  require (Port.withinCost request (reply.costClass.getD adapter.costClass)) unsupported
  return ⟨adapter.id, reply.planes.reduceOption⟩

namespace Port
variable (port : Port) (request : Request)

/-- `pin`, and the descriptor of the handle. -/
def pin (adapter : Adapter) (reply : Reply) : Except Int Nat × Port :=
  match pinnable adapter request reply with
  | .error code => (.error code, port)
  | .ok entry =>
    (if reply.convertible then .ok port.nextHandle else .error host,
      { port with
        handles := port.handles ++ [(port.nextHandle, entry)]
        nextHandle := port.nextHandle + 1
        pinned := port.handles.length + 1 })

/-- A dispatcher that does not wait refuses a promise, which settles all the same. -/
def dispatch (waits : Bool) : Except Int Nat × Port :=
  match port.call request with
  | .error code => (.error code, port)
  | .ok (adapter, outcome) =>
    let (handle, after) :=
      match outcome.result with
      | .error code => (.error code, port)
      | .ok reply => port.pin request adapter reply
    (if outcome.promise && !waits then .error host else handle, after)

end Port

section Bridge
variable (parse : Bytes → Option Request) (memory : Bytes)

/-- `guestView` finds the range. -/
def inside (ptr len : Int) : Bool := 0 ≤ ptr && 0 ≤ len && ptr + len ≤ memory.length

/-- The request of a call; `parse` is `JSON.parse` of the decoded text. -/
def guestRequest (reqPtr reqLen : Int) : Except Int Request := do
  require (inside memory reqPtr reqLen) bounds
  match parse (ByteFiles.readAt memory reqPtr.toNat reqLen.toNat) with
  | none => .error host
  | some request =>
    match request.positions with
    | none => .ok request
    | some (ptr, count) =>
      require (0 ≤ count) invalidRequest
      require (inside memory ptr (count * 16)) bounds
      return request

/-- `acquire` of the bridge: a handle as an `i32`, or the code of an error. -/
def acquire (waits : Bool) (reqPtr reqLen descPtr : Int) (port : Port) : Int × Port :=
  match guestRequest parse memory reqPtr reqLen with
  | .error code => (code, port)
  | .ok request =>
    match port.dispatch request waits with
    | (.error code, after) => (code, after)
    | (.ok handle, after) =>
      (if inside memory descPtr 128 then Int.bmod handle (2 ^ 32) else bounds, after)

/-- Where a reply is pinned, nothing is left that can fail: the call waits for it, the
descriptor is written to a range of the memory, and the handle is positive as an `i32`. -/
def Completes (waits : Bool) (reqPtr reqLen descPtr : Int) (port : Port) : Prop :=
  ∀ request adapter outcome reply entry, guestRequest parse memory reqPtr reqLen = .ok request →
    port.call request = .ok (adapter, outcome) → outcome.result = .ok reply →
    pinnable adapter request reply = .ok entry →
    (outcome.promise → waits) ∧ reply.convertible ∧ inside memory descPtr 128 ∧
      0 ≤ Int.bmod port.nextHandle (2 ^ 32)

theorem failed_acquire_iff (waits : Bool) (reqPtr reqLen descPtr : Int) (port : Port) :
    ((acquire parse memory waits reqPtr reqLen descPtr port).1 < 0 →
      (acquire parse memory waits reqPtr reqLen descPtr port).2.handles = port.handles ∧
      (acquire parse memory waits reqPtr reqLen descPtr port).2.pinned = port.pinned) ↔
      Completes parse memory waits reqPtr reqLen descPtr port := by
  constructor
  · intro kept request adapter outcome reply entry requested called replied pinned
    -- The table has grown, so no step behind `pin` has failed.
    have grown : (acquire parse memory waits reqPtr reqLen descPtr port).2.handles ≠
        port.handles := by
      simp only [acquire, Port.dispatch, Port.pin]
      grind
    have served := fun failed => grown (kept failed).1
    simp only [acquire, requested, Port.dispatch, called, Port.pin] at served
    grind [host, bounds]
  · intro completes failed
    cases requested : guestRequest parse memory reqPtr reqLen with
    | error code => simp only [acquire, requested, and_self]
    | ok request =>
      cases called : port.call request with
      | error code => simp only [acquire, requested, Port.dispatch, called, and_self]
      | ok answer =>
        obtain ⟨adapter, outcome⟩ := answer
        simp only [acquire, requested, Port.dispatch, called] at failed ⊢
        cases replied : outcome.result with
        | error code => grind
        | ok reply =>
          simp only [Port.pin] at failed ⊢
          cases pinned : pinnable adapter request reply with
          | error code => grind
          | ok entry =>
            obtain ⟨waited, converted, found, positive⟩ :=
              completes request adapter outcome reply entry requested called replied pinned
            grind

end Bridge

def onePlane : Port where
  adapters := [⟨"a", 16, 0, fun _ => some fun _ => ⟨false, .ok { planes := [some [7]] }⟩⟩]
  selected _ := none

def requestText : Bytes := "\x7b\"providerId\":\"a\"\x7d".toList.map fun c => c.val.toUInt8

def parseRequest (text : Bytes) : Option Request :=
  if text = requestText then some { providerId := some "a" } else none

/-- There is no room for the descriptor: the guest gets a code, and the buffer stays pinned. -/
theorem failed_acquire_pins :
    (acquire parseRequest requestText true 0 18 0 onePlane).1 = bounds ∧
      (acquire parseRequest requestText true 0 18 0 onePlane).2.handles = [(1, ⟨"a", [[7]]⟩)] := by
  decide

end SpaceDataModule.ProviderAccess

import Mathlib.Algebra.Group.Nat.Defs
import SpaceDataModule.Interleaving

/-! The mailbox protocol of the FlatSQL link shim, version 2. Each atomic access of
the emitted code is one step; a pause in `memory.atomic.wait32` may end at any time,
since every wake re-reads the mailbox. -/
namespace SpaceDataModule.FlatsqlLink
open Interleaving

/-- `FLATSQL_LINK_STATE`. -/
inductive MailboxState where
  | idle | submitted | claimed | done | submitting
  deriving DecidableEq

/-- The words of `FLATSQL_LINK_MAILBOX` in use. -/
structure Mailbox where
  state : MailboxState := .idle
  seq : UInt32 := 0
  doneSeq : UInt32 := 0
  op : UInt32 := 0
  reqPtr : UInt32 := 0
  reqLen : UInt32 := 0
  status : UInt32 := 0
  respPtr : UInt32 := 0
  respLen : UInt32 := 0
  doorbell : UInt32 := 0
  cancel : UInt32 := 0
  generation : UInt64 := 0

structure Request where
  op : UInt32
  ptr : UInt32
  len : UInt32

inductive Call where
  | submit (request : Request)
  | poll (seq : UInt32)
  | wait (seq : UInt32) (pollNs : UInt64) (maxPolls : Int32)
  | release (seq : UInt32)
  | cancel (seq : UInt32)

inductive Reply where
  | submitted (seq : UInt32)
  | busy
  | polled (complete : Bool)
  | status (status : UInt32)
  | pending
  | released (freed : Bool)
  | cancelled
  deriving DecidableEq

/-- The next instruction of `mb_submit`. -/
inductive SubmitStep where
  | exchange | loadSeq | storeOp | storeReqPtr | storeReqLen | storeStatus | storeRespPtr
  | storeRespLen | storeCancel | storeSeq | storeState | ring | notify
  deriving DecidableEq

/-- The next instruction of `mb_wait`; `loadDone` and `sleep` know the state loaded. -/
inductive WaitStep where
  | loadState
  | loadDone (state : MailboxState)
  | loadStatus
  | sleep (state : MailboxState)

inductive ReleaseStep where
  | loadDone | exchange

inductive CancelStep where
  | store | ring | notify

inductive Client where
  | resting
  | submitting (request : Request) (seq : UInt32) (step : SubmitStep)
  /-- With the outcome of the state test once it was made. -/
  | polling (seq : UInt32) (done : Option Bool)
  | waiting (seq : UInt32) (pollNs : UInt64) (maxPolls polls : Int32) (step : WaitStep)
  | releasing (seq : UInt32) (step : ReleaseStep)
  | cancelling (seq : UInt32) (step : CancelStep)

structure Response where
  status : UInt32
  ptr : UInt32
  len : UInt32
  generation : UInt64

inductive LaneStep where
  | status | respPtr | respLen | generation | doneSeq | state | notify
  deriving DecidableEq

inductive Lane where
  | resting
  | claimed
  | running (seq : UInt32)
  | storing (seq : UInt32) (response : Response) (step : LaneStep)

structure Returned (Thread : Type) where
  thread : Thread
  call : Call
  reply : Reply

structure Shared (Thread : Type) where
  box : Mailbox := {}
  lane : Lane := .resting
  /-- The threads whose submission was accepted, in order. -/
  submitters : List Thread := []
  /-- The releases that freed the mailbox: thread and argument, in order. -/
  frees : List (Thread × UInt32) := []
  /-- The requests the lane has completed, with the status it wrote, in order. -/
  completions : List (UInt32 × UInt32) := []
  returns : List (Returned Thread) := []

section Clients
variable {Thread : Type}

def Shared.returned (m : Shared Thread) (thread : Thread) (call : Call) (reply : Reply) :
    Shared Thread :=
  { m with returns := m.returns ++ [⟨thread, call, reply⟩] }

def Call.enter : Call → Client
  | .submit request => .submitting request 0 .exchange
  | .poll seq => .polling seq none
  | .wait seq pollNs maxPolls => .waiting seq pollNs maxPolls 0 .loadState
  | .release seq => .releasing seq .loadDone
  | .cancel seq => .cancelling seq .store

/-- `seq + 1`, without zero. -/
def nextSeq (seq : UInt32) : UInt32 := if seq + 1 = 0 then 1 else seq + 1

variable (thread : Thread)

def submit (m : Shared Thread) (request : Request) (seq : UInt32) :
    SubmitStep → Shared Thread × Client
  | .exchange =>
    if m.box.state = .idle then
      ({ m with
        box := { m.box with state := .submitting }
        submitters := m.submitters ++ [thread] }, .submitting request seq .loadSeq)
    else (m.returned thread (.submit request) .busy, .resting)
  | .loadSeq => (m, .submitting request (nextSeq m.box.seq) .storeOp)
  | .storeOp => ({ m with box := { m.box with op := request.op } },
      .submitting request seq .storeReqPtr)
  | .storeReqPtr => ({ m with box := { m.box with reqPtr := request.ptr } },
      .submitting request seq .storeReqLen)
  | .storeReqLen => ({ m with box := { m.box with reqLen := request.len } },
      .submitting request seq .storeStatus)
  | .storeStatus => ({ m with box := { m.box with status := 0 } },
      .submitting request seq .storeRespPtr)
  | .storeRespPtr => ({ m with box := { m.box with respPtr := 0 } },
      .submitting request seq .storeRespLen)
  | .storeRespLen => ({ m with box := { m.box with respLen := 0 } },
      .submitting request seq .storeCancel)
  | .storeCancel => ({ m with box := { m.box with cancel := 0 } },
      .submitting request seq .storeSeq)
  | .storeSeq => ({ m with box := { m.box with seq := seq } }, .submitting request seq .storeState)
  | .storeState => ({ m with box := { m.box with state := .submitted } },
      .submitting request seq .ring)
  | .ring => ({ m with box := { m.box with doorbell := m.box.doorbell + 1 } },
      .submitting request seq .notify)
  | .notify => (m.returned thread (.submit request) (.submitted seq), .resting)

def poll (m : Shared Thread) (seq : UInt32) :
    Option Bool → Shared Thread × Client
  | none => (m, .polling seq (some (m.box.state = .done)))
  | some done =>
    (m.returned thread (.poll seq) (.polled (done && m.box.doneSeq == seq)), .resting)

def wait (m : Shared Thread) (seq : UInt32) (pollNs : UInt64)
    (maxPolls polls : Int32) : WaitStep → Shared Thread × Client
  | .loadState => (m, .waiting seq pollNs maxPolls polls (.loadDone m.box.state))
  | .loadDone state =>
    if state = .done ∧ m.box.doneSeq = seq then (m, .waiting seq pollNs maxPolls polls .loadStatus)
    else if maxPolls > 0 ∧ polls ≥ maxPolls then
      (m.returned thread (.wait seq pollNs maxPolls) .pending, .resting)
    else if pollNs = 0 then (m, .waiting seq pollNs maxPolls (polls + 1) .loadState)
    else (m, .waiting seq pollNs maxPolls (polls + 1) (.sleep state))
  | .loadStatus =>
    (m.returned thread (.wait seq pollNs maxPolls) (.status m.box.status), .resting)
  | .sleep _ => (m, .waiting seq pollNs maxPolls polls .loadState)

def release (m : Shared Thread) (seq : UInt32) :
    ReleaseStep → Shared Thread × Client
  | .loadDone =>
    if m.box.doneSeq = seq then (m, .releasing seq .exchange)
    else (m.returned thread (.release seq) (.released false), .resting)
  | .exchange =>
    if m.box.state = .done then
      ({ m with
        box := { m.box with state := .idle }
        frees := m.frees ++ [(thread, seq)]
        returns := m.returns ++ [⟨thread, .release seq, .released true⟩] }, .resting)
    else (m.returned thread (.release seq) (.released false), .resting)

def cancel (m : Shared Thread) (seq : UInt32) :
    CancelStep → Shared Thread × Client
  | .store => ({ m with box := { m.box with cancel := seq } }, .cancelling seq .ring)
  | .ring => ({ m with box := { m.box with doorbell := m.box.doorbell + 1 } },
      .cancelling seq .notify)
  | .notify => (m.returned thread (.cancel seq) .cancelled, .resting)

/-- A thread begins a call, or takes the next step of the one it is in. -/
inductive Move where
  | call (call : Call)
  | step

def act (move : Move) (m : Shared Thread) (client : Client) :
    Option (Shared Thread × Client) :=
  match move, client with
  | .call call, .resting => some (m, call.enter)
  | .call _, _ => none
  | .step, .resting => none
  | .step, .submitting request seq step => some (submit thread m request seq step)
  | .step, .polling seq done => some (poll thread m seq done)
  | .step, .waiting seq pollNs maxPolls polls step =>
    some (wait thread m seq pollNs maxPolls polls step)
  | .step, .releasing seq step => some (release thread m seq step)
  | .step, .cancelling seq step => some (cancel thread m seq step)

end Clients

section Lane
variable {Thread : Type}

/-- The stores after the request has run, in the documented order. -/
def Shared.store (m : Shared Thread) (seq : UInt32) (response : Response) :
    LaneStep → Shared Thread
  | .status => { m with
      box := { m.box with status := response.status }, lane := .storing seq response .respPtr }
  | .respPtr => { m with
      box := { m.box with respPtr := response.ptr }, lane := .storing seq response .respLen }
  | .respLen => { m with
      box := { m.box with respLen := response.len }, lane := .storing seq response .generation }
  | .generation => { m with
      box := { m.box with generation := response.generation }
      lane := .storing seq response .doneSeq }
  | .doneSeq => { m with
      box := { m.box with doneSeq := seq }, lane := .storing seq response .state }
  | .state => { m with
      box := { m.box with state := .done }
      lane := .storing seq response .notify
      completions := m.completions ++ [(seq, response.status)] }
  | .notify => { m with lane := .resting }

inductive Event where
  /-- The lane's next step. -/
  | lane
  /-- The request has run, with this response. -/
  | finish (response : Response)

def happen (event : Event) (m : Shared Thread) : Option (Shared Thread) :=
  match event, m.lane with
  | .lane, .resting =>
    if m.box.state = .submitted then
      some { m with box := { m.box with state := .claimed }, lane := .claimed }
    else some m
  | .lane, .claimed => some { m with lane := .running m.box.seq }
  | .lane, .running _ => none
  | .lane, .storing seq response step => some (m.store seq response step)
  | .finish response, .running seq => some { m with lane := .storing seq response .status }
  | .finish _, _ => none

end Lane

end SpaceDataModule.FlatsqlLink

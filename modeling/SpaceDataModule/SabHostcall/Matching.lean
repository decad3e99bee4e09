import Mathlib.Data.List.Nodup
import SpaceDataModule.Hostcall.Envelope
import SpaceDataModule.SabHostcall.Channel

/-! A dispatch ends with the outcome of its own request as long as no dispatch
starts while the server still works on an earlier one. -/
namespace SpaceDataModule.SabHostcall
open Transition

section Policy
variable {Value : Type}

/-- The server has returned from `handleRequest` for every request posted. -/
def State.Settled (s : State Value) : Prop :=
  s.completing = none ∧ ∀ request < s.posted, request ∈ s.outcomes.map Prod.fst

instance (s : State Value) : Decidable s.Settled := by
  unfold State.Settled
  infer_instance

/-- A dispatch starts only when the server owes nothing. -/
def Orderly (s : State Value) : Label Value → Prop
  | .dispatch _ => s.Settled
  | _ => True

instance (s : State Value) (label : Label Value) : Decidable (Orderly s label) := by
  unfold Orderly
  split <;> infer_instance

end Policy

section Buffers

def Buffer.Written (buffer : Buffer) (bytes : Bytes) (count : Nat) : Prop :=
  ∀ i (inside : i < bytes.length), i < count → buffer.data i = bytes[i]

structure Buffer.Holds (buffer : Buffer) (reply : Reply) : Prop where
  bytes : buffer.Written reply.bytes reply.bytes.length
  status : buffer.status = reply.status
  length : buffer.length = toInt32 reply.bytes.length

/-- What the server has stored of a reply before a position in `complete`. -/
def Buffer.Upto (buffer : Buffer) (reply : Reply) : Completion → Prop
  | .writing written => buffer.Written reply.bytes written
  | .status => buffer.Written reply.bytes reply.bytes.length
  | .length => buffer.Written reply.bytes reply.bytes.length ∧ buffer.status = reply.status
  | .done | .notify => buffer.Holds reply

variable {buffer : Buffer}

theorem Buffer.Written.store (written : buffer.Written bytes count)
    (inside : count < bytes.length) :
    Buffer.Written { buffer with data := Function.update buffer.data count bytes[count] } bytes
      (count + 1) := by
  intro i bound early
  rcases Nat.lt_succ_iff_lt_or_eq.mp early with before | rfl
  · simp only [Function.update_of_ne (Nat.ne_of_lt before)]
    exact written i bound before
  · simp only [Function.update_self]

theorem Buffer.Written.complete (written : buffer.Written bytes count)
    (all : ¬ count < bytes.length) : buffer.Written bytes bytes.length :=
  fun i bound _ => written i bound (Nat.lt_of_lt_of_le bound (Nat.le_of_not_lt all))

theorem Buffer.Upto.storeLength {length : Int} (upto : buffer.Upto reply .length)
    (same : length = toInt32 reply.bytes.length) :
    Buffer.Upto { buffer with length := length } reply .done :=
  ⟨upto.1, upto.2, same⟩

/-- The client and the server's last store change only the state word. -/
theorem Buffer.Upto.withState (upto : buffer.Upto reply position)
    (state : ChannelState) : Buffer.Upto { buffer with state := state } reply position := by
  cases position with
  | writing written | status | length => exact upto
  | done | notify => exact ⟨upto.bytes, upto.status, upto.length⟩

theorem toInt32_eq_of_nonneg {length : Nat} (small : length < 2 ^ 32)
    (nonneg : 0 ≤ toInt32 length) : toInt32 length = length := by
  have remainder : (length : Int) % (2 ^ 32 : Nat) = length := by omega
  unfold toInt32 Int.bmod at *
  simp only [remainder] at *
  split_ifs at * with low
  · rfl
  · omega

end Buffers

section Invariant
variable {Value : Type} (wire : Wire Value) (capacity : Nat)

def State.Replied (s : State Value) (request : Nat) (reply : Reply) : Prop :=
  ∃ operation dispatched, s.operations[request]? = some operation ∧
    (request, dispatched) ∈ s.outcomes ∧
    handleRequest wire capacity operation dispatched = some reply

/-- The reply to the newest request is in the buffer, and the server is done with it
up to the notification. -/
structure State.Ready (s : State Value) (reply : Reply) : Prop where
  replied : ∃ request, request + 1 = s.operations.length ∧ s.Replied wire capacity request reply
  holds : s.buffer.Holds reply
  stored : ∀ completing, s.completing = some completing → completing.position = .notify

/-- The state word was not reset before the client looks at it, and what the client
has read is part of the newest request's reply. -/
def State.Reading (s : State Value) : Prop :=
  match s.client with
  | .announcing | .entering => s.buffer.state ≠ .idle
  | .awake => ∃ reply, s.Ready wire capacity reply
  | .sized status => ∃ reply, s.Ready wire capacity reply ∧ status = reply.status
  | .copying status length copied => ∃ reply, s.Ready wire capacity reply ∧
      status = reply.status ∧ length = reply.bytes.length ∧ copied <+: reply.bytes
  | _ => True

/-- A dispatch that returned or threw the host's error did so for its own request. -/
def State.Own (s : State Value) (request : Nat) : Result Value → Prop
  | .timedOut | .lengthRejected _ => True
  | result => ∃ operation dispatched reply, s.operations[request]? = some operation ∧
      (request, dispatched) ∈ s.outcomes ∧
      handleRequest wire capacity operation dispatched = some reply ∧
      result = settle wire operation reply

def Client.unposted : Client → Nat
  | .announcing => 1
  | _ => 0

def Client.unfinished : Client → Nat
  | .resting => 0
  | _ => 1

structure Matched (s : State Value) : Prop where
  posted : s.posted + s.client.unposted = s.operations.length
  ended : s.results.length + s.client.unfinished = s.operations.length
  answered : ∀ request ∈ s.outcomes.map Prod.fst, request < s.posted
  once : (s.outcomes.map Prod.fst).Nodup
  earlier : ∀ request, request + 1 < s.operations.length → request ∈ s.outcomes.map Prod.fst
  completing : ∀ completing, s.completing = some completing →
    completing.request + 1 = s.operations.length ∧
      s.Replied wire capacity completing.request completing.reply ∧
      completing.reply.bytes.length ≤ capacity ∧
      s.buffer.Upto completing.reply completing.position
  done : s.buffer.state = .done → ∃ reply, s.Ready wire capacity reply
  reading : s.Reading wire capacity
  results : ∀ request result, s.results[request]? = some result → s.Own wire capacity request result

end Invariant

section Preservation
variable {Value : Type} {wire : Wire Value} {s t : State Value} {completing : Completing}

theorem Matched.current (matched : Matched wire capacity s) (inside : request < s.posted)
    (fresh : request ∉ s.outcomes.map Prod.fst) : request + 1 = s.operations.length := by
  have posted := matched.posted
  by_contra other
  exact fresh (matched.earlier request (by omega))

theorem handleRequest_fits
    (handled : handleRequest wire capacity operation dispatched = some reply) :
    reply.bytes.length ≤ capacity := by
  exact of_decide_eq_true (Option.filter_eq_some_iff.mp handled).2

theorem snoc_isPrefix (copy : copied <+: bytes) (inside : copied.length < bytes.length) :
    copied ++ [bytes[copied.length]] <+: bytes := by
  have start : copied ++ [bytes[copied.length]] = bytes.take (copied.length + 1) := by
    rw [← List.take_append_getElem inside, ← List.prefix_iff_eq_take.mp copy]
  rw [start]
  exact List.take_prefix _ _

/-- Where no reply is ready, the client reads none. -/
theorem Reading.of_unready (reading : s.Reading wire capacity)
    (unready : ∀ reply, ¬ s.Ready wire capacity reply) (same : t.client = s.client)
    (state : s.buffer.state ≠ .idle → t.buffer.state ≠ .idle) : t.Reading wire capacity := by
  unfold State.Reading at *
  rw [same]
  cases client : s.client with
  | resting | asleep | expired | rejecting length => trivial
  | announcing | entering =>
    rw [client] at reading
    exact state reading
  | awake | sized status | copying status length copied =>
    rw [client] at reading
    obtain ⟨reply, ready⟩ := reading
    first
    | exact (unready reply ready).elim
    | exact (unready reply ready.1).elim

theorem Ready.fits (ready : s.Ready wire capacity reply) : reply.bytes.length ≤ capacity := by
  obtain ⟨_, _, _, _, _, _, handled⟩ := ready.replied
  exact handleRequest_fits handled

/-- A later state still knows the operations and outcomes of an earlier one. -/
structure Extends (s t : State Value) : Prop where
  operations : ∀ (request : Nat) operation, s.operations[request]? = some operation →
    t.operations[request]? = some operation
  outcomes : s.outcomes ⊆ t.outcomes

theorem Extends.own (later : Extends s t) (own : s.Own wire capacity request result) :
    t.Own wire capacity request result := by
  cases result with
  | timedOut => trivial
  | lengthRejected length => trivial
  | returned value | threw error | undecodable =>
    obtain ⟨operation, dispatched, reply, named, settled, handled, same⟩ := own
    exact ⟨operation, dispatched, reply, later.operations _ _ named,
      later.outcomes settled, handled, same⟩

/-- A reply that was read is the newest dispatch's own. -/
theorem Ready.own (ready : s.Ready wire capacity reply)
    (newest : request + 1 = s.operations.length) :
    s.Own wire capacity request (settle wire s.operation reply) := by
  obtain ⟨current, last, operation, dispatched, named, settled, handled⟩ := ready.replied
  obtain rfl : current = request := by omega
  have same : s.operation = operation := by
    unfold State.operation
    rw [List.getLast?_eq_getElem?, ← newest, Nat.add_sub_cancel, named, Option.getD_some]
  have own : ∃ operation dispatched reply', s.operations[current]? = some operation ∧
      (current, dispatched) ∈ s.outcomes ∧
      handleRequest wire capacity operation dispatched = some reply' ∧
      settle wire s.operation reply = settle wire operation reply' :=
    ⟨operation, dispatched, reply, named, settled, handled, by rw [same]⟩
  unfold State.Own
  split
  · trivial
  · trivial
  · exact own

section
variable (matched : Matched wire capacity s)
include matched

theorem Matched.proceed (unposted : client.unposted = s.client.unposted)
    (unfinished : client.unfinished = s.client.unfinished)
    (reading : State.Reading wire capacity { s with client := client }) :
    Matched wire capacity { s with client := client } :=
  { matched with
    posted := by rw [unposted, matched.posted]
    ended := by rw [unfinished, matched.ended]
    done := fun state => (matched.done state).imp fun _ ready => { ready with }
    reading := reading }

theorem Matched.leave (unposted : s.client.unposted = 0) (unfinished : s.client.unfinished = 1)
    (own : ∀ request, request + 1 = s.operations.length → s.Own wire capacity request result) :
    Matched wire capacity (s.leave result) :=
  { matched with
    posted := by
      have posted := matched.posted
      rwa [unposted] at posted
    ended := by
      rw [State.leave, List.length_append, ← matched.ended, unfinished]
      rfl
    completing := fun completing inside => by
      obtain ⟨newest, replied, fits, upto⟩ := matched.completing completing inside
      exact ⟨newest, replied, fits, upto.withState .idle⟩
    done := nofun
    reading := trivial
    results := fun request other found => by
      have ended := matched.ended
      rcases getElem?_concat_cases found with early | ⟨rfl, rfl⟩
      · exact matched.results request other early
      · exact own _ (by omega) }

theorem Matched.dispatch (operation : String) (resting : s.client = .resting) (settled : s.Settled) :
    Matched wire capacity { s with
      buffer := { s.buffer with state := .pending }
      client := .announcing
      operations := s.operations ++ [operation] } := by
  have posted := matched.posted
  have ended := matched.ended
  rw [resting] at posted ended
  have later : Extends s { s with
      buffer := { s.buffer with state := .pending }
      client := .announcing
      operations := s.operations ++ [operation] } := by
    refine ⟨?_, List.Subset.refl _⟩
    intro request operation named
    exact List.getElem?_append_left (List.getElem?_eq_some_iff.mp named).1 ▸ named
  exact { matched with
    posted := by
      rw [List.length_append, ← posted]
      rfl
    ended := by
      rw [List.length_append, ← ended]
      rfl
    earlier := by
      intro request early
      rw [List.length_append] at early
      have inside : request < s.posted + Client.resting.unposted := by
        rw [posted]
        exact Nat.lt_of_succ_lt_succ early
      exact settled.2 request inside
    completing := by
      intro completing present
      cases settled.1 ▸ present
    done := nofun
    reading := by simp [State.Reading]
    results := fun request result found => later.own (matched.results request result found) }

theorem Matched.answer (inside : request < s.posted) (fresh : request ∉ s.outcomes.map Prod.fst) :
    Matched wire capacity { s with
      outcomes := s.outcomes ++ [(request, dispatched)]
      completing := (handleRequest wire capacity (s.operations.getD request "") dispatched).map
        fun reply => ⟨request, reply, .writing 0⟩ } := by
  have newest := matched.current inside fresh
  have later : Extends s { s with
      outcomes := s.outcomes ++ [(request, dispatched)]
      completing := (handleRequest wire capacity (s.operations.getD request "") dispatched).map
        fun reply => ⟨request, reply, .writing 0⟩ } :=
    ⟨fun _ _ same => same, List.subset_append_left _ _⟩
  have unready : ∀ reply, ¬ s.Ready wire capacity reply := by
    intro reply ready
    obtain ⟨current, last, _, _, _, settled, _⟩ := ready.replied
    obtain rfl : current = request := by omega
    exact fresh (List.mem_map_of_mem settled)
  exact { matched with
    answered := by
      intro other member
      rw [List.map_append, List.mem_append] at member
      rcases member with early | last
      · exact matched.answered other early
      · rw [List.map_singleton, List.mem_singleton] at last
        rwa [last]
    once := by
      rw [List.map_append]
      apply List.Nodup.append matched.once (List.nodup_singleton _)
      intro other member last
      rw [List.mem_singleton] at last
      exact fresh ((show other = request from last) ▸ member)
    earlier := by
      intro other early
      rw [List.map_append]
      exact List.mem_append_left _ (matched.earlier other early)
    completing := by
      intro completing present
      obtain ⟨reply, handled, rfl⟩ := Option.map_eq_some_iff.mp present
      have named : s.operations[request]? = some (s.operations.getD request "") := by
        rw [List.getD_eq_getElem?_getD, List.getElem?_eq_getElem (by omega), Option.getD_some]
      refine ⟨newest, ⟨_, dispatched, named, ?_, handled⟩, handleRequest_fits handled, ?_⟩
      · exact List.mem_append_right _ List.mem_cons_self
      · exact fun i _ early => absurd early (Nat.not_lt_zero i)
    done := fun state => by
      obtain ⟨reply, ready⟩ := matched.done state
      exact (unready reply ready).elim
    reading := Reading.of_unready matched.reading unready rfl fun state => state
    results := fun other result found => later.own (matched.results other result found) }

theorem Matched.store (present : s.completing = some completing)
    (ahead : completing.position ≠ .notify)
    (state : buffer.state = .done ∧ position = .notify ∨ buffer.state = s.buffer.state)
    (upto : buffer.Upto completing.reply position) :
    Matched wire capacity { s with
      buffer := buffer
      completing := some { completing with position := position } } := by
  obtain ⟨newest, replied, fits, _⟩ := matched.completing completing present
  have unready : ∀ reply, ¬ s.Ready wire capacity reply := by
    intro reply ready
    exact ahead (ready.stored completing present)
  exact { matched with
    completing := by
      rintro _ ⟨⟩
      exact ⟨newest, replied, fits, upto⟩
    done := by
      intro done
      rcases state with ⟨_, rfl⟩ | same
      · refine ⟨completing.reply, ⟨_, newest, replied⟩, upto, ?_⟩
        rintro _ ⟨⟩
        rfl
      · obtain ⟨reply, ready⟩ := matched.done (same ▸ done)
        exact (unready reply ready).elim
    reading := by
      refine Reading.of_unready matched.reading unready rfl ?_
      rintro early (idle : buffer.state = .idle)
      rcases state with ⟨done, _⟩ | same
      · rw [done] at idle
        cases idle
      · exact early (same ▸ idle) }

theorem Matched.notify (present : s.completing = some completing)
    (last : completing.position = .notify) :
    Matched wire capacity { s with client := wake s.client, completing := none } := by
  obtain ⟨newest, replied, fits, upto⟩ := matched.completing completing present
  rw [last] at upto
  have quiet : ∀ client {reply}, s.Ready wire capacity reply →
      State.Ready wire capacity { s with client := client, completing := none } reply :=
    fun client reply ready => ⟨ready.replied, ready.holds, nofun⟩
  have counts : (wake s.client).unposted = s.client.unposted ∧
      (wake s.client).unfinished = s.client.unfinished := by
    cases s.client <;> exact ⟨rfl, rfl⟩
  exact { matched with
    posted := by rw [counts.1, matched.posted]
    ended := by rw [counts.2, matched.ended]
    completing := nofun
    done := fun state => (matched.done state).imp fun _ => quiet _
    reading := by
      have reading := matched.reading
      unfold State.Reading at *
      cases client : s.client with
      | resting | expired | rejecting length => trivial
      | announcing | entering =>
        rw [client] at reading
        exact reading
      | asleep => exact ⟨completing.reply, ⟨_, newest, replied⟩, upto, nofun⟩
      | awake =>
        rw [client] at reading
        exact reading.imp fun _ => quiet _
      | sized status | copying status length copied =>
        rw [client] at reading
        exact reading.imp fun _ => And.imp_left (quiet _) }

end

theorem Matched.clientStep (small : capacity < 2 ^ 32) (matched : Matched wire capacity s)
    (taken : s.clientStep wire capacity = some t) : Matched wire capacity t := by
  have reading := matched.reading
  unfold State.clientStep at taken
  unfold State.Reading at reading
  cases client : s.client with
  | resting | asleep =>
    rw [client] at taken
    cases taken
  | announcing =>
    rw [client] at taken reading
    cases taken
    have posted := matched.posted
    have ended := matched.ended
    rw [client] at posted ended
    exact { matched with
      posted := posted
      ended := ended
      answered := fun request member => Nat.lt_succ_of_lt (matched.answered request member)
      done := fun state => (matched.done state).imp fun _ ready => { ready with }
      reading := reading }
  | entering =>
    simp only [client] at taken reading
    split_ifs at taken with pending
    · cases taken
      exact matched.proceed (by rw [client]; rfl) (by rw [client]; rfl) trivial
    · cases taken
      have done : s.buffer.state = .done := by
        cases state : s.buffer.state with
        | idle => exact (reading state).elim
        | pending => exact (pending state).elim
        | done => rfl
      exact matched.proceed (by rw [client]; rfl) (by rw [client]; rfl)
        ((matched.done done).imp fun _ ready => { ready with })
  | expired =>
    rw [client] at taken
    cases taken
    exact matched.leave (by rw [client]; rfl) (by rw [client]; rfl) fun _ _ => trivial
  | awake =>
    rw [client] at taken reading
    cases taken
    obtain ⟨reply, ready⟩ := reading
    exact matched.proceed (by rw [client]; rfl) (by rw [client]; rfl)
      ⟨reply, { ready with }, ready.holds.status⟩
  | sized status =>
    simp only [client] at taken reading
    obtain ⟨reply, ready, same⟩ := reading
    split_ifs at taken with outside
    · cases taken
      exact matched.proceed (by rw [client]; rfl) (by rw [client]; rfl) trivial
    · cases taken
      have fits := Ready.fits ready
      have nonneg : 0 ≤ toInt32 reply.bytes.length := by
        rw [← ready.holds.length]
        omega
      have whole : s.buffer.length.toNat = reply.bytes.length := by
        rw [ready.holds.length, toInt32_eq_of_nonneg (by omega) nonneg, Int.toNat_natCast]
      exact matched.proceed (by rw [client]; rfl) (by rw [client]; rfl)
        ⟨reply, { ready with }, same, whole, List.nil_prefix⟩
  | rejecting length =>
    rw [client] at taken
    cases taken
    exact matched.leave (by rw [client]; rfl) (by rw [client]; rfl) fun _ _ => trivial
  | copying status length copied =>
    simp only [client] at taken reading
    obtain ⟨reply, ready, same, whole, copy⟩ := reading
    subst whole
    split_ifs at taken with inside
    · cases taken
      refine matched.proceed (by rw [client]; rfl) (by rw [client]; rfl)
        ⟨reply, { ready with }, same, rfl, ?_⟩
      rw [ready.holds.bytes _ inside inside]
      exact snoc_isPrefix copy inside
    · cases taken
      have complete : copied = reply.bytes := copy.eq_of_length (by
        have shorter := copy.length_le
        omega)
      refine matched.leave (by rw [client]; rfl) (by rw [client]; rfl) ?_
      rw [complete, same]
      exact fun request newest => Ready.own ready newest

theorem Matched.serverStep (matched : Matched wire capacity s)
    (present : s.completing = some completing) :
    Matched wire capacity (s.serverStep completing) := by
  obtain ⟨_, _, _, upto⟩ := matched.completing completing present
  obtain ⟨request, reply, position⟩ := completing
  cases position with
  | writing written =>
    unfold State.serverStep
    simp only
    split_ifs with inside
    · exact matched.store present nofun (.inr rfl) (Buffer.Written.store upto inside)
    · exact matched.store present nofun (.inr rfl) (Buffer.Written.complete upto inside)
  | status => exact matched.store present nofun (.inr rfl) ⟨upto, rfl⟩
  | length => exact matched.store present nofun (.inr rfl) (Buffer.Upto.storeLength upto rfl)
  | done => exact matched.store present nofun (.inl ⟨rfl, rfl⟩) (Buffer.Upto.withState upto .done)
  | notify => exact matched.notify present rfl

theorem Matched.next (small : capacity < 2 ^ 32) (admitted : Orderly s label)
    (taken : next wire capacity s label = some t) (matched : Matched wire capacity s) :
    Matched wire capacity t := by
  cases label with
  | dispatch operation =>
    simp only [SabHostcall.next] at taken
    split at taken
    · rename_i resting
      cases taken
      exact matched.dispatch operation resting admitted
    · cases taken
  | client => exact matched.clientStep small taken
  | expire =>
    simp only [SabHostcall.next] at taken
    split at taken
    · rename_i asleep
      cases taken
      exact matched.proceed (by rw [asleep]; rfl) (by rw [asleep]; rfl) trivial
    · cases taken
  | answer request dispatched =>
    simp only [SabHostcall.next] at taken
    split_ifs at taken with enabled
    cases taken
    exact matched.answer enabled.1 enabled.2.1
  | server =>
    obtain ⟨completing, present, rfl⟩ := Option.map_eq_some_iff.mp taken
    exact matched.serverStep present

theorem matched_initial : Matched wire capacity ({} : State Value) where
  posted := rfl
  ended := rfl
  answered := nofun
  once := List.nodup_nil
  earlier := nofun
  completing := nofun
  done := nofun
  reading := trivial
  results := nofun

end Preservation

/-- In every orderly interleaving, a dispatch that did not end with a timeout or a
rejected length ended with what the host's one outcome of its own request gives. -/
theorem dispatch_answered_by_own_request {Value : Type} (wire : Wire Value) {capacity : Nat}
    (small : capacity < 2 ^ 32) {labels : List (Label Value)} {last : State Value}
    (trace : Trace (next wire capacity) Orderly {} labels last) {request : Nat}
    {result : Result Value} (ended : last.results[request]? = some result) :
    result = .timedOut ∨ (∃ length, result = .lengthRejected length) ∨
      ∃ operation dispatched reply, last.operations[request]? = some operation ∧
        (∀ other, (request, other) ∈ last.outcomes ↔ other = dispatched) ∧
        handleRequest wire capacity operation dispatched = some reply ∧
        result = settle wire operation reply := by
  have matched : Matched wire capacity last :=
    trace.invariant matched_initial fun s label t admitted taken matched =>
      matched.next small admitted taken
  have own := matched.results request result ended
  cases result with
  | timedOut => exact .inl rfl
  | lengthRejected length => exact .inr (.inl ⟨length, rfl⟩)
  | returned value | threw error | undecodable =>
    obtain ⟨operation, dispatched, reply, named, settled, handled, same⟩ := own
    refine .inr (.inr ⟨operation, dispatched, reply, named, ?_, handled, same⟩)
    intro other
    constructor
    · intro another
      exact congrArg Prod.snd (List.inj_on_of_nodup_map matched.once another settled rfl)
    · rintro rfl
      exact settled

section Runs

open Hostcall (Engine)

/-- The codec of the value envelopes, and what JavaScript makes of their values. -/
def hostcallWire (engine : Engine) (describe : Thrown Hostcall.Value → String) :
    Wire Hostcall.Value where
  null := .null
  text := .string
  object error := .object [("name", error.name), ("message", error.message),
    ("code", error.code.getD .null), ("operation", error.operation.getD .null),
    ("capability", error.capability.getD .null), ("hostcallCode", error.hostcallCode.getD .null)]
  property
    | .object members, key => (members.lookup key).filter fun
      | .undefined | .null => false
      | _ => true
    | _, _ => none
  truthy
    | .undefined | .null | .bool false | .number .nan | .string "" => false
    | .number (.finite value) => value ≠ 0
    | .bigint value => value ≠ 0
    | _ => true
  describe error := .string (describe error)
  encodeHostcallValueEnvelope value :=
    (Hostcall.encodeHostcallValueEnvelope engine value).mapError fun message =>
      { name := some (.string "RangeError"), message := some (.string message) }
  decodeHostcallValueEnvelope bytes := (Hostcall.decodeHostcallValueEnvelope engine bytes).toOption

def practiceWire : Wire Hostcall.Value := hostcallWire Hostcall.practice fun _ => "Error"

def practiceValue : Hostcall.Value := .array [.bytes [7]]

def completion : List (Label Hostcall.Value) := List.replicate 29 .server

def reception : List (Label Hostcall.Value) := List.replicate 28 .client

def orderlyRun : List (Label Hostcall.Value) :=
  [.dispatch "first", .client, .client, .answer 0 (.ok (some practiceValue))] ++ completion ++
    [.server] ++ reception

/-- The first request is answered after its dispatch timed out and the next began. -/
def lateRun : List (Label Hostcall.Value) :=
  [.dispatch "first", .client, .client, .expire, .client, .dispatch "second", .client, .client,
    .answer 0 (.ok (some practiceValue))] ++ completion ++ [.server] ++ reception

/-- The first dispatch finds its answer without sleeping; the notification of that
answer wakes the second one. -/
def earlyRun : List (Label Hostcall.Value) :=
  [.dispatch "first", .client, .answer 0 (.ok (some practiceValue))] ++ completion ++ [.client] ++
    reception ++ [.dispatch "second", .client, .client, .server] ++ reception

/-- What is seen of a result: the bytes that it returned in an array. -/
def shown : Result Hostcall.Value → Result Bytes
  | .returned (.array [.bytes bytes]) => .returned bytes
  | .timedOut => .timedOut
  | _ => .undecodable

theorem returned_of_shown (seen : shown result = .returned bytes) :
    result = .returned (.array [.bytes bytes]) := by
  unfold shown at seen
  split at seen <;> cases seen
  rfl

def ended (s : State Hostcall.Value) : List (Result Bytes) × List Nat :=
  (s.results.map shown, s.outcomes.map Prod.fst)

theorem dispatch_answered_by_own_request_first :
    ∃ last, Trace (next practiceWire 64) Orderly {} orderlyRun last ∧
      ended last = ([.returned [7]], [0]) ∧
      ∃ operation dispatched reply, last.operations[0]? = some operation ∧
        (∀ other, (0, other) ∈ last.outcomes ↔ other = dispatched) ∧
        handleRequest practiceWire 64 operation dispatched = some reply ∧
        Result.returned practiceValue = settle practiceWire operation reply := by
  refine Trace.of_view_and ended (fun last trace seen => ?_) (by decide +kernel)
  obtain ⟨result, results, same⟩ := List.map_eq_singleton_iff.mp (congrArg Prod.fst seen)
  have returned : last.results[0]? = some (.returned practiceValue) := by
    rw [results, returned_of_shown same]
    rfl
  rcases dispatch_answered_by_own_request practiceWire (by decide) trace returned with
    late | long | own
  · cases late
  · obtain ⟨_, long⟩ := long
    cases long
  · exact own

theorem outcome_of_earlier_request_returned :
    (∃ last, Trace (next practiceWire 64) Free {} lateRun last ∧
      ended last = ([.timedOut, .returned [7]], [0])) ∧
    ∃ last, Trace (next practiceWire 64) Free {} earlyRun last ∧
      ended last = ([.returned [7], .returned [7]], [0]) :=
  ⟨Trace.of_view ended (by decide +kernel), Trace.of_view ended (by decide +kernel)⟩

end Runs

end SpaceDataModule.SabHostcall

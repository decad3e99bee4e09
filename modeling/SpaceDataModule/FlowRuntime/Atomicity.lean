import SpaceDataModule.FlowRuntime.Admission
import SpaceDataModule.FlowRuntime.Conservation

/-! What a refusal leaves behind. One frame goes out on all its edges or on none,
but a result table is applied frame by frame: what stands in front of the refused
frame is already delivered. -/
namespace SpaceDataModule.FlowRuntime
variable {artifact : Artifact}

section Results

/-- The output loop stops at this descriptor. -/
def frameRefused (artifact : Artifact) (memory : LinearMemory) (s : State) (node : Nat)
    (fd : FlowFrameDescriptor) : Bool :=
  fd.occupied && (decide (validateFrameDescriptor artifact memory s fd true < 0) ||
    outputRefused artifact memory node (hostOutputView artifact memory fd))

def frameRouted (artifact : Artifact) (memory : LinearMemory) (node : Nat)
    (fd : FlowFrameDescriptor) : Bool :=
  fd.occupied && (hostOutputView artifact memory fd).port.any fun port =>
    !(artifact.matchingEdges node port).isEmpty

theorem frameRefused_congr (deliveries : Deliveries artifact s t) (node : Nat) :
    frameRefused artifact memory t node = frameRefused artifact memory s node := by
  have status (fd : FlowFrameDescriptor) :
      frameStatus memory t fd true = frameStatus memory s fd true := by
    simp only [frameStatus, deliveries.current, deliveries.generation]
  funext fd
  simp only [frameRefused, validateFrameDescriptor, status]

theorem Deliveries.grow (deliveries : Deliveries artifact s t) (target : Nat) :
    (s.queues target).length ≤ (t.queues target).length := by
  induction deliveries with
  | refl => exact Nat.le_refl _
  | tail _ last ih =>
    cases last with
    | quiet same => rwa [same.queues]
    | push touched frame =>
      by_cases here : target = touched
      · subst here
        simp
        omega
      · simpa [Function.update_of_ne here] using ih

/-- One turn of the output loop. -/
theorem applyFrames_cons (artifact : Artifact) (memory : LinearMemory) (node : Nat)
    (fd : FlowFrameDescriptor) (rest : List FlowFrameDescriptor) (s : State) (routed : Nat) :
    if frameRefused artifact memory s node fd then
      (applyFrames artifact memory node (fd :: rest) s routed).2 < 0 ∧
        SameSchedule s (applyFrames artifact memory node (fd :: rest) s routed).1
    else ∃ t count, applyFrames artifact memory node (fd :: rest) s routed =
        applyFrames artifact memory node rest t count ∧ Deliveries artifact s t ∧
      if frameRouted artifact memory node fd then
        ∃ target, (s.queues target).length < (t.queues target).length
      else t = s := by
  rw [applyFrames, frameRefused, frameRouted]
  cases fd.occupied with
  | false => exact ⟨s, routed, rfl, .refl, rfl⟩
  | true =>
    by_cases valid : validateFrameDescriptor artifact memory s fd true < 0
    · simp only [valid, Bool.not_true, Bool.false_eq_true, if_false, if_true]
      exact ⟨trivial, rfl, rfl, rfl, rfl, rfl, rfl, rfl, rfl⟩
    · have delivered := routeOutput_delivers artifact memory s node (hostOutputView artifact memory fd)
      rcases routeOutput_spec artifact memory s node (hostOutputView artifact memory fd) with
        ⟨refused, negative, same⟩ | ⟨accepted, port, is, -, result⟩
      · simp [valid, refused, negative, same]
      · rw [result] at delivered
        simp only [valid, accepted, is, result]
        refine ⟨_, _, rfl, delivered, ?_⟩
        split
        · -- the queue of the first edge gets longer, and no later edge makes it shorter
          rename_i matched
          obtain ⟨row, rest, rows⟩ :=
            List.exists_cons_of_ne_nil (l := artifact.matchingEdges node port) (by simpa using matched)
          refine ⟨row.1.toNode, rows ▸ Nat.lt_of_lt_of_le ?_ (Deliveries.grow
            (routeEdges_deliver artifact _ _ rest (fun other member => ?_) _) _)⟩
          · simp [routeEdge]
          · have listed : other ∈ artifact.matchingEdges node port := by simp [rows, member]
            exact (artifact.edges_valid _ (artifact.mem_matchingEdges listed).1).2
        · rename_i unmatched
          simp_all

/-- The output loop fails exactly at a refused frame. Then nothing is delivered
if no frame in front of it has an edge, and else some queue is longer. -/
theorem applyFrames_outcome (artifact : Artifact) (memory : LinearMemory) (node : Nat)
    (frames : List FlowFrameDescriptor) (s : State) (routed : Nat) :
    let refused := frameRefused artifact memory s node
    let result := applyFrames artifact memory node frames s routed
    (frames.any refused = false → 0 ≤ result.2) ∧ (frames.any refused = true → result.2 < 0 ∧
      ((frames.takeWhile (!refused ·)).any (frameRouted artifact memory node) = false →
        SameSchedule s result.1) ∧
      ((frames.takeWhile (!refused ·)).any (frameRouted artifact memory node) = true →
        ∃ target, (s.queues target).length < (result.1.queues target).length)) := by
  induction frames generalizing s routed with
  | nil => simp [applyFrames]
  | cons fd rest ih =>
    have turn := applyFrames_cons artifact memory node fd rest s routed
    cases refused : frameRefused artifact memory s node fd with
    | true =>
      simpa [refused] using turn
    | false =>
      simp only [refused] at turn
      obtain ⟨t, count, same, delivered, change⟩ := turn
      have later := ih t count
      have grown := applyFrames_delivers artifact memory node rest t count
      simp only [frameRefused_congr delivered] at later
      simp only [same, List.any_cons, refused, Bool.false_or, List.takeWhile_cons, Bool.not_false,
        if_true]
      cases routes : frameRouted artifact memory node fd with
      | true =>
        simp only [routes] at change
        obtain ⟨target, longer⟩ := change
        refine ⟨later.1, fun stops => ⟨(later.2 stops).1, by simp, fun _ => ⟨target, ?_⟩⟩⟩
        exact Nat.lt_of_lt_of_le longer (grown.grow target)
      | false =>
        simp only [routes, Bool.false_eq_true, if_false] at change
        exact change ▸ later

/-- A refused result leaves every queue, node state and external id as it was
exactly when no frame in front of the first refused one has an edge to go out on. -/
theorem result_atomic_iff (artifact : Artifact) (memory : LinearMemory) (s : State)
    (nodeIndex statusCode backlogRemaining yielded framesPtr frameCount : Int) :
    let result := applyNodeInvocationResult artifact memory s nodeIndex statusCode
      backlogRemaining yielded framesPtr frameCount
    let frames := resultFrames memory framesPtr frameCount
    let refused := frameRefused artifact memory s nodeIndex.toNat
    (result.2 < 0 → result.1.queues = s.queues ∧ result.1.nodeStates = s.nodeStates ∧
        result.1.activeExternalFrames = s.activeExternalFrames) ↔
      (TableRead artifact memory s nodeIndex framesPtr frameCount → frames.any refused = true →
        (frames.takeWhile (!refused ·)).any (frameRouted artifact memory nodeIndex.toNat) =
          false) := by
  intro result frames refused
  rcases applyNodeInvocationResult_cases artifact memory s nodeIndex statusCode backlogRemaining
    yielded framesPtr frameCount with ⟨unread, same⟩ | ⟨read, invocation, -, -, applied⟩
  · exact ⟨fun _ read => (unread read).elim, fun _ _ => same ▸ ⟨rfl, rfl, rfl⟩⟩
  · have outcome := applyFrames_outcome artifact memory nodeIndex.toNat frames s 0
    rw [show result = _ from applied]
    cases stops : frames.any refused with
    | false =>
      have accepted := outcome.1 stops
      rw [if_neg (Int.not_lt.mpr accepted)]
      exact ⟨nofun, fun _ negative => (Int.not_lt.mpr accepted negative).elim⟩
    | true =>
      obtain ⟨negative, quiet, delivers⟩ := outcome.2 stops
      rw [if_pos negative]
      constructor
      · intro unchanged _ _
        rw [← Bool.not_eq_true]
        intro routed
        obtain ⟨target, longer⟩ := delivers routed
        rw [(unchanged negative).1] at longer
        exact Nat.lt_irrefl _ longer
      · intro unrouted _
        have same := quiet (unrouted read rfl)
        exact ⟨same.queues, same.nodeStates, same.external⟩

/-- Node 0 of the feedback flow answers with a frame on port `o` and a second
one whose alignment is no power of two. -/
def badSecond : LinearMemory where
  size := 65536
  byte address := if address = 8 then 111 else 0
  frameDescriptor ptr :=
    { ingressIndex := 1, portIdPtr := 8, alignment := if ptr = 64 then 1 else 3 }

theorem refused_result_delivers :
    let s := [Call.enqueueTriggerFrames 0, .beginNodeInvocation 0 64].foldl (step feedback)
      State.initial
    let result := applyNodeInvocationResult feedback badSecond s 0 0 0 0 64 2
    Reachable feedback s ∧ s.current.isSome = true ∧ result.2 < 0 ∧
      (s.queues 1).length = 0 ∧ (result.1.queues 1).length = 1 := by
  intro s result
  exact ⟨⟨_, Transition.Run.of_foldl _⟩, by decide, by decide, by decide, by decide⟩

end Results

section FanOut

/-- One linear memory stands behind every name of the payload: the pointer, the
storage the caller owns and the frames of the open invocation. -/
structure InMemory (memory : LinearMemory) (s : State) (out : FlowOutputFrameView) : Prop where
  word : out.length < 2 ^ 32
  contents : out.contents = memory.read out.payload out.length
  owned : ∀ storage, out.ownedStorage = some storage → 0 < out.length →
    out.payload = storage.address + out.ownedOffset ∧
      storage.slice out.ownedOffset out.length = memory.read out.payload out.length
  current : ∀ invocation, s.current = some invocation → ∀ frame ∈ invocation.frames,
    frame.payload = memory.read frame.data frame.payloadSize

theorem read_slice (memory : LinearMemory) (address : Nat) (inside : skip + length ≤ size) :
    ((memory.read address size).drop skip).take length = memory.read (address + skip) length := by
  refine List.ext_getElem (by simp [LinearMemory.read]; omega) fun i _ _ => ?_
  simp [LinearMemory.read, Nat.add_assoc]

theorem InMemory.carries (held : InMemory memory s out) :
    Carries out (findCurrentAlias s out.payload out.length)
      (memory.read out.payload out.length) := by
  have length : (memory.read out.payload out.length).length = out.length := by
    simp [LinearMemory.read]
  have long (nonempty : memory.read out.payload out.length ≠ []) : 0 < out.length := by
    rw [← length]
    exact List.length_pos_of_ne_nil nonempty
  refine ⟨length.symm, ?_, fun storage owner nonempty => ?_,
    fun _ storage offset found nonempty => ?_⟩
  · rw [held.contents]
    exact List.take_of_length_le (Nat.le_of_eq length)
  · rw [length]
    exact held.owned storage owner (long nonempty)
  · have positive := long nonempty
    have word := held.word
    simp only [findCurrentAlias] at found
    split_ifs at found with null wraps
    cases current : s.current with
    | none => simp [current] at found
    | some invocation =>
      rw [current] at found
      obtain ⟨frame, chosen, is⟩ := Option.map_eq_some_iff.mp found
      cases is
      have here := List.find?_some chosen
      have read := held.current _ current frame (List.mem_of_find?_eq_some chosen)
      simp only [Bool.and_eq_true, Bool.not_eq_true', beq_eq_false_iff_ne, decide_eq_true_eq,
        decide_eq_false_iff_not, Bool.and_eq_false_iff] at here null
      cases stored : frame.storage with
      | none =>
        simp only [QueuedFrame.data, stored] at here
        omega
      | some bytes =>
        refine ⟨bytes, rfl, ?_⟩
        have shown : (bytes.bytes.drop frame.payloadOffset).take frame.payloadSize =
            memory.read frame.data frame.payloadSize := by
          simpa only [QueuedFrame.payload, stored] using read
        have inside : out.payload - frame.data + out.length ≤ frame.payloadSize := by omega
        have start : frame.data + (out.payload - frame.data) = out.payload := by omega
        have slice := read_slice memory frame.data inside
        rw [start, ← shown, List.drop_take, List.drop_drop, List.take_take,
          Nat.min_eq_left (by omega)] at slice
        rw [length]
        exact slice

def QueuedFrame.passed (frame : QueuedFrame) : CString × List UInt8 × Nat × Nat × Nat :=
  (frame.port, frame.payload, frame.streamId, frame.sequence, frame.endOfStream)

/-- A frame goes out on every edge of its port, or on none. A trigger serves every
one of its bindings and returns their number, or none of them; a null frame
pointer is served by ticks, which are not counted, and an unoccupied descriptor
of bytes outside memory traps. -/
theorem fan_out_atomic (artifact : Artifact) (memory : LinearMemory) (s : State) :
    (∀ (node : Nat) (out : FlowOutputFrameView), InMemory memory s out →
      let result := routeOutput artifact memory s node out
      result.2 < 0 ∧ result.1.queues = s.queues ∨
        ∃ port, out.port = some port ∧ result.2 = (artifact.matchingEdges node port).length ∧
          ∀ target, Arrives (artifact.matchingEdges node port) (·.1.toNode) QueuedFrame.passed
            (fun row => (row.1.toPort, memory.read out.payload out.length, out.streamId,
              out.sequence, out.endOfStream)) s result.1 target) ∧
    ∀ triggerIndex framePtr : Int,
      let result := enqueueTriggerFrame artifact memory s triggerIndex framePtr
      let bindings := artifact.bindingsOf triggerIndex.toNat
      ((∃ code < 0, result.2 = some code) ∨
          result.2 = none ∧ Overrun memory (memory.frameDescriptor framePtr.toNat)) ∧
          result.1.queues = s.queues ∧ result.1.ingressStates = s.ingressStates ∧
          result.1.activeExternalFrames = s.activeExternalFrames ∨
        (0 ≤ triggerIndex ∧ triggerIndex < artifact.triggerCount) ∧
          result.2 = some (if framePtr = 0 then 0 else (bindings.length : Int)) ∧
          ∀ target, Arrives bindings (·.targetNode) QueuedFrame.port (·.port) s result.1 target := by
  refine ⟨fun node out held => ?_, fun triggerIndex framePtr => ?_⟩
  · rcases routeOutput_spec artifact memory s node out with
      ⟨-, negative, same⟩ | ⟨-, port, is, taken, result⟩
    · exact .inl ⟨negative, same.queues⟩
    · rw [result]
      refine .inr ⟨port, is, rfl, foldl_arrives _ (fun row member s => ?_) s⟩
      have aligned := ((edgeRefusal_eq_none_iff taken.1).mp (taken.2 row member)).2.2
      refine ⟨_, rfl, Prod.ext rfl (Prod.ext ?_ rfl)⟩
      exact congrArg QueueEntry.payload (routedFrame_entry held.carries row _ _ aligned.usable)
  · rcases enqueueTriggerFrame_cases artifact memory s triggerIndex framePtr with
      ⟨negative, same | same⟩ | ⟨trap, token, size, same⟩ |
        ⟨range, ⟨payload, descriptor, served⟩, count⟩
    · exact .inl ⟨.inl negative, by rw [same], by rw [same], by rw [same]⟩
    · exact .inl ⟨.inl negative, by rw [same]; rfl, by rw [same]; rfl, by rw [same]; rfl⟩
    · exact .inl ⟨.inr trap, by rw [same]; rfl, by rw [same]; rfl, by rw [same]; rfl⟩
    · refine .inr ⟨range, ?_, fun target =>
        served ▸ enqueueAll_arrives payload descriptor _ s target⟩
      rcases count with ⟨null, count⟩ | ⟨present, count⟩
      · rw [if_pos null, count]
      · rw [if_neg present, count]

theorem fan_out_atomic_feedback :
    let out : FlowOutputFrameView :=
      { port := some [111], payload := 8, length := 2, contents := [111, 0] }
    let result := routeOutput feedback badSecond State.initial 0 out
    InMemory badSecond State.initial out ∧ result.2 = 2 ∧
      (result.1.queues 1).map QueuedFrame.passed = [([105], [111, 0], 0, 0, 0)] := by
  intro out result
  have held : InMemory badSecond State.initial out := ⟨by decide, by decide, nofun, nofun⟩
  rcases (fan_out_atomic feedback badSecond State.initial).1 0 out held with
    ⟨negative, -⟩ | ⟨port, is, count, arrive⟩
  · exact absurd negative (by decide)
  · cases is
    obtain ⟨frames, queue, passed⟩ := arrive 1
    exact ⟨held, count, queue ▸ passed⟩

theorem tick_uncounted :
    let result := enqueueTriggerFrame feedback badSecond State.initial 0 0
    (feedback.bindingsOf 0).length = 1 ∧ (result.1.queues 0).length = 1 ∧ result.2 = some 0 := by
  decide

end FanOut

end SpaceDataModule.FlowRuntime

import SpaceDataModule.FlowRuntime.Readiness

/-! Frame conservation of the linked scheduler. Between calls the frames pushed
on a queue are the frames already handed to the node's entry followed by the
frames still queued: nothing is lost, repeated or reordered. -/
namespace SpaceDataModule.FlowRuntime

/-- What was pushed is what was handed over, then what is queued. -/
def Ordered (s : State) : Prop :=
  ∀ node, s.pushed node = s.handed node ++ s.queues node

/-- `consumed_frames` counts what was handed over in 64 bits, but for the `owed`
frames of the invocation being served. -/
def Counted (s : State) (owed : Nat → Nat) : Prop :=
  ∀ node, ∃ served, (s.handed node).length = served + owed node ∧
    (s.nodeStates node).consumedFrames = served % 2 ^ 64

theorem pushBack_ordered (touched : Nat) (frame : QueuedFrame) (ordered : Ordered s) :
    Ordered (s.pushBack touched frame) := by
  intro node
  have before := ordered node
  by_cases same : node = touched
  · subst same
    simp only [State.pushBack_pushed, State.pushBack_queues, Function.update_self, before]
    exact List.append_assoc ..
  · simpa only [State.pushBack_pushed, State.pushBack_queues, State.pushBack_handed,
      Function.update_of_ne same] using before

theorem deliver_ordered (delivered : Delivers tables s t) (ordered : Ordered s) : Ordered t := by
  cases delivered with
  | quiet same =>
    intro node
    rw [same.pushed, same.handed, same.queues]
    exact ordered node
  | push touched frame => exact pushBack_ordered touched frame ordered

theorem admit_ordered (admitted : Admits tables s t) (ordered : Ordered s) : Ordered t := by
  cases admitted with
  | deliver delivered => exact deliver_ordered delivered ordered
  | pushExternal touched token frame =>
    exact pushBack_ordered (s := s.retainExternal token) touched frame ordered

/-- A push changes neither side of the count. -/
theorem pushBack_counted (touched : Nat) (frame : QueuedFrame) (counted : Counted s owed) :
    Counted ((s.pushBack touched frame).publish touched tables) owed := by
  intro node
  simpa only [State.publish_handed, State.publish_consumed, State.pushBack_handed,
    State.pushBack_nodeStates] using counted node

theorem admit_counted (admitted : Admits tables s t) (counted : Counted s owed) :
    Counted t owed := by
  cases admitted with
  | deliver delivered =>
    cases delivered with
    | quiet same =>
      intro node
      rw [same.handed, same.nodeStates]
      exact counted node
    | push touched frame => exact pushBack_counted touched frame counted
  | pushExternal touched token frame =>
    exact pushBack_counted (s := s.retainExternal token) touched frame counted

section
variable (admissions : Admissions tables s t)
include admissions

theorem Admissions.ordered (ordered : Ordered s) : Ordered t := by
  induction admissions with
  | refl => exact ordered
  | tail _ last ih => exact admit_ordered last ih

theorem Admissions.counted (counted : Counted s owed) : Counted t owed := by
  induction admissions with
  | refl => exact counted
  | tail _ last ih => exact admit_counted last ih

theorem Admissions.current : t.current = s.current := by
  induction admissions with
  | refl => rfl
  | tail _ last ih =>
    cases last with
    | deliver delivered => exact (Deliveries.current (.single delivered)).trans ih
    | pushExternal => exact ih

structure Conserved (s : State) : Prop where
  idle : s.current = none
  ordered : Ordered s
  counted : Counted s fun _ => 0

theorem Admissions.conserved (conserved : Conserved s) : Conserved t :=
  ⟨admissions.current.trans conserved.idle, admissions.ordered conserved.ordered,
    admissions.counted conserved.counted⟩

end

/-- Opening an invocation and entering its entry moves the head of the queue to
the frames handed over, in one piece. -/
theorem enter_ordered (ordered : Ordered s) (opens : Opens s node limit t) :
    Ordered (t.enterEntry ⟨node, (s.queues node).take limit⟩) := by
  intro other
  have before := ordered other
  by_cases same : other = node
  · subst same
    simp only [State.enterEntry, opens.handed, opens.pushed, opens.queues, Function.update_self,
      before, List.append_assoc, List.take_append_drop]
  · simpa only [State.enterEntry, opens.handed, opens.pushed, opens.queues,
      Function.update_of_ne same] using before

theorem enter_counted (counted : Counted s fun _ => 0) (opens : Opens s node limit t) :
    Counted (t.enterEntry ⟨node, (s.queues node).take limit⟩)
      (Function.update (fun _ => 0) node ((s.queues node).take limit).length) := by
  intro other
  obtain ⟨served, all, counter⟩ := counted other
  have all : (s.handed other).length = served := all
  refine ⟨served, ?_, (opens.consumed other).trans counter⟩
  by_cases here : other = node
  · subst here
    simp only [State.enterEntry, opens.handed, Function.update_self, List.length_append]
    omega
  · simpa only [State.enterEntry, opens.handed, Function.update_of_ne here, Nat.add_zero] using all

theorem settle_counted (artifact : Artifact) (status : Int) (backlog : Nat) (yielded : Bool)
    (counted : Counted s (Function.update (fun _ => 0) node count)) :
    Counted (settleNode artifact s node count status backlog yielded) fun _ => 0 := by
  intro other
  obtain ⟨served, all, counter⟩ := counted other
  by_cases same : other = node
  · subst same
    exact ⟨served + count, by simpa [settleNode, State.setNodeState] using all,
      by simp [settleNode, State.setNodeState, counter]⟩
  · exact ⟨served, by simpa [settleNode, State.setNodeState, Function.update_of_ne same] using all,
      by simpa [settleNode, State.setNodeState, Function.update_of_ne same] using counter⟩

/-- One iteration of the drain loop: begin, dispatch, complete. -/
theorem serve_conserved (guest : GuestRun) (node : Nat) (inside : node < artifact.nodeCount)
    (linked : artifact.nodeIsLinked node = true) (conserved : Conserved s) :
    Conserved (serve artifact guest s node) := by
  have opens := (beginNodeInvocation_opens (s := s) node 64 inside).1
  obtain ⟨u, status, backlog, yielded, delivered, result⟩ :=
    dispatch_linked guest opens.current linked
  have ordered := (Deliveries.admissions delivered).ordered (enter_ordered conserved.ordered opens)
  have counted := settle_counted artifact status backlog yielded
    ((Deliveries.admissions delivered).counted (enter_counted conserved.counted opens))
  have stillOpen := (Deliveries.current delivered).trans opens.current
  rw [serve, result]
  refine ⟨completeNodeInvocation_current, ?_, ?_⟩
  · intro other
    simpa only [completeNodeInvocation, settleNode, State.setNodeState, stillOpen] using ordered other
  · intro other
    simpa only [completeNodeInvocation, settleNode, State.setNodeState, stillOpen] using counted other

theorem drainLoop_conserved (guests : Nat → GuestRun) (remaining dispatched : Nat)
    (conserved : Conserved s) :
    Conserved (drainLoop artifact guests remaining s dispatched).1 := by
  induction remaining generalizing s dispatched with
  | zero => exact conserved
  | succ remaining ih =>
    rw [drainLoop_succ]
    cases choice : selected artifact s with
    | none => exact conserved
    | some node =>
      obtain ⟨-, inside, linked⟩ := selected_spec choice
      exact ih _ (serve_conserved _ node inside linked conserved)

/-- The calls of a host that leaves every dispatch to the artifact. -/
def Call.Scheduling : Call → Prop
  | .enqueueTriggerFrames _ | .enqueueTriggerFrame _ _ _ | .drainLinked _ _ => True
  | _ => False

theorem scheduling_conserved (call : Call) (scheduling : call.Scheduling)
    (conserved : Conserved s) : Conserved (step artifact s call) := by
  cases call with
  | enqueueTriggerFrames trigger => exact (enqueueTriggerFrames_admits trigger).conserved conserved
  | enqueueTriggerFrame memory trigger ptr =>
    exact (enqueueTriggerFrame_admits memory trigger ptr).conserved conserved
  | drainLinked guests maxIterations =>
    simp only [step, drainLinked, conserved.idle, Option.isSome_none, Bool.false_eq_true, if_false]
    split
    · exact conserved
    · exact drainLoop_conserved guests _ _ conserved
  | resetState | beginNodeInvocation | applyNodeInvocationResult | completeNodeInvocation
  | dispatchCurrentInvocationDirect => exact scheduling.elim

/-- In every run of trigger enqueues and linked drains, over every graph and
every behavior of the entries, a node's entry was handed exactly the first
pushed frames, once each and in push order, and pushed frames are consumed
frames plus queued ones, counted in the 64 bits of the counter. -/
theorem frames_conserved (artifact : Artifact) (calls : List Call)
    (scheduling : ∀ call ∈ calls, call.Scheduling) (node : Nat) :
    let s := calls.foldl (step artifact) State.initial
    let counted := (s.nodeStates node).consumedFrames + (s.queues node).length
    s.pushed node = s.handed node ++ s.queues node ∧
      (s.pushed node).length % 2 ^ 64 = counted % 2 ^ 64 ∧
      ((s.handed node).length < 2 ^ 64 → (s.pushed node).length = counted) := by
  have conserved : Conserved (calls.foldl (step artifact) State.initial) := by
    induction calls using List.reverseRecOn with
    | nil => exact ⟨rfl, fun _ => rfl, fun _ => ⟨0, rfl, rfl⟩⟩
    | append_singleton calls call ih =>
      rw [List.foldl_append]
      exact scheduling_conserved call (scheduling call (by simp))
        (ih fun other member => scheduling other (by simp [member]))
  have ordered := conserved.ordered node
  obtain ⟨served, all, counter⟩ := conserved.counted node
  have all : ((calls.foldl (step artifact) State.initial).handed node).length = served := all
  refine ⟨ordered, ?_, fun few => ?_⟩
  · rw [ordered, List.length_append, counter]
    omega
  · rw [ordered, List.length_append, counter]
    omega

def feedback : Artifact where
  nodeCount := 2
  triggerCount := 1
  routeEdgeCount := 2
  edges := [
    { fromNode := 0, fromPort := [111], toNode := 1, toPort := [105],
      canonicalFallbackAvailable := true },
    { fromNode := 0, fromPort := [111], toNode := 0, toPort := [105],
      canonicalFallbackAvailable := true },
    { fromNode := 0, fromPort := [], toNode := 0, toPort := [105] }]
  triggerBindings := [⟨0, 0, [105], 2⟩]
  requiredPorts := [⟨0, [105]⟩, ⟨1, [105]⟩]
  nodeIsLinked _ := true
  nodes_pos := Nat.two_pos
  route_edges := by decide
  edges_indexed := by decide
  edges_valid := by decide
  bindings_valid := by decide
  place index _ := 4096 * (index + 1)

def feedbackGuest : GuestRun where
  calls := [pluginPushOutput (some [111]) none none 0 []]
  status := 0
  memory := { size := 65536, byte := fun _ => 0, frameDescriptor := fun _ => {} }

theorem frames_conserved_feedback :
    let calls := [Call.enqueueTriggerFrames 0, .drainLinked (fun _ => feedbackGuest) 3]
    let s := calls.foldl (step feedback) State.initial
    ((∀ call ∈ calls, call.Scheduling) ∧ (s.handed 0).length = 2 ∧ (s.queues 0).length = 1) ∧
      s.pushed 0 = s.handed 0 ++ s.queues 0 ∧
      (s.pushed 0).length = (s.nodeStates 0).consumedFrames + (s.queues 0).length := by
  have scheduling : ∀ call ∈ [Call.enqueueTriggerFrames 0,
      .drainLinked (fun _ => feedbackGuest) 3], call.Scheduling := by simp [Call.Scheduling]
  have conserved := frames_conserved feedback _ scheduling 0
  exact ⟨⟨scheduling, by decide, by decide⟩, conserved.1, conserved.2.2 (by decide)⟩

end SpaceDataModule.FlowRuntime

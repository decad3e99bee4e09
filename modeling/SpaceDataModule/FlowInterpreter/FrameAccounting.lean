import SpaceDataModule.FlowInterpreter.Runtime

/-! Frame accounting of the interpreter. The port loop takes frames out of their
queues before it has looked at the remaining ports; a scan is harmless exactly
when it takes nothing from the nodes it passes over. Runs of harmless scans lose
no frame. -/
namespace SpaceDataModule.FlowInterpreter
open JavaScript Flow
variable {α : Type}

/-- `taken` was drawn from the front of the queues of one node, each frame from
the queue of its port, and nothing else changed. -/
structure Withdrawn (nodeId : String) (before after : Place → PortQueue α)
    (taken : List (Frame α)) : Prop where
  histories : ∀ place, after place = { before place with waiting := (after place).waiting }
  waiting : ∀ place, (before place).waiting =
    (if place.nodeId = nodeId then taken.filter (·.portId = place.portId) else []) ++
      (after place).waiting

def Ported (queues : Place → PortQueue α) : Prop :=
  ∀ place, ∀ frame ∈ (queues place).waiting, frame.portId = place.portId

namespace Withdrawn
variable {before middle after : Place → PortQueue α}

theorem none (queues : Place → PortQueue α) : Withdrawn nodeId queues queues [] := by
  refine ⟨fun _ => rfl, fun place => ?_⟩
  simp

theorem trans (head : Withdrawn nodeId before middle first)
    (tail : Withdrawn nodeId middle after second) :
    Withdrawn nodeId before after (first ++ second) := by
  refine ⟨fun place => ?_, fun place => ?_⟩
  · rw [tail.histories place, head.histories place]
  · rw [head.waiting place, tail.waiting place]
    split_ifs <;> simp

theorem ported (withdrawn : Withdrawn nodeId before after taken) (ported : Ported before) :
    Ported after := by
  intro place frame member
  apply ported place
  rw [withdrawn.waiting place]
  exact List.mem_append_right _ member

/-- Nothing taken, nothing changed; nothing changes at another node either. -/
theorem unchanged (withdrawn : Withdrawn nodeId before after taken)
    (untouched : taken = [] ∨ place.nodeId ≠ nodeId) : after place = before place := by
  have waiting := withdrawn.waiting place
  have same : (before place).waiting = (after place).waiting := by
    rcases untouched with rfl | other
    · simpa using waiting
    · simpa [other] using waiting
  rw [withdrawn.histories place, ← same]

end Withdrawn

section Ports
variable (nodeId : String) (maxBatch : Number)

section
variable (queues : Place → PortQueue α)

/-- One turn of the port loop. -/
theorem withdraw_port (ported : Ported queues) (portId : String) :
    let split := drainReadyFrames (queues ⟨nodeId, portId⟩).waiting maxBatch
    Withdrawn nodeId queues (Function.update queues ⟨nodeId, portId⟩
      { queues ⟨nodeId, portId⟩ with waiting := split.2 }) split.1 := by
  intro split
  have whole : split.1 ++ split.2 = (queues ⟨nodeId, portId⟩).waiting := by
    simp [split, drainReadyFrames]
  have marked : ∀ frame ∈ split.1, frame.portId = portId := fun frame member =>
    ported ⟨nodeId, portId⟩ frame (whole ▸ List.mem_append_left _ member)
  constructor
  · exact (Function.forall_update_iff queues fun place queue =>
      queue = { queues place with waiting := queue.waiting }).mpr ⟨rfl, fun _ _ => rfl⟩
  · intro place
    by_cases here : place = ⟨nodeId, portId⟩
    · subst here
      have all : split.1.filter (fun frame => frame.portId = portId) = split.1 :=
        List.filter_eq_self.mpr fun frame member => by simpa using marked frame member
      simp only [Function.update_self, if_true, all, whole]
    · rw [Function.update_of_ne here]
      split_ifs with same
      · have other : place.portId ≠ portId := fun equal => here (by cases place; simp_all)
        have nothing : split.1.filter (fun frame => frame.portId = place.portId) = [] := by
          simp only [List.filter_eq_nil_iff, decide_eq_true_eq]
          intro frame member equal
          exact other (equal.symm.trans (marked frame member))
        simp [nothing]
      · rfl

/-- The port loop only withdraws. -/
theorem takeInputs_withdraws (ports : List InputPort) (queues : Place → PortQueue α)
    (ported : Ported queues) (candidates : List (Frame α)) :
    ∃ taken, (takeInputs nodeId maxBatch ports queues candidates).2.1 = candidates ++ taken ∧
      Withdrawn nodeId queues (takeInputs nodeId maxBatch ports queues candidates).1 taken := by
  induction ports generalizing queues candidates with
  | nil => exact ⟨[], by simp [takeInputs], .none queues⟩
  | cons port rest ih =>
    simp only [takeInputs]
    split_ifs
    · exact ⟨[], by simp, .none queues⟩
    · have turn := withdraw_port nodeId maxBatch queues ported port.portId
      obtain ⟨taken, candidates', later⟩ := ih _ (turn.ported ported) (candidates ++ _)
      exact ⟨_, by rw [candidates', List.append_assoc], turn.trans later⟩

/-- The frames a queue still holds when a port naming it has been served
`turns` times. -/
def leftover (queue : List (Frame α)) : Nat → List (Frame α)
  | 0 => queue
  | turns + 1 => (drainReadyFrames (leftover queue turns) maxBatch).2

/-- A required port whose queue is empty when its turn comes: it holds no frame,
or ports listed before it under the same id have used them up. -/
def Dry (queues : Place → PortQueue α) (earlier : List InputPort) (port : InputPort) : Prop :=
  port.required = true ∧ leftover maxBatch (queues ⟨nodeId, port.portId⟩).waiting
    (earlier.countP fun other => other.portId = port.portId) = []

def Starved (queues : Place → PortQueue α) (ports : List InputPort) : Prop :=
  ∃ earlier port later, ports = earlier ++ port :: later ∧
    Dry nodeId maxBatch queues earlier port

/-- The loop reports a missing input exactly for a starved node. `earlier` are
the ports already served, `queues` the queues before the first of them. -/
theorem takeInputs_missing_from (earlier ports : List InputPort) (current : Place → PortQueue α)
    (served : ∀ portId, (current ⟨nodeId, portId⟩).waiting =
      leftover maxBatch (queues ⟨nodeId, portId⟩).waiting
        (earlier.countP fun other => other.portId = portId))
    (candidates : List (Frame α)) :
    (takeInputs nodeId maxBatch ports current candidates).2.2 = true ↔
      ∃ before port later, ports = before ++ port :: later ∧
        Dry nodeId maxBatch queues (earlier ++ before) port := by
  induction ports generalizing earlier current candidates with
  | nil => simp [takeInputs]
  | cons port rest ih =>
    have here : (port.required && (current ⟨nodeId, port.portId⟩).waiting.isEmpty) = true ↔
        Dry nodeId maxBatch queues earlier port := by
      simp only [Bool.and_eq_true, List.isEmpty_iff, served, Dry]
    simp only [takeInputs]
    split_ifs with dry
    · refine iff_of_true rfl ⟨[], port, rest, rfl, ?_⟩
      simpa using here.mp dry
    · have next : ∀ portId, (Function.update current ⟨nodeId, port.portId⟩
          { current ⟨nodeId, port.portId⟩ with
            waiting := (drainReadyFrames (current ⟨nodeId, port.portId⟩).waiting maxBatch).2 }
          ⟨nodeId, portId⟩).waiting =
          leftover maxBatch (queues ⟨nodeId, portId⟩).waiting
            ((earlier ++ [port]).countP fun other => other.portId = portId) := by
        intro portId
        by_cases same : portId = port.portId
        · subst same
          simp [leftover, served]
        · have distinct : (⟨nodeId, portId⟩ : Place) ≠ ⟨nodeId, port.portId⟩ := by simpa using same
          have apart : port.portId ≠ portId := fun equal => same equal.symm
          simp [Function.update_of_ne distinct, served, apart]
      rw [ih (earlier ++ [port]) _ next]
      constructor
      · rintro ⟨before, other, later, rfl, found⟩
        exact ⟨port :: before, other, later, rfl, by simpa using found⟩
      · rintro ⟨before, other, later, whole, found⟩
        cases before with
        | nil =>
          cases whole
          exact (dry (here.mpr (by simpa using found))).elim
        | cons first before =>
          cases whole
          exact ⟨before, other, later, rfl, by simpa using found⟩

theorem takeInputs_missing_iff (ports : List InputPort) :
    (takeInputs nodeId maxBatch ports queues []).2.2 = true ↔
      Starved nodeId maxBatch queues ports := by
  have start := takeInputs_missing_from nodeId maxBatch queues [] ports queues
    (fun _ => by simp [leftover]) []
  simpa only [Starved, List.nil_append] using start

/-- Ports with empty queues are passed without a trace. -/
theorem takeInputs_idle {queues : Place → PortQueue α} (rest : List InputPort)
    (candidates : List (Frame α)) (optional : port.required = false)
    (empty : (queues ⟨nodeId, port.portId⟩).waiting = []) :
    takeInputs nodeId maxBatch (port :: rest) queues candidates =
      takeInputs nodeId maxBatch rest queues candidates := by
  have same : { queues ⟨nodeId, port.portId⟩ with waiting := [] } =
      queues ⟨nodeId, port.portId⟩ := by rw [← empty]
  simp [takeInputs, optional, empty, drainReadyFrames, same]

/-- A loop that finds every port before its first dry one empty takes nothing. -/
theorem takeInputs_spares (earlier : List InputPort)
    (port : InputPort) (later : List InputPort) (candidates : List (Frame α))
    (optional : ∀ other ∈ earlier, other.required = false)
    (empty : ∀ other ∈ earlier, (queues ⟨nodeId, other.portId⟩).waiting = [])
    (required : port.required = true) (dry : (queues ⟨nodeId, port.portId⟩).waiting = []) :
    takeInputs nodeId maxBatch (earlier ++ port :: later) queues candidates =
      (queues, candidates, true) := by
  induction earlier with
  | nil => simp [takeInputs, required, dry]
  | cons first rest ih =>
    rw [List.cons_append, takeInputs_idle nodeId maxBatch _ _ (optional first (by simp))
      (empty first (by simp))]
    exact ih (fun other member => optional other (by simp [member]))
      fun other member => empty other (by simp [member])

end

end Ports

def Spares (queues : Place → PortQueue α) (nodeId : String) (method : Method) : Prop :=
  ∀ earlier port later, method.inputPorts = earlier ++ port :: later →
    Dry nodeId method.batch queues earlier port →
    ¬ Starved nodeId method.batch queues earlier →
    ∀ other ∈ earlier, (queues ⟨nodeId, other.portId⟩).waiting = []

/-- No required port of the node is dry and some port holds a frame. -/
def Ready (registry : Registry) (queues : Place → PortQueue α) (node : Node) : Prop :=
  ∃ method, registry node.pluginId node.methodId = some method ∧
    ¬ Starved node.nodeId method.batch queues method.inputPorts ∧
    ∃ port ∈ method.inputPorts, (queues ⟨node.nodeId, port.portId⟩).waiting ≠ []

/-- Every node the scan comes to, up to the first ready one, is spared. -/
def ScanSafe (registry : Registry) (queues : Place → PortQueue α) (nodes : List Node) : Prop :=
  ∀ earlier node later method, nodes = earlier ++ node :: later →
    (∀ other ∈ earlier, ¬ Ready registry queues other) →
    registry node.pluginId node.methodId = some method → Spares queues node.nodeId method

section Scan
variable {queues : Place → PortQueue α}

theorem Method.batch_pos (method : Method) (some : 0 < length) :
    0 < Number.spliceCount length method.batch := by
  refine Number.spliceCount_atLeastOne_pos _ ?_ some
  cases method.maxBatch.getD (.finite 1) with
  | nan => simp [Number.orElse]
  | infinity => simp [Number.orElse]
  | finite value =>
    simp only [Number.orElse]
    split_ifs <;> simp

theorem leftover_nil (maxBatch : Number) (turns : Nat) :
    leftover maxBatch ([] : List (Frame α)) turns = [] := by
  induction turns with
  | zero => rfl
  | succ turns ih => simp [leftover, ih, drainReadyFrames]

theorem Starved.first (starved : Starved nodeId maxBatch queues ports) :
    ∃ earlier port later, ports = earlier ++ port :: later ∧
      Dry nodeId maxBatch queues earlier port ∧ ¬ Starved nodeId maxBatch queues earlier := by
  -- the shortest prefix that a dry port follows
  obtain ⟨earlier, port, later, whole, dry⟩ := starved
  induction length : earlier.length using Nat.strong_induction_on
    generalizing earlier port later with
  | _ bound ih =>
    by_cases sooner : Starved nodeId maxBatch queues earlier
    · obtain ⟨before, other, between, split, dryer⟩ := sooner
      refine ih before.length ?_ before other (between ++ port :: later) ?_ dryer rfl
      · rw [← length, split]
        simp
      · rw [whole, split]
        simp
    · exact ⟨earlier, port, later, whole, dry, sooner⟩

/-- A starved node that is spared keeps every queue. -/
theorem Spares.keeps (spares : Spares queues nodeId method)
    (starved : Starved nodeId method.batch queues method.inputPorts) :
    (takeInputs nodeId method.batch method.inputPorts queues []).1 = queues := by
  obtain ⟨earlier, port, later, whole, dry, sooner⟩ := starved.first
  have empty := spares earlier port later whole dry sooner
  have optional : ∀ other ∈ earlier, other.required = false := by
    intro other member
    obtain ⟨before, after, split⟩ := List.append_of_mem member
    by_contra required
    refine sooner ⟨before, other, after, split, by simpa using required, ?_⟩
    rw [empty other member]
    exact leftover_nil _ _
  have drained : (queues ⟨nodeId, port.portId⟩).waiting = [] := by
    cases turns : earlier.countP fun other => other.portId = port.portId with
    | zero =>
      have dryNow := dry.2
      rwa [turns] at dryNow
    | succ count =>
      have some : 0 < earlier.countP fun other => other.portId = port.portId := by omega
      obtain ⟨other, member, same⟩ := List.countP_pos_iff.mp some
      rw [← of_decide_eq_true same]
      exact empty other member
  rw [whole, takeInputs_spares nodeId method.batch queues earlier port later [] optional empty
    dry.1 drained]

/-- A loop that ends with no input found every queue empty. -/
theorem takeInputs_nothing (method : Method) (nodeId : String) (ported : Ported queues)
    (ports : List InputPort)
    (complete : (takeInputs nodeId method.batch ports queues []).2.2 = false)
    (nothing : (takeInputs nodeId method.batch ports queues []).2.1 = []) :
    ∀ port ∈ ports, (queues ⟨nodeId, port.portId⟩).waiting = [] := by
  induction ports with
  | nil => simp
  | cons port rest ih =>
    by_cases blocked : (port.required && (queues ⟨nodeId, port.portId⟩).waiting.isEmpty) = true
    · simp [takeInputs, blocked] at complete
    · have turn := withdraw_port nodeId method.batch queues ported port.portId
      simp only [takeInputs, if_neg blocked, List.nil_append] at complete nothing
      -- what the first turn takes is among the inputs
      obtain ⟨taken, inputs, _⟩ :=
        takeInputs_withdraws nodeId method.batch rest _ (turn.ported ported) _
      rw [inputs, List.append_eq_nil_iff] at nothing
      have empty : (queues ⟨nodeId, port.portId⟩).waiting = [] := by
        by_contra full
        have served := method.batch_pos (List.length_pos_iff.mpr full)
        have none := nothing.1
        simp only [drainReadyFrames, List.splitAt_eq, List.take_eq_nil_iff] at none
        rcases none with none | none
        · omega
        · exact full none
      have optional : port.required = false := by simpa [empty] using blocked
      have same := takeInputs_idle nodeId method.batch rest [] optional empty
      simp only [takeInputs, if_neg blocked, List.nil_append] at same
      rw [same] at complete inputs
      intro other member
      rcases List.mem_cons.mp member with rfl | later
      · exact empty
      · refine ih complete ?_ other later
        rw [inputs, nothing.1, nothing.2, List.append_nil]

/-- A harmless scan takes the inputs of the node it selects and nothing else. -/
theorem scan_withdraws (ported : Ported queues) (nodes : List Node)
    (safe : ScanSafe registry queues nodes) :
    scan registry nodes queues = (queues, none) ∨
      ∃ invocation after, scan registry nodes queues = (after, some invocation) ∧
        Withdrawn invocation.node.nodeId queues after invocation.inputs := by
  induction nodes with
  | nil => exact .inl rfl
  | cons node rest ih =>
    have later : ¬ Ready registry queues node → ScanSafe registry queues rest := by
      intro idle earlier other after method whole unready
      refine safe (node :: earlier) other after method (by rw [whole]; rfl) ?_
      intro passed member
      rcases List.mem_cons.mp member with rfl | further
      · exact idle
      · exact unready passed further
    simp only [scan]
    cases known : registry node.pluginId node.methodId with
    | none =>
      refine ih (later ?_)
      rintro ⟨method, found, _⟩
      rw [known] at found
      cases found
    | some method =>
      have spares := safe [] node rest method rfl (by simp) known
      have missing := takeInputs_missing_iff node.nodeId method.batch queues method.inputPorts
      obtain ⟨taken, inputs, withdrawn⟩ :=
        takeInputs_withdraws node.nodeId method.batch method.inputPorts queues ported []
      dsimp only
      split_ifs with passed
      · -- a node passed over is starved or has no frame; either way it is as it was
        have idle : ¬ Ready registry queues node := by
          rintro ⟨same, found, fed, port, member, full⟩
          rw [known] at found
          cases found
          have complete := mt missing.mp fed
          rw [Bool.not_eq_true] at complete
          rw [complete, Bool.false_or, List.isEmpty_iff] at passed
          exact full (takeInputs_nothing method node.nodeId ported _ complete passed port member)
        have kept : (takeInputs node.nodeId method.batch method.inputPorts queues []).1 = queues := by
          by_cases starved : Starved node.nodeId method.batch queues method.inputPorts
          · exact spares.keeps starved
          · have complete := mt missing.mp starved
            rw [Bool.not_eq_true] at complete
            rw [complete, Bool.false_or, List.isEmpty_iff] at passed
            funext place
            exact withdrawn.unchanged (.inl (inputs.symm.trans passed))
        rw [kept]
        exact ih (later idle)
      · exact .inr ⟨_, _, rfl, by rw [inputs]; exact withdrawn⟩

end Scan

/-- The frames of a port passed to `registry.invoke` in invocations of its node. -/
def invokedAt (invocations : List (Invocation α)) (place : Place) : List (Frame α) :=
  ((invocations.filter fun invocation => invocation.node.nodeId = place.nodeId).flatMap
    (·.inputs)).filter (·.portId = place.portId)

structure Accounted (s : State α) : Prop where
  ported : Ported s.queues
  kept : ∀ place, (s.queues place).Kept
  invoked : ∀ place, (s.queues place).invoked = invokedAt s.invoked place

section Run

theorem initial_accounted : Accounted (State.initial : State α) := by
  refine ⟨?_, fun _ => rfl, fun _ => rfl⟩
  intro place frame member
  cases member

theorem enqueue_accounted (accounted : Accounted s) (place : Place) (frames : List (Frame α))
    (policy : Option String) (queueDepth : Number) :
    Accounted (s.enqueue place frames policy queueDepth) := by
  let settled (place : Place) (queue : PortQueue α) : Prop :=
    (∀ frame ∈ queue.waiting, frame.portId = place.portId) ∧ queue.Kept ∧
      queue.invoked = invokedAt s.invoked place
  have before (other : Place) : settled other (s.queues other) :=
    ⟨accounted.ported other, accounted.kept other, accounted.invoked other⟩
  -- the touched queue keeps all three facts under pushes and drops
  have touched := applyBackpressure_preserves (P := settled place)
    (frames.map (cloneFrame · place.portId)) policy queueDepth
    (by
      rintro queue frame member ⟨ported, kept, invoked⟩
      obtain ⟨original, _, rfl⟩ := List.mem_map.mp member
      refine ⟨?_, kept.push _, by simpa using invoked⟩
      intro other waiting
      rcases List.mem_append.mp waiting with old | new
      · exact ported other old
      · rw [List.mem_singleton.mp new]
        rfl)
    (by
      rintro queue count ⟨ported, kept, invoked⟩
      refine ⟨?_, kept.dropOldest count, by simpa using invoked⟩
      exact fun frame member => ported frame (List.mem_of_mem_drop member))
    (s.queues place) (before place)
  have each := (Function.forall_update_iff s.queues settled).mpr
    ⟨touched, fun other _ => before other⟩
  exact ⟨fun other => (each other).1, fun other => (each other).2.1, fun other => (each other).2.2⟩

/-- A loop of enqueues, over bindings or over edges. -/
theorem enqueues_accounted {ι : Type} (items : List ι) (place : ι → Place)
    (frames : List (Frame α)) (policy : ι → Option String) (queueDepth : ι → Number)
    (accounted : Accounted s) :
    Accounted (items.foldl (fun s item =>
      s.enqueue (place item) frames (policy item) (queueDepth item)) s) := by
  induction items generalizing s with
  | nil => exact accounted
  | cons item rest ih => exact ih (enqueue_accounted accounted _ _ _ _)

theorem invokedAt_append (invocations : List (Invocation α)) (invocation : Invocation α)
    (place : Place) :
    invokedAt (invocations ++ [invocation]) place = invokedAt invocations place ++
      if place.nodeId = invocation.node.nodeId then
        invocation.inputs.filter (·.portId = place.portId) else [] := by
  by_cases here : place.nodeId = invocation.node.nodeId
  · simp [invokedAt, here]
  · have other : ¬ invocation.node.nodeId = place.nodeId := fun same => here same.symm
    simp [invokedAt, here, other]

/-- Handing the withdrawn inputs to `registry.invoke` settles their account. -/
theorem invoke_accounted (accounted : Accounted s) (invocation : Invocation α)
    {after : Place → PortQueue α}
    (withdrawn : Withdrawn invocation.node.nodeId s.queues after invocation.inputs) :
    Accounted (State.invoke { s with queues := after } invocation) := by
  refine ⟨?_, ?_, ?_⟩
  · intro place frame member
    refine withdrawn.ported accounted.ported place frame ?_
    simp only [State.invoke] at member
    split at member <;> exact member
  · intro place
    have kept := accounted.kept place
    have waiting := withdrawn.waiting place
    have histories := withdrawn.histories place
    unfold PortQueue.Kept at kept ⊢
    simp only [State.invoke]
    split_ifs with here
    · rw [if_pos here] at waiting
      rw [histories]
      simp only [List.map_append, PortQueue.map_fst_marked, kept, waiting, List.append_assoc]
    · rw [withdrawn.unchanged (.inr here)]
      exact kept
  · intro place
    have invoked := accounted.invoked place
    have histories := withdrawn.histories place
    simp only [State.invoke, invokedAt_append]
    split_ifs with here
    · have marked : ((invocation.inputs.filter fun frame => frame.portId = place.portId).map
          (·, Departure.invoked)).filter (fun departure => departure.2 = .invoked) =
          (invocation.inputs.filter fun frame => frame.portId = place.portId).map
            (·, Departure.invoked) := by
        simp only [List.filter_eq_self, List.mem_map]
        rintro _ ⟨frame, _, rfl⟩
        simp
      rw [histories, ← invoked]
      simp only [PortQueue.invoked, List.filter_append, List.map_append, marked,
        PortQueue.map_fst_marked]
    · rw [withdrawn.unchanged (.inr here), invoked, List.append_nil]

/-- The event does not start a scan that would take frames from a node it passes
over. -/
def Sparing (program : Program) (registry : Registry) (s : State α) : Event α → Prop
  | .resume index _ => ∀ drain, s.drains[index]? = some drain → drain.phase = .scanning →
      drain.maxInvocations.exceeds drain.invocations = true →
      ScanSafe registry s.queues program.nodes
  | _ => True

theorem advance_accounted (accounted : Accounted s) (drain : Drain α)
    (response : Option (Response α))
    (sparing : drain.phase = .scanning → drain.maxInvocations.exceeds drain.invocations = true →
      ScanSafe registry s.queues program.nodes) :
    Accounted (advance program registry s drain response).1 := by
  unfold advance
  cases phase : drain.phase with
  | scanning =>
    split_ifs with more
    · rcases scan_withdraws accounted.ported program.nodes (sparing phase more) with
        idle | ⟨invocation, after, selected, withdrawn⟩
      · rw [idle]
        exact accounted
      · rw [selected]
        exact invoke_accounted accounted invocation withdrawn
    · exact accounted
  | invoking node => cases response <;> exact accounted
  | routing node outputs yielded =>
    cases outputs with
    | nil => exact accounted
    | cons output rest =>
      exact enqueues_accounted _ (fun edge : ProgramEdge => ⟨edge.toNodeId, edge.toPortId⟩) _
        (fun edge => some edge.backpressurePolicy) (fun edge => edge.queueDepth) accounted
  | returned => exact accounted

theorem step_accounted (event : Event α) (sparing : Sparing program registry s event)
    (accounted : Accounted s) : Accounted (step program registry s event) := by
  cases event with
  | enqueueTriggerFrames triggerId frames =>
    exact enqueues_accounted _
      (fun binding : ProgramBinding => ⟨binding.targetNodeId, binding.targetPortId⟩) _
      (fun binding => some binding.backpressurePolicy) (fun binding => binding.queueDepth) accounted
  | enqueueNodeFrames nodeId portId frames policy queueDepth =>
    exact enqueue_accounted accounted _ _ _ _
  | drain maxInvocations => exact { accounted with }
  | resume index response =>
    simp only [step]
    cases started : s.drains[index]? with
    | none => exact accounted
    | some drain =>
      have advanced : Accounted (advance program registry s drain response).1 :=
        advance_accounted accounted drain response (sparing drain started)
      exact { advanced with }

end Run

/-- In every run whose scans spare the nodes they pass over, the frames pushed on
a queue are, in order, those that left it and those waiting; the ones that left
were dropped by a policy or are, once each and in order, the inputs of the
invocations of the node. A scan that spares them leaves the queues of every node
it does not select as they were. -/
theorem frames_accounted (program : Program) (registry : Registry) (events : List (Event α))
    (s : State α)
    (run : Transition.Run (Sparing program registry) (step program registry) State.initial events s) :
    (∀ place, (s.queues place).admitted =
        (s.queues place).departed.map Prod.fst ++ (s.queues place).waiting ∧
      (s.queues place).invoked = invokedAt s.invoked place) ∧
    (ScanSafe registry s.queues program.nodes → ∀ place,
      (∀ invocation, (scan registry program.nodes s.queues).2 = some invocation →
        invocation.node.nodeId ≠ place.nodeId) →
      (scan registry program.nodes s.queues).1 place = s.queues place) := by
  have accounted : Accounted s :=
    run.invariant initial_accounted fun _ event sparing before => step_accounted event sparing before
  refine ⟨fun place => ⟨accounted.kept place, accounted.invoked place⟩, ?_⟩
  intro safe place unselected
  rcases scan_withdraws accounted.ported program.nodes safe with
    idle | ⟨invocation, after, selected, withdrawn⟩
  · rw [idle]
  · rw [selected] at unselected ⊢
    exact withdrawn.unchanged (.inr fun same => unselected invocation rfl same.symm)

def pairing : Program where
  nodes := [{ nodeId := "n" }]
  edges := []
  triggerBindings := []

def pairingMethods : Registry :=
  fun _ _ => some { inputPorts := [{ portId := "a" }, { portId := "b" }] }

def feed (portId : String) : Event Unit := .enqueueNodeFrames "n" portId [⟨"", ()⟩] none .nan

theorem frames_accounted_pair :
    let events := [feed "a", feed "b", .drain (.finite 1), .resume 0 none]
    let s := events.foldl (step pairing pairingMethods) State.initial
    (Transition.Run (Sparing pairing pairingMethods) (step pairing pairingMethods) State.initial
        events s ∧ (s.queues ⟨"n", "b"⟩).invoked = [⟨"b", ()⟩]) ∧
      ∀ place, (s.queues place).admitted =
          (s.queues place).departed.map Prod.fst ++ (s.queues place).waiting ∧
        (s.queues place).invoked = invokedAt s.invoked place := by
  intro events s
  let fed := [feed "a", feed "b", .drain (.finite 1)].foldl (step pairing pairingMethods)
    State.initial
  have safe : ScanSafe pairingMethods fed.queues pairing.nodes := by
    intro earlier node later method whole _ known beforePort port afterPort ports dry
    have first : earlier = [] ∧ node = { nodeId := "n" } := by
      cases earlier with
      | nil => exact ⟨rfl, (List.cons.inj whole).1.symm⟩
      | cons => simp [pairing] at whole
    obtain ⟨rfl, rfl⟩ := first
    cases known
    rcases beforePort with _ | ⟨first, _ | ⟨second, rest⟩⟩
    · simp
    · cases ports
      exact absurd dry.2 (by decide)
    · simp at ports
  have run : Transition.Run (Sparing pairing pairingMethods) (step pairing pairingMethods)
      State.initial events s :=
    .cons trivial (.cons trivial (.cons trivial (.cons (fun _ _ _ _ => safe) .start)))
  exact ⟨⟨run, by decide⟩, (frames_accounted pairing pairingMethods events s run).1⟩

/-- A drain with a frame on port `a` only selects nothing and loses the frame. -/
theorem frame_lost_waiting_for_pair :
    let s := [feed "a", .drain (.finite 1)].foldl (step pairing pairingMethods) State.initial
    let t := step pairing pairingMethods s (.resume 0 none)
    (scan pairingMethods pairing.nodes s.queues).2 = none ∧
      t.queues ⟨"n", "a"⟩ ≠ s.queues ⟨"n", "a"⟩ ∧ t.invoked = [] ∧
      (t.queues ⟨"n", "a"⟩).admitted ≠
        (t.queues ⟨"n", "a"⟩).departed.map Prod.fst ++ (t.queues ⟨"n", "a"⟩).waiting := by
  decide

end SpaceDataModule.FlowInterpreter

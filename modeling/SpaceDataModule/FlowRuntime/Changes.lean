import SpaceDataModule.FlowRuntime.Exports
import Mathlib.Logic.Relation

/-! What a call can do to the scheduler, said once. Every exported call is a
sequence of the elementary changes below; invariants over whole runs are proved
change by change and never unfold a call again. -/
namespace SpaceDataModule.FlowRuntime
open Relation

/-- Agreement on every word a scheduling decision or an invariant reads; frame
numbering, allocation and the routing statistics are free. -/
structure SameSchedule (s t : State) : Prop where
  queues : t.queues = s.queues
  nodeStates : t.nodeStates = s.nodeStates
  current : t.current = s.current
  generation : t.invocationGeneration = s.invocationGeneration
  external : t.activeExternalFrames = s.activeExternalFrames
  cursor : t.readyCursor = s.readyCursor
  pushed : t.pushed = s.pushed
  handed : t.handed = s.handed

/-- A route delivers: it appends frames that track no external id. -/
inductive Delivers (tables : FlowTables) : State → State → Prop where
  | quiet {s t} : SameSchedule s t → Delivers tables s t
  | push {s} (node : Nat) (frame : QueuedFrame) : node < tables.nodeCount →
      frame.tracksExternalLifetime = false →
      Delivers tables s ((s.pushBack node frame).publish node tables)

/-- A trigger admits: besides delivering, it may append a tracked frame and
retain its external id. -/
inductive Admits (tables : FlowTables) : State → State → Prop where
  | deliver {s t} : Delivers tables s t → Admits tables s t
  | pushExternal {s} (node token : Nat) (frame : QueuedFrame) : node < tables.nodeCount →
      token ≠ 0 → frame.tracksExternalLifetime = true → frame.frameId = token →
      Admits tables s (((s.retainExternal token).pushBack node frame).publish node tables)

/-- The elementary changes. `serial` asks that an invocation is opened only
while none is open. -/
inductive Change (artifact : Artifact) (serial : Prop) : State → State → Prop where
  | accept {s t} : Admits artifact.toFlowTables s t → Change artifact serial s t
  | begin {s} (nodeIndex budget : Int) : (serial → s.current = none) →
      Change artifact serial s (beginNodeInvocation artifact s nodeIndex budget).1
  | hand {s} (invocation : Invocation) : s.current = some invocation →
      Change artifact serial s (s.enterEntry invocation)
  | settle {s} (invocation : Invocation) (status : Int) (backlog : Nat) (yielded : Bool) :
      s.current = some invocation →
      Change artifact serial s
        (settleNode artifact s invocation.node invocation.frames.length status backlog yielded)
  | complete {s} : Change artifact serial s (completeNodeInvocation artifact s)
  | reset {s} : Change artifact serial s { State.initial with allocations := s.allocations }

abbrev Deliveries (tables : FlowTables) := ReflTransGen (Delivers tables)
abbrev Admissions (tables : FlowTables) := ReflTransGen (Admits tables)
abbrev Changes (artifact : Artifact) (serial : Prop) := ReflTransGen (Change artifact serial)

variable {serial : Prop}

theorem Deliveries.admissions (deliveries : Deliveries tables s t) : Admissions tables s t :=
  ReflTransGen.mono (fun _ _ delivered => Admits.deliver delivered) _ _ deliveries

theorem Admissions.changes (admissions : Admissions artifact.toFlowTables s t) :
    Changes artifact serial s t :=
  ReflTransGen.mono (fun _ _ admitted => Change.accept admitted) _ _ admissions

theorem Deliveries.changes (deliveries : Deliveries artifact.toFlowTables s t) :
    Changes artifact serial s t :=
  (Deliveries.admissions deliveries).changes

theorem Deliveries.current (deliveries : Deliveries tables s t) : t.current = s.current := by
  induction deliveries with
  | refl => rfl
  | tail _ last ih =>
    cases last with
    | quiet same => exact same.current.trans ih
    | push => exact ih

theorem Deliveries.generation (deliveries : Deliveries tables s t) :
    t.invocationGeneration = s.invocationGeneration := by
  induction deliveries with
  | refl => rfl
  | tail _ last ih =>
    cases last with
    | quiet same => exact same.generation.trans ih
    | push => exact ih

theorem Changes.invariant {P : State → Prop} (changes : Changes artifact serial s t)
    (initial : P s) (preserves : ∀ {s t}, Change artifact serial s t → P s → P t) : P t := by
  induction changes with
  | refl => exact initial
  | tail _ last ih => exact preserves last ih

section Routing

theorem reject_delivers (tables : FlowTables) (s : State) : Deliveries tables s s.reject :=
  .single (.quiet ⟨rfl, rfl, rfl, rfl, rfl, rfl, rfl, rfl⟩)

/-- One frame per item of a list comes to stand behind what the queue held, and
`g` tells of it what `h` tells of its item. -/
def Arrives {ι β : Type} (items : List ι) (target : ι → Nat) (g : QueuedFrame → β) (h : ι → β)
    (s t : State) (node : Nat) : Prop :=
  ∃ frames, t.queues node = s.queues node ++ frames ∧
    frames.map g = (items.filter (target · == node)).map h

theorem foldl_arrives (items : List ι)
    (pushes : ∀ item ∈ items, ∀ s, ∃ frame, (op s item).queues =
      Function.update s.queues (target item) (s.queues (target item) ++ [frame]) ∧ g frame = h item)
    (s : State) (node : Nat) : Arrives items target g h s (items.foldl op s) node := by
  induction items generalizing s with
  | nil => exact ⟨[], by simp, rfl⟩
  | cons item rest ih =>
    obtain ⟨frame, pushed, told⟩ := pushes item (by simp) s
    obtain ⟨frames, queue, later⟩ := ih (fun other member => pushes other (by simp [member])) (op s item)
    rw [pushed] at queue
    by_cases here : node = target item
    · subst here
      exact ⟨frame :: frames, by simpa using queue, by simp [told, later]⟩
    · have other : (target item == node) = false := by simpa using fun same => here same.symm
      rw [Function.update_of_ne here] at queue
      exact ⟨frames, queue, by rw [later, List.filter_cons_of_neg (by simp [other])]⟩

section
variable (artifact : Artifact)

theorem routeEdges_deliver (out : FlowOutputFrameView)
    (aliased : Option (Option PayloadStorage × Nat)) (rows : List (FlowEdge × Nat))
    (inside : ∀ row ∈ rows, row.1.toNode < artifact.nodeCount) (s : State) :
    Deliveries artifact s (rows.foldl (routeEdge artifact out aliased) s) := by
  induction rows generalizing s with
  | nil => exact .refl
  | cons row rest ih =>
    have first : Deliveries artifact s (routeEdge artifact out aliased s row) := by
      refine ReflTransGen.head (.quiet ?_) (.single (.push _ _ (inside row (by simp)) ?_))
      · exact ⟨rfl, rfl, rfl, rfl, rfl, rfl, rfl, rfl⟩
      · rfl
    exact first.trans (ih (fun row member => inside row (by simp [member])) _)

theorem edgeRefusal_negative (refused : edgeRefusal out edge = some status) : status < 0 := by
  unfold edgeRefusal at refused
  repeat' split at refused
  all_goals cases refused
  all_goals decide

def Taken (tables : FlowTables) (node : Nat) (port : CString) (out : FlowOutputFrameView) : Prop :=
  out.wireFormat ≤ alignedBinaryFormat ∧
    ∀ row ∈ tables.matchingEdges node port, edgeRefusal out row.1 = none

/-- The verdict of `route_output`, which no queue takes part in. -/
def outputRefused (artifact : Artifact) (memory : LinearMemory) (node : Nat)
    (out : FlowOutputFrameView) : Bool :=
  match out.port with
  | none => true
  | some port =>
    let matching := artifact.matchingEdges node port
    decide (alignedBinaryFormat < out.wireFormat) || decide (transferredOwnership < out.ownership) ||
      decide (appendOnlyMutability < out.mutability) ||
      decide (0 < out.length) &&
        (out.payload == 0 || !validMemoryRange memory out.payload out.length) ||
      !matching.isEmpty && (out.mutability != 0 &&
          (out.ownership != transferredOwnership || matching.length != 1) ||
        (matching.findSome? fun row => edgeRefusal out row.1).isSome)

variable (memory : LinearMemory)

/-- `route_output` as one case distinction: a refusal changes nothing a consumer
sees, and an accepted frame goes out on every edge of its port. -/
theorem routeOutput_spec (s : State) (node : Nat)
    (out : FlowOutputFrameView) :
    outputRefused artifact memory node out = true ∧ (routeOutput artifact memory s node out).2 < 0 ∧
        SameSchedule s (routeOutput artifact memory s node out).1 ∨
      outputRefused artifact memory node out = false ∧ ∃ port, out.port = some port ∧
        Taken artifact node port out ∧
        routeOutput artifact memory s node out =
          ((artifact.matchingEdges node port).foldl
            (routeEdge artifact out (findCurrentAlias s out.payload out.length)) s,
            ((artifact.matchingEdges node port).length : Int)) := by
  have quiet : SameSchedule s s.reject := ⟨rfl, rfl, rfl, rfl, rfl, rfl, rfl, rfl⟩
  rw [outputRefused, routeOutput]
  cases out.port with
  | none => exact .inl ⟨rfl, by simp, rfl, rfl, rfl, rfl, rfl, rfl, rfl, rfl⟩
  | some port =>
    dsimp only
    split_ifs with form range empty mutable
    · exact .inl ⟨by simp [form], by simp, quiet⟩
    · exact .inl ⟨by simp [range], by simp, quiet⟩
    · have format : out.wireFormat ≤ alignedBinaryFormat := by simp at form; omega
      rw [List.isEmpty_iff] at empty
      exact .inr ⟨by simp [form, range, empty], port, rfl, ⟨format, by simp [empty]⟩, by simp [empty]⟩
    · exact .inl ⟨by simp [empty, mutable], by simp, quiet⟩
    · have format : out.wireFormat ≤ alignedBinaryFormat := by simp at form; omega
      cases verdict : (artifact.matchingEdges node port).findSome? fun row => edgeRefusal out row.1 with
      | some status =>
        obtain ⟨row, _, refused⟩ := List.exists_of_findSome?_eq_some verdict
        exact .inl ⟨by simp [empty], edgeRefusal_negative refused, quiet⟩
      | none =>
        exact .inr ⟨by simp [form, range, mutable], port, rfl,
          ⟨format, List.findSome?_eq_none_iff.mp verdict⟩, rfl⟩

/-- Routing only delivers, whatever the outcome. -/
theorem routeOutput_delivers (s : State)
    (fromNode : Nat) (out : FlowOutputFrameView) :
    Deliveries artifact s (routeOutput artifact memory s fromNode out).1 := by
  rcases routeOutput_spec artifact memory s fromNode out with
    ⟨-, -, same⟩ | ⟨-, port, -, -, result⟩
  · exact .single (.quiet same)
  · rw [result]
    refine routeEdges_deliver artifact out _ _ (fun row member => ?_) s
    exact (artifact.edges_valid _ (artifact.mem_matchingEdges member).1).2

theorem applyFrames_delivers (node : Nat)
    (frames : List FlowFrameDescriptor) (s : State) (routed : Nat) :
    Deliveries artifact s (applyFrames artifact memory node frames s routed).1 := by
  induction frames generalizing s routed with
  | nil => exact .refl
  | cons fd rest ih =>
    simp only [applyFrames]
    split_ifs
    · exact ih s routed
    · exact reject_delivers _ s
    · exact routeOutput_delivers artifact memory s node _
    · exact (routeOutput_delivers artifact memory s node _).trans (ih _ _)

theorem routeShimOutputs_delivers (node : Nat)
    (outputs : List ShimOutput) (s : State) (routed : Nat) (status : Int) :
    Deliveries artifact s
      (routeShimOutputs artifact memory node outputs s routed status).1 := by
  induction outputs generalizing s routed with
  | nil => exact .refl
  | cons out rest ih =>
    simp only [routeShimOutputs]
    split_ifs
    · exact routeOutput_delivers artifact memory s node _
    · exact (routeOutput_delivers artifact memory s node _).trans (ih _ _)

theorem shimStep_same (state : State × ShimState) (call : ShimCall) :
    SameSchedule state.1 (shimStep artifact state call).1 := by
  cases call with
  | push output =>
    simp only [shimStep, shimPushOutput]
    split
    · exact ⟨rfl, rfl, rfl, rfl, rfl, rfl, rfl, rfl⟩
    · split <;> exact ⟨rfl, rfl, rfl, rfl, rfl, rfl, rfl, rfl⟩
  | setOutputFrameId | setOutputStreamFrame | setYielded | setBacklogRemaining
  | resetOutputState => exact ⟨rfl, rfl, rfl, rfl, rfl, rfl, rfl, rfl⟩

/-- A guest's shim calls change nothing the scheduler reads before they are routed. -/
theorem shimCalls_deliver (calls : List ShimCall) (state : State × ShimState) :
    Deliveries artifact state.1 (calls.foldl (shimStep artifact) state).1 := by
  induction calls generalizing state with
  | nil => exact .refl
  | cons call rest ih => exact .head (.quiet (shimStep_same artifact state call)) (ih _)

end

end Routing

section Calls

/-- `t` opens an invocation of `node` in `s` with at most `limit` frames: the head
of the queue moves into the invocation and nothing else is lost. -/
structure Opens (s : State) (node limit : Nat) (t : State) : Prop where
  current : t.current = some ⟨node, (s.queues node).take limit⟩
  queues : t.queues = Function.update s.queues node ((s.queues node).drop limit)
  external : t.activeExternalFrames = s.activeExternalFrames
  pushed : t.pushed = s.pushed
  handed : t.handed = s.handed
  consumed : ∀ other,
    (t.nodeStates other).consumedFrames = (s.nodeStates other).consumedFrames

theorem beginNodeInvocation_opens (node : Nat) (budget : Int) (inside : node < artifact.nodeCount) :
    Opens s node (invocationBudget budget) (beginNodeInvocation artifact s node budget).1 ∧
      0 ≤ (beginNodeInvocation artifact s node budget).2 := by
  have range : ¬ ((node : Int) < 0 ∨ (artifact.nodeCount : Int) ≤ node) := by omega
  simp only [beginNodeInvocation, if_neg range]
  refine ⟨⟨rfl, rfl, rfl, rfl, rfl, fun other => ?_⟩, Int.natCast_nonneg _⟩
  exact State.publish_consumed _ _ _ _

theorem beginNodeInvocation_cases (nodeIndex budget : Int) :
    (beginNodeInvocation artifact s nodeIndex budget).1 = s ∨
      ∃ node < artifact.nodeCount, nodeIndex = node ∧
        Opens s node (invocationBudget budget) (beginNodeInvocation artifact s nodeIndex budget).1 := by
  by_cases outside : nodeIndex < 0 ∨ (artifact.nodeCount : Int) ≤ nodeIndex
  · exact .inl (by simp only [beginNodeInvocation, if_pos outside])
  · obtain ⟨node, rfl⟩ := Int.eq_ofNat_of_zero_le (a := nodeIndex) (by omega)
    have inside : node < artifact.nodeCount := by omega
    exact .inr ⟨node, inside, rfl, (beginNodeInvocation_opens node budget inside).1⟩

def resultFrames (memory : LinearMemory) (framesPtr frameCount : Int) : List FlowFrameDescriptor :=
  (List.range frameCount.toNat).map fun i =>
    memory.frameDescriptor (framesPtr.toNat + i * frameDescriptorSize)

def TableRead (artifact : Artifact) (memory : LinearMemory) (s : State)
    (nodeIndex framesPtr frameCount : Int) : Prop :=
  0 ≤ nodeIndex ∧ nodeIndex < artifact.nodeCount ∧
    s.current.map Invocation.node = some nodeIndex.toNat ∧
    0 ≤ frameCount ∧ frameCount ≤ maxInvocationFrames ∧ (0 < frameCount → 0 < framesPtr ∧
      validMemoryRange memory framesPtr.toNat (frameCount.toNat * frameDescriptorSize) = true)

/-- `apply_node_invocation_result` as one case distinction. -/
theorem applyNodeInvocationResult_cases (artifact : Artifact) (memory : LinearMemory) (s : State)
    (nodeIndex status backlog yielded framesPtr frameCount : Int) :
    let result := applyNodeInvocationResult artifact memory s nodeIndex status backlog yielded
      framesPtr frameCount
    ¬ TableRead artifact memory s nodeIndex framesPtr frameCount ∧ result.1 = s ∨
      TableRead artifact memory s nodeIndex framesPtr frameCount ∧
        ∃ invocation, s.current = some invocation ∧ invocation.node = nodeIndex.toNat ∧
          let applied := applyFrames artifact memory nodeIndex.toNat
            (resultFrames memory framesPtr frameCount) s 0
          result = if applied.2 < 0 then applied else (settleNode artifact applied.1 nodeIndex.toNat
            invocation.frames.length status (asUInt32 backlog) (decide (yielded ≠ 0)), applied.2) := by
  rw [TableRead, applyNodeInvocationResult]
  by_cases outside : nodeIndex < 0 ∨ (artifact.nodeCount : Int) ≤ nodeIndex
  · exact .inl ⟨by omega, by rw [if_pos outside]⟩
  · rw [if_neg outside]
    cases current : s.current with
    | none => exact .inl ⟨by simp, rfl⟩
    | some invocation =>
      dsimp only
      by_cases node : invocation.node = nodeIndex.toNat
      · rw [if_neg (not_not.mpr node)]
        by_cases count : frameCount < 0 ∨ (maxInvocationFrames : Int) < frameCount
        · exact .inl ⟨by omega, by rw [if_pos count]⟩
        · rw [if_neg count]
          by_cases range : 0 < frameCount ∧ (framesPtr ≤ 0 ∨ validMemoryRange memory
              framesPtr.toNat (frameCount.toNat * frameDescriptorSize) = false)
          · exact .inl ⟨by grind, by rw [if_pos range]⟩
          · rw [if_neg range]
            exact .inr ⟨⟨by omega, by omega, by simp [node], by omega, by omega, by grind⟩,
              invocation, rfl, node, rfl⟩
      · exact .inl ⟨by simp [node], by rw [if_pos node]⟩

theorem applyNodeInvocationResult_changes (memory : LinearMemory)
    (node status backlog yielded ptr count : Int) :
    Changes artifact serial s
      (applyNodeInvocationResult artifact memory s node status backlog yielded ptr count).1 := by
  rcases applyNodeInvocationResult_cases artifact memory s node status backlog yielded ptr count
    with ⟨-, same⟩ | ⟨-, invocation, opened, is, result⟩
  · rw [same]
  · have delivered :=
      applyFrames_delivers artifact memory node.toNat (resultFrames memory ptr count) s 0
    rw [result]
    split
    · exact delivered.changes
    · rw [← is] at delivered ⊢
      exact delivered.changes.tail
        (.settle invocation status _ _ (delivered.current.trans opened))

/-- One dispatch of a linked node: hand the frames over, deliver, settle. -/
theorem dispatch_linked (guest : GuestRun) (opened : s.current = some invocation)
    (linked : artifact.nodeIsLinked invocation.node = true) :
    ∃ u status backlog yielded, Deliveries artifact.toFlowTables (s.enterEntry invocation) u ∧
      (dispatchCurrentInvocationDirect artifact guest s).1 =
        settleNode artifact u invocation.node invocation.frames.length status backlog yielded := by
  have delivered : Deliveries artifact.toFlowTables (s.enterEntry invocation) _ :=
    (shimCalls_deliver artifact guest.calls (s.enterEntry invocation, {})).trans
      (routeShimOutputs_delivers artifact guest.memory invocation.node
        (guest.calls.foldl (shimStep artifact) (s.enterEntry invocation, {})).2.outputs
        _ 0 guest.status)
  simp only [dispatchCurrentInvocationDirect, opened, linked]
  exact ⟨_, _, _, _, delivered, rfl⟩

theorem dispatch_changes (guest : GuestRun) :
    Changes artifact serial s (dispatchCurrentInvocationDirect artifact guest s).1 := by
  cases opened : s.current with
  | none =>
    simp only [dispatchCurrentInvocationDirect, opened]
    exact .refl
  | some invocation =>
    cases linked : artifact.nodeIsLinked invocation.node with
    | false =>
      simp only [dispatchCurrentInvocationDirect, opened, linked]
      exact .refl
    | true =>
      obtain ⟨u, status, backlog, yielded, delivered, result⟩ :=
        dispatch_linked guest opened linked
      rw [result]
      refine ReflTransGen.head (.hand invocation opened) (delivered.changes.tail ?_)
      exact .settle invocation status backlog yielded (delivered.current.trans opened)

theorem completeNodeInvocation_current :
    (completeNodeInvocation artifact s).current = none := by
  unfold completeNodeInvocation
  split
  · assumption
  · rfl

theorem findReadyNode_ready (found : findReadyNode tables s = some node) :
    node < tables.nodeCount ∧ nodeIsReady tables s node = true := by
  have ready := List.find?_some found
  obtain ⟨offset, _, same⟩ := List.mem_map.mp (List.mem_of_find?_eq_some found)
  exact ⟨same ▸ Nat.mod_lt _ tables.nodes_pos, ready⟩

def serve (artifact : Artifact) (guest : GuestRun) (s : State) (node : Nat) : State :=
  completeNodeInvocation artifact (dispatchCurrentInvocationDirect artifact guest
    (beginNodeInvocation artifact s node 64).1).1

def selected (artifact : Artifact) (s : State) : Option Nat :=
  (findReadyNode artifact.toFlowTables s).filter artifact.nodeIsLinked

theorem selected_spec (choice : selected artifact s = some node) :
    findReadyNode artifact s = some node ∧ node < artifact.nodeCount ∧
      artifact.nodeIsLinked node = true := by
  obtain ⟨found, linked⟩ := Option.filter_eq_some_iff.mp choice
  exact ⟨found, (findReadyNode_ready found).1, linked⟩

/-- The drain loop serves the node it selected and goes on. -/
theorem drainLoop_succ (guests : Nat → GuestRun) (remaining dispatched : Nat) :
    drainLoop artifact guests (remaining + 1) s dispatched =
      (selected artifact s).elim (s, (dispatched : Int)) fun node =>
        drainLoop artifact guests remaining (serve artifact (guests dispatched) s node)
          (dispatched + 1) := by
  rw [drainLoop, selected]
  cases found : findReadyNode artifact s with
  | none => rfl
  | some node =>
    have accepted : ¬ (beginNodeInvocation artifact s node 64).2 < 0 :=
      Int.not_lt.mpr (beginNodeInvocation_opens node 64 (findReadyNode_ready found).1).2
    cases linked : artifact.nodeIsLinked node with
    | false => simp [linked, Option.filter_some]
    | true => simp [linked, accepted, serve, Option.filter_some]

theorem drainLoop_changes (guests : Nat → GuestRun) (remaining : Nat) (dispatched : Nat)
    (idle : s.current = none) :
    Changes artifact serial s (drainLoop artifact guests remaining s dispatched).1 := by
  induction remaining generalizing s dispatched with
  | zero => exact .refl
  | succ remaining ih =>
    rw [drainLoop_succ]
    cases selected artifact s with
    | none => exact .refl
    | some node =>
      refine ReflTransGen.head (.begin node 64 fun _ => idle) ?_
      exact ((dispatch_changes _).tail .complete).trans (ih _ completeNodeInvocation_current)

section
variable (payload : List UInt8)

/-- What a frame takes from its binding and from the descriptor's token; the
layout is all that depends on the type. -/
theorem bindingFrame_spec (binding : FlowTriggerBinding) (descriptor : Option FlowFrameDescriptor) :
    let frame := bindingFrame artifact payload s binding descriptor
    let token := externalToken descriptor
    frame.port = binding.port ∧ frame.tracksExternalLifetime = (token != 0) ∧
      frame.frameId = if token != 0 then token else s.nextFrameId := by
  cases descriptor with
  | none => exact ⟨rfl, rfl, rfl⟩
  | some fd =>
    simp only [bindingFrame]
    split
    · split
      · split <;> exact ⟨rfl, rfl, rfl⟩
      · exact ⟨rfl, rfl, rfl⟩
    · exact ⟨rfl, rfl, rfl⟩

variable (descriptor : Option FlowFrameDescriptor)

theorem enqueueBinding_admits
    (binding : FlowTriggerBinding) (inside : binding.targetNode < artifact.nodeCount) :
    Admissions artifact.toFlowTables s (enqueueBinding artifact payload descriptor s binding) := by
  let frame := bindingFrame artifact payload s binding descriptor
  let token := externalToken descriptor
  obtain ⟨-, tracks, numbered⟩ : _ ∧ frame.tracksExternalLifetime = (token != 0) ∧ frame.frameId = _ :=
    bindingFrame_spec payload binding descriptor
  have charged : Admits artifact.toFlowTables s (s.charge token frame.payloadSize) :=
    .deliver (.quiet ⟨rfl, rfl, rfl, rfl, rfl, rfl, rfl, rfl⟩)
  refine ReflTransGen.head charged (.single ?_)
  by_cases external : token = 0
  · have same : (s.charge token frame.payloadSize).retainExternal token =
        s.charge token frame.payloadSize := by
      simp [State.retainExternal, retainExternalFrameId, external]
    have pushed : enqueueBinding artifact payload descriptor s binding =
        ((s.charge token frame.payloadSize).pushBack binding.targetNode frame).publish
          binding.targetNode artifact.toFlowTables :=
      congrArg (fun retained : State => (retained.pushBack binding.targetNode frame).publish
        binding.targetNode artifact.toFlowTables) same
    rw [pushed]
    exact .deliver (.push _ frame inside (by simp [tracks, external]))
  · refine .pushExternal binding.targetNode token frame inside external ?_ ?_
    · simp [tracks, external]
    · exact numbered.trans (if_pos (by simpa using external))

theorem enqueueAll_admits (trigger : Nat) :
    Admissions artifact.toFlowTables s (enqueueAll artifact payload descriptor s trigger) := by
  have bound : ∀ binding ∈ artifact.bindingsOf trigger, binding.targetNode < artifact.nodeCount :=
    fun binding member =>
      (artifact.bindings_valid _ (artifact.mem_of_mem_bindingsOf member)).2.1
  have pushes : ∀ (bindings : List FlowTriggerBinding) (s : State),
      (∀ binding ∈ bindings, binding.targetNode < artifact.nodeCount) →
      Admissions artifact.toFlowTables s
        (bindings.foldl (enqueueBinding artifact payload descriptor) s) := by
    intro bindings
    induction bindings with
    | nil => intro s _; exact .refl
    | cons binding rest ih =>
      intro s inside
      exact (enqueueBinding_admits payload descriptor binding (inside binding (by simp))).trans
        (ih _ fun other member => inside other (by simp [member]))
  exact (pushes _ s bound).tail (.deliver (.quiet ⟨rfl, rfl, rfl, rfl, rfl, rfl, rfl, rfl⟩))

theorem enqueueAll_arrives (trigger : Nat) (s : State) (node : Nat) :
    Arrives (artifact.bindingsOf trigger) (·.targetNode) QueuedFrame.port (·.port) s
      (enqueueAll artifact payload descriptor s trigger) node := by
  exact foldl_arrives _ (fun binding _ s =>
    ⟨_, rfl, (bindingFrame_spec payload binding descriptor).1⟩) s node

end

theorem enqueueTriggerFrames_admits (trigger : Int) :
    Admissions artifact.toFlowTables s (enqueueTriggerFrames artifact s trigger) := by
  unfold enqueueTriggerFrames
  split_ifs
  · exact .refl
  · exact enqueueAll_admits [] none _

/-- A descriptor that passes for unoccupied names bytes outside memory. -/
def Overrun (memory : LinearMemory) (fd : FlowFrameDescriptor) : Prop :=
  fd.occupied = false ∧ 0 < fd.size ∧ validMemoryRange memory fd.offset fd.size = false

theorem overrun_of_valid (valid : ¬ validateFrameDescriptor artifact memory s fd generation < 0)
    (size : 0 < fd.size) (outside : validMemoryRange memory fd.offset fd.size = false) :
    Overrun memory fd := by
  refine ⟨?_, size, outside⟩
  by_contra occupied
  have status : frameStatus memory s fd generation < 0 := by
    simp only [frameStatus, size, outside]
    split_ifs <;> simp_all
  simp [validateFrameDescriptor, occupied, status] at valid

/-- `enqueue_trigger_frame` as one case distinction: a refusal changes nothing
but its own counter, a trap loses the frame it was making, and an accepted call
serves every binding. -/
theorem enqueueTriggerFrame_cases (artifact : Artifact) (memory : LinearMemory) (s : State)
    (trigger ptr : Int) :
    let result := enqueueTriggerFrame artifact memory s trigger ptr
    (∃ code < 0, result.2 = some code) ∧ (result.1 = s ∨ result.1 = s.reject) ∨
      (result.2 = none ∧ Overrun memory (memory.frameDescriptor ptr.toNat)) ∧
        (∃ token size, result.1 = s.charge token size) ∨
      (0 ≤ trigger ∧ trigger < artifact.triggerCount) ∧ (∃ payload descriptor,
        result.1 = enqueueAll artifact payload descriptor s trigger.toNat) ∧
        (ptr = 0 ∧ result.2 = some 0 ∨
          ptr ≠ 0 ∧ result.2 = some ((artifact.bindingsOf trigger.toNat).length : Int)) := by
  generalize answer : enqueueTriggerFrame artifact memory s trigger ptr = result
  simp only [enqueueTriggerFrame] at answer
  split_ifs at answer with outside null unread invalid active common refused overrun
  all_goals subst answer
  · exact .inl ⟨by simp, .inl rfl⟩
  · exact .inr (.inr ⟨by omega, ⟨[], none, by rw [enqueueTriggerFrames, if_neg outside]⟩,
      .inl ⟨null, rfl⟩⟩)
  · exact .inl ⟨by simp, .inr rfl⟩
  · exact .inl ⟨⟨_, invalid, rfl⟩, .inr rfl⟩
  · exact .inl ⟨by simp, .inr rfl⟩
  · exact .inl ⟨by simp, .inr rfl⟩
  · exact .inl ⟨by simp, .inr rfl⟩
  · exact .inr (.inl ⟨⟨rfl, overrun_of_valid invalid overrun.2.1 overrun.2.2⟩, _, _, rfl⟩)
  · exact .inr (.inr ⟨by omega, ⟨_, _, rfl⟩, .inr ⟨null, rfl⟩⟩)

theorem enqueueTriggerFrame_admits (memory : LinearMemory) (trigger ptr : Int) :
    Admissions artifact.toFlowTables s (enqueueTriggerFrame artifact memory s trigger ptr).1 := by
  rcases enqueueTriggerFrame_cases artifact memory s trigger ptr with
    ⟨-, same | same⟩ | ⟨-, token, size, same⟩ | ⟨-, ⟨payload, descriptor, served⟩, -⟩
  · rw [same]
  · rw [same]
    exact (reject_delivers _ s).admissions
  · rw [same]
    exact Deliveries.admissions (.single (.quiet ⟨rfl, rfl, rfl, rfl, rfl, rfl, rfl, rfl⟩))
  · rw [served]
    exact enqueueAll_admits payload descriptor _

/-- The discipline both host loops and `drain_linked` follow: an invocation is
begun only while none is open. -/
def Serial (s : State) : Call → Prop
  | .beginNodeInvocation _ _ => s.current = none
  | _ => True

theorem step_changes (call : Call) (disciplined : serial → Serial s call) :
    Changes artifact serial s (step artifact s call) := by
  cases call with
  | resetState => exact .single .reset
  | enqueueTriggerFrames trigger => exact (enqueueTriggerFrames_admits trigger).changes
  | enqueueTriggerFrame memory trigger ptr =>
    exact (enqueueTriggerFrame_admits memory trigger ptr).changes
  | beginNodeInvocation node budget => exact .single (.begin node budget disciplined)
  | applyNodeInvocationResult => exact applyNodeInvocationResult_changes _ _ _ _ _ _ _
  | completeNodeInvocation => exact .single .complete
  | dispatchCurrentInvocationDirect guest => exact dispatch_changes guest
  | drainLinked guests maxIterations =>
    simp only [step, drainLinked]
    split
    · exact .refl
    · rename_i idle
      split
      · exact .refl
      · exact drainLoop_changes guests _ _ (by simpa using idle)

end Calls

/-- A property every elementary change preserves holds in every reachable state. -/
theorem Reachable.invariant {P : State → Prop} (reachable : Reachable artifact s)
    (initial : P State.initial)
    (preserves : ∀ {s t}, Change artifact False s t → P s → P t) : P s := by
  obtain ⟨calls, run⟩ := reachable
  refine run.invariant initial fun before call _ holds => ?_
  have changes : Changes artifact False before (step artifact before call) :=
    step_changes call False.elim
  exact changes.invariant holds preserves

end SpaceDataModule.FlowRuntime

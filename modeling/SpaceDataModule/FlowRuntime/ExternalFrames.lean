import SpaceDataModule.FlowRuntime.Changes
import Mathlib.Algebra.BigOperators.Group.Finset.Piecewise

/-! External frame ids. The ledger of active ids is compared with what it counts:
the tracked frames still queued or held by the open invocation. -/
namespace SpaceDataModule.FlowRuntime

def QueuedFrame.copies (id : Nat) (frame : QueuedFrame) : Bool :=
  frame.tracksExternalLifetime && frame.frameId == id

def waiting (tables : FlowTables) (queues : Nat → List QueuedFrame) (id : Nat) : Nat :=
  ∑ node ∈ Finset.range tables.nodeCount, (queues node).countP (QueuedFrame.copies id)

def inFlight (current : Option Invocation) (id : Nat) : Nat :=
  current.elim 0 fun invocation => invocation.frames.countP (QueuedFrame.copies id)

def undelivered (tables : FlowTables) (s : State) (id : Nat) : Nat :=
  waiting tables s.queues id + inFlight s.current id

section Ledger

def references (active : List ExternalFrameLifetime) (id : Nat) : Nat :=
  (active.find? fun lifetime => lifetime.frameId == id).elim 0 (·.references)

/-- One entry an id, none without a reference, none for the null id. -/
structure Ledger (active : List ExternalFrameLifetime) : Prop where
  ids : (active.map (·.frameId)).Nodup
  referenced : ∀ lifetime ∈ active, 0 < lifetime.references
  named : ∀ lifetime ∈ active, lifetime.frameId ≠ 0

theorem references_cons (lifetime : ExternalFrameLifetime) (id : Nat) :
    references (lifetime :: active) id =
      if lifetime.frameId = id then lifetime.references else references active id := by
  by_cases same : lifetime.frameId = id
  · simp [references, same]
  · simp [references, same]

theorem references_absent {id : Nat} (absent : id ∉ active.map (·.frameId)) :
    references active id = 0 := by
  have none : active.find? (fun lifetime => lifetime.frameId == id) = none := by
    rw [List.find?_eq_none]
    intro lifetime member same
    exact absent (List.mem_map.mpr ⟨lifetime, member, by simpa using same⟩)
  simp [references, none]

theorem Ledger.tail (ledger : Ledger (lifetime :: active)) :
    Ledger active ∧ references active lifetime.frameId = 0 := by
  obtain ⟨fresh, distinct⟩ := List.nodup_cons.mp ledger.ids
  refine ⟨⟨distinct, ?_, ?_⟩, references_absent fresh⟩
  · exact fun other member => ledger.referenced other (List.mem_cons_of_mem _ member)
  · exact fun other member => ledger.named other (List.mem_cons_of_mem _ member)

theorem references_retainIn (id other : Nat) :
    references (retainIn id active) other =
      references active other + if id = other then 1 else 0 := by
  induction active with
  | nil =>
    simp only [retainIn, references_cons]
    split_ifs <;> simp [references]
  | cons lifetime rest ih =>
    simp only [retainIn, beq_iff_eq]
    by_cases here : lifetime.frameId = id
    · subst here
      simp only [if_true, references_cons]
      split_ifs <;> omega
    · simp only [if_neg here, references_cons, ih]
      split_ifs <;> omega

theorem retainIn_ids (id : Nat) :
    (retainIn id active).map (·.frameId) =
      if id ∈ active.map (·.frameId) then active.map (·.frameId)
      else active.map (·.frameId) ++ [id] := by
  induction active with
  | nil => simp [retainIn]
  | cons lifetime rest ih =>
    simp only [retainIn, beq_iff_eq]
    by_cases here : lifetime.frameId = id
    · simp [here]
    · have distinct : ¬ id = lifetime.frameId := fun same => here same.symm
      simp only [if_neg here, List.map_cons, ih, List.mem_cons, distinct, false_or]
      split_ifs <;> simp

theorem mem_retainIn {id : Nat} (member : lifetime ∈ retainIn id active) :
    lifetime ∈ active ∨ lifetime.frameId = id ∧ 0 < lifetime.references := by
  induction active with
  | nil =>
    obtain rfl : lifetime = ⟨id, 1⟩ := by simpa [retainIn] using member
    exact .inr ⟨rfl, Nat.one_pos⟩
  | cons first rest ih =>
    simp only [retainIn, beq_iff_eq] at member
    split_ifs at member with here
    · rcases List.mem_cons.mp member with rfl | there
      · exact .inr ⟨here, Nat.succ_pos _⟩
      · exact .inl (List.mem_cons_of_mem _ there)
    · rcases List.mem_cons.mp member with rfl | there
      · exact .inl List.mem_cons_self
      · rcases ih there with old | new
        · exact .inl (List.mem_cons_of_mem _ old)
        · exact .inr new

theorem releaseIn_ids (id : Nat) :
    ((releaseIn id active).map (·.frameId)).Sublist (active.map (·.frameId)) := by
  induction active with
  | nil => simp [releaseIn]
  | cons lifetime rest ih =>
    simp only [releaseIn]
    split_ifs
    · simp
    · simp
    · exact ih.cons_cons _

theorem mem_releaseIn {id : Nat} (member : lifetime ∈ releaseIn id active) :
    ∃ before ∈ active, before.frameId = lifetime.frameId ∧
      (lifetime = before ∨ 0 < lifetime.references) := by
  induction active with
  | nil => simp [releaseIn] at member
  | cons first rest ih =>
    simp only [releaseIn] at member
    split_ifs at member with here many
    · rcases List.mem_cons.mp member with rfl | there
      · exact ⟨first, by simp, rfl, .inr (by simp only; omega)⟩
      · exact ⟨lifetime, by simp [there], rfl, .inl rfl⟩
    · exact ⟨lifetime, by simp [member], rfl, .inl rfl⟩
    · rcases List.mem_cons.mp member with rfl | there
      · exact ⟨lifetime, by simp, rfl, .inl rfl⟩
      · obtain ⟨before, old, same, kept⟩ := ih there
        exact ⟨before, by simp [old], same, kept⟩

section
variable (ledger : Ledger active)
include ledger

/-- A ledger holds `⟨id, n⟩` exactly when `n` references are recorded. -/
theorem Ledger.mem_iff (id n : Nat) :
    (⟨id, n⟩ : ExternalFrameLifetime) ∈ active ↔ 0 < n ∧ references active id = n := by
  induction active with
  | nil => simp [references]; omega
  | cons lifetime rest ih =>
    obtain ⟨tail, fresh⟩ := ledger.tail
    rw [references_cons, List.mem_cons, ih tail]
    by_cases same : lifetime.frameId = id
    · subst same
      have positive := ledger.referenced lifetime (by simp)
      rw [if_pos rfl]
      constructor
      · rintro (here | ⟨some, none⟩)
        · rw [← here] at positive ⊢
          exact ⟨positive, rfl⟩
        · omega
      · rintro ⟨_, count⟩
        exact .inl (by rw [← count])
    · rw [if_neg same]
      constructor
      · rintro (here | there)
        · exact (same (by rw [← here])).elim
        · exact there
      · exact .inr

theorem externalFrameIdActive_iff (id : Nat) :
    externalFrameIdActive active id = true ↔ 0 < references active id := by
  simp only [externalFrameIdActive, Bool.and_eq_true, bne_iff_ne, List.any_eq_true, beq_iff_eq]
  constructor
  · rintro ⟨_, lifetime, member, rfl⟩
    obtain ⟨positive, count⟩ := (ledger.mem_iff lifetime.frameId lifetime.references).mp member
    omega
  · intro positive
    have member := (ledger.mem_iff id (references active id)).mpr ⟨positive, rfl⟩
    exact ⟨ledger.named _ member, _, member, rfl⟩

theorem Ledger.retain {id : Nat} (nonzero : id ≠ 0) :
    Ledger (retainIn id active) := by
  refine ⟨?_, ?_, ?_⟩
  · rw [retainIn_ids]
    split_ifs with present
    · exact ledger.ids
    · exact List.nodup_append.mpr ⟨ledger.ids, by simp, by
        intro old member new same
        rw [List.mem_singleton.mp same]
        rintro rfl
        exact present member⟩
  · intro lifetime member
    rcases mem_retainIn member with old | ⟨_, positive⟩
    · exact ledger.referenced lifetime old
    · exact positive
  · intro lifetime member
    rcases mem_retainIn member with old | ⟨rfl, _⟩
    · exact ledger.named lifetime old
    · exact nonzero

theorem Ledger.release (id : Nat) : Ledger (releaseIn id active) := by
  refine ⟨ledger.ids.sublist (releaseIn_ids id), ?_, ?_⟩
  · intro lifetime member
    obtain ⟨before, old, _, rfl | positive⟩ := mem_releaseIn member
    · exact ledger.referenced lifetime old
    · exact positive
  · intro lifetime member
    obtain ⟨before, old, same, _⟩ := mem_releaseIn member
    exact same ▸ ledger.named before old

/-- Releasing takes one reference; unique ids make the erased entry the last. -/
theorem references_releaseIn (id other : Nat) :
    references (releaseIn id active) other =
      references active other - if id = other then 1 else 0 := by
  induction active with
  | nil => simp [releaseIn, references]
  | cons lifetime rest ih =>
    obtain ⟨tail, fresh⟩ := ledger.tail
    simp only [releaseIn, beq_iff_eq]
    by_cases here : lifetime.frameId = id
    · subst here
      by_cases same : lifetime.frameId = other
      · subst same
        rw [if_pos rfl, references_cons, if_pos rfl, if_pos rfl]
        split_ifs
        · simp [references_cons]
        · omega
      · rw [if_pos rfl, references_cons]
        split_ifs
        · simp [references_cons, same]
        · rfl
    · rw [if_neg here, references_cons, references_cons, ih tail]
      split_ifs <;> omega

end

/-- Completing an invocation releases one reference for each copy it held. -/
theorem release_frames (frames : List QueuedFrame) (ledger : Ledger active) :
    Ledger (frames.foldl releaseExternalFrameId active) ∧
      ∀ id, references (frames.foldl releaseExternalFrameId active) id =
        references active id - frames.countP (QueuedFrame.copies id) := by
  induction frames generalizing active with
  | nil => exact ⟨ledger, fun id => by simp⟩
  | cons frame rest ih =>
    simp only [List.foldl_cons, releaseExternalFrameId]
    split_ifs with skipped
    · obtain ⟨kept, counts⟩ := ih ledger
      refine ⟨kept, fun id => ?_⟩
      rw [counts, List.countP_cons]
      split_ifs with copy
      · -- only the null id is skipped although tracked, and no entry has it
        have null : id = 0 := by
          simp only [QueuedFrame.copies, Bool.and_eq_true, beq_iff_eq] at copy
          simpa [copy.1, copy.2] using skipped
        have absent : references active id = 0 := by
          refine references_absent fun member => ?_
          obtain ⟨lifetime, old, same⟩ := List.mem_map.mp member
          exact ledger.named lifetime old (same.trans null)
        omega
      · omega
    · obtain ⟨kept, counts⟩ := ih (ledger.release frame.frameId)
      refine ⟨kept, fun id => ?_⟩
      have tracked : frame.tracksExternalLifetime = true := by
        by_contra untracked
        exact skipped (by simp [untracked])
      rw [counts, references_releaseIn ledger, List.countP_cons]
      simp only [QueuedFrame.copies, tracked, Bool.true_and, beq_iff_eq]
      omega

end Ledger

section Counting

theorem waiting_update (tables : FlowTables) (queues : Nat → List QueuedFrame)
    (queue : List QueuedFrame) (id : Nat) (inside : node < tables.nodeCount) :
    waiting tables (Function.update queues node queue) id +
        (queues node).countP (QueuedFrame.copies id) =
      waiting tables queues id + queue.countP (QueuedFrame.copies id) := by
  have member : node ∈ Finset.range tables.nodeCount := Finset.mem_range.mpr inside
  have others : ∀ other ∈ (Finset.range tables.nodeCount).erase node,
      (Function.update queues node queue other).countP (QueuedFrame.copies id) =
        (queues other).countP (QueuedFrame.copies id) := by
    intro other distinct
    rw [Function.update_of_ne (Finset.ne_of_mem_erase distinct)]
  have before := Finset.add_sum_erase _
    (fun other => (queues other).countP (QueuedFrame.copies id)) member
  have after := Finset.add_sum_erase _
    (fun other => (Function.update queues node queue other).countP (QueuedFrame.copies id)) member
  rw [Finset.sum_congr rfl others] at after
  simp only [Function.update_self] at after
  unfold waiting
  omega

theorem pushBack_undelivered (frame : QueuedFrame) (id : Nat) (inside : node < tables.nodeCount) :
    undelivered tables ((s.pushBack node frame).publish node tables) id =
      undelivered tables s id + if frame.copies id then 1 else 0 := by
  have update := waiting_update tables s.queues (s.queues node ++ [frame]) id inside
  simp only [List.countP_append, List.countP_singleton] at update
  simp only [undelivered, State.publish_queues, State.pushBack_queues, State.publish_current]
  have same : (s.pushBack node frame).current = s.current := rfl
  rw [same]
  omega

end Counting

section Accounting

/-- The ledger records exactly the undelivered copies of every id. -/
structure Accounted (tables : FlowTables) (s : State) : Prop where
  ledger : Ledger s.activeExternalFrames
  exact : ∀ id, references s.activeExternalFrames id = undelivered tables s id

theorem deliver_accounted (delivered : Delivers tables s t) (accounted : Accounted tables s) :
    Accounted tables t := by
  cases delivered with
  | quiet same =>
    refine ⟨same.external ▸ accounted.ledger, fun id => ?_⟩
    rw [same.external, accounted.exact, undelivered, undelivered, same.queues, same.current]
  | push node frame inside untracked =>
    refine ⟨accounted.ledger, fun id => ?_⟩
    rw [pushBack_undelivered frame id inside, ← accounted.exact]
    simp [QueuedFrame.copies, untracked, State.pushBack, State.setQueue]

theorem admit_accounted (admitted : Admits tables s t) (accounted : Accounted tables s) :
    Accounted tables t := by
  cases admitted with
  | deliver delivered => exact deliver_accounted delivered accounted
  | pushExternal node token frame inside nonzero tracks named =>
    have retained : (((s.retainExternal token).pushBack node frame).publish node
        tables).activeExternalFrames = retainIn token s.activeExternalFrames := by
      simp [State.pushBack, State.setQueue, State.retainExternal, retainExternalFrameId, nonzero]
    refine ⟨retained ▸ accounted.ledger.retain nonzero, fun id => ?_⟩
    rw [retained, references_retainIn, pushBack_undelivered frame id inside, accounted.exact]
    simp only [QueuedFrame.copies, tracks, named, Bool.true_and, beq_iff_eq]
    rfl

/-- Opening an invocation moves copies from the queue to the invocation. -/
theorem begin_accounted (nodeIndex budget : Int) (idle : s.current = none)
    (accounted : Accounted artifact.toFlowTables s) :
    Accounted artifact.toFlowTables (beginNodeInvocation artifact s nodeIndex budget).1 := by
  rcases beginNodeInvocation_cases nodeIndex budget with same | ⟨node, inside, rfl, opens⟩
  · rw [same]
    exact accounted
  · refine ⟨opens.external ▸ accounted.ledger, fun id => ?_⟩
    have before := accounted.exact id
    have update := waiting_update artifact.toFlowTables s.queues
      ((s.queues node).drop (invocationBudget budget)) id inside
    have split : (s.queues node).countP (QueuedFrame.copies id) =
        ((s.queues node).take (invocationBudget budget)).countP (QueuedFrame.copies id) +
          ((s.queues node).drop (invocationBudget budget)).countP (QueuedFrame.copies id) := by
      rw [← List.countP_append, List.take_append_drop]
    simp only [undelivered, opens.external, opens.queues, opens.current, idle, inFlight,
      Option.elim] at before ⊢
    omega

theorem complete_accounted (accounted : Accounted artifact.toFlowTables s) :
    Accounted artifact.toFlowTables (completeNodeInvocation artifact s) := by
  unfold completeNodeInvocation
  split
  · exact accounted
  · rename_i invocation opened
    obtain ⟨ledger, counts⟩ := release_frames invocation.frames accounted.ledger
    refine ⟨ledger, fun id => ?_⟩
    have before := accounted.exact id
    simp only [undelivered, inFlight, opened, Option.elim] at before ⊢
    rw [counts]
    omega

theorem initial_accounted (tables : FlowTables) (allocations : Nat) :
    Accounted tables { State.initial with allocations := allocations } := by
  refine ⟨⟨List.nodup_nil, ?_, ?_⟩, fun id => ?_⟩
  · intro lifetime member
    cases member
  · intro lifetime member
    cases member
  · simp [references, undelivered, waiting, inFlight, State.initial]

theorem change_accounted (change : Change artifact True s t)
    (accounted : Accounted artifact s) : Accounted artifact t := by
  cases change with
  | accept admitted => exact admit_accounted admitted accounted
  | begin nodeIndex budget idle =>
    exact begin_accounted nodeIndex budget (idle trivial) accounted
  | hand => exact ⟨accounted.ledger, accounted.exact⟩
  | settle => exact ⟨accounted.ledger, accounted.exact⟩
  | complete => exact complete_accounted accounted
  | reset => exact initial_accounted _ _

end Accounting

/-- The descriptor passes every check `enqueue_trigger_frame` makes before it
looks at the external id. -/
def Offered (artifact : Artifact) (memory : LinearMemory) (s : State) (trigger ptr : Int) : Prop :=
  (0 ≤ trigger ∧ trigger < artifact.triggerCount) ∧
    (0 < ptr ∧ validMemoryRange memory ptr.toNat frameDescriptorSize = true) ∧
    0 ≤ validateFrameDescriptor artifact memory s (memory.frameDescriptor ptr.toNat) false

theorem frameStatus_bound (memory : LinearMemory) (fd : FlowFrameDescriptor) (generation : Bool) :
    -38 ≤ frameStatus memory s fd generation := by
  simp only [frameStatus]
  repeat' split
  all_goals decide

theorem alignedTypeStatus_bound (fd : FlowFrameDescriptor) (generation : Bool) :
    -38 ≤ alignedTypeStatus artifact fd generation := by
  unfold alignedTypeStatus
  repeat' split
  all_goals decide

/-- No refusal of the descriptor check is the refusal of an active id. -/
theorem validateFrameDescriptor_bound (memory : LinearMemory) (fd : FlowFrameDescriptor)
    (generation : Bool) : -38 ≤ validateFrameDescriptor artifact memory s fd generation := by
  simp only [validateFrameDescriptor]
  split_ifs
  · decide
  · exact frameStatus_bound memory fd generation
  · exact alignedTypeStatus_bound fd generation
  · decide

theorem enqueueTriggerFrame_refuses_iff (memory : LinearMemory) (trigger ptr : Int) :
    (enqueueTriggerFrame artifact memory s trigger ptr).2 = some (-52) ↔
      Offered artifact memory s trigger ptr ∧
        externalFrameIdActive s.activeExternalFrames
          (memory.frameDescriptor ptr.toNat).traceToken = true := by
  have bound : -38 ≤ validateFrameDescriptor artifact memory s
    (memory.frameDescriptor ptr.toNat) false := validateFrameDescriptor_bound memory _ _
  simp only [enqueueTriggerFrame]
  split_ifs with range null outside invalid active common refused overrun
  · exact iff_of_false (by simp) (by rintro ⟨⟨inside, _⟩, _⟩; omega)
  · exact iff_of_false (by simp) (by rintro ⟨⟨_, ⟨positive, _⟩, _⟩, _⟩; omega)
  · refine iff_of_false (by simp) ?_
    rintro ⟨⟨_, ⟨positive, valid⟩, _⟩, _⟩
    rcases outside with negative | unreadable
    · omega
    · simp [valid] at unreadable
  · exact iff_of_false (by simp; omega) (by rintro ⟨⟨_, _, accepted⟩, _⟩; omega)
  · refine iff_of_true rfl ⟨⟨by omega, ⟨by omega, ?_⟩, by omega⟩, active⟩
    simpa using fun unreadable => outside (.inr unreadable)
  · exact iff_of_false (by simp) (fun claimed => active claimed.2)
  · exact iff_of_false (by simp) (fun claimed => active claimed.2)
  · exact iff_of_false (by simp) (fun claimed => active claimed.2)
  · exact iff_of_false (by simp) (fun claimed => active claimed.2)

/-- In every run that opens an invocation only while none is open, an external
id is recorded with `n` references exactly when `n > 0` copies of it are queued
or in the open invocation. So `enqueue_trigger_frame` answers `-52` to a
descriptor it would otherwise look at exactly when a copy of its id is
undelivered, and completing the invocation that holds the last copies frees the
id. -/
theorem external_frames_exact (artifact : Artifact) (calls : List Call) (s : State)
    (run : Transition.Run Serial (step artifact) State.initial calls s) :
    (s.activeExternalFrames.map (·.frameId)).Nodup ∧
      (∀ id n, ⟨id, n⟩ ∈ s.activeExternalFrames ↔
        0 < n ∧ undelivered artifact.toFlowTables s id = n) ∧
      (∀ memory trigger ptr, (enqueueTriggerFrame artifact memory s trigger ptr).2 = some (-52) ↔
        Offered artifact memory s trigger ptr ∧
          0 < undelivered artifact.toFlowTables s
            (memory.frameDescriptor ptr.toNat).traceToken) ∧
      ∀ id, waiting artifact.toFlowTables s.queues id = 0 →
        externalFrameIdActive (completeNodeInvocation artifact s).activeExternalFrames id =
          false := by
  have accounted : Accounted artifact.toFlowTables s := by
    refine run.invariant (initial_accounted _ 0) fun before call serial holds => ?_
    have changes : Changes artifact True before (step artifact before call) :=
      step_changes call fun _ => serial
    exact changes.invariant holds change_accounted
  refine ⟨accounted.ledger.ids, fun id n => ?_, fun memory trigger ptr => ?_, fun id drained => ?_⟩
  · rw [accounted.ledger.mem_iff, accounted.exact]
  · rw [enqueueTriggerFrame_refuses_iff, externalFrameIdActive_iff accounted.ledger,
      accounted.exact]
  · have completed := complete_accounted accounted
    have idle : (completeNodeInvocation artifact s).current = none :=
      completeNodeInvocation_current
    have queues : (completeNodeInvocation artifact s).queues = s.queues := by
      unfold completeNodeInvocation
      split <;> rfl
    rw [← Bool.not_eq_true, externalFrameIdActive_iff completed.ledger, completed.exact,
      undelivered, idle, queues, drained]
    exact Nat.lt_irrefl 0

def fanOut : Artifact where
  nodeCount := 2
  triggerCount := 1
  routeEdgeCount := 0
  edges := [
    { fromNode := 0, fromPort := [], toNode := 0, toPort := [105] },
    { fromNode := 1, fromPort := [], toNode := 1, toPort := [105] }]
  triggerBindings := [⟨0, 0, [105], 0⟩, ⟨0, 1, [105], 1⟩]
  requiredPorts := []
  nodeIsLinked _ := false
  nodes_pos := Nat.two_pos
  route_edges := by decide
  edges_indexed := by decide
  edges_valid := by decide
  bindings_valid := by decide
  place index _ := 4096 * (index + 1)

def fanOutMemory : LinearMemory where
  size := 65536
  byte _ := 0
  frameDescriptor _ := { traceToken := 7 }

theorem external_frames_exact_fanOut :
    let calls := [Call.enqueueTriggerFrame fanOutMemory 0 1024, .beginNodeInvocation 0 64,
      .completeNodeInvocation 0, .beginNodeInvocation 1 64]
    let s := calls.foldl (step fanOut) State.initial
    (Transition.Run Serial (step fanOut) State.initial calls s ∧
      undelivered fanOut.toFlowTables s 7 = 1) ∧
      ((⟨7, 1⟩ ∈ s.activeExternalFrames) ∧
        (enqueueTriggerFrame fanOut fanOutMemory s 0 1024).2 = some (-52) ∧
        externalFrameIdActive (completeNodeInvocation fanOut s).activeExternalFrames 7 = false) := by
  intro calls s
  have run : Transition.Run Serial (step fanOut) State.initial calls s :=
    .cons trivial (.cons rfl (.cons trivial (.cons rfl .start)))
  obtain ⟨_, entries, refusals, freed⟩ := external_frames_exact fanOut calls s run
  have copies : undelivered fanOut.toFlowTables s 7 = 1 := by decide
  refine ⟨⟨run, copies⟩, (entries 7 1).mpr ⟨Nat.one_pos, copies⟩, ?_, freed 7 (by decide)⟩
  refine (refusals fanOutMemory 0 1024).mpr ⟨⟨by decide, by decide, by decide⟩, ?_⟩
  exact Nat.lt_of_lt_of_eq Nat.one_pos copies.symm

end SpaceDataModule.FlowRuntime

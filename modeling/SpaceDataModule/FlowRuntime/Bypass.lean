import SpaceDataModule.FlowRuntime.Conservation
import Mathlib.Data.List.Perm.Subperm

/-! Bounded bypass of the ready cursor. No dispatch of another node revokes
readiness, and each one moves the cursor past the node it served, towards the
waiting node and never beyond it. -/
namespace SpaceDataModule.FlowRuntime

/-- What happens to an artifact that dispatches by `drain_linked` alone: iterations
of its loop, with triggers between the drains. -/
inductive Turn where
  | enqueueTriggerFrames (triggerIndex : Int)
  | enqueueTriggerFrame (memory : LinearMemory) (triggerIndex framePtr : Int)
  | iterate (guest : GuestRun)

def turn (artifact : Artifact) (s : State) : Turn → State
  | .enqueueTriggerFrames trigger => enqueueTriggerFrames artifact s trigger
  | .enqueueTriggerFrame memory trigger ptr => (enqueueTriggerFrame artifact memory s trigger ptr).1
  | .iterate guest => (selected artifact s).elim s (serve artifact guest s)

def dispatched (artifact : Artifact) : State → List Turn → List Nat
  | _, [] => []
  | s, next :: rest =>
    let later := dispatched artifact (turn artifact s next) rest
    match next with
    | .iterate _ => (selected artifact s).toList ++ later
    | _ => later

section Cursor
variable {waiting : Nat}

/-- `node` is scanned before `waiting` by a scan that starts at `start`. -/
def Precedes (start node waiting : Nat) : Prop :=
  start ≤ node ∧ node < waiting ∨ waiting < start ∧ (start ≤ node ∨ node < waiting)

theorem scan_covers (tables : FlowTables) (s : State) (inside : waiting < tables.nodeCount) :
    ∃ offset < tables.nodeCount, (s.readyCursor + offset) % tables.nodeCount = waiting ∧
      (s.readyCursor % tables.nodeCount + offset = waiting ∨
        s.readyCursor % tables.nodeCount + offset = waiting + tables.nodeCount) := by
  have below := Nat.mod_lt s.readyCursor tables.nodes_pos
  by_cases ahead : s.readyCursor % tables.nodeCount ≤ waiting
  · refine ⟨waiting - s.readyCursor % tables.nodeCount, by omega, ?_, by omega⟩
    rw [← Nat.mod_add_mod, Nat.add_sub_cancel' ahead, Nat.mod_eq_of_lt inside]
  · refine ⟨waiting + tables.nodeCount - s.readyCursor % tables.nodeCount, by omega, ?_, by omega⟩
    rw [← Nat.mod_add_mod, Nat.add_sub_cancel' (by omega), Nat.add_mod_right,
      Nat.mod_eq_of_lt inside]

/-- The scan finds a node, and no ready one lies before it. -/
theorem findReadyNode_first (inside : waiting < tables.nodeCount)
    (ready : nodeIsReady tables s waiting = true) :
    ∃ node, findReadyNode tables s = some node ∧
      (node = waiting ∨ Precedes (s.readyCursor % tables.nodeCount) node waiting) := by
  obtain ⟨offset, short, reaches, position⟩ := scan_covers tables s inside
  cases found : findReadyNode tables s with
  | none =>
    have unready := List.find?_eq_none.mp found waiting
      (List.mem_map.mpr ⟨offset, List.mem_range.mpr short, reaches⟩)
    exact (unready ready).elim
  | some node =>
    refine ⟨node, rfl, ?_⟩
    rw [findReadyNode, List.find?_map, Option.map_eq_some_iff] at found
    obtain ⟨first, found, rfl⟩ := found
    obtain ⟨_, member, nearer⟩ := List.find?_range_eq_some.mp found
    have near : first ≤ offset := by
      by_contra near
      have skipped := nearer offset (Nat.lt_of_not_le near)
      rw [Function.comp, reaches, ready] at skipped
      cases skipped
    rw [← Nat.mod_add_mod]
    by_cases wraps : s.readyCursor % tables.nodeCount + first < tables.nodeCount
    · rw [Nat.mod_eq_of_lt wraps, Precedes]
      omega
    · rw [Nat.mod_eq_sub_mod (by omega), Nat.mod_eq_of_lt (by omega), Precedes]
      omega

/-- What a scan from behind `first` passes before the waiting node lay between
the two. -/
theorem Precedes.advance (within : first < count) (inside : waiting < count)
    (near : Precedes start first waiting) (closer : Precedes ((first + 1) % count) node waiting) :
    node ≠ first ∧ Precedes start node waiting := by
  have next : (first + 1) % count = if first + 1 = count then 0 else first + 1 := by
    split
    · simp_all
    · exact Nat.mod_eq_of_lt (by omega)
  rw [next] at closer
  simp only [Precedes] at near closer ⊢
  split at closer <;> omega

end Cursor

section Readiness

theorem readyWith_append (ready : readyWith tables node state queue = true)
    (more : List QueuedFrame) : readyWith tables node state (queue ++ more) = true := by
  unfold readyWith at ready ⊢
  split_ifs at ready with continues empty
  · rw [if_pos continues]
  · have longer : ¬ (queue ++ more).isEmpty = true := by
      rw [List.isEmpty_iff, List.append_eq_nil_iff]
      exact fun both => empty (List.isEmpty_iff.mpr both.1)
    rw [if_neg continues, if_neg longer]
    refine List.all_eq_true.mpr fun required listed => ?_
    grind

theorem pushBack_ready (touched : Nat) (frame : QueuedFrame)
    (ready : nodeIsReady tables s node = true) :
    nodeIsReady tables ((s.pushBack touched frame).publish touched tables) node = true := by
  by_cases same : node = touched
  · subst same
    simpa [nodeIsReady, State.publish, State.setNodeState, readyWith] using
      readyWith_append ready [frame]
  · simpa [nodeIsReady, State.publish, State.setNodeState, Function.update_of_ne same] using ready

theorem admissions_ready (admissions : Admissions tables s t)
    (ready : nodeIsReady tables s node = true) : nodeIsReady tables t node = true := by
  induction admissions with
  | refl => exact ready
  | tail _ last ih =>
    cases last with
    | deliver delivered =>
      cases delivered with
      | quiet same => rwa [nodeIsReady, same.nodeStates, same.queues]
      | push touched frame => exact pushBack_ready touched frame ih
    | pushExternal touched token frame =>
      exact pushBack_ready (s := State.retainExternal _ token) touched frame ih

theorem admissions_cursor (admissions : Admissions tables s t) :
    t.readyCursor = s.readyCursor := by
  induction admissions with
  | refl => rfl
  | tail _ last ih =>
    cases last with
    | deliver delivered =>
      cases delivered with
      | quiet same => exact same.cursor.trans ih
      | push => exact ih
    | pushExternal => exact ih

/-- Serving a node moves the cursor behind it and leaves every other node that
was ready ready. -/
theorem serve_spec (guest : GuestRun) (inside : node < artifact.nodeCount)
    (linked : artifact.nodeIsLinked node = true) :
    (serve artifact guest s node).readyCursor = (node + 1) % artifact.nodeCount ∧
      ∀ other, other ≠ node → nodeIsReady artifact s other = true →
        nodeIsReady artifact (serve artifact guest s node) other = true := by
  have opens := (beginNodeInvocation_opens (s := s) node 64 inside).1
  obtain ⟨u, status, backlog, yielded, delivered, result⟩ :=
    dispatch_linked guest opens.current linked
  have stillOpen := (Deliveries.current delivered).trans opens.current
  rw [serve, result]
  simp only [completeNodeInvocation, settleNode, State.setNodeState, stillOpen, true_and]
  intro other different ready
  have kept : nodeIsReady artifact u other = true := by
    refine admissions_ready (Deliveries.admissions delivered) ?_
    have range : ¬ ((node : Int) < 0 ∨ (artifact.nodeCount : Int) ≤ node) := by omega
    simpa only [nodeIsReady, State.enterEntry, beginNodeInvocation, if_neg range,
      Int.toNat_natCast, State.publish, State.setNodeState, State.setQueue,
      Function.update_of_ne different] using ready
  simpa only [nodeIsReady, Function.update_of_ne different] using kept

end Readiness

section Bypass
variable {waiting : Nat}

/-- The nodes served before the next dispatch of `waiting`. -/
def bypassing (artifact : Artifact) (s : State) (turns : List Turn) (waiting : Nat) : List Nat :=
  (dispatched artifact s turns).takeWhile (· != waiting)

/-- Up to the next dispatch of a ready node the others are served in the order
of the scan: the cursor never passes the node. -/
theorem bypassing_precedes (turns : List Turn) (inside : waiting < artifact.nodeCount)
    (ready : nodeIsReady artifact.toFlowTables s waiting = true) :
    (bypassing artifact s turns waiting).Nodup ∧ ∀ node ∈ bypassing artifact s turns waiting,
      artifact.nodeIsLinked node = true ∧ node < artifact.nodeCount ∧
        Precedes (s.readyCursor % artifact.nodeCount) node waiting := by
  induction turns generalizing s with
  | nil => simp [bypassing, dispatched]
  | cons next rest ih =>
    cases next with
    | enqueueTriggerFrames trigger =>
      have admissions : Admissions artifact.toFlowTables s _ := enqueueTriggerFrames_admits trigger
      rw [← admissions_cursor admissions]
      exact ih (admissions_ready admissions ready)
    | enqueueTriggerFrame memory trigger ptr =>
      have admissions : Admissions artifact.toFlowTables s _ :=
        enqueueTriggerFrame_admits memory trigger ptr
      rw [← admissions_cursor admissions]
      exact ih (admissions_ready admissions ready)
    | iterate guest =>
      obtain ⟨first, found, near⟩ := findReadyNode_first inside ready
      have within := (findReadyNode_ready found).1
      simp only [bypassing, dispatched, turn, selected, found, Option.filter_some] at ih ⊢
      cases linked : artifact.nodeIsLinked first with
      | false => exact ih ready
      | true =>
        simp only [if_true, Option.toList, List.singleton_append, List.takeWhile_cons]
        by_cases same : first = waiting
        · simp [same]
        · obtain ⟨cursor, keeps⟩ := serve_spec (s := s) guest within linked
          obtain ⟨nodup, later⟩ := ih (keeps waiting (Ne.symm same) ready)
          rw [cursor, Nat.mod_mod] at later
          have precedes := near.resolve_left same
          have between := fun node member =>
            precedes.advance within inside (later node member).2.2
          rw [if_pos (by simpa using same), List.nodup_cons]
          refine ⟨⟨fun member => (between first member).1 rfl, nodup⟩, fun node member => ?_⟩
          cases member with
          | head => exact ⟨linked, within, precedes⟩
          | tail _ member =>
            exact ⟨(later node member).1, (later node member).2.1, (between node member).2⟩

/-- Number of nodes `drain_linked` may serve. -/
def FlowTables.linkedCount (tables : FlowTables) : Nat :=
  ((List.range tables.nodeCount).filter tables.nodeIsLinked).length

theorem bypassing_length (turns : List Turn) (inside : waiting < artifact.nodeCount)
    (linked : artifact.nodeIsLinked waiting = true)
    (ready : nodeIsReady artifact.toFlowTables s waiting = true) :
    (bypassing artifact s turns waiting).length < artifact.linkedCount := by
  obtain ⟨nodup, passing⟩ := bypassing_precedes turns inside ready
  have distinct : (waiting :: bypassing artifact s turns waiting).Nodup := by
    refine List.nodup_cons.mpr ⟨fun member => ?_, nodup⟩
    obtain ⟨_, _, precedes⟩ := passing waiting member
    simp only [Precedes] at precedes
    omega
  refine (distinct.subperm fun node member => ?_).length_le
  rw [List.mem_filter, List.mem_range]
  cases member with
  | head => exact ⟨inside, linked⟩
  | tail _ member => exact ⟨(passing node member).2.1, (passing node member).1⟩

def drainTurns (guests : Nat → GuestRun) (iterations first : Nat) : List Turn :=
  (List.range' first iterations).map fun index => .iterate (guests index)

section
variable (guests : Nat → GuestRun) (iterations first : Nat)

theorem drainTurns_stopped (stopped : selected artifact s = none) :
    (drainTurns guests iterations first).foldl (turn artifact) s = s ∧
      dispatched artifact s (drainTurns guests iterations first) = [] := by
  induction iterations generalizing first with
  | zero => exact ⟨rfl, rfl⟩
  | succ iterations ih =>
    simpa only [drainTurns, List.range'_succ, List.map_cons, List.foldl_cons, turn, dispatched,
      stopped, Option.elim, Option.toList, List.nil_append] using ih (first + 1)

/-- The drain loop makes its turns and returns the number of dispatches. -/
theorem drainLoop_turns :
    drainLoop artifact guests iterations s first =
      ((drainTurns guests iterations first).foldl (turn artifact) s,
        ((first + (dispatched artifact s (drainTurns guests iterations first)).length : Nat) :
          Int)) := by
  induction iterations generalizing s first with
  | zero => rfl
  | succ iterations ih =>
    rw [drainLoop_succ]
    cases choice : selected artifact s with
    | none =>
      obtain ⟨same, none⟩ := drainTurns_stopped guests (iterations + 1) first choice
      rw [same, none]
      rfl
    | some node =>
      refine (ih (s := serve artifact (guests first) s node) (first + 1)).trans ?_
      simp only [drainTurns, List.range'_succ, List.map_cons, List.foldl_cons, turn, dispatched,
        choice, Option.elim, Option.toList, List.singleton_append, List.length_cons]
      rw [Nat.add_assoc, Nat.add_comm 1]

/-- Once it is dispatched, or enough dispatches are made, a ready node is among
the first of them. -/
theorem dispatched_in_time (turns : List Turn) (inside : waiting < artifact.nodeCount)
    (linked : artifact.nodeIsLinked waiting = true)
    (ready : nodeIsReady artifact.toFlowTables s waiting = true)
    (due : waiting ∈ dispatched artifact s turns ∨
      artifact.linkedCount ≤ (dispatched artifact s turns).length) :
    waiting ∈ (dispatched artifact s turns).take artifact.linkedCount := by
  have few := bypassing_length turns inside linked ready
  by_contra missed
  have passed : ∀ node ∈ (dispatched artifact s turns).take artifact.linkedCount,
      (node != waiting) = true := by
    intro node member
    have other : node ≠ waiting := fun same => missed (same ▸ member)
    simpa using other
  rw [bypassing, ← List.take_append_drop artifact.linkedCount (dispatched artifact s turns),
    List.takeWhile_append_of_pos passed, List.length_append, List.length_take] at few
  rw [List.take_of_length_le (by omega)] at missed
  exact due.elim missed fun enough => by omega

/-- In a fully linked flow the loop does not stop while a node is ready. -/
theorem drainTurns_progress (inside : waiting < artifact.nodeCount)
    (all : ∀ node < artifact.nodeCount, artifact.nodeIsLinked node = true)
    (ready : nodeIsReady artifact.toFlowTables s waiting = true) :
    waiting ∈ dispatched artifact s (drainTurns guests iterations first) ∨
      iterations ≤ (dispatched artifact s (drainTurns guests iterations first)).length := by
  induction iterations generalizing s first with
  | zero => exact .inr (Nat.zero_le _)
  | succ iterations ih =>
    obtain ⟨node, found, _⟩ := findReadyNode_first inside ready
    have within := (findReadyNode_ready found).1
    simp only [drainTurns, List.range'_succ, List.map_cons, dispatched, turn, selected, found,
      Option.filter_some, all node within, if_true, Option.toList,
      List.singleton_append, List.mem_cons]
    by_cases same : waiting = node
    · exact .inl (.inl same)
    · have kept := (serve_spec (s := s) (guests first) within (all node within)).2 waiting same ready
      exact (ih (first + 1) kept).imp .inr Nat.succ_le_succ

end

/-- Bounded bypass, over every graph, every state and every behavior of the
entries. From a state in which a linked node is ready, be it the one its last
dispatch left, no other node is served twice before it, and it is among the first
`linkedCount` dispatches of any sequence of turns that makes so many. A drain of a
fully linked flow makes them. -/
theorem ready_node_bypass (artifact : Artifact) (s : State) (turns : List Turn) (waiting : Nat)
    (inside : waiting < artifact.nodeCount) (linked : artifact.nodeIsLinked waiting = true)
    (ready : nodeIsReady artifact.toFlowTables s waiting = true) :
    (bypassing artifact s turns waiting).Nodup ∧
      (artifact.linkedCount ≤ (dispatched artifact s turns).length →
        waiting ∈ (dispatched artifact s turns).take artifact.linkedCount) ∧
      ((∀ node < artifact.nodeCount, artifact.nodeIsLinked node = true) → s.current = none →
        ∀ (guests : Nat → GuestRun) (maxIterations : Nat), artifact.linkedCount ≤ maxIterations →
          let drain := drainTurns guests maxIterations 0
          drainLinked artifact guests s maxIterations =
              (drain.foldl (turn artifact) s, ((dispatched artifact s drain).length : Int)) ∧
            waiting ∈ (dispatched artifact s drain).take artifact.linkedCount) := by
  refine ⟨(bypassing_precedes turns inside ready).1,
    fun enough => dispatched_in_time turns inside linked ready (.inr enough), ?_⟩
  intro all idle guests maxIterations enough
  have served := drainTurns_progress guests maxIterations 0 inside all ready
  refine ⟨?_, dispatched_in_time _ inside linked ready (served.imp_right (Nat.le_trans enough))⟩
  have positive : 0 < maxIterations :=
    Nat.lt_of_lt_of_le (Nat.zero_lt_of_lt (bypassing_length [] inside linked ready)) enough
  have counted : (0 : Int) < maxIterations ∧ ¬ (maxIterations : Int) = 0 := by omega
  simpa only [drainLinked, idle, Option.isSome_none, Bool.false_eq_true, if_false, if_neg counted.2,
    if_pos counted.1, Int.toNat_natCast, Nat.zero_add] using drainLoop_turns guests maxIterations 0

/-- Two nodes that feed each other for ever, the second one waiting. -/
theorem ready_node_bypass_feedback :
    let s := enqueueTriggerFrames feedback (turn feedback
      (enqueueTriggerFrames feedback State.initial 0) (.iterate feedbackGuest)) 0
    (nodeIsReady feedback.toFlowTables s 0 = true ∧ nodeIsReady feedback.toFlowTables s 1 = true) ∧
      1 ∈ (dispatched feedback s (drainTurns (fun _ => feedbackGuest) 5 0)).take 2 := by
  intro s
  have ready : nodeIsReady feedback.toFlowTables s 1 = true := by decide
  have served := (ready_node_bypass feedback s [] 1 (by decide) rfl ready).2.2
    (fun _ _ => rfl) (by decide) (fun _ => feedbackGuest) 5 (by decide)
  exact ⟨⟨by decide, ready⟩, served.2⟩

end Bypass

end SpaceDataModule.FlowRuntime

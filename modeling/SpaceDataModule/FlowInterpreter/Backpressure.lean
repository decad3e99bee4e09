import SpaceDataModule.JavaScript

/-! Port queues of the JavaScript interpreter and the backpressure policies that
bound them. -/
namespace SpaceDataModule.FlowInterpreter
open JavaScript

structure Frame (α : Type) where
  portId : String
  body : α
  deriving DecidableEq

variable {α : Type}

def cloneFrame (frame : Frame α) (portId : String) : Frame α := { frame with portId }

inductive Departure where
  | dropped | invoked
  deriving DecidableEq

/-- One queue of the queue map. The code keeps `waiting` only; the others are
history variables: the frames pushed so far, and the frames that left by a
backpressure policy or in an invocation, oldest first. -/
structure PortQueue (α : Type) where
  waiting : List (Frame α) := []
  admitted : List (Frame α) := []
  departed : List (Frame α × Departure) := []
  deriving DecidableEq

namespace PortQueue
variable (queue : PortQueue α)

def push (frame : Frame α) : PortQueue α :=
  { queue with waiting := queue.waiting ++ [frame], admitted := queue.admitted ++ [frame] }

/-- `queue.splice(0, count)` of a policy; `shift` is a count of one. -/
def dropOldest (count : Nat) : PortQueue α :=
  { queue with
    waiting := queue.waiting.drop count
    departed := queue.departed ++ (queue.waiting.take count).map (·, .dropped) }

end PortQueue

/-- `normalizeQueueDepth` with its default fallback; `none` is Infinity. -/
def normalizeQueueDepth : Number → Option Nat
  | .finite value => if 0 < value then some (max 1 ⌊value⌋₊) else none
  | _ => none

inductive DropPolicy where
  | oldest | newest | queue
  deriving DecidableEq

/-- The three outcomes of `applyBackpressure` on its normalized policy text. -/
def normalizePolicy (policy : Option String) : DropPolicy :=
  let normalized := toLowerCase (trim (policy.getD "queue"))
  if normalized = "drop-oldest" then .oldest
  else if normalized = "drop-newest" then .newest
  else .queue

/-- The loop body of `applyBackpressure`. -/
def offer (policy : DropPolicy) (depth : Option Nat) (queue : PortQueue α) (frame : Frame α) :
    PortQueue α :=
  match depth with
  | none => queue.push frame
  | some depth =>
    if queue.waiting.length < depth then queue.push frame
    else
      match policy with
      | .oldest => (queue.dropOldest 1).push frame
      | .newest => queue
      | .queue =>
        let pushed := queue.push frame
        pushed.dropOldest (pushed.waiting.length - depth)

def applyBackpressure (queue : PortQueue α) (frames : List (Frame α)) (policy : Option String)
    (queueDepth : Number) : PortQueue α :=
  frames.foldl (offer (normalizePolicy policy) (normalizeQueueDepth queueDepth)) queue

namespace PortQueue
variable {queue : PortQueue α}

def Kept (queue : PortQueue α) : Prop :=
  queue.admitted = queue.departed.map Prod.fst ++ queue.waiting

def invoked (queue : PortQueue α) : List (Frame α) :=
  (queue.departed.filter fun departure => departure.2 = .invoked).map Prod.fst

theorem Kept.push (kept : queue.Kept) (frame : Frame α) : (queue.push frame).Kept := by
  unfold Kept at kept ⊢
  simp only [PortQueue.push, kept, List.append_assoc]

theorem map_fst_marked (frames : List (Frame α)) (departure : Departure) :
    (frames.map (·, departure)).map Prod.fst = frames := by
  simp [Function.comp_def]

theorem Kept.dropOldest (kept : queue.Kept) (count : Nat) : (queue.dropOldest count).Kept := by
  unfold Kept at kept ⊢
  simp only [PortQueue.dropOldest, kept, List.map_append, map_fst_marked, List.append_assoc,
    List.take_append_drop]

@[simp] theorem invoked_push (frame : Frame α) : (queue.push frame).invoked = queue.invoked := rfl

@[simp] theorem invoked_dropOldest (count : Nat) :
    (queue.dropOldest count).invoked = queue.invoked := by
  have none : ((queue.waiting.take count).map (·, Departure.dropped)).filter
      (fun departure => departure.2 = .invoked) = [] := by
    simp only [List.filter_eq_nil_iff, List.mem_map]
    rintro _ ⟨frame, _, rfl⟩
    simp
  simp only [invoked, PortQueue.dropOldest, List.filter_append, none, List.append_nil]

end PortQueue

/-- What holds of a queue and is kept by pushing frames for its port and by
dropping the oldest is kept by every policy. -/
theorem applyBackpressure_preserves {P : PortQueue α → Prop} (frames : List (Frame α))
    (policy : Option String) (queueDepth : Number)
    (pushes : ∀ queue, ∀ frame ∈ frames, P queue → P (queue.push frame))
    (drops : ∀ queue count, P queue → P (queue.dropOldest count))
    (queue : PortQueue α) (initial : P queue) :
    P (applyBackpressure queue frames policy queueDepth) := by
  induction frames generalizing queue with
  | nil => exact initial
  | cons frame rest ih =>
    have offered : P (offer (normalizePolicy policy) (normalizeQueueDepth queueDepth) queue frame) := by
      have pushed := fun queue => pushes queue frame (by simp)
      unfold offer
      split
      · exact pushed queue initial
      · split_ifs
        · exact pushed queue initial
        · split
          · exact pushed _ (drops queue 1 initial)
          · exact initial
          · exact drops _ _ (pushed queue initial)
    exact ih (fun queue frame member => pushes queue frame (by simp [member])) _ offered

/-- A queue cut back to the depth at the end that the policy evicts from. -/
def cutBack (policy : DropPolicy) (depth : Nat) (frames : List (Frame α)) : List (Frame α) :=
  if policy = .newest then frames.take depth else frames.drop (frames.length - depth)

section CutBack
variable {policy : DropPolicy} {queue : PortQueue α} {depth : Nat}

theorem cutBack_of_le {frames : List (Frame α)} (fits : frames.length ≤ depth) :
    cutBack policy depth frames = frames := by
  rw [cutBack, List.take_of_length_le fits, Nat.sub_eq_zero_of_le fits, List.drop_zero, ite_self]

theorem cutBack_append (first rest : List (Frame α)) :
    cutBack policy depth (cutBack policy depth first ++ rest) =
      cutBack policy depth (first ++ rest) := by
  unfold cutBack
  split_ifs
  · simp only [List.take_append, List.take_take, List.length_take, min_self]
    congr 2
    omega
  · rw [← List.drop_append_of_le_length (Nat.sub_le _ _), List.drop_drop]
    congr 1
    simp only [List.length_drop, List.length_append]
    omega

theorem length_cutBack_le (frames : List (Frame α)) :
    (cutBack policy depth frames).length ≤ depth := by
  unfold cutBack
  split_ifs <;> simp only [List.length_take, List.length_drop] <;> omega

theorem waiting_offer (positive : 0 < depth) (bounded : queue.waiting.length ≤ depth)
    (frame : Frame α) :
    (offer policy (some depth) queue frame).waiting =
      cutBack policy depth (queue.waiting ++ [frame]) := by
  by_cases room : queue.waiting.length < depth
  · rw [cutBack_of_le (by rwa [List.length_append])]
    simp [offer, room, PortQueue.push]
  · have full : queue.waiting.length = depth := le_antisymm bounded (not_lt.mp room)
    subst full
    cases policy <;>
      simp [offer, cutBack, PortQueue.push, PortQueue.dropOldest,
        List.drop_append_of_le_length positive]

theorem waiting_foldl_offer (positive : 0 < depth) (bounded : queue.waiting.length ≤ depth)
    (frames : List (Frame α)) :
    (frames.foldl (offer policy (some depth)) queue).waiting =
      cutBack policy depth (queue.waiting ++ frames) := by
  induction frames generalizing queue with
  | nil => rw [List.append_nil, cutBack_of_le bounded, List.foldl_nil]
  | cons frame rest ih =>
    have offered : (offer policy (some depth) queue frame).waiting = _ :=
      waiting_offer positive bounded frame
    rw [List.foldl_cons, ih (offered ▸ length_cutBack_le _), offered, cutBack_append,
      List.append_assoc, List.singleton_append]

end CutBack

/-- A queue within its depth keeps, of itself and the batch, the first frames under
drop-newest and the last ones under every other policy: a sublist no longer than the depth. -/
theorem applyBackpressure_waiting (queue : PortQueue α) (frames : List (Frame α))
    (policy : Option String) (d : ℚ) (finite : 1 ≤ d) (bounded : queue.waiting.length ≤ ⌊d⌋₊) :
    let result := (applyBackpressure queue frames policy (.finite d)).waiting
    let all := queue.waiting ++ frames
    result = (if toLowerCase (trim (policy.getD "queue")) = "drop-newest" then all.take ⌊d⌋₊
      else all.drop (all.length - ⌊d⌋₊)) ∧
    result.length ≤ ⌊d⌋₊ ∧ result.Sublist all := by
  intro result all
  have positive : 0 < ⌊d⌋₊ := Nat.floor_pos.mpr finite
  have depth : normalizeQueueDepth (.finite d) = some ⌊d⌋₊ := by
    rw [normalizeQueueDepth, if_pos (by linarith), max_eq_right positive]
  have newest : (normalizePolicy policy = .newest) ↔
      toLowerCase (trim (policy.getD "queue")) = "drop-newest" := by
    simp only [normalizePolicy]
    split_ifs <;> simp_all
  have same : result = cutBack (normalizePolicy policy) ⌊d⌋₊ all := by
    simp only [result, applyBackpressure, depth, waiting_foldl_offer positive bounded, all]
  refine ⟨by rw [same, cutBack, if_congr newest rfl rfl], same ▸ length_cutBack_le _, ?_⟩
  rw [same, cutBack]
  split_ifs
  · exact List.take_sublist _ _
  · exact List.drop_sublist _ _

theorem applyBackpressure_waiting_full :
    (applyBackpressure ⟨[⟨"in", 1⟩, ⟨"in", 2⟩], [], []⟩ [⟨"in", 3⟩] none (.finite (5 / 2))).waiting =
      [⟨"in", 2⟩, ⟨"in", 3⟩] := by
  have depth : ⌊(5 / 2 : ℚ)⌋₊ = 2 := by norm_num [Nat.floor_eq_iff]
  have kept := (applyBackpressure_waiting ⟨[⟨"in", 1⟩, ⟨"in", 2⟩], [], []⟩ [⟨"in", 3⟩] none (5 / 2)
    (by norm_num) (by simp [depth])).1
  rw [kept, depth, if_neg (by decide +kernel)]
  rfl

end SpaceDataModule.FlowInterpreter

import Mathlib.Data.List.Nodup

/-! Many queues in one list. Tasks wait under a key; the tasks of one key leave in the order
they came, and the keys do not wait for each other. -/
namespace KeyedQueue
variable {K T : Type*} [DecidableEq K] {queue rest : List (K × T)} {key : K} {task : T}

def chain (queue : List (K × T)) (key : K) : List T :=
  (queue.filter fun entry => decide (entry.1 = key)).map Prod.snd

def pop (key : K) : List (K × T) → Option (T × List (K × T))
  | [] => none
  | (other, task) :: queue =>
    if other = key then some (task, queue)
    else (pop key queue).map fun (first, rest) => (first, (other, task) :: rest)

theorem mem_of_mem_chain (member : task ∈ chain queue key) : (key, task) ∈ queue := by
  simp only [chain, List.mem_map, List.mem_filter, decide_eq_true_eq] at member
  obtain ⟨⟨_, _⟩, ⟨member, rfl⟩, rfl⟩ := member
  exact member

@[simp]
theorem chain_push_self : chain (queue ++ [(key, task)]) key = chain queue key ++ [task] := by
  simp [chain]

theorem chain_push_of_ne (different : other ≠ key) :
    chain (queue ++ [(key, task)]) other = chain queue other := by
  simp [chain, Ne.symm different]

section Popping
variable (popped : pop key queue = some (task, rest))
include popped

/-- The first task of the key leaves, from behind tasks of other keys. -/
theorem pop_splits : ∃ front back, queue = front ++ (key, task) :: back ∧ rest = front ++ back ∧
    ∀ entry ∈ front, entry.1 ≠ key := by
  induction queue generalizing rest with
  | nil => cases popped
  | cons entry queue ih =>
    obtain ⟨first, waiting⟩ := entry
    rw [pop] at popped
    split_ifs at popped with same
    · cases popped
      exact ⟨[], queue, same ▸ rfl, rfl, nofun⟩
    · obtain ⟨⟨_, left⟩, taken, equal⟩ := Option.map_eq_some_iff.mp popped
      cases equal
      obtain ⟨front, back, rfl, rfl, others⟩ := ih taken
      exact ⟨(first, waiting) :: front, back, rfl, rfl, List.forall_mem_cons.mpr ⟨same, others⟩⟩

theorem pop_perm : queue.Perm ((key, task) :: rest) := by
  obtain ⟨front, back, rfl, rfl, _⟩ := pop_splits popped
  exact List.perm_middle

theorem chain_of_pop : chain queue key = task :: chain rest key := by
  obtain ⟨front, back, rfl, rfl, others⟩ := pop_splits popped
  have passed : front.filter (fun entry => decide (entry.1 = key)) = [] := by
    simpa using others
  simp [chain, passed]

theorem chain_of_pop_of_ne (different : other ≠ key) : chain rest other = chain queue other := by
  obtain ⟨front, back, rfl, rfl, _⟩ := pop_splits popped
  simp [chain, Ne.symm different]

/-- The last task of a key stays the last one when another task is taken. -/
theorem chain_ends_of_pop (ends : chain queue other = before ++ [final])
    (different : task ≠ final) : ∃ left, chain rest other = left ++ [final] := by
  by_cases same : other = key
  · subst same
    rw [chain_of_pop popped] at ends
    cases before with
    | nil => exact absurd (List.cons.inj ends).1 different
    | cons head before => exact ⟨before, (List.cons.inj ends).2⟩
  · exact ⟨before, (chain_of_pop_of_ne popped same).trans ends⟩

theorem chain_nil_of_pop (empty : chain queue other = []) : chain rest other = [] := by
  by_cases same : other = key
  · subst same
    cases (chain_of_pop popped).symm.trans empty
  · exact (chain_of_pop_of_ne popped same).trans empty

end Popping

end KeyedQueue

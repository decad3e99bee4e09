import Mathlib.Data.List.Induction

/-! Finite executions of a deterministic step function under an admission
policy. Labels are chosen by an arbitrary environment; the policy says which
labels the environment may issue in which states. A `Run` follows a total step
function, a `Trace` one that is undefined where a label is not enabled. -/
namespace Transition
variable {S L : Type*} {admits : S → L → Prop} {step : S → L → S}

/-- `labels` leads from `first` to the index state, each label being admitted
in the state it is applied to. The newest label stands last. -/
inductive Run (admits : S → L → Prop) (step : S → L → S) (first : S) : List L → S → Prop where
  | start : Run admits step first [] first
  | next {labels s label} : Run admits step first labels s → admits s label →
      Run admits step first (labels ++ [label]) (step s label)

/-- The environment may issue every label in every state. -/
def Free (_ : S) (_ : L) : Prop := True

namespace Run

theorem invariant {P : S → Prop} (run : Run admits step first labels last) (initial : P first)
    (preserves : ∀ s label, admits s label → P s → P (step s label)) : P last := by
  induction run with
  | start => exact initial
  | next _ admitted ih => exact preserves _ _ admitted ih

theorem cons (admitted : admits first label) (run : Run admits step (step first label) labels last) :
    Run admits step first (label :: labels) last := by
  induction run with
  | start => exact .next .start admitted
  | next _ later ih => exact .next ih later

theorem of_foldl (labels : List L) :
    Run Free step first labels (labels.foldl step first) := by
  induction labels using List.reverseRecOn with
  | nil => exact .start
  | append_singleton labels label ih =>
    rw [List.foldl_append]
    exact .next ih trivial

end Run

/-- A log and its next entry. -/
theorem forall_mem_concat {P : L → Prop} :
    (∀ entry ∈ log ++ [last], P entry) ↔ (∀ entry ∈ log, P entry) ∧ P last := by
  rw [List.forall_mem_append, List.forall_mem_singleton]

theorem getElem?_concat_cases (found : (log ++ [last])[i]? = some entry) :
    log[i]? = some entry ∨ i = log.length ∧ entry = last := by
  rcases Nat.lt_trichotomy i log.length with before | rfl | after
  · rw [List.getElem?_append_left before] at found
    exact .inl found
  · rw [List.getElem?_concat_length] at found
    exact .inr ⟨rfl, (Option.some.inj found).symm⟩
  · rw [List.getElem?_eq_none (by rw [List.length_append]; exact after)] at found
    cases found

/-- Executions of a partial step function: the interleavings of parties whose next
steps are the labels. -/
inductive Trace (next : S → L → Option S) (admits : S → L → Prop) (first : S) :
    List L → S → Prop where
  | start : Trace next admits first [] first
  | next {labels s label t} : Trace next admits first labels s → admits s label →
      next s label = some t → Trace next admits first (labels ++ [label]) t

section Partial
variable {next : S → L → Option S}

theorem Trace.invariant {P : S → Prop} (trace : Trace next admits first labels last)
    (initial : P first)
    (preserves : ∀ s label t, admits s label → next s label = some t → P s → P t) : P last := by
  induction trace with
  | start => exact initial
  | next _ admitted taken ih => exact preserves _ _ _ admitted taken ih

theorem Trace.append (early : Trace next admits first front middle)
    (late : Trace next admits middle back last) : Trace next admits first (front ++ back) last := by
  induction late with
  | start => rwa [List.append_nil]
  | next _ admitted taken ih =>
    rw [← List.append_assoc]
    exact .next ih admitted taken

theorem Trace.split (trace : Trace next admits first (front ++ back) last) :
    ∃ middle, Trace next admits first front middle ∧ Trace next admits middle back last := by
  induction back using List.reverseRecOn generalizing last with
  | nil =>
    rw [List.append_nil] at trace
    exact ⟨last, trace, .start⟩
  | append_singleton back label ih =>
    rw [← List.append_assoc] at trace
    generalize whole : front ++ back ++ [label] = labels at trace
    cases trace with
    | start => simp at whole
    | next earlier admitted taken =>
      obtain ⟨same, rfl⟩ := List.append_singleton_inj.mp whole
      obtain ⟨middle, early, late⟩ := ih (same ▸ earlier)
      exact ⟨middle, early, .next late admitted taken⟩

/-- The step of a trace that consists of one label. -/
theorem Trace.single (trace : Trace next admits first [label] last) :
    admits first label ∧ next first label = some last := by
  generalize whole : [label] = labels at trace
  cases trace with
  | start => nomatch whole
  | @next labels s other t earlier admitted taken =>
    obtain ⟨same, rfl⟩ : [] = labels ∧ label = other :=
      List.append_singleton_inj.mp (by rw [← whole, List.nil_append])
    cases earlier with
    | start => exact ⟨admitted, taken⟩
    | next => simp at same

/-- What labels of a kind keep holds along a trace of such labels, and when each is taken. -/
theorem Trace.along {P : S → Prop} {kind : L → Prop} (trace : Trace next admits first labels last)
    (initial : P first) (kinds : ∀ label ∈ labels, kind label)
    (preserves : ∀ s label t, kind label → next s label = some t → P s → P t) :
    P last ∧ ∀ label ∈ labels, ∃ s t, P s ∧ next s label = some t := by
  induction trace with
  | start => exact ⟨initial, nofun⟩
  | next _ _ taken ih =>
    obtain ⟨earlier, here⟩ := List.forall_mem_append.mp kinds
    obtain ⟨holds, before⟩ := ih earlier
    refine ⟨preserves _ _ _ (here _ List.mem_cons_self) taken holds, ?_⟩
    exact List.forall_mem_append.mpr
      ⟨before, List.forall_mem_singleton.mpr ⟨_, _, holds, taken⟩⟩

/-- Only what the policy admits is enabled. -/
def guarded (admits : S → L → Prop) [∀ s label, Decidable (admits s label)]
    (next : S → L → Option S) (s : S) (label : L) : Option S :=
  if admits s label then next s label else none

def replay (next : S → L → Option S) : S → List L → Option S
  | s, [] => some s
  | s, label :: rest => (next s label).bind fun t => replay next t rest

variable [∀ s label, Decidable (admits s label)]

theorem Trace.extend (trace : Trace next admits first labels s)
    (replays : replay (guarded admits next) s more = some last) :
    Trace next admits first (labels ++ more) last := by
  induction more generalizing labels s with
  | nil =>
    cases replays
    rwa [List.append_nil]
  | cons label more ih =>
    obtain ⟨t, taken, rest⟩ := Option.bind_eq_some_iff.mp replays
    unfold guarded at taken
    split_ifs at taken with admitted
    rw [List.append_cons]
    exact ih (.next trace admitted taken) rest

theorem Trace.of_replay (replays : replay (guarded admits next) first labels = some last) :
    Trace next admits first labels last :=
  Trace.extend .start replays

/-- What is seen of the state a replay ends in is seen at the end of a trace. -/
theorem Trace.of_view (view : S → V)
    (replays : (replay (guarded admits next) first labels).map view = some value) :
    ∃ last, Trace next admits first labels last ∧ view last = value := by
  obtain ⟨last, replayed, seen⟩ := Option.map_eq_some_iff.mp replays
  exact ⟨last, Trace.of_replay replayed, seen⟩

/-- And what every such trace gives holds there. -/
theorem Trace.of_view_and (view : S → V) {Q : S → Prop}
    (gives : ∀ last, Trace next admits first labels last → view last = value → Q last)
    (replays : (replay (guarded admits next) first labels).map view = some value) :
    ∃ last, Trace next admits first labels last ∧ view last = value ∧ Q last := by
  obtain ⟨last, trace, seen⟩ := Trace.of_view view replays
  exact ⟨last, trace, seen, gives last trace seen⟩

/-- The same for a state on the way. -/
theorem Trace.of_views (view : S → V)
    (replays : ((replay (guarded admits next) first front).bind fun middle =>
      (replay (guarded admits next) middle back).map fun last => (view middle, view last)) =
        some (before, after)) :
    ∃ middle last, Trace next admits first front middle ∧ view middle = before ∧
      Trace next admits middle back last ∧ view last = after := by
  obtain ⟨middle, early, rest⟩ := Option.bind_eq_some_iff.mp replays
  obtain ⟨last, late, seen⟩ := Option.map_eq_some_iff.mp rest
  obtain ⟨there, here⟩ := Prod.ext_iff.mp seen
  exact ⟨middle, last, Trace.of_replay early, there, Trace.of_replay late, here⟩

instance (s : S) (label : L) : Decidable (Free s label) := .isTrue trivial

end Partial
end Transition

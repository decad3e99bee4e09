import Mathlib.Data.List.Forall2

/-! Computations that check as they go: what is known behind a check that passed. -/
namespace Checked
variable {ε α β : Type}

def require (holds : Bool) (failure : ε) : Except ε Unit :=
  if holds then .ok () else .error failure

@[simp]
theorem ok_bind (value : α) (next : α → Except ε β) : (Except.ok value >>= next) = next value := rfl

theorem bind_eq_ok {next : α → Except ε β} :
    (first >>= next) = .ok result ↔ ∃ value, first = .ok value ∧ next value = .ok result := by
  cases first with
  | error failure => exact ⟨nofun, nofun⟩
  | ok value => simp

theorem map_eq_ok {first : Except ε α} :
    first.map change = .ok result ↔ ∃ value, first = .ok value ∧ change value = result := by
  cases first with
  | error failure => exact ⟨nofun, nofun⟩
  | ok value => simp [Except.map]

theorem require_of_true (true : holds = true) (failure : ε) :
    require holds failure = .ok () := if_pos true

theorem require_eq_ok {failure : ε} : require holds failure = .ok done ↔ holds = true := by
  cases holds with
  | true => exact ⟨fun _ => rfl, fun _ => rfl⟩
  | false => exact ⟨nofun, nofun⟩

theorem require_bind_eq_ok {failure : ε} :
    (require holds failure >>= next) = .ok result ↔ holds = true ∧ next () = .ok result := by
  cases holds with
  | true => exact ⟨fun passed => ⟨rfl, passed⟩, fun passed => passed.2⟩
  | false => exact ⟨nofun, nofun⟩

/-- Every item passes, and the results stand in the order of the items. -/
theorem mapM_eq_ok {step : α → Except ε β} :
    items.mapM step = .ok results ↔
      List.Forall₂ (fun item result => step item = .ok result) items results := by
  induction items generalizing results with
  | nil =>
    rw [List.forall₂_nil_left_iff]
    exact ⟨fun done => (Except.ok.inj done).symm, fun empty => empty ▸ rfl⟩
  | cons item items ih =>
    simp only [List.mapM_cons, bind_eq_ok, ih, List.forall₂_cons_left_iff]
    constructor
    · rintro ⟨first, ok, rest, later, done⟩
      exact ⟨first, rest, ok, later, (Except.ok.inj done).symm⟩
    · rintro ⟨first, rest, ok, later, rfl⟩
      exact ⟨first, ok, rest, later, rfl⟩

theorem exists_mapM_ok (items : List α) (step : α → Except ε β) :
    (∃ results, items.mapM step = .ok results) ↔
      ∀ item ∈ items, ∃ result, step item = .ok result := by
  simp only [mapM_eq_ok]
  induction items with
  | nil => exact ⟨fun _ => nofun, fun _ => ⟨[], .nil⟩⟩
  | cons item items ih => simp [List.forall₂_cons_left_iff, ← ih]

/-- Two passes over a list go through where both steps do on every item. -/
theorem mapM_mapM_ok {γ : Type} {first : α → Except ε β} {second : β → Except ε γ}
    {R : α → γ → Prop}
    (passes : ∀ item ∈ items, ∃ middle result, first item = .ok middle ∧
      second middle = .ok result ∧ R item result) :
    ∃ middles results, items.mapM first = .ok middles ∧ middles.mapM second = .ok results ∧
      List.Forall₂ R items results := by
  induction items with
  | nil => exact ⟨[], [], rfl, rfl, .nil⟩
  | cons item items ih =>
    obtain ⟨⟨middle, result, ok, done, holds⟩, later⟩ := List.forall_mem_cons.mp passes
    obtain ⟨middles, results, oks, dones, all⟩ := ih later
    refine ⟨middle :: middles, result :: results, ?_, ?_, .cons holds all⟩
    · rw [List.mapM_cons, ok, oks]
      rfl
    · rw [List.mapM_cons, done, dones]
      rfl

/-- What is said of each item and its result is said of the item alone. -/
theorem forall₂_iff_forall_mem {R S : α → β → Prop} {P : α → Prop}
    (related : List.Forall₂ R items others)
    (each : ∀ item other, R item other → (S item other ↔ P item)) :
    List.Forall₂ S items others ↔ ∀ item ∈ items, P item := by
  induction related with
  | nil => simp
  | cons first _ ih => rw [List.forall₂_cons, ih, List.forall_mem_cons, each _ _ first]

theorem forall₂_mem_left (related : List.Forall₂ R items others) (listed : item ∈ items) :
    ∃ other ∈ others, R item other := by
  induction related with
  | nil => cases listed
  | cons holds _ ih =>
    rcases List.mem_cons.mp listed with rfl | later
    · exact ⟨_, List.mem_cons_self, holds⟩
    · obtain ⟨other, member, found⟩ := ih later
      exact ⟨other, List.mem_cons_of_mem _ member, found⟩

theorem forall₂_mem_right (related : List.Forall₂ R items others) (listed : other ∈ others) :
    ∃ item ∈ items, R item other :=
  forall₂_mem_left related.flip listed

end Checked

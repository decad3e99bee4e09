import SpaceDataModule.SabIoMirror.Invariant

/-! The steps of a reader. At the end of an attempt the sequence word has not moved, so
the entry is at rest and what was loaded is what it holds. -/
namespace SpaceDataModule.SabIoMirror
open ByteFiles Transition

section Readers
variable {read : Read}

structure Answers (layout : Layout) (m : Shared) (after : Shared × Reader) : Prop where
  table : after.1.table = m.table
  files : after.1.files = m.files
  answers : ∀ answer ∈ after.1.answers, answer.Faithful
  own : after.2.Sound layout m

/-- The answer of an entry that shows the file. -/
theorem Entry.Shows.answer {e : Entry} (shows : e.Shows layout (some content)) :
    e.answer read = none ∨ e.answer read = some (readAt content read.offset read.length) := by
  obtain ⟨-, size, covered, data⟩ := shows
  unfold Entry.answer
  split_ifs with past short
  · right
    rw [readAt, List.drop_eq_nil_of_le (size ▸ past), List.take_nil]
  · exact .inl rfl
  · right
    rw [size] at short ⊢
    rw [← readAt_min, ← map_byteAt_range (by omega)]
    congr 1
    apply List.map_congr_left
    intro k inside
    have := List.mem_range.mp inside
    exact data _ (by omega)

theorem ReadStep.Sound.next {step next : ReadStep} (sound : step.Sound e read)
    (same : next.before = step.before) (agrees : step.Agrees e read → next.Agrees e read) :
    next.Sound e read := by
  intro before loaded
  obtain ⟨count, early, equal, even, was⟩ := sound before (same ▸ loaded)
  exact ⟨count, early, equal, even, fun now => agrees (was now)⟩

section
variable {m : Shared} (sound : m.Sound layout)
include sound

theorem Answers.local (own : reader.Sound layout m) :
    Answers layout m (m, reader) :=
  ⟨rfl, rfl, sound.answers, own⟩

theorem Answers.answered (faithful : Answer.Faithful ⟨read, m.files read.path, result⟩) :
    Answers layout m (m.answered read result) :=
  ⟨rfl, rfl, forall_mem_concat.mpr ⟨sound.answers, faithful⟩, trivial⟩

theorem Answers.retry (owner : (m.table index).owner = some read.path)
    (settled : (m.table index).Settled) : Answers layout m (m.retry read index attempt) := by
  unfold Shared.retry
  split_ifs
  · exact .local sound ⟨owner, settled, nofun⟩
  · exact .answered sound (.inl rfl)

theorem answers_verify
    (own :
    (Reader.reading read index attempt (.verify before result)).Sound layout m)
    (unmoved : (m.table index).seq = before) : Answers layout m (m.answered read result) := by
  obtain ⟨owner, settled, step⟩ := own
  obtain ⟨count, early, same, even, agrees⟩ := step before rfl
  have entry := sound.entries index
  have steps : (m.table index).steps = count := by
    have values := congrArg UInt32.toNat (entry.counted.symm.trans (unmoved.trans same))
    rwa [UInt32.toNat_ofNat', UInt32.toNat_ofNat', Nat.mod_eq_of_lt entry.small,
      Nat.mod_eq_of_lt (Nat.lt_of_le_of_lt early entry.small)] at values
  obtain ⟨live, rfl⟩ := agrees steps
  have shows := entry.shows _ owner settled (steps ▸ even)
  apply Answers.answered sound
  obtain ⟨content, file⟩ := Option.isSome_iff_exists.mp (shows.live_iff.mp live)
  rw [file] at shows ⊢
  rcases shows.answer with nothing | content
  · exact .inl nothing
  · exact .inr ⟨_, rfl, content⟩

theorem answers_readEntry (own : (Reader.reading read index attempt step).Sound layout m) :
    Answers layout m (readEntry m read index attempt step) := by
  have whole := own
  obtain ⟨owner, settled, own⟩ := own
  have entry := sound.entries index
  cases step with
  | loadSeq =>
    rw [readEntry]
    split_ifs with odd
    · exact .retry sound owner settled
    · refine .local sound ⟨owner, settled, ?_⟩
      intro before loaded
      cases loaded
      refine ⟨_, Nat.le_refl _, entry.counted, ?_, fun _ => trivial⟩
      rw [entry.counted, odd_iff entry.small] at odd
      exact Nat.mod_two_ne_one.mp odd
  | loadState before =>
    rw [readEntry]
    split_ifs with live
    · exact .local sound ⟨owner, settled, own.next rfl fun _ => live⟩
    · exact .answered sound (.inl rfl)
  | loadSize before => exact .local sound ⟨owner, settled, own.next rfl fun live => ⟨live, rfl⟩⟩
  | loadCovered before size =>
    refine .local sound ⟨owner, settled, ?_⟩
    split_ifs with past short
    · refine own.next rfl ?_
      rintro ⟨live, rfl⟩
      exact ⟨live, by rw [Entry.answer, if_pos past]⟩
    · refine own.next rfl ?_
      rintro ⟨live, rfl⟩
      exact ⟨live, by rw [Entry.answer, if_neg past, if_pos short]⟩
    · refine own.next rfl ?_
      rintro ⟨live, rfl⟩
      exact ⟨live, Nat.lt_of_not_le past, rfl, Nat.le_of_not_lt short, Nat.zero_le _, rfl⟩
  | copy before want copied =>
    rw [readEntry]
    split_ifs with more
    · refine .local sound ⟨owner, settled, own.next rfl ?_⟩
      rintro ⟨live, inside, wanted, within, -, same⟩
      refine ⟨live, inside, wanted, within, ?_, ?_⟩
      · rwa [List.length_append]
      · rw [List.length_append, List.length_singleton, List.range_succ, List.map_append, ← same]
        rfl
    · refine .local sound ⟨owner, settled, own.next rfl ?_⟩
      rintro ⟨live, inside, wanted, within, bound, same⟩
      have all : copied.length = want := Nat.le_antisymm bound (Nat.le_of_not_lt more)
      refine ⟨live, ?_⟩
      rw [all] at same
      rw [Entry.answer, if_neg (Nat.not_le_of_lt inside), ← wanted,
        if_neg (Nat.not_lt_of_le within), ← same]
  | verify before result =>
    rw [readEntry]
    split_ifs with unmoved
    · exact answers_verify sound whole unmoved
    · exact .retry sound owner settled

theorem answers_step {reader : Reader} (own : reader.Sound layout m)
    (taken : reader.step layout m = some after) : Answers layout m after := by
  cases reader with
  | resting => cases taken
  | finding read probe step =>
    cases taken
    have next := find_sound sound own
    cases result : find layout m.table read.path probe step with
    | searching further nextStep =>
      rw [result] at next
      exact .local sound next
    | found index =>
      rw [result] at next
      exact .local sound ⟨next.1, next.2, nofun⟩
    | absent => exact .answered sound (.inl rfl)
  | reading read index attempt step =>
    cases taken
    exact answers_readEntry sound own

theorem answers_enter : Answers layout m (read.enter layout m) := by
  unfold Read.enter
  split_ifs
  · exact .answered sound (.inl rfl)
  · exact .local sound trivial

end

end Readers

end SpaceDataModule.SabIoMirror

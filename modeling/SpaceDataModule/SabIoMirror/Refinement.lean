import SpaceDataModule.SabIoMirror.Readers
import SpaceDataModule.SabIoMirror.Writers

/-! A read of the mirror returns what the file holds as the call ends, or nothing, in
every run in which no truncating update leaves bytes past the size it sets. -/
namespace SpaceDataModule.SabIoMirror
open ByteFiles Interleaving Transition

def Position.Counts (m : Shared) : Position → Prop
  | .writer self => m.Counts self
  | .reader _ => True

/-- Fewer than `2 ^ 32` sequence steps on each entry. -/
def Counted (s : Config Shared Party Position) : Label Party Move Empty → Prop
  | .thread party .step => (s.locals party).Counts s.shared
  | _ => True

/-- Besides, every update fits the file it is made on. -/
def Fitting (layout : Layout) (s : Config Shared Party Position) :
    Label Party Move Empty → Prop
  | .thread (.writer key) (.change change) => change.Fits layout (s.shared.files key)
  | label => Counted s label

section Decidability

instance (write : Write) (content : Bytes) : Decidable (write.Fits layout content) :=
  match same : write.truncateTo with
  | none => .isTrue fun _ truncates => (nomatch same.symm.trans truncates)
  | some size => decidable_of_iff (write.bytes ≠ [] →
      min layout.entryBytes (write.offset + write.bytes.length) ≤ max size content.length)
    ⟨fun fits _ truncates => Option.some.inj (same.symm.trans truncates) ▸ fits,
      fun fits => fits size same⟩

instance (change : Change) (file : File) : Decidable (change.Fits layout file) := by
  unfold Change.Fits
  split <;> infer_instance

instance (m : Shared) (writer : Writer) : Decidable (m.Counts writer) := by
  unfold Shared.Counts
  split <;> infer_instance

instance (m : Shared) (position : Position) : Decidable (position.Counts m) := by
  unfold Position.Counts
  split <;> infer_instance

variable (s : Config Shared Party Position) (label : Label Party Move Empty)

instance : Decidable (Counted s label) := by
  unfold Counted
  split <;> infer_instance

instance : Decidable (Fitting layout s label) := by
  unfold Fitting
  split <;> infer_instance

end Decidability

section Runs

def Mirrors (layout : Layout) (s : Config Shared Party Position) : Prop :=
  Holds (Shared.Sound layout) (Position.Sound layout) s

/-- A step of a reader changes nothing but the answers. -/
theorem Answers.sound (sound : m.Sound layout) (answers : Answers layout m after) :
    after.1.Sound layout := by
  obtain ⟨⟨table, files, finished⟩, reader⟩ := after
  obtain ⟨rfl, rfl, faithful, -⟩ := answers
  exact { sound with answers := faithful }

theorem Position.Sound.stable {position : Position}
    (calm : ∀ key, party = .writer key → Undisturbed key m n) (advances : m.Advances n)
    (sound : position.Sound layout party m) : position.Sound layout party n := by
  cases position with
  | writer self =>
    cases party with
    | writer key => exact Writer.Sound.stable (calm key rfl) sound
    | reader id => exact sound
  | reader self =>
    cases party with
    | writer key => exact sound
    | reader id => exact Reader.Sound.stable advances sound

structure Steps (layout : Layout) (party : Party) (m : Shared) (after : Shared × Position) :
    Prop where
  sound : after.1.Sound layout
  own : after.2.Sound layout party after.1
  advances : m.Advances after.1
  calm : ∀ key, party ≠ .writer key → Undisturbed key m after.1

theorem Steps.of_kept (kept : Kept layout key m after) :
    Steps layout (.writer key) m (after.map id .writer) where
  sound := kept.sound
  own := kept.own
  advances := kept.advances
  calm other different := kept.calm other fun same => different (congrArg _ same.symm)

theorem Steps.of_answers (sound : m.Sound layout) (answers : Answers layout m after) :
    Steps layout (.reader number) m (after.map id .reader) := by
  have advances : m.Advances after.1 := by
    intro i
    rw [answers.table]
    exact .refl _
  refine ⟨answers.sound sound, answers.own.stable advances, advances, ?_⟩
  intro key _
  refine ⟨advances, ?_, ?_, ?_⟩
  · intro i _
    exact congrFun answers.table i
  · intro i owner
    exact congrFun answers.table i ▸ owner
  · exact congrFun answers.files key

theorem steps_act (holds : Mirrors layout s) (admitted : Fitting layout s (.thread party move))
    (acted : act layout party move s.shared (s.locals party) = some after) :
    Steps layout party s.shared after := by
  have sound := holds.shared
  have own := holds.locals party
  have counts (party : Party) (admitted : Fitting layout s (.thread party .step)) :
      (s.locals party).Counts s.shared := by
    cases party with
    | writer key => exact admitted
    | reader number => exact admitted
  generalize located : s.locals party = position at acted own
  unfold act at acted
  split at acted
  · cases acted
    exact .of_kept (kept_enter sound own admitted)
  · obtain ⟨after, taken, rfl⟩ := Option.map_eq_some_iff.mp acted
    have small := counts _ admitted
    rw [located] at small
    exact .of_kept (kept_step sound own small taken)
  · cases acted
    exact .of_answers sound (answers_enter sound)
  · obtain ⟨after, taken, rfl⟩ := Option.map_eq_some_iff.mp acted
    exact .of_answers sound (answers_step sound own taken)
  · cases acted

theorem Mirrors.next (holds : Mirrors layout s) (admitted : Fitting layout s label)
    (taken : Interleaving.next (act layout) happen s label = some t) : Mirrors layout t := by
  cases label with
  | thread party move =>
    apply Holds.thread holds taken
    · intro shared self acted
      have steps := steps_act holds admitted acted
      exact ⟨steps.sound, steps.own⟩
    · intro shared self acted other different standing
      have steps := steps_act holds admitted acted
      apply standing.stable _ steps.advances
      rintro key rfl
      exact steps.calm key fun same => different same.symm
  | event event => exact event.elim

theorem Mirrors.initial : Mirrors layout initial where
  shared := {
    entries := fun _ => {
      owned := iff_of_true rfl rfl
      counted := rfl
      small := Nat.two_pow_pos 32
      fresh := fun _ => rfl
      short := nofun
      named := nofun
      shows := nofun }
    unique := nofun
    placed := nofun
    unlisted := fun _ _ => .inl rfl
    answers := nofun }
  locals party := by
    cases party with
    | writer key => exact nofun
    | reader number => trivial

/-- Every read returned nothing, or the bytes of the file as the call ended: short at the
end of the file, with zeros in its holes. -/
theorem mirror_refines_file {labels : List (Label Party Move Empty)}
    {last : Config Shared Party Position}
    (trace : Trace (Interleaving.next (act layout) happen) (Fitting layout) initial labels last) :
    ∀ answer ∈ last.shared.answers, answer.Faithful := by
  have holds : Mirrors layout last :=
    trace.invariant Mirrors.initial fun _ _ _ admitted taken holds => holds.next admitted taken
  exact holds.shared.answers

section Schedules

def smallLayout : Layout where
  entries := 1
  entryBytes := 8
  maxPathBytes := 8
  entries_pos := Nat.one_pos
  entryBytes_valid := by decide
  maxPathBytes_valid := by decide

def head : Path := [104]

def changing (change : Change) (steps : Nat) : List (Label Party Move Empty) :=
  .thread (.writer head) (.change change) :: List.replicate steps (.thread (.writer head) .step)

def reading (read : Read) (steps : Nat) : List (Label Party Move Empty) :=
  .thread (.reader 0) (.read read) :: List.replicate steps (.thread (.reader 0) .step)

def lastAnswer (s : Config Shared Party Position) : Option (File × Option Bytes) :=
  s.shared.answers.getLast?.map fun answer => (answer.file, answer.result)

end Schedules

theorem mirror_refines_file_hole : ∃ last,
    Trace (Interleaving.next (act smallLayout) happen) (Fitting smallLayout) initial
      (changing (.update ⟨2, [7], none⟩) 29 ++ reading ⟨head, 8, 0⟩ 14) last ∧
      lastAnswer last = some (some [0, 0, 7], some [0, 0, 7]) ∧
      ∀ answer ∈ last.shared.answers, answer.Faithful :=
  Trace.of_view_and lastAnswer (fun _ trace _ => mirror_refines_file trace) (by decide)

/-- An update that writes three bytes and cuts the file to one leaves the other two in
the data region, and growing the file to three shows them again. -/
theorem truncated_bytes_reappear : ∃ last,
    Trace (Interleaving.next (act smallLayout) happen) Counted initial
      (changing (.update ⟨0, [1, 2, 3], some 1⟩) 29 ++ changing (.update ⟨0, [], some 3⟩) 14 ++
        reading ⟨head, 8, 0⟩ 14) last ∧
      lastAnswer last = some (some [1, 0, 0], some [1, 2, 3]) :=
  Trace.of_view lastAnswer (by decide)

end Runs

end SpaceDataModule.SabIoMirror

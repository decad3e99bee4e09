import SpaceDataModule.SabIoMirror.Invariant

/-! The steps of the writer of a path. They change the entry of the path only, and that
while its sequence word is odd or its state is still CLAIMING. -/
namespace SpaceDataModule.SabIoMirror
open ByteFiles

section Entries
variable {e f : Entry} {files : Path → File}

theorem Entry.Advances.of_unsettled (unsettled : ¬ e.Settled) (nonempty : f.state ≠ .empty)
    (owner : ∀ key, e.owner = some key → f.owner = some key) : e.Advances f where
  owner := owner
  nonempty _ := nonempty
  settled settled := (unsettled settled).elim
  path settled := (unsettled settled).elim
  steps settled := (unsettled settled).elim
  same settled := (unsettled settled).elim

/-- A store under an odd sequence word that leaves the path alone. -/
structure Entry.Writes (e f : Entry) : Prop where
  settled : f.Settled
  owner : f.owner = e.owner
  seq : f.seq = e.seq
  steps : f.steps = e.steps
  hash : f.hash = e.hash
  pathLen : f.pathLen = e.pathLen
  path : f.path = e.path

theorem Entry.Writes.advances (writes : e.Writes f) (odd : e.steps % 2 = 1) : e.Advances f where
  owner _ owner := writes.owner.trans owner
  nonempty _ := writes.settled.nonempty
  settled _ := writes.settled
  path _ := ⟨writes.pathLen, writes.path⟩
  steps _ := Nat.le_of_eq writes.steps.symm
  same _ _ even := (nomatch odd.symm.trans even)

theorem Entry.Writes.sound (writes : e.Writes f) (odd : e.steps % 2 = 1) (settled : e.Settled)
    (sound : e.Sound layout files) : f.Sound layout files where
  owned := by
    rw [writes.owner, ← sound.owned]
    exact iff_of_false writes.settled.nonempty settled.nonempty
  counted := by rw [writes.seq, writes.steps, sound.counted]
  small := by rw [writes.steps]; exact sound.small
  fresh unsettled := (unsettled writes.settled).elim
  short key owner := sound.short key (writes.owner ▸ owner)
  named key owner _ := by
    unfold Entry.Named
    rw [writes.pathLen, writes.hash, writes.path]
    exact sound.named key (writes.owner ▸ owner) settled
  shows key _ _ even := by
    rw [writes.steps] at even
    exact (nomatch odd.symm.trans even)

theorem Entry.Advances.advance : e.Advances e.advance where
  owner _ := id
  nonempty := id
  settled := id
  path _ := ⟨rfl, rfl⟩
  steps _ := Nat.le_succ _
  same _ same := (Nat.succ_ne_self _ same).elim

/-- A sequence step: if it makes the word even, the entry shows the file. -/
theorem Entry.Sound.advance {after : Path → File} (sound : e.Sound layout files)
    (settled : e.Settled) (owner : e.owner = some key) (small : e.steps + 1 < 2 ^ 32)
    (shows : e.steps % 2 = 1 → e.Shows layout (after key)) : e.advance.Sound layout after where
  owned := sound.owned
  counted := by
    unfold Entry.advance
    rw [sound.counted, UInt32.ofNat_add]
    rfl
  small := small
  fresh unsettled := (unsettled settled).elim
  short := sound.short
  named := sound.named
  shows other owned _ even := by
    cases owner.symm.trans owned
    have odd : (e.steps + 1) % 2 = 0 := even
    exact shows (by omega)

theorem Entry.Sound.of_claiming (sound : e.Sound layout files) (was : e.state = .claiming)
    (owner : f.owner = e.owner) (seq : f.seq = e.seq) (steps : f.steps = e.steps)
    (claiming : f.state = .claiming) : f.Sound layout files where
  owned := by
    rw [owner, ← sound.owned, claiming, was]
  counted := by rw [seq, steps, sound.counted]
  small := by rw [steps]; exact sound.small
  fresh _ := steps.trans (sound.fresh (not_settled_of_claiming was))
  short key owned := sound.short key (owner ▸ owned)
  named _ _ settled := (not_settled_of_claiming claiming settled).elim
  shows _ _ settled := (not_settled_of_claiming claiming settled).elim

end Entries

section Steps
variable {m : Shared} {files : Path → File}

structure Kept (layout : Layout) (key : Path) (m : Shared) (after : Shared × Writer) : Prop where
  sound : after.1.Sound layout
  own : after.2.Sound layout key after.1
  advances : m.Advances after.1
  calm : ∀ other, other ≠ key → Undisturbed other m after.1

/-- The table and the files with one entry, and the file of its path, replaced. -/
def Shared.put (m : Shared) (index : Nat) (f : Entry) (files : Path → File) : Shared :=
  { m with table := Function.update m.table index f, files := files }

theorem put_table_self : (m.put index f files).table index = f :=
  Function.update_self ..

theorem put_table_of_ne (different : i ≠ index) :
    (m.put index f files).table i = m.table i :=
  Function.update_of_ne different ..

theorem put_owner (owner : (m.table index).owner = some key) (kept : f.owner = some key) (i : Nat) :
    ((m.put index f files).table i).owner = (m.table i).owner := by
  by_cases same : i = index
  · rw [same, put_table_self, kept, owner]
  · rw [put_table_of_ne same]

theorem put_advances (advances : (m.table index).Advances f) :
    m.Advances (m.put index f files) := by
  intro i
  by_cases same : i = index
  · rw [same, put_table_self]
    exact advances
  · rw [put_table_of_ne same]
    exact .refl _

theorem own_updating (fits : write.Fits layout ((files key).getD [])) (owner : f.owner = some key)
    (settled : f.Settled) (own : step.Sound layout f write (files key)) :
    (Writer.updating write index step).Sound layout key (m.put index f files) := by
  refine ⟨fits, ?_, ?_, ?_⟩ <;> rwa [put_table_self]

theorem own_clearing (owner : f.owner = some key) (settled : f.Settled) (own : step.Sound f) :
    (Writer.clearing index step).Sound layout key (m.put index f m.files) := by
  refine ⟨?_, ?_, ?_⟩ <;> rwa [put_table_self]

theorem unsettled_of_empty {e : Entry} (empty : e.state = .empty) : ¬ e.Settled :=
  fun settled => settled.nonempty empty

def Shared.Counts (m : Shared) : Writer → Prop
  | .updating _ index (.begin _) | .updating _ index .finish | .clearing index .begin
  | .clearing index .finish => (m.table index).steps + 1 < 2 ^ 32
  | _ => True

section
variable (sound : m.Sound layout)
include sound

theorem Kept.local (own : writer.Sound layout key m) :
    Kept layout key m (m, writer) where
  sound := sound
  own := own
  advances _ := .refl _
  calm _ _ := ⟨fun _ => .refl _, fun _ _ => rfl, fun _ => id, rfl⟩

section
variable {f : Entry} {writer : Writer}
  (owner : (m.table index).owner = some key) (kept : f.owner = some key)
  (advances : (m.table index).Advances f) (entry : f.Sound layout files)
  (others : ∀ other, other ≠ key → files other = m.files other)
include owner kept advances entry others

theorem put_sound : (m.put index f files).Sound layout where
  entries i := by
    by_cases same : i = index
    · rw [same, put_table_self]
      exact entry
    · rw [put_table_of_ne same]
      have before := sound.entries i
      refine { before with shows := ?_ }
      intro other owned settled even
      have different : other ≠ key := by
        rintro rfl
        exact same (sound.unique i index other owned owner)
      rw [show (m.put index f files).files other = m.files other from others other different]
      exact before.shows other owned settled even
  unique i j other first second := by
    rw [put_owner owner kept] at first second
    exact sound.unique i j other first second
  placed other i owned := by
    rw [put_owner owner kept] at owned
    obtain ⟨distance, reached, bound, slot, passed⟩ := sound.placed other i owned
    exact ⟨distance, reached, bound, slot,
      fun d early => (put_advances advances _).nonempty (passed d early)⟩
  unlisted other unlisted := by
    have absent : m.Unlisted other := fun i => by
      rw [← put_owner owner kept]
      exact unlisted i
    have different : other ≠ key := by
      rintro rfl
      exact absent index owner
    rw [show (m.put index f files).files other = m.files other from others other different]
    rcases sound.unlisted other absent with none | long | full
    · exact .inl none
    · exact .inr (.inl long)
    · exact .inr (.inr fun probe bound =>
        (put_advances advances _).nonempty (full probe bound))
  answers := sound.answers

theorem Kept.put (own : writer.Sound layout key (m.put index f files)) :
    Kept layout key m (m.put index f files, writer) where
  sound := put_sound sound owner kept advances entry others
  own := own
  advances := put_advances advances
  calm other different := {
    advances := put_advances advances
    kept := by
      intro i owned
      apply put_table_of_ne
      rintro rfl
      exact different (Option.some.inj (owned.symm.trans owner))
    unlisted := by
      intro i owned
      rwa [put_owner owner kept] at owned
    file := others other different }

end

theorem Kept.unlisted (unlisted : m.Unlisted key)
    (hidden : change.file (m.files key) = none ∨ layout.maxPathBytes < key.length ∨
      ∀ probe < layout.entries, (m.table (layout.slot key probe)).state ≠ .empty) :
    Kept layout key m (m.changed key change, .resting returned) := by
  have others (other : Path) (different : other ≠ key) :
      (m.changed key change).files other = m.files other := Function.update_of_ne different ..
  have changed : (m.changed key change).files key = change.file (m.files key) :=
    Function.update_self ..
  have entries (i : Nat) : (m.table i).Sound layout (m.changed key change).files := by
    refine { sound.entries i with shows := ?_ }
    intro other owned settled even
    rw [others other (by rintro rfl; exact unlisted i owned)]
    exact (sound.entries i).shows other owned settled even
  refine ⟨?_, fun i owner => (unlisted i owner).elim, fun i => .refl _, ?_⟩
  · refine { sound with entries := entries, unlisted := ?_ }
    intro other absent
    by_cases same : other = key
    · rw [same, changed]
      exact hidden
    · rw [others other same]
      exact sound.unlisted other absent
  · intro other different
    exact ⟨fun i => .refl _, fun _ _ => rfl, fun _ => id, others other different⟩

/-- A store of an update between its two sequence steps. -/
theorem kept_write (own : (Writer.updating write index step).Sound layout key m)
    (odd : (m.table index).steps % 2 = 1) (writes : (m.table index).Writes f)
    (after : next.Sound layout f write (m.files key)) :
    Kept layout key m (m.put index f m.files, .updating write index next) := by
  obtain ⟨fits, owner, settled, -⟩ := own
  have kept := writes.owner.trans owner
  exact .put sound owner kept (writes.advances odd)
    (writes.sound odd settled (sound.entries index)) (fun _ _ => rfl)
    (own_updating fits kept writes.settled after)

theorem quiet_put (owner : (m.table index).owner = some key)
    (kept : f.owner = some key) (settled : f.Settled) (even : f.steps % 2 = 0) : (m.put index f files).Quiet key := by
  intro i owned
  rw [put_owner owner kept] at owned
  cases sound.unique i index key owned owner
  rw [put_table_self]
  exact ⟨settled, even⟩

/-- The sequence step that ends a change: the entry shows the changed file. -/
theorem kept_finish (owner : (m.table index).owner = some key)
    (settled : (m.table index).Settled) (small : (m.table index).steps + 1 < 2 ^ 32)
    (odd : (m.table index).steps % 2 = 1)
    (shows : (m.table index).Shows layout (change.file (m.files key))) :
    Kept layout key m ((m.modify index Entry.advance).changed key change, .resting returned) := by
  refine .put sound owner owner .advance ?_ (fun _ different => Function.update_of_ne different ..)
    (quiet_put sound owner owner settled ?_)
  · apply (sound.entries index).advance settled owner small
    intro
    rwa [Function.update_self]
  · have even : ((m.table index).steps + 1) % 2 = 0 := by omega
    exact even

theorem kept_update (own : (Writer.updating write index step).Sound layout key m)
    (small : m.Counts (.updating write index step)) :
    Kept layout key m (update layout key m write index step) := by
  have whole := own
  obtain ⟨fits, owner, settled, own⟩ := own
  have entry := sound.entries index
  cases step with
  | loadState => exact .local sound ⟨fits, owner, settled, own, decide_eq_true_iff⟩
  | begin wasLive =>
    obtain ⟨even, live⟩ := own
    have shows := entry.shows key owner settled even
    refine .put sound owner owner .advance (entry.advance settled owner small ?_) (fun _ _ => rfl)
      (own_updating fits owner settled ⟨?_, shows, ?_⟩)
    · intro odd
      exact (nomatch odd.symm.trans even)
    · have odd : ((m.table index).steps + 1) % 2 = 1 := by omega
      exact odd
    · rw [Bool.eq_iff_iff, live, shows.live_iff]
  | loadSize wasLive =>
    obtain ⟨odd, shows, live⟩ := own
    refine .local sound ⟨fits, owner, settled, odd, shows, live, ?_⟩
    rw [live]
    cases file : m.files key with
    | none => rfl
    | some content =>
      rw [file] at shows
      exact shows.2.1
  | loadCovered wasLive size =>
    obtain ⟨odd, shows, live, rfl⟩ := own
    have covered : (if wasLive then (m.table index).covered else 0) =
        min ((m.files key).getD []).length layout.entryBytes := by
      rw [live]
      cases file : m.files key with
      | none => exact (Nat.zero_min _).symm
      | some content =>
        rw [file] at shows
        exact shows.2.2.1
    refine .local sound ⟨fits, owner, settled, odd, length_content.symm, ?_⟩
    intro i inside
    rw [covered]
    refine apply_plan ?_ ?_ fits inside
    · intro wasLive
      obtain ⟨content, file⟩ := Option.isSome_iff_exists.mp (live.symm.trans wasLive)
      rw [file] at shows ⊢
      exact shows.2.2.2
    · intro dead
      rw [Option.isSome_eq_false_iff.mp (live.symm.trans dead) |> Option.isNone_iff_eq_none.mp]
      rfl
  | store stores size =>
    obtain ⟨odd, same, applied⟩ := own
    cases stores with
    | nil => exact .local sound ⟨fits, owner, settled, odd, same, applied⟩
    | cons store stores =>
      exact kept_write sound whole odd ⟨settled, rfl, rfl, rfl, rfl, rfl, rfl⟩ ⟨odd, same, applied⟩
  | storeSize size =>
    obtain ⟨odd, same, holds⟩ := own
    exact kept_write sound whole odd ⟨settled, rfl, rfl, rfl, rfl, rfl, rfl⟩ ⟨odd, same, holds, rfl⟩
  | storeCovered size =>
    obtain ⟨odd, rfl, holds, same⟩ := own
    exact kept_write sound whole odd ⟨settled, rfl, rfl, rfl, rfl, rfl, rfl⟩ ⟨odd, holds, same, rfl⟩
  | storeState =>
    obtain ⟨odd, holds, size, covered⟩ := own
    exact kept_write sound whole odd ⟨.inl rfl, rfl, rfl, rfl, rfl, rfl, rfl⟩
      ⟨odd, rfl, size, covered, holds⟩
  | finish =>
    obtain ⟨odd, shows⟩ := own
    exact kept_finish sound owner settled small odd shows

theorem kept_clear (own : (Writer.clearing index step).Sound layout key m)
    (small : m.Counts (.clearing index step)) : Kept layout key m (clear key m index step) := by
  obtain ⟨owner, settled, own⟩ := own
  have entry := sound.entries index
  have stored {f : Entry} {next : ClearStep} (odd : (m.table index).steps % 2 = 1)
      (writes : (m.table index).Writes f) (after : next.Sound f) :
      Kept layout key m (m.put index f m.files, .clearing index next) :=
    .put sound owner (writes.owner.trans owner) (writes.advances odd)
      (writes.sound odd settled entry) (fun _ _ => rfl)
      (own_clearing (writes.owner.trans owner) writes.settled after)
  cases step with
  | begin =>
    have odd : ((m.table index).steps + 1) % 2 = 1 := by
      have even : (m.table index).steps % 2 = 0 := own
      omega
    refine .put sound owner owner .advance (entry.advance settled owner small ?_) (fun _ _ => rfl)
      (own_clearing owner settled odd)
    intro odd
    exact (nomatch odd.symm.trans own)
  | storeState => exact stored own ⟨.inr rfl, rfl, rfl, rfl, rfl, rfl, rfl⟩ ⟨own, rfl⟩
  | storeCovered => exact stored own.1 ⟨settled, rfl, rfl, rfl, rfl, rfl, rfl⟩ own
  | storeSize => exact stored own.1 ⟨settled, rfl, rfl, rfl, rfl, rfl, rfl⟩ own
  | finish => exact kept_finish sound owner settled small own.1 own.2

/-- An empty slot, met by the probes of an unlisted key, is given to that key. -/
theorem claim_sound (unlisted : m.Unlisted key) (bound : probe < layout.entries)
    (passed : ∀ d < probe, (m.table (layout.slot key d)).state ≠ .empty)
    (advances : (m.table (layout.slot key probe)).Advances f)
    (unowned : (m.table (layout.slot key probe)).owner = none) (state : f.state ≠ .empty)
    (owner : f.owner = some key) (entry : f.Sound layout m.files) :
    (m.put (layout.slot key probe) f m.files).Sound layout where
  entries i := by
    by_cases same : i = layout.slot key probe
    · rw [same, put_table_self]
      exact entry
    · rw [put_table_of_ne same]
      exact sound.entries i
  unique i j other first second := by
    have listed (i : Nat) (owned : ((m.put (layout.slot key probe) f m.files).table i).owner =
        some other) : i = layout.slot key probe ∧ other = key ∨ (m.table i).owner = some other := by
      by_cases same : i = layout.slot key probe
      · rw [same, put_table_self, owner] at owned
        exact .inl ⟨same, (Option.some.inj owned).symm⟩
      · rw [put_table_of_ne same] at owned
        exact .inr owned
    rcases listed i first with ⟨here, same⟩ | before
    · rcases listed j second with ⟨there, -⟩ | after
      · rw [here, there]
      · exact (unlisted j (same ▸ after)).elim
    · rcases listed j second with ⟨-, same⟩ | after
      · exact (unlisted i (same ▸ before)).elim
      · exact sound.unique i j other before after
  placed other i owned := by
    by_cases same : i = layout.slot key probe
    · rw [same, put_table_self, owner] at owned
      cases owned
      refine ⟨probe, Nat.zero_le _, bound, same, ?_⟩
      intro d early
      rcases Nat.lt_or_eq_of_le early with before | rfl
      · exact (put_advances advances _).nonempty (passed d before)
      · rwa [put_table_self]
    · rw [put_table_of_ne same] at owned
      obtain ⟨distance, reached, inside, slot, met⟩ := sound.placed other i owned
      exact ⟨distance, reached, inside, slot,
        fun d early => (put_advances advances _).nonempty (met d early)⟩
  unlisted other absent := by
    have before : m.Unlisted other := by
      intro i owned
      have different : i ≠ layout.slot key probe := by
        rintro rfl
        cases unowned.symm.trans owned
      exact absent i (by rwa [put_table_of_ne different])
    rcases sound.unlisted other before with none | long | full
    · exact .inl none
    · exact .inr (.inl long)
    · exact .inr (.inr fun d inside => (put_advances advances _).nonempty (full d inside))
  answers := sound.answers

theorem kept_exchange (own : (Writer.inserting write probe .exchange).Sound layout key m)
    (empty : (m.table (layout.slot key probe)).state = .empty) (state : f.state = .claiming)
    (owner : f.owner = some key) (seq : f.seq = (m.table (layout.slot key probe)).seq)
    (steps : f.steps = (m.table (layout.slot key probe)).steps) :
    Kept layout key m
      (m.put (layout.slot key probe) f m.files, .inserting write probe (.path 0)) := by
  obtain ⟨short, fits, unlisted, bound, passed⟩ := own
  have entry := sound.entries (layout.slot key probe)
  have unowned := entry.owned.mp empty
  have nonempty : f.state ≠ .empty := by
    rw [state]
    exact nofun
  have file : m.files key = none := by
    rcases sound.unlisted key unlisted with none | long | full
    · exact none
    · exact absurd short (Nat.not_le_of_lt long)
    · exact (full probe bound empty).elim
  have advances : (m.table (layout.slot key probe)).Advances f := by
    apply Entry.Advances.of_unsettled (unsettled_of_empty empty) nonempty
    rw [unowned]
    exact nofun
  have claimed : f.Sound layout m.files := {
    owned := by rw [owner]; exact iff_of_false nonempty nofun
    counted := by rw [seq, steps, entry.counted]
    small := by rw [steps]; exact entry.small
    fresh := fun _ => steps.trans (entry.fresh (unsettled_of_empty empty))
    short := by
      intro other owned
      cases owner.symm.trans owned
      exact short
    named := fun _ _ settled => (not_settled_of_claiming state settled).elim
    shows := fun _ _ settled => (not_settled_of_claiming state settled).elim }
  refine ⟨claim_sound sound unlisted bound passed advances unowned nonempty owner claimed, ?_,
    put_advances advances, ?_⟩
  · refine ⟨fits, file, ?_, ?_, Nat.zero_le _, nofun⟩
    · rwa [put_table_self]
    · rwa [put_table_self]
  · intro other different
    refine ⟨put_advances advances, ?_, ?_, rfl⟩
    · intro i owned
      apply put_table_of_ne
      rintro rfl
      cases unowned.symm.trans owned
    · intro i owned
      by_cases same : i = layout.slot key probe
      · rw [same, put_table_self, owner] at owned
        exact (different (Option.some.inj owned).symm).elim
      · rwa [put_table_of_ne same] at owned

theorem kept_fill (fits : write.Fits layout ((m.files key).getD [])) (file : m.files key = none)
    (owner : (m.table (layout.slot key probe)).owner = some key)
    (claiming : (m.table (layout.slot key probe)).state = .claiming)
    (kept : f.owner = (m.table (layout.slot key probe)).owner)
    (seq : f.seq = (m.table (layout.slot key probe)).seq)
    (steps : f.steps = (m.table (layout.slot key probe)).steps)
    (state : f.state = (m.table (layout.slot key probe)).state) (started : next ≠ .exchange)
    (after : next.Sound f key) :
    Kept layout key m (m.put (layout.slot key probe) f m.files, .inserting write probe next) := by
  have advances : (m.table (layout.slot key probe)).Advances f := by
    apply Entry.Advances.of_unsettled (not_settled_of_claiming claiming)
    · rw [state, claiming]
      exact nofun
    · intro other owned
      exact kept.trans owned
  refine .put sound owner (kept.trans owner) advances
    ((sound.entries _).of_claiming claiming kept seq steps (state.trans claiming))
    (fun _ _ => rfl) ?_
  have self : (m.put (layout.slot key probe) f m.files).table (layout.slot key probe) = f :=
    put_table_self
  cases next with
  | exchange => exact (started rfl).elim
  | path | length | hash | covered | size | state =>
    refine ⟨fits, file, ?_, ?_, ?_⟩
    · rw [self, kept, owner]
    · rw [self, state, claiming]
    · rwa [self]

theorem kept_publish (own : (Writer.inserting write probe .state).Sound layout key m) :
    Kept layout key m (insert layout key m write probe .state) := by
  obtain ⟨fits, file, owner, claiming, named⟩ := own
  have entry := sound.entries (layout.slot key probe)
  have unsettled := not_settled_of_claiming claiming
  have steps := entry.fresh unsettled
  refine .put sound owner owner (.of_unsettled unsettled nofun fun _ => id) ?_ (fun _ _ => rfl)
    (own_updating fits owner (.inr rfl) ?_)
  · exact { entry with
      owned := iff_of_false nofun (by rw [owner]; exact nofun)
      fresh := fun open' => (open' (.inr rfl)).elim
      named := by
        intro other owned _
        cases owner.symm.trans owned
        exact named
      shows := by
        intro other owned _ _
        cases owner.symm.trans owned
        rw [file]
        rfl }
  · change (m.table (layout.slot key probe)).steps % 2 = 0
    rw [steps]

theorem kept_insert (own : (Writer.inserting write probe step).Sound layout key m) :
    Kept layout key m (insert layout key m write probe step) := by
  cases step with
  | exchange =>
    rw [insert]
    split_ifs with empty more
    · exact kept_exchange sound own empty rfl rfl rfl rfl
    · obtain ⟨short, fits, unlisted, -, passed⟩ := own
      refine .local sound ⟨short, fits, unlisted, more, ?_⟩
      intro d early
      rcases Nat.lt_succ_iff_lt_or_eq.mp early with before | rfl
      · exact passed d before
      · exact empty
    · obtain ⟨short, fits, unlisted, bound, passed⟩ := own
      refine .unlisted sound unlisted (.inr (.inr ?_))
      intro d inside
      rcases Nat.lt_or_eq_of_le (Nat.le_of_lt_succ (Nat.lt_of_lt_of_le inside
        (Nat.le_of_not_lt more))) with before | rfl
      · exact passed d before
      · exact empty
  | path stored =>
    obtain ⟨fits, file, owner, claiming, count, bytes⟩ := own
    rw [insert]
    split_ifs with more
    · refine kept_fill sound fits file owner claiming rfl rfl rfl rfl nofun ⟨more, ?_⟩
      intro i early
      rcases Nat.lt_succ_iff_lt_or_eq.mp early with before | rfl
      · exact (Function.update_of_ne (Nat.ne_of_lt before) ..).trans (bytes i before)
      · exact Function.update_self ..
    · have all : stored = key.length := Nat.le_antisymm count (Nat.le_of_not_lt more)
      subst all
      exact .local sound ⟨fits, file, owner, claiming, bytes⟩
  | length =>
    obtain ⟨fits, file, owner, claiming, bytes⟩ := own
    exact kept_fill sound fits file owner claiming rfl rfl rfl rfl nofun ⟨bytes, rfl⟩
  | hash =>
    obtain ⟨fits, file, owner, claiming, bytes, length⟩ := own
    exact kept_fill sound fits file owner claiming rfl rfl rfl rfl nofun ⟨length, rfl, bytes⟩
  | covered | size =>
    obtain ⟨fits, file, owner, claiming, named⟩ := own
    exact kept_fill sound fits file owner claiming rfl rfl rfl rfl nofun named
  | state => exact kept_publish sound own

theorem kept_find (own : (Writer.finding change probe step).Sound layout key m) :
    Kept layout key m (change.searched key m (find layout m.table key probe step)) := by
  obtain ⟨short, fits, quiet, ahead, own⟩ := own
  have result := find_sound sound own
  have further := find_ahead sound quiet ahead own
  cases found : find layout m.table key probe step with
  | searching next nextStep =>
    rw [found] at result further
    exact .local sound ⟨short, fits, quiet, further, result⟩
  | found index =>
    rw [found] at result
    obtain ⟨owner, settled⟩ := result
    have even := (quiet index owner).2
    cases change with
    | update write => exact .local sound ⟨fits, owner, settled, even⟩
    | clear => exact .local sound ⟨owner, settled, even⟩
  | absent =>
    rw [found] at further
    cases change with
    | update write => exact .local sound ⟨short, fits, further, layout.entries_pos, nofun⟩
    | clear => exact .unlisted sound further (.inl rfl)

theorem kept_step (own : writer.Sound layout key m) (small : m.Counts writer)
    (taken : writer.step layout key m = some after) : Kept layout key m after := by
  cases writer with
  | resting => cases taken
  | finding change probe step =>
    cases taken
    exact kept_find sound own
  | inserting write probe step =>
    cases taken
    exact kept_insert sound own
  | updating write index step =>
    cases taken
    exact kept_update sound own small
  | clearing index step =>
    cases taken
    exact kept_clear sound own small

theorem kept_enter {change : Change} (quiet : m.Quiet key) (fits : change.Fits layout (m.files key)) :
    Kept layout key m (change.enter layout key m) := by
  unfold Change.enter
  split_ifs with long
  · refine .unlisted sound ?_ (.inr (.inl long))
    intro i owner
    exact Nat.not_le_of_lt long ((sound.entries i).short key owner)
  · exact .local sound ⟨Nat.le_of_not_lt long, fits, quiet, sound.placed key, trivial⟩

end

end Steps

end SpaceDataModule.SabIoMirror

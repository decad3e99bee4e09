import Mathlib.Data.Nat.Bitwise
import SpaceDataModule.SabIoMirror.Table

/-! What holds of the mirror between steps: an entry at rest shows the file of its
path, a path has one entry at most, and its probes meet no empty slot before it. -/
namespace SpaceDataModule.SabIoMirror
open ByteFiles Interleaving Transition

variable {layout : Layout}

section Entries

def Entry.Settled (e : Entry) : Prop := e.state = .live ∨ e.state = .cleared

def Entry.Named (e : Entry) (key : Path) : Prop :=
  e.pathLen = key.length ∧ e.hash = fnv1a key ∧ ∀ i < key.length, e.path i = byteAt key i

def Entry.Shows (layout : Layout) (e : Entry) : File → Prop
  | none => e.state = .cleared
  | some content => e.state = .live ∧ e.size = content.length ∧
      e.covered = min content.length layout.entryBytes ∧
      ∀ i < layout.entryBytes, e.data i = byteAt content i

structure Entry.Sound (layout : Layout) (files : Path → File) (e : Entry) : Prop where
  owned : e.state = .empty ↔ e.owner = none
  counted : e.seq = UInt32.ofNat e.steps
  small : e.steps < 2 ^ 32
  fresh : ¬ e.Settled → e.steps = 0
  short : ∀ key, e.owner = some key → key.length ≤ layout.maxPathBytes
  named : ∀ key, e.owner = some key → e.Settled → e.Named key
  shows : ∀ key, e.owner = some key → e.Settled → e.steps % 2 = 0 → e.Shows layout (files key)

/-- What an entry keeps over any step: once settled it is the same path's, and between
two sequence steps, the first of them even, it shows the same. -/
structure Entry.Advances (e f : Entry) : Prop where
  owner : ∀ key, e.owner = some key → f.owner = some key
  nonempty : e.state ≠ .empty → f.state ≠ .empty
  settled : e.Settled → f.Settled
  path : e.Settled → f.pathLen = e.pathLen ∧ f.path = e.path
  steps : e.Settled → e.steps ≤ f.steps
  same : e.Settled → f.steps = e.steps → e.steps % 2 = 0 →
    f.state = e.state ∧ f.size = e.size ∧ f.covered = e.covered ∧ f.data = e.data

variable {e : Entry}

theorem Entry.Advances.refl (e : Entry) : e.Advances e where
  owner _ := id
  nonempty := id
  settled := id
  path _ := ⟨rfl, rfl⟩
  steps _ := Nat.le_refl _
  same _ _ _ := ⟨rfl, rfl, rfl, rfl⟩

theorem Entry.Settled.nonempty (settled : e.Settled) : e.state ≠ .empty := by
  rcases settled with live | cleared
  · rw [live]
    exact nofun
  · rw [cleared]
    exact nofun

theorem not_settled_of_claiming (claiming : e.state = .claiming) : ¬ e.Settled := by
  rintro (live | cleared)
  · cases claiming.symm.trans live
  · cases claiming.symm.trans cleared

/-- An entry is live exactly if there is a file. -/
theorem Entry.Shows.live_iff (shows : e.Shows layout file) : e.state = .live ↔ file.isSome := by
  cases file with
  | none => exact ⟨fun live => (nomatch shows.symm.trans live), nofun⟩
  | some content => exact ⟨fun _ => rfl, fun _ => shows.1⟩

theorem odd_iff (small : n < 2 ^ 32) : UInt32.ofNat n &&& 1 = 1 ↔ n % 2 = 1 := by
  rw [← UInt32.toNat_inj, UInt32.toNat_and, UInt32.toNat_ofNat', Nat.mod_eq_of_lt small]
  exact Eq.congr_left (Nat.and_one_is_mod n)

end Entries

section Updates

/-- Of what an update writes into the mirrored range, nothing lies past both the size
the file had and the size it is given. -/
def Write.Fits (layout : Layout) (write : Write) (content : Bytes) : Prop :=
  ∀ size, write.truncateTo = some size → write.bytes ≠ [] →
    min layout.entryBytes (write.offset + write.bytes.length) ≤ max size content.length

def Change.Fits (layout : Layout) : Change → File → Prop
  | .update write, file => write.Fits layout (file.getD [])
  | .clear, _ => True

theorem length_content {write : Write} :
    (write.content content).length = write.size content.length := by
  unfold Write.content Write.size
  cases write.truncateTo with
  | none =>
    simp only [length_writeAt, Option.getD_none, ite_not]
  | some size => exact length_resize

variable {write : Write} {data : Nat → UInt8}

/-- The stores of the bytes, with the hole before them. -/
theorem apply_write (shows : ∀ i < layout.entryBytes, data i = byteAt content i)
    (inside : i < layout.entryBytes) :
    apply (if write.bytes ≠ [] ∧ write.offset < layout.entryBytes then
      (if write.offset > min content.length layout.entryBytes then
        filling (min content.length layout.entryBytes) write.offset else []) ++
        placing write.offset (write.bytes.take
          (min layout.entryBytes (write.offset + write.bytes.length) - write.offset))
      else []) data i = byteAt (writeAt content write.offset write.bytes) i := by
  have hole : apply (if write.offset > min content.length layout.entryBytes then
      filling (min content.length layout.entryBytes) write.offset else []) data i =
      byteAt content i := by
    split_ifs
    · rw [apply_filling, ← shows i inside]
      split_ifs with within
      · rw [shows i inside, byteAt_of_length_le (by omega)]
      · rfl
    · exact shows i inside
  by_cases written : write.bytes ≠ [] ∧ write.offset < layout.entryBytes
  · rw [if_pos written, apply_append, apply_placing, List.length_take, byteAt_writeAt]
    by_cases within : write.offset ≤ i ∧ i < write.offset + write.bytes.length
    · rw [if_pos within, if_pos (by omega), byteAt_take (by omega)]
    · rw [if_neg within, if_neg (by omega), hole]
  · rw [if_neg written, byteAt_writeAt, if_neg]
    · exact shows i inside
    · intro within
      apply written
      refine ⟨?_, by omega⟩
      intro empty
      rw [empty] at within
      exact absurd within.2 (Nat.not_lt_of_le within.1)

/-- Past both sizes an update that fits leaves nothing behind. -/
theorem byteAt_write_past (fits : write.Fits layout content)
    (truncates : write.truncateTo = some size) (inside : i < layout.entryBytes) (past : size ≤ i)
    (grown : content.length ≤ i) : byteAt (writeAt content write.offset write.bytes) i = 0 := by
  rw [byteAt_writeAt, if_neg, byteAt_of_length_le grown]
  intro within
  have nonempty : write.bytes ≠ [] := by
    intro empty
    rw [empty] at within
    exact absurd within.2 (Nat.not_lt_of_le within.1)
  have := fits size truncates nonempty
  omega

/-- The zeros stored by a truncation. -/
theorem apply_truncation (fits : write.Fits layout content) (inside : i < layout.entryBytes)
    (written : data i = byteAt (writeAt content write.offset write.bytes) i) :
    apply (match write.truncateTo with
      | some size => if size < min content.length layout.entryBytes then
          filling size (min content.length layout.entryBytes) else []
      | none => []) data i = byteAt (write.content content) i := by
  unfold Write.content
  cases truncates : write.truncateTo with
  | none => exact written
  | some size =>
    dsimp only
    rw [byteAt_resize]
    by_cases kept : i < size
    · rw [← written]
      split_ifs
      · rw [apply_filling, if_neg (by omega)]
      · rfl
    · split_ifs with shrinks
      · rw [apply_filling]
        split_ifs with within
        · rfl
        · rw [written]
          exact byteAt_write_past fits truncates inside (by omega) (by omega)
      · exact written.trans (byteAt_write_past fits truncates inside (by omega) (by omega))

/-- The stores of an update leave the mirrored range of the file in the data region. -/
theorem apply_plan (live : wasLive = true → ∀ i < layout.entryBytes, data i = byteAt content i)
    (dead : wasLive = false → content = []) (fits : write.Fits layout content)
    (inside : i < layout.entryBytes) :
    apply (write.plan layout wasLive (min content.length layout.entryBytes)) data i =
      byteAt (write.content content) i := by
  have seeded : ∀ i < layout.entryBytes,
      apply (if wasLive then [] else filling 0 layout.entryBytes) data i = byteAt content i := by
    intro i inside
    cases wasLive with
    | true => exact live rfl i inside
    | false =>
      rw [dead rfl, if_neg nofun, apply_filling, if_pos ⟨Nat.zero_le i, inside⟩]
      rfl
  rw [Write.plan, apply_append, apply_append]
  exact apply_truncation fits inside (apply_write seeded inside)

end Updates

section Tables

/-- The slot of a key's entry is met by a probe from this one on, before any empty slot. -/
def Shared.Ahead (layout : Layout) (m : Shared) (key : Path) (probe : Nat) : Prop :=
  ∀ i, (m.table i).owner = some key → ∃ distance, probe ≤ distance ∧ distance < layout.entries ∧
    i = layout.slot key distance ∧
    ∀ d ≤ distance, (m.table (layout.slot key d)).state ≠ .empty

def Shared.Unlisted (m : Shared) (key : Path) : Prop := ∀ i, (m.table i).owner ≠ some key

def Answer.Faithful (answer : Answer) : Prop :=
  answer.result = none ∨ ∃ content, answer.file = some content ∧
    answer.result = some (readAt content answer.read.offset answer.read.length)

structure Shared.Sound (layout : Layout) (m : Shared) : Prop where
  entries : ∀ i, (m.table i).Sound layout m.files
  unique : ∀ i j key, (m.table i).owner = some key → (m.table j).owner = some key → i = j
  placed : ∀ key, m.Ahead layout key 0
  /-- A file that is not mirrored has no path that could be inserted. -/
  unlisted : ∀ key, m.Unlisted key → m.files key = none ∨ layout.maxPathBytes < key.length ∨
    ∀ probe < layout.entries, (m.table (layout.slot key probe)).state ≠ .empty
  answers : ∀ answer ∈ m.answers, answer.Faithful

end Tables

section Positions

def FindStep.Sound (e : Entry) (key : Path) : FindStep → Prop
  | .state => True
  | .hash | .length => e.Settled
  | .bytes equal => e.Settled ∧ e.pathLen = key.length ∧ equal ≤ key.length ∧
      ∀ i < equal, e.path i = byteAt key i

def InsertStep.Sound (e : Entry) (key : Path) : InsertStep → Prop
  | .exchange => True
  | .path stored => stored ≤ key.length ∧ ∀ i < stored, e.path i = byteAt key i
  | .length => ∀ i < key.length, e.path i = byteAt key i
  | .hash => (∀ i < key.length, e.path i = byteAt key i) ∧ e.pathLen = key.length
  | .covered | .size | .state => e.Named key

def Entry.Holds (layout : Layout) (e : Entry) (content : Bytes) : Prop :=
  ∀ i < layout.entryBytes, e.data i = byteAt content i

def UpdateStep.Sound (layout : Layout) (e : Entry) (write : Write) (file : File) :
    UpdateStep → Prop
  | .loadState => e.steps % 2 = 0
  | .begin wasLive => e.steps % 2 = 0 ∧ (wasLive = true ↔ e.state = .live)
  | .loadSize wasLive => e.steps % 2 = 1 ∧ e.Shows layout file ∧ wasLive = file.isSome
  | .loadCovered wasLive size => e.steps % 2 = 1 ∧ e.Shows layout file ∧ wasLive = file.isSome ∧
      size = (file.getD []).length
  | .store stores size => e.steps % 2 = 1 ∧ size = (write.content (file.getD [])).length ∧
      ∀ i < layout.entryBytes, apply stores e.data i = byteAt (write.content (file.getD [])) i
  | .storeSize size => e.steps % 2 = 1 ∧ size = (write.content (file.getD [])).length ∧
      e.Holds layout (write.content (file.getD []))
  | .storeCovered size => e.steps % 2 = 1 ∧ size = (write.content (file.getD [])).length ∧
      e.Holds layout (write.content (file.getD [])) ∧ e.size = size
  | .storeState => e.steps % 2 = 1 ∧ e.Holds layout (write.content (file.getD [])) ∧
      e.size = (write.content (file.getD [])).length ∧
      e.covered = min (write.content (file.getD [])).length layout.entryBytes
  | .finish => e.steps % 2 = 1 ∧ e.Shows layout (some (write.content (file.getD [])))

def ClearStep.Sound (e : Entry) : ClearStep → Prop
  | .begin => e.steps % 2 = 0
  | .storeState => e.steps % 2 = 1
  | .storeCovered | .storeSize | .finish => e.steps % 2 = 1 ∧ e.state = .cleared

/-- The writer of a key is between two calls, or has not changed its entry yet. -/
def Shared.Quiet (m : Shared) (key : Path) : Prop :=
  ∀ i, (m.table i).owner = some key → (m.table i).Settled ∧ (m.table i).steps % 2 = 0

def Writer.Sound (layout : Layout) (key : Path) (m : Shared) : Writer → Prop
  | .resting _ => m.Quiet key
  | .finding change probe step => key.length ≤ layout.maxPathBytes ∧
      change.Fits layout (m.files key) ∧ m.Quiet key ∧ m.Ahead layout key probe ∧
      step.Sound (m.table (layout.slot key probe)) key
  | .inserting write probe .exchange => key.length ≤ layout.maxPathBytes ∧
      write.Fits layout ((m.files key).getD []) ∧ m.Unlisted key ∧ probe < layout.entries ∧
      ∀ d < probe, (m.table (layout.slot key d)).state ≠ .empty
  | .inserting write probe step => write.Fits layout ((m.files key).getD []) ∧
      m.files key = none ∧ (m.table (layout.slot key probe)).owner = some key ∧
      (m.table (layout.slot key probe)).state = .claiming ∧
      step.Sound (m.table (layout.slot key probe)) key
  | .updating write index step => write.Fits layout ((m.files key).getD []) ∧
      (m.table index).owner = some key ∧ (m.table index).Settled ∧
      step.Sound layout (m.table index) write (m.files key)
  | .clearing index step => (m.table index).owner = some key ∧ (m.table index).Settled ∧
      step.Sound (m.table index)

/-- What a read of the entry at rest returns. -/
def Entry.answer (e : Entry) (read : Read) : Option Bytes :=
  if read.offset ≥ e.size then some []
  else if read.offset + min read.length (e.size - read.offset) > e.covered then none
  else some ((List.range (min read.length (e.size - read.offset))).map
    fun k => e.data (read.offset + k))

/-- What a reader has loaded is what the entry holds. -/
def ReadStep.Agrees (e : Entry) (read : Read) : ReadStep → Prop
  | .loadSeq | .loadState _ => True
  | .loadSize _ => e.state = .live
  | .loadCovered _ size => e.state = .live ∧ size = e.size
  | .copy _ want copied => e.state = .live ∧ read.offset < e.size ∧
      want = min read.length (e.size - read.offset) ∧ read.offset + want ≤ e.covered ∧
      copied.length ≤ want ∧
      copied = (List.range copied.length).map fun k => e.data (read.offset + k)
  | .verify _ result => e.state = .live ∧ result = e.answer read

def ReadStep.before : ReadStep → Option UInt32
  | .loadSeq => none
  | .loadState before | .loadSize before | .loadCovered before _ | .copy before _ _
  | .verify before _ => some before

/-- Since the reader loaded an even sequence word, the entry has not changed or the word
has moved on. -/
def ReadStep.Sound (e : Entry) (read : Read) (step : ReadStep) : Prop :=
  ∀ before, step.before = some before → ∃ n ≤ e.steps, before = UInt32.ofNat n ∧ n % 2 = 0 ∧
    (e.steps = n → step.Agrees e read)

def Reader.Sound (layout : Layout) (m : Shared) : Reader → Prop
  | .resting => True
  | .finding read probe step => step.Sound (m.table (layout.slot read.path probe)) read.path
  | .reading read index _ step => (m.table index).owner = some read.path ∧
      (m.table index).Settled ∧ step.Sound (m.table index) read

def Position.Sound (layout : Layout) (party : Party) (m : Shared) : Position → Prop
  | .writer self =>
    match party with
    | .writer key => self.Sound layout key m
    | .reader _ => False
  | .reader self =>
    match party with
    | .writer _ => False
    | .reader _ => self.Sound layout m

end Positions

section Stability

def Shared.Advances (m n : Shared) : Prop := ∀ i, (m.table i).Advances (n.table i)

/-- What a step of another party leaves the writer of a key. -/
structure Undisturbed (key : Path) (m n : Shared) : Prop where
  advances : m.Advances n
  kept : ∀ i, (m.table i).owner = some key → n.table i = m.table i
  unlisted : ∀ i, (n.table i).owner = some key → (m.table i).owner = some key
  file : n.files key = m.files key

theorem FindStep.Sound.stable {step : FindStep} (advances : e.Advances f)
    (sound : step.Sound e key) : step.Sound f key := by
  cases step with
  | state => trivial
  | hash | length => exact advances.settled sound
  | bytes equal =>
    obtain ⟨settled, length, count, bytes⟩ := sound
    obtain ⟨sameLength, samePath⟩ := advances.path settled
    refine ⟨advances.settled settled, sameLength.trans length, count, ?_⟩
    rwa [samePath]

theorem ReadStep.Sound.stable {read : Read} {step : ReadStep} (advances : e.Advances f)
    (settled : e.Settled) (sound : step.Sound e read) : step.Sound f read := by
  intro before loaded
  obtain ⟨count, early, same, even, agrees⟩ := sound before loaded
  refine ⟨count, Nat.le_trans early (advances.steps settled), same, even, ?_⟩
  intro now
  -- The word has not moved, so no step in between has touched the entry.
  have unmoved : e.steps = count := Nat.le_antisymm (now ▸ advances.steps settled) early
  obtain ⟨state, size, covered, data⟩ :=
    advances.same settled (now.trans unmoved.symm) (unmoved ▸ even)
  have before := agrees unmoved
  cases step with
  | loadSeq | loadState => trivial
  | loadSize => exact state.trans before
  | loadCovered _ loadedSize => exact ⟨state.trans before.1, before.2.trans size.symm⟩
  | copy _ want copied =>
    unfold ReadStep.Agrees
    rwa [state, size, covered, data]
  | verify _ result =>
    unfold ReadStep.Agrees Entry.answer
    rwa [state, size, covered, data]

theorem Reader.Sound.stable {reader : Reader} (advances : m.Advances n)
    (sound : reader.Sound layout m) : reader.Sound layout n := by
  cases reader with
  | resting => trivial
  | finding read probe step => exact FindStep.Sound.stable (advances _) sound
  | reading read index attempt step =>
    obtain ⟨owner, settled, step⟩ := sound
    exact ⟨(advances index).owner _ owner, (advances index).settled settled,
      step.stable (advances index) settled⟩

section
variable (calm : Undisturbed key m n)
include calm

theorem Quiet.stable (quiet : m.Quiet key) : n.Quiet key := by
  intro i owner
  have before := calm.unlisted i owner
  rw [calm.kept i before]
  exact quiet i before

theorem Ahead.stable (ahead : m.Ahead layout key probe) :
    n.Ahead layout key probe := by
  intro i owner
  obtain ⟨distance, reached, bound, slot, passed⟩ := ahead i (calm.unlisted i owner)
  exact ⟨distance, reached, bound, slot, fun d early => (calm.advances _).nonempty (passed d early)⟩

theorem Writer.Sound.stable {writer : Writer} (sound : writer.Sound layout key m) :
    writer.Sound layout key n := by
  cases writer with
  | resting => exact Quiet.stable calm sound
  | finding change probe step =>
    obtain ⟨short, fits, quiet, ahead, step⟩ := sound
    exact ⟨short, calm.file ▸ fits, Quiet.stable calm quiet, Ahead.stable calm ahead,
      FindStep.Sound.stable (calm.advances _) step⟩
  | inserting write probe step =>
    cases step with
    | exchange =>
      obtain ⟨short, fits, unlisted, bound, passed⟩ := sound
      exact ⟨short, calm.file ▸ fits, fun i owner => unlisted i (calm.unlisted i owner), bound,
        fun d early => (calm.advances _).nonempty (passed d early)⟩
    | path | length | hash | covered | size | state =>
      obtain ⟨fits, file, owner, claiming, step⟩ := sound
      have same := calm.kept _ owner
      exact ⟨calm.file ▸ fits, calm.file.trans file, same ▸ owner, same ▸ claiming, same ▸ step⟩
  | updating write index step =>
    obtain ⟨fits, owner, settled, step⟩ := sound
    have same := calm.kept _ owner
    exact ⟨calm.file ▸ fits, same ▸ owner, same ▸ settled, same ▸ calm.file ▸ step⟩
  | clearing index step =>
    obtain ⟨owner, settled, step⟩ := sound
    have same := calm.kept _ owner
    exact ⟨same ▸ owner, same ▸ settled, same ▸ step⟩

end

end Stability

section Search
variable {m : Shared}

/-- A settled entry with the bytes of a key is that key's. -/
theorem owner_of_named {e : Entry} (sound : e.Sound layout m.files) (settled : e.Settled)
    (length : e.pathLen = key.length) (bytes : ∀ i < key.length, e.path i = byteAt key i) :
    e.owner = some key := by
  cases owner : e.owner with
  | none => exact (settled.nonempty (sound.owned.mpr owner)).elim
  | some other =>
    obtain ⟨otherLength, -, otherBytes⟩ := sound.named other owner settled
    congr 1
    apply ext_byteAt (otherLength.symm.trans length)
    intro i inside
    rw [← bytes i inside, otherBytes i (by rwa [← otherLength, length])]

def Search.Sound (layout : Layout) (m : Shared) (key : Path) : Search → Prop
  | .searching probe step => step.Sound (m.table (layout.slot key probe)) key
  | .found index => (m.table index).owner = some key ∧ (m.table index).Settled
  | .absent => True

theorem nextProbe_sound : (layout.nextProbe probe).Sound layout m key := by
  unfold Layout.nextProbe
  split_ifs
  · trivial
  · trivial

theorem find_sound (sound : m.Sound layout)
    (own : step.Sound (m.table (layout.slot key probe)) key) :
    (find layout m.table key probe step).Sound layout m key := by
  cases step with
  | state =>
    rw [find]
    cases state : (m.table (layout.slot key probe)).state with
    | empty => trivial
    | claiming => exact nextProbe_sound
    | live => exact .inl state
    | cleared => exact .inr state
  | hash =>
    rw [find]
    split_ifs
    · exact own
    · exact nextProbe_sound
  | length =>
    rw [find]
    split_ifs with length
    · exact ⟨own, length, Nat.zero_le _, nofun⟩
    · exact nextProbe_sound
  | bytes equal =>
    obtain ⟨settled, length, count, bytes⟩ := own
    rw [find]
    split_ifs with more next
    · refine ⟨settled, length, more, ?_⟩
      intro i early
      rcases Nat.lt_succ_iff_lt_or_eq.mp early with before | rfl
      · exact bytes i before
      · exact next
    · exact nextProbe_sound
    · have all : equal = key.length := Nat.le_antisymm count (Nat.le_of_not_lt more)
      exact ⟨owner_of_named (sound.entries _) settled length (all ▸ bytes), settled⟩

/-- What the key's own writer knows besides: its entry has not been passed. -/
def Search.Ahead (layout : Layout) (m : Shared) (key : Path) : Search → Prop
  | .searching probe _ => m.Ahead layout key probe
  | .found _ => True
  | .absent => m.Unlisted key

theorem nextProbe_ahead (ahead : m.Ahead layout key probe)
    (missed : (m.table (layout.slot key probe)).owner ≠ some key) :
    (layout.nextProbe probe).Ahead layout m key := by
  have further : m.Ahead layout key (probe + 1) := by
    intro i owner
    obtain ⟨distance, reached, bound, rfl, passed⟩ := ahead i owner
    have elsewhere : probe ≠ distance := by
      rintro rfl
      exact missed owner
    exact ⟨distance, Nat.lt_of_le_of_ne reached elsewhere, bound, rfl, passed⟩
  unfold Layout.nextProbe
  split_ifs with more
  · exact further
  · intro i owner
    obtain ⟨distance, reached, bound, -⟩ := further i owner
    exact more (Nat.lt_of_le_of_lt reached bound)

theorem find_ahead (sound : m.Sound layout) (quiet : m.Quiet key)
    (ahead : m.Ahead layout key probe)
    (own : step.Sound (m.table (layout.slot key probe)) key) :
    (find layout m.table key probe step).Ahead layout m key := by
  have named (owner : (m.table (layout.slot key probe)).owner = some key) :=
    (sound.entries _).named key owner (quiet _ owner).1
  cases step with
  | state =>
    rw [find]
    cases state : (m.table (layout.slot key probe)).state with
    | empty =>
      intro i owner
      obtain ⟨distance, reached, -, -, passed⟩ := ahead i owner
      exact passed probe reached state
    | claiming =>
      apply nextProbe_ahead ahead
      intro owner
      exact not_settled_of_claiming state (quiet _ owner).1
    | live | cleared => exact ahead
  | hash =>
    rw [find]
    split_ifs with same
    · exact ahead
    · exact nextProbe_ahead ahead fun owner => same (named owner).2.1
  | length =>
    rw [find]
    split_ifs with same
    · exact ahead
    · exact nextProbe_ahead ahead fun owner => same (named owner).1
  | bytes equal =>
    rw [find]
    split_ifs with more same
    · exact ahead
    · exact nextProbe_ahead ahead fun owner => same ((named owner).2.2 equal more)
    · trivial

end Search

end SpaceDataModule.SabIoMirror

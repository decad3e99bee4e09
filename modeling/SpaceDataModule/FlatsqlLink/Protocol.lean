import SpaceDataModule.FlatsqlLink.Invariant

/-! The mailbox carries one request at a time, and what a client learns of a
request is what the lane wrote for it, as long as each client waits and releases
only for its own request and releases it once. -/
namespace SpaceDataModule.FlatsqlLink
open Interleaving Transition

variable {Thread : Type}

section Steps
variable {m n : Shared Thread}

structure Kept (thread : Thread) (m : Shared Thread) (after : Shared Thread × Client) : Prop where
  sound : after.1.Sound
  own : after.2.Sound thread after.1
  calm : ∀ other, other ≠ thread → Undisturbed other m after.1

/-- A thread that does not hold the mailbox sees the tables only. -/
theorem Undisturbed.of_absent (absent : ¬ m.Holder thread)
    (submitters : ∀ (i : Nat) other, m.submitters[i]? = some other → n.submitters[i]? = some other)
    (completions : n.completions = m.completions)
    (unreleased : ∀ i, m.submitters[i]? = some thread → m.frees.length ≤ i → n.frees.length ≤ i) :
    Undisturbed thread m n where
  submitters := submitters
  completions entry := by rw [completions]; exact id
  longer := Nat.le_of_eq (by rw [completions])
  unreleased := unreleased
  holder holder := (absent holder).elim
  submitting holder := (absent holder).elim
  done holder := (absent holder).elim

theorem absent_of_held (different : other ≠ thread)
    (last : m.submitters.getLast? = some thread) : ¬ m.Holder other :=
  fun holder => different (Option.some.inj (holder.2.symm.trans last))

theorem Undisturbed.of_held (different : other ≠ thread)
    (last : m.submitters.getLast? = some thread) (submitters : n.submitters = m.submitters)
    (frees : n.frees = m.frees) (completions : n.completions = m.completions) :
    Undisturbed other m n := by
  refine .of_absent (absent_of_held different last) ?_ completions ?_
  · rw [submitters]
    exact fun _ _ => id
  · rw [frees]
    exact fun _ _ => id

theorem held_of_busy {state : MailboxState} (busy : state ≠ .idle) : state.held = 1 := by
  cases state with
  | idle => exact (busy rfl).elim
  | submitted | claimed | done | submitting => rfl

theorem Shared.Truthful.mono
    (submitters : ∀ (i : Nat) other, m.submitters[i]? = some other → n.submitters[i]? = some other)
    (completions : ∀ entry ∈ m.completions, entry ∈ n.completions) (truthful : m.Truthful entry) :
    n.Truthful entry := by
  unfold Shared.Truthful at truthful ⊢
  split at truthful
  · obtain ⟨i, owner, same⟩ := truthful
    exact ⟨i, submitters i _ owner, same⟩
  · obtain ⟨status, completed⟩ := truthful
    exact ⟨status, completions _ completed⟩
  · exact completions _ truthful
  · trivial

section
variable (sound : m.Sound)
include sound

theorem Shared.Sound.balance (state : m.box.state = now) :
    m.frees.length + now.held = m.submitters.length ∧
      m.completions.length + now.owed = m.submitters.length :=
  state ▸ ⟨sound.held, sound.owed⟩

/-- A step that leaves the protocol's words alone; the status may change while a
request is being written. -/
theorem Shared.Sound.of_same (state : n.box.state = m.box.state)
    (seq : m.box.state ≠ .submitting → n.box.seq = m.box.seq)
    (doneSeq : n.box.doneSeq = m.box.doneSeq)
    (status : m.box.state ≠ .submitting → n.box.status = m.box.status)
    (lane : n.lane = m.lane) (submitters : n.submitters = m.submitters) (frees : n.frees = m.frees)
    (completions : n.completions = m.completions)
    (returns : ∀ entry ∈ n.returns, m.Truthful entry) : n.Sound where
  small := by rw [submitters]; exact sound.small
  held := by rw [frees, state, submitters, sound.held]
  owed := by rw [completions, state, submitters, sound.owed]
  frees := by rw [frees, submitters]; exact sound.frees
  completions := by rw [completions]; exact sound.completions
  seq writing := by
    rw [state] at writing
    rw [seq writing, submitters, sound.seq writing]
  doneSeq := by rw [doneSeq, completions, lane, sound.doneSeq]
  status done := by
    rw [state] at done
    rw [completions, status (by rw [done]; exact nofun)]
    exact sound.status done
  lane := by
    have before := sound.lane
    unfold Shared.LaneSound at before ⊢
    split at before <;> simp_all
  returns := by
    intro entry member
    have truthful := returns entry member
    unfold Shared.Truthful Shared.Owns at truthful ⊢
    rwa [submitters, completions]

theorem Shared.Sound.returned (truthful : m.Truthful ⟨thread, call, reply⟩) :
    (m.returned thread call reply).Sound := by
  refine sound.of_same rfl (fun _ => rfl) rfl (fun _ => rfl) rfl rfl rfl rfl ?_
  exact forall_mem_concat.mpr ⟨sound.returns, truthful⟩

theorem Kept.returned (truthful : m.Truthful ⟨thread, call, reply⟩) :
    Kept thread m (m.returned thread call reply, .resting) :=
  ⟨sound.returned truthful, trivial, fun _ _ => .of_same rfl rfl rfl rfl rfl⟩

theorem Kept.local (own : client.Sound thread m) : Kept thread m (m, client) :=
  ⟨sound, own, fun _ _ => .of_same rfl rfl rfl rfl rfl⟩

theorem Kept.write (state : m.box.state = .submitting)
    (last : m.submitters.getLast? = some thread) (kept : box.state = .submitting)
    (doneSeq : box.doneSeq = m.box.doneSeq) (own : client.Sound thread { m with box := box }) :
    Kept thread m ({ m with box := box }, client) where
  sound := sound.of_same (kept.trans state.symm) (fun other => (other state).elim) doneSeq
    (fun other => (other state).elim) rfl rfl rfl rfl sound.returns
  own := own
  calm _ different := .of_held different last rfl rfl rfl

theorem number_frees (state : m.box.state ≠ .idle) :
    number m.frees.length = UInt32.ofNat m.submitters.length := by
  have held := sound.held
  rw [number, ← held, held_of_busy state]

/-- The holder's request is the one after those freed. -/
theorem holder_index (holder : m.Holder thread) :
    m.submitters[m.frees.length]? = some thread := by
  obtain ⟨state, last⟩ := holder
  have held := sound.held
  rw [held_of_busy state] at held
  rw [List.getLast?_eq_getElem?] at last
  rwa [show m.frees.length = m.submitters.length - 1 by omega]

theorem Shared.Sound.lane_idle (state : m.box.state ≠ .claimed) (free : n.box.state ≠ .claimed)
    (lane : n.lane = m.lane) : n.LaneSound := by
  have before := sound.lane
  unfold Shared.LaneSound at before ⊢
  rw [lane]
  split at before
  · exact free
  · exact free
  · exact (state before).elim
  · exact (state before.1).elim
  · exact (state before.1).elim

theorem kept_exchange (idle : m.box.state = .idle) (fits : m.submitters.length + 1 < 2 ^ 32) :
    Kept thread m ({ m with
      box := { m.box with state := .submitting }
      submitters := m.submitters ++ [thread] }, .submitting request seq .loadSeq) := by
  obtain ⟨held, owed⟩ := sound.balance idle
  simp only [MailboxState.held, MailboxState.owed, Nat.add_zero] at held owed
  have grow : ∀ (i : Nat) other, m.submitters[i]? = some other →
      (m.submitters ++ [thread])[i]? = some other := by
    intro i other found
    rwa [List.getElem?_append_left (List.getElem?_eq_some_iff.mp found).1]
  refine ⟨?_, ⟨rfl, List.getLast?_concat .., ?_⟩, ?_⟩
  · exact { sound with
      small := by rwa [List.length_append]
      held := by
        rw [List.length_append, held]
        rfl
      owed := by
        rw [List.length_append, owed]
        rfl
      frees := fun i other seq found => ⟨grow i other (sound.frees i other seq found).1,
        (sound.frees i other seq found).2⟩
      seq := fun writing => (writing rfl).elim
      status := nofun
      lane := sound.lane_idle (by rw [idle]; exact nofun) nofun rfl
      returns := fun entry member => (sound.returns entry member).mono grow fun _ => id }
  · rw [held]
    exact sound.seq (by rw [idle]; exact nofun)
  · exact fun other _ => .of_absent (fun holder => holder.1 idle) grow rfl fun _ _ => id

theorem kept_storeState (own : SubmitStep.storeState.Sound thread m seq) :
    Kept thread m ({ m with box := { m.box with state := .submitted } },
      .submitting request seq .ring) := by
  obtain ⟨state, last, stored, same⟩ := own
  have busy : m.box.state ≠ .idle := by rw [state]; exact nofun
  obtain ⟨held, owed⟩ := sound.balance state
  have owner : m.submitters[m.frees.length]? = some thread := holder_index sound ⟨busy, last⟩
  refine ⟨?_, ⟨_, owner, same⟩, fun _ different => .of_held different last rfl rfl rfl⟩
  exact { sound with
    held := held
    owed := owed
    seq := fun _ => stored.trans (number_frees sound busy)
    status := nofun
    lane := sound.lane_idle (by rw [state]; exact nofun) nofun rfl }

theorem kept_submit (fits : m.Fits (.submitting request seq step)) (own : step.Sound thread m seq) :
    Kept thread m (submit thread m request seq step) := by
  cases step with
  | exchange =>
    rw [submit]
    split_ifs with idle
    · exact kept_exchange sound idle (fits idle)
    · exact .returned sound trivial
  | loadSeq =>
    obtain ⟨state, last, same⟩ := own
    apply Kept.local sound
    refine ⟨state, last, ?_⟩
    have held := sound.held
    have small := sound.small
    rw [state] at held
    rw [same, nextSeq_ofNat (by simp only [MailboxState.held] at held; omega)]
  | storeOp | storeReqPtr | storeReqLen | storeStatus | storeRespPtr | storeRespLen
  | storeCancel =>
    obtain ⟨state, last, same⟩ := own
    exact .write sound state last state rfl ⟨state, last, same⟩
  | storeSeq =>
    obtain ⟨state, last, same⟩ := own
    exact .write sound state last state rfl ⟨state, last, same, same⟩
  | storeState => exact kept_storeState sound own
  | ring =>
    exact ⟨sound.of_same rfl (fun _ => rfl) rfl (fun _ => rfl) rfl rfl rfl rfl sound.returns, own,
      fun _ _ => .of_same rfl rfl rfl rfl rfl⟩
  | notify => exact .returned sound own

/-- Once the state is DONE, every request accepted so far has been completed. -/
theorem completed_of_done (done : m.box.state = .done) (owns : m.Owns thread seq) :
    ∃ status, (seq, status) ∈ m.completions := by
  obtain ⟨i, owner, same⟩ := owns
  have within := (List.getElem?_eq_some_iff.mp owner).1
  have owed := sound.owed
  rw [done] at owed
  obtain ⟨⟨completed, status⟩, found⟩ : ∃ entry, m.completions[i]? = some entry :=
    ⟨_, List.getElem?_eq_getElem (Nat.add_right_cancel owed ▸ within)⟩
  rw [same, ← sound.completions i completed status found]
  exact ⟨status, List.mem_of_getElem? found⟩

theorem kept_poll (own : (Client.polling seq done).Sound thread m) :
    Kept thread m (poll thread m seq done) := by
  cases done with
  | none =>
    obtain ⟨owner, owns⟩ := own
    apply Kept.local sound
    intro done
    exact completed_of_done sound (of_decide_eq_true done) owns
  | some done =>
    apply Kept.returned sound
    unfold Shared.Truthful
    cases done with
    | false => trivial
    | true =>
      split
      · contradiction
      · rename_i same _
        cases same
        exact own rfl
      · contradiction
      · trivial

/-- A number is published ahead of DONE only while its request is owed. -/
theorem published_le_owed : m.lane.published ≤ m.box.state.owed := by
  have lane := sound.lane
  unfold Shared.LaneSound at lane
  unfold Lane.published
  split
  · rename_i same
    rw [same] at lane
    rw [lane.1]
    exact Nat.le_refl 1
  · exact Nat.zero_le _

/-- A thread that finds DONE finds its own request complete, or has been passed by. -/
theorem current_or_past (done : m.box.state = .done) (owns : m.Owns thread seq) :
    m.Current thread seq ∨ m.Past seq := by
  obtain ⟨i, owner, same⟩ := owns
  have within := (List.getElem?_eq_some_iff.mp owner).1
  obtain ⟨held, owed⟩ := sound.balance done
  simp only [MailboxState.owed, MailboxState.held] at owed held
  by_cases last : i + 1 < m.completions.length
  · exact .inr ⟨i, same, last⟩
  · have index : i = m.submitters.length - 1 := by omega
    refine .inl ⟨done, ?_, ?_⟩
    · rw [List.getLast?_eq_getElem?, ← index, owner]
    · rw [same, show i = m.frees.length by omega]

theorem doneSeq_past (past : m.Past seq) : m.box.doneSeq ≠ seq := by
  obtain ⟨i, same, later⟩ := past
  intro equal
  have owed := sound.owed
  have small := sound.small
  have published := published_le_owed sound
  obtain ⟨count, total⟩ : ∃ count, m.completions.length + m.lane.published = count + 1 :=
    Nat.exists_eq_add_one.mpr (by omega)
  have numbers : number count = number i := by
    rw [number, ← total, ← sound.doneSeq, equal, same]
  have := number_inj (by omega) (by omega) numbers
  omega

theorem current_completed (current : m.Current thread seq) :
    (seq, m.box.status) ∈ m.completions := by
  obtain ⟨done, -, same⟩ := current
  obtain ⟨completed, last⟩ := sound.status done
  obtain ⟨held, owed⟩ := sound.balance done
  simp only [MailboxState.owed, MailboxState.held] at owed held
  have found : m.completions[m.frees.length]? = some (completed, m.box.status) := by
    rw [← last, List.getLast?_eq_getElem?]
    congr 1
    omega
  rw [same, ← sound.completions _ _ _ found]
  exact List.mem_of_getElem? found

theorem kept_wait (own : (Client.waiting seq pollNs maxPolls polls step).Sound thread m) :
    Kept thread m (wait thread m seq pollNs maxPolls polls step) := by
  obtain ⟨owns, own⟩ := own
  cases step with
  | loadState =>
    apply Kept.local sound
    refine ⟨owns, ?_⟩
    cases state : m.box.state with
    | idle | submitted | claimed | submitting => trivial
    | done => exact current_or_past sound state owns
  | loadDone state =>
    rw [wait]
    split_ifs with complete
    · obtain ⟨rfl, same⟩ := complete
      apply Kept.local sound
      rcases own with current | past
      · exact ⟨owns, current⟩
      · exact (doneSeq_past sound past same).elim
    · exact .returned sound trivial
    · exact .local sound ⟨owns, trivial⟩
    · exact .local sound ⟨owns, trivial⟩
  | loadStatus => exact .returned sound (current_completed sound own)
  | sleep state => exact .local sound ⟨owns, trivial⟩

theorem kept_free (holder : m.Holder thread) (same : seq = number m.frees.length)
    (done : m.box.state = .done) :
    Kept thread m ({ m with
      box := { m.box with state := .idle }
      frees := m.frees ++ [(thread, seq)]
      returns := m.returns ++ [⟨thread, .release seq, .released true⟩] }, .resting) := by
  have owner := holder_index sound holder
  obtain ⟨held, owed⟩ := sound.balance done
  refine ⟨?_, trivial, ?_⟩
  · exact { sound with
      held := by
        rw [List.length_append]
        exact held
      owed := owed
      frees := by
        intro i other released found
        rcases getElem?_concat_cases found with before | ⟨rfl, ⟨⟩⟩
        · exact sound.frees i other released before
        · exact ⟨owner, same⟩
      seq := fun _ => sound.seq (by rw [done]; exact nofun)
      status := nofun
      lane := sound.lane_idle (by rw [done]; exact nofun) nofun rfl
      returns := forall_mem_concat.mpr ⟨fun entry early =>
        (sound.returns entry early).mono (fun _ _ => id) fun _ => id, trivial⟩ }
  · intro other different
    refine .of_absent (absent_of_held different holder.2) (fun _ _ => id) rfl ?_
    intro i mine unreleased
    have elsewhere : i ≠ m.frees.length := by
      rintro rfl
      exact different (Option.some.inj (mine.symm.trans owner))
    rw [List.length_append]
    exact Nat.lt_of_le_of_ne unreleased elsewhere.symm

/-- The request a thread has still to release is the one that holds the mailbox. -/
theorem holder_of_unreleased (owner : m.submitters[i]? = some thread)
    (unreleased : m.frees.length ≤ i) : m.Holder thread ∧ i = m.frees.length := by
  have within := (List.getElem?_eq_some_iff.mp owner).1
  have held := sound.held
  have busy : m.box.state ≠ .idle := by
    intro idle
    rw [idle] at held
    exact absurd (Nat.lt_of_le_of_lt unreleased within) (Nat.not_lt_of_le (Nat.le_of_eq held.symm))
  rw [held_of_busy busy] at held
  have index : i = m.submitters.length - 1 := by omega
  refine ⟨⟨busy, ?_⟩, by omega⟩
  rw [List.getLast?_eq_getElem?, ← index, owner]

theorem kept_release (own : (Client.releasing seq step).Sound thread m) :
    Kept thread m (release thread m seq step) := by
  cases step with
  | loadDone =>
    obtain ⟨i, owner, same, unreleased⟩ := own
    rw [release]
    split_ifs
    · obtain ⟨holder, rfl⟩ := holder_of_unreleased sound owner unreleased
      exact .local sound ⟨holder, same⟩
    · exact .returned sound trivial
  | exchange =>
    obtain ⟨holder, same⟩ := own
    rw [release]
    split_ifs with done
    · exact kept_free sound holder same done
    · exact .returned sound trivial

theorem kept_cancel : Kept thread m (cancel thread m seq step) := by
  cases step with
  | store | ring =>
    exact ⟨sound.of_same rfl (fun _ => rfl) rfl (fun _ => rfl) rfl rfl rfl rfl sound.returns,
      trivial, fun _ _ => .of_same rfl rfl rfl rfl rfl⟩
  | notify => exact .returned sound trivial

end

end Steps

section Lane
variable {m n : Shared Thread}

/-- The lane moves the state of a request that is neither being written nor complete. -/
theorem Undisturbed.of_lane (writing : m.box.state ≠ .submitting) (owed : m.box.state ≠ .done)
    (busy : n.box.state ≠ .idle) (submitters : n.submitters = m.submitters)
    (frees : n.frees = m.frees) (completions : ∀ entry ∈ m.completions, entry ∈ n.completions)
    (longer : m.completions.length ≤ n.completions.length) : Undisturbed thread m n where
  submitters i other := by rw [submitters]; exact id
  completions := completions
  longer := longer
  unreleased i _ := by rw [frees]; exact id
  holder holder := ⟨submitters, frees, busy, by rw [submitters]; exact holder.2⟩
  submitting _ state := (writing state).elim
  done _ state := (owed state).elim

def Served (m n : Shared Thread) : Prop := n.Sound ∧ ∀ thread, Undisturbed thread m n

section
variable (sound : m.Sound)
include sound

/-- The lane's steps between claiming a request and publishing it. -/
theorem Served.of_same (state : box.state = m.box.state)
    (seq : box.seq = m.box.seq)
    (doneSeq : box.doneSeq = UInt32.ofNat (m.completions.length + lane.published))
    (status : m.box.state = .done → box.status = m.box.status)
    (laneSound : Shared.LaneSound { m with box := box, lane := lane }) :
    Served m { m with box := box, lane := lane } := by
  refine ⟨?_, fun _ => .of_same state seq rfl rfl rfl⟩
  exact { sound with
    held := by rw [state]; exact sound.held
    owed := by rw [state]; exact sound.owed
    seq := by rw [state, seq]; exact sound.seq
    doneSeq := doneSeq
    status := by
      intro done
      rw [state] at done
      rw [status done]
      exact sound.status done
    lane := laneSound }

theorem served_claim (submitted : m.box.state = .submitted) (lane : m.lane = .resting) :
    Served m { m with box := { m.box with state := .claimed }, lane := .claimed } := by
  obtain ⟨held, owed⟩ := sound.balance submitted
  have doneSeq := sound.doneSeq
  rw [lane] at doneSeq
  refine ⟨?_, fun _ => .of_lane (by rw [submitted]; exact nofun) (by rw [submitted]; exact nofun)
    nofun rfl rfl (fun _ => id) (Nat.le_refl _)⟩
  exact { sound with
    held := held
    owed := owed
    seq := fun _ => sound.seq (by rw [submitted]; exact nofun)
    doneSeq := doneSeq
    status := nofun
    lane := rfl }

theorem served_state (lane : m.lane = .storing seq response .state) :
    Served m (m.store seq response .state) := by
  have laneSound := sound.lane
  have doneSeq := sound.doneSeq
  rw [Shared.LaneSound, lane] at laneSound
  rw [lane] at doneSeq
  obtain ⟨claimed, same, status⟩ := laneSound
  obtain ⟨held, owed⟩ := sound.balance claimed
  have grow : ∀ entry ∈ m.completions, entry ∈ m.completions ++ [(seq, response.status)] :=
    fun entry member => List.mem_append_left _ member
  refine ⟨?_, fun _ => .of_lane (by rw [claimed]; exact nofun) (by rw [claimed]; exact nofun)
    nofun rfl rfl grow (List.length_append ▸ Nat.le_add_right _ _)⟩
  exact { sound with
    held := held
    owed := by
      rw [Shared.store, List.length_append]
      exact owed
    completions := by
      intro i completed result found
      rcases getElem?_concat_cases found with before | ⟨rfl, ⟨⟩⟩
      · exact sound.completions i completed result before
      · exact same
    seq := fun _ => sound.seq (by rw [claimed]; exact nofun)
    doneSeq := by
      rw [Shared.store, List.length_append]
      exact doneSeq
    status := fun _ => ⟨seq, by rw [Shared.store, status nofun]; exact List.getLast?_concat ..⟩
    lane := nofun
    returns := fun entry member =>
      Shared.Truthful.mono (m := m) (fun _ _ => id) grow (sound.returns entry member) }

theorem served_store (lane : m.lane = .storing seq response step) :
    Served m (m.store seq response step) := by
  have laneSound := sound.lane
  have doneSeq := sound.doneSeq
  rw [Shared.LaneSound, lane] at laneSound
  rw [lane] at doneSeq
  cases step with
  | status =>
    obtain ⟨claimed, same, -⟩ := laneSound
    exact .of_same sound rfl rfl doneSeq (by rw [claimed]; exact nofun) ⟨claimed, same, fun _ => rfl⟩
  | respPtr | respLen | generation =>
    obtain ⟨claimed, same, status⟩ := laneSound
    exact .of_same sound rfl rfl doneSeq (fun _ => rfl) ⟨claimed, same, fun _ => status nofun⟩
  | doneSeq =>
    obtain ⟨claimed, same, status⟩ := laneSound
    exact .of_same sound rfl rfl same (fun _ => rfl) ⟨claimed, same, fun _ => status nofun⟩
  | state => exact served_state sound lane
  | notify => exact .of_same sound rfl rfl doneSeq (fun _ => rfl) laneSound

theorem served_happen (happened : happen event m = some n) : Served m n := by
  have laneSound := sound.lane
  have doneSeq := sound.doneSeq
  unfold Shared.LaneSound at laneSound
  unfold happen at happened
  split at happened
  · rename_i lane
    split_ifs at happened with submitted
    · cases happened
      exact served_claim sound submitted lane
    · cases happened
      exact ⟨sound, fun _ => .of_same rfl rfl rfl rfl rfl⟩
  · rename_i lane
    rw [lane] at laneSound doneSeq
    cases happened
    have owed := sound.owed
    rw [laneSound] at owed
    refine .of_same sound rfl rfl doneSeq (fun _ => rfl) ⟨laneSound, ?_⟩
    rw [sound.seq (by rw [laneSound]; exact nofun), ← owed]
    rfl
  · cases happened
  · rename_i lane
    cases happened
    exact served_store sound lane
  · rename_i lane
    rw [lane] at laneSound doneSeq
    cases happened
    exact .of_same sound rfl rfl doneSeq (fun _ => rfl) ⟨laneSound.1, laneSound.2, nofun⟩
  · cases happened

end

end Lane

section Runs
variable {t : Config (Shared Thread) Thread Client}

def Protocol (s : Config (Shared Thread) Thread Client) : Prop :=
  Holds Shared.Sound (fun thread m client => client.Sound thread m) s

theorem owns_of_issued {m : Shared Thread} (sound : m.Sound) (issued : m.Issued thread seq) :
    m.Owns thread seq := by
  obtain ⟨request, member⟩ := issued
  exact sound.returns _ member

theorem enter_sound (sound : s.shared.Sound)
    (admitted : Disciplined s (.thread thread (.call call))) :
    call.enter.Sound thread s.shared := by
  cases call with
  | submit request => trivial
  | poll seq =>
    obtain ⟨owner, issued⟩ := admitted
    exact ⟨owner, owns_of_issued sound issued⟩
  | wait seq pollNs maxPolls => exact ⟨owns_of_issued sound admitted, trivial⟩
  | release seq =>
    obtain ⟨issued, fresh⟩ := admitted
    obtain ⟨i, owner, same⟩ := owns_of_issued sound issued
    refine ⟨i, owner, same, Nat.le_of_not_lt fun released => ?_⟩
    -- The entry of `frees` at this index would be this very release.
    obtain ⟨⟨other, freed⟩, found⟩ : ∃ entry, s.shared.frees[i]? = some entry :=
      ⟨_, List.getElem?_eq_getElem released⟩
    obtain ⟨submitter, rfl⟩ := sound.frees i other freed found
    cases submitter.symm.trans owner
    rw [same] at fresh
    exact fresh (List.mem_of_getElem? found)
  | cancel seq => trivial

theorem kept_act (holds : Protocol s) (admitted : Disciplined s (.thread thread move))
    (acted : act thread move s.shared (s.locals thread) = some after) :
    Kept thread s.shared after := by
  have sound := holds.shared
  have own := holds.locals thread
  cases move with
  | call call =>
    cases client : s.locals thread with
    | resting =>
      rw [client] at acted
      cases acted
      exact .local sound (enter_sound sound admitted)
    | submitting | polling | waiting | releasing | cancelling =>
      rw [client] at acted
      cases acted
  | step =>
    have fits : s.shared.Fits (s.locals thread) := admitted
    cases client : s.locals thread with
    | resting =>
      rw [client] at acted
      cases acted
    | submitting request seq step =>
      rw [client] at acted own fits
      cases acted
      exact kept_submit sound fits own
    | polling seq done =>
      rw [client] at acted own
      cases acted
      exact kept_poll sound own
    | waiting seq pollNs maxPolls polls step =>
      rw [client] at acted own
      cases acted
      exact kept_wait sound own
    | releasing seq step =>
      rw [client] at acted own
      cases acted
      exact kept_release sound own
    | cancelling seq step =>
      rw [client] at acted
      cases acted
      exact kept_cancel sound

def initial : Config (Shared Thread) Thread Client := ⟨{}, fun _ => .resting⟩

theorem Protocol.initial : Protocol (initial : Config (Shared Thread) Thread Client) where
  shared := {
    small := Nat.two_pow_pos 32
    held := rfl
    owed := rfl
    frees := nofun
    completions := nofun
    seq := fun _ => rfl
    doneSeq := rfl
    status := nofun
    lane := nofun
    returns := nofun }
  locals _ := trivial

def Shared.Completed (m : Shared Thread) (seq status : UInt32) : Prop :=
  ∃ i thread, m.submitters[i]? = some thread ∧ seq = number i ∧
    m.completions[i]? = some (seq, status) ∧ ∀ other, (seq, other) ∈ m.completions → other = status

theorem completed_of_mem {m : Shared Thread} (sound : m.Sound)
    (member : (seq, status) ∈ m.completions) : m.Completed seq status := by
  have owed := sound.owed
  have small := sound.small
  obtain ⟨i, within, found⟩ := List.getElem_of_mem member
  have here := List.getElem?_eq_some_iff.mpr ⟨within, found⟩
  refine ⟨i, m.submitters[i], List.getElem?_eq_getElem _, sound.completions i _ _ here, here, ?_⟩
  intro other again
  obtain ⟨j, below, equal⟩ := List.getElem_of_mem again
  have there := List.getElem?_eq_some_iff.mpr ⟨below, equal⟩
  have numbers := (sound.completions i _ _ here).symm.trans (sound.completions j _ _ there)
  cases number_inj (by omega) (by omega) numbers
  exact (Prod.mk.inj (equal.symm.trans found)).2

variable [DecidableEq Thread]

theorem Protocol.next (holds : Protocol s) (admitted : Disciplined s label)
    (taken : Interleaving.next act happen s label = some t) : Protocol t := by
  cases label with
  | thread thread move =>
    apply Holds.thread holds taken
    · intro shared self acted
      have kept := kept_act holds admitted acted
      exact ⟨kept.sound, kept.own⟩
    · intro shared self acted other different standing
      exact standing.stable ((kept_act holds admitted acted).calm other different)
  | event event =>
    apply Holds.event holds taken
    intro shared happened
    obtain ⟨sound, calm⟩ := served_happen holds.shared happened
    exact ⟨sound, fun thread standing => standing.stable (calm thread)⟩

/-- One request is under way at a time, completion is reported of completed requests
only and with the lane's status, and each release frees the releasing thread's own
request. -/
theorem mailbox_exclusive {labels : List (Label Thread Move Event)}
    {last : Config (Shared Thread) Thread Client}
    (trace : Trace (Interleaving.next act happen) Disciplined initial labels last) :
    last.shared.submitters.length ≤ last.shared.frees.length + 1 ∧
      (∀ thread request seq, ⟨thread, .submit request, .submitted seq⟩ ∈ last.shared.returns →
        last.shared.Owns thread seq) ∧
      (∀ thread seq, ⟨thread, .poll seq, .polled true⟩ ∈ last.shared.returns →
        ∃ status, last.shared.Completed seq status) ∧
      (∀ thread seq pollNs maxPolls status,
        ⟨thread, .wait seq pollNs maxPolls, .status status⟩ ∈ last.shared.returns →
          last.shared.Completed seq status) ∧
      (∀ i thread seq, last.shared.frees[i]? = some (thread, seq) →
        last.shared.submitters[i]? = some thread ∧ seq = number i) := by
  have holds : Protocol last := trace.invariant Protocol.initial fun _ _ _ admitted taken holds =>
    holds.next admitted taken
  have sound := holds.shared
  refine ⟨?_, ?_, ?_, ?_, sound.frees⟩
  · rw [← sound.held]
    apply Nat.add_le_add_left
    cases last.shared.box.state <;> decide
  · intro thread request seq returned
    exact sound.returns _ returned
  · intro thread seq returned
    obtain ⟨status, member⟩ := sound.returns _ returned
    exact ⟨status, completed_of_mem sound member⟩
  · intro thread seq pollNs maxPolls status returned
    exact completed_of_mem sound (sound.returns _ returned)

section Schedules

def submission (thread : Bool) : List (Label Bool Move Event) :=
  .thread thread (.call (.submit ⟨1, 0, 0⟩)) :: List.replicate 13 (.thread thread .step)

def service (status : UInt32) : List (Label Bool Move Event) :=
  [.event .lane, .event .lane, .event (.finish ⟨status, 0, 0, 0⟩)] ++
    List.replicate 7 (.event .lane)

def calling (thread : Bool) (call : Call) (steps : Nat) : List (Label Bool Move Event) :=
  .thread thread (.call call) :: List.replicate steps (.thread thread .step)

structure Record where
  submitters : List Bool
  frees : List (Bool × UInt32)
  completions : List (UInt32 × UInt32)
  reply : Option Reply
  deriving DecidableEq

def record (s : Config (Shared Bool) Bool Client) : Record where
  submitters := s.shared.submitters
  frees := s.shared.frees
  completions := s.shared.completions
  reply := s.shared.returns.getLast?.map Returned.reply

end Schedules

theorem mailbox_exclusive_two_threads : ∃ last,
    Trace (Interleaving.next act happen) Disciplined initial
      (submission true ++ service 7 ++ calling false (.poll 1) 2 ++ calling true (.wait 1 0 0) 3 ++
        calling true (.release 1) 2) last ∧
      record last = ⟨[true], [(true, 1)], [(1, 7)], some (.released true)⟩ ∧
      last.shared.submitters.length ≤ last.shared.frees.length + 1 :=
  Trace.of_view_and record (fun _ trace _ => (mailbox_exclusive trace).1) (by decide)

/-- The test of `done_seq` and the exchange of `mb_release` are two steps: a second
release of request 1 frees the mailbox under the other thread's request 2. The test and
the load of the status in `mb_wait` are two steps too: a thread that waits for another's
request can read the status of the next one, which is not set yet. -/
theorem mailbox_freed_under_other_request :
    (∃ last, Trace (Interleaving.next act happen) OwnReleases initial
      (submission true ++ service 7 ++ calling true (.release 1) 2 ++
        calling true (.release 1) 1 ++ submission false ++ service 9 ++ [.thread true .step]) last ∧
      record last = ⟨[true, false], [(true, 1), (true, 1)], [(1, 7), (2, 9)],
        some (.released true)⟩) ∧
    ∃ last, Trace (Interleaving.next act happen) OwnReleases initial
      (submission true ++ service 7 ++ calling false (.wait 1 0 0) 2 ++
        calling true (.release 1) 2 ++ calling true (.submit ⟨1, 0, 0⟩) 6 ++
          [.thread false .step]) last ∧
      record last = ⟨[true, true], [(true, 1)], [(1, 7)], some (.status 0)⟩ :=
  ⟨Trace.of_view record (by decide), Trace.of_view record (by decide)⟩

end Runs

end SpaceDataModule.FlatsqlLink

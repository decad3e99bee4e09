import Mathlib.Data.List.Basic
import SpaceDataModule.FlatsqlLink.Mailbox

/-! What holds of the mailbox between steps, what holds of a client at each
instruction, and what of the latter the other threads leave standing. -/
namespace SpaceDataModule.FlatsqlLink
open Interleaving Transition

variable {Thread : Type}

def number (index : Nat) : UInt32 := UInt32.ofNat (index + 1)

theorem number_inj (first : i + 1 < 2 ^ 32) (second : j + 1 < 2 ^ 32) (same : number i = number j) :
    i = j := by
  have values := congrArg UInt32.toNat same
  simp only [number, UInt32.toNat_ofNat'] at values
  omega

theorem nextSeq_ofNat (small : count + 1 < 2 ^ 32) :
    nextSeq (UInt32.ofNat count) = number count := by
  have sum : UInt32.ofNat count + 1 = number count := by
    rw [number, UInt32.ofNat_add]
    rfl
  have nonzero : number count ≠ 0 := by
    intro zero
    have value := congrArg UInt32.toNat zero
    rw [number, UInt32.toNat_ofNat', Nat.mod_eq_of_lt small] at value
    cases value
  rw [nextSeq, sum, if_neg nonzero]

/-- `mb_submit` has returned this number to a thread. -/
def Shared.Issued (m : Shared Thread) (thread : Thread) (seq : UInt32) : Prop :=
  ∃ request, ⟨thread, .submit request, .submitted seq⟩ ∈ m.returns

/-- An accepted submission is one of fewer than `2 ^ 32`. -/
def Shared.Fits (m : Shared Thread) : Client → Prop
  | .submitting _ _ .exchange => m.box.state = .idle → m.submitters.length + 1 < 2 ^ 32
  | _ => True

/-- Fewer than `2 ^ 32` submissions, numbers come from `mb_submit`, and a thread
releases only what it submitted. -/
def OwnReleases (s : Config (Shared Thread) Thread Client) : Label Thread Move Event → Prop
  | .thread thread .step => s.shared.Fits (s.locals thread)
  | .thread thread (.call (.release seq)) => s.shared.Issued thread seq
  | .thread _ (.call (.poll seq)) | .thread _ (.call (.wait seq _ _)) =>
    ∃ thread, s.shared.Issued thread seq
  | _ => True

/-- Besides, a thread waits only for what it submitted, and does not release again
what it has released. -/
def Disciplined (s : Config (Shared Thread) Thread Client) : Label Thread Move Event → Prop
  | .thread thread (.call (.release seq)) =>
    s.shared.Issued thread seq ∧ (thread, seq) ∉ s.shared.frees
  | .thread thread (.call (.wait seq _ _)) => s.shared.Issued thread seq
  | label => OwnReleases s label

section Decidability

def Returned.issued (entry : Returned Thread) : Option UInt32 :=
  match entry.call, entry.reply with
  | .submit _, .submitted seq => some seq
  | _, _ => none

theorem Returned.of_issued {entry : Returned Thread} (issued : entry.issued = some seq) :
    ∃ request, entry = ⟨entry.thread, .submit request, .submitted seq⟩ := by
  obtain ⟨thread, call, reply⟩ := entry
  cases call with
  | submit request =>
    cases reply with
    | submitted returned =>
      cases issued
      exact ⟨request, rfl⟩
    | busy | polled | status | pending | released | cancelled => cases issued
  | poll | wait | release | cancel => cases issued

theorem issued_iff {m : Shared Thread} :
    m.Issued thread seq ↔ ∃ entry ∈ m.returns, entry.thread = thread ∧ entry.issued = some seq := by
  constructor
  · rintro ⟨request, member⟩
    exact ⟨_, member, rfl, rfl⟩
  · rintro ⟨entry, member, rfl, issued⟩
    obtain ⟨request, same⟩ := Returned.of_issued issued
    exact ⟨request, same ▸ member⟩

theorem exists_issued_iff {m : Shared Thread} :
    (∃ thread, m.Issued thread seq) ↔ ∃ entry ∈ m.returns, entry.issued = some seq := by
  constructor
  · rintro ⟨thread, issued⟩
    obtain ⟨entry, member, -, issued⟩ := issued_iff.mp issued
    exact ⟨entry, member, issued⟩
  · rintro ⟨entry, member, issued⟩
    exact ⟨entry.thread, issued_iff.mpr ⟨entry, member, rfl, issued⟩⟩

instance (m : Shared Thread) (client : Client) : Decidable (m.Fits client) := by
  unfold Shared.Fits
  split <;> infer_instance

variable [DecidableEq Thread]

instance (m : Shared Thread) (thread : Thread) (seq : UInt32) : Decidable (m.Issued thread seq) :=
  decidable_of_iff _ issued_iff.symm

instance (m : Shared Thread) (seq : UInt32) : Decidable (∃ thread, m.Issued thread seq) :=
  decidable_of_iff _ exists_issued_iff.symm

variable (s : Config (Shared Thread) Thread Client) (label : Label Thread Move Event)

instance : Decidable (OwnReleases s label) := by
  unfold OwnReleases
  split <;> infer_instance

instance : Decidable (Disciplined s label) := by
  unfold Disciplined
  split <;> infer_instance

end Decidability

section Invariant

def MailboxState.held : MailboxState → Nat
  | .idle => 0
  | _ => 1

def MailboxState.owed : MailboxState → Nat
  | .idle | .done => 0
  | _ => 1

def Lane.published : Lane → Nat
  | .storing _ _ .state => 1
  | _ => 0

def Shared.Owns (m : Shared Thread) (thread : Thread) (seq : UInt32) : Prop :=
  ∃ i, m.submitters[i]? = some thread ∧ seq = number i

def Shared.Holder (m : Shared Thread) (thread : Thread) : Prop :=
  m.box.state ≠ .idle ∧ m.submitters.getLast? = some thread

def Shared.LaneSound (m : Shared Thread) : Prop :=
  match m.lane with
  | .resting | .storing _ _ .notify => m.box.state ≠ .claimed
  | .claimed => m.box.state = .claimed
  | .running seq => m.box.state = .claimed ∧ seq = number m.completions.length
  | .storing seq response step => m.box.state = .claimed ∧
      seq = number m.completions.length ∧ (step ≠ .status → m.box.status = response.status)

def Shared.Truthful (m : Shared Thread) (entry : Returned Thread) : Prop :=
  match entry.call, entry.reply with
  | .submit _, .submitted seq => m.Owns entry.thread seq
  | .poll seq, .polled true => ∃ status, (seq, status) ∈ m.completions
  | .wait seq _ _, .status status => (seq, status) ∈ m.completions
  | _, _ => True

structure Shared.Sound (m : Shared Thread) : Prop where
  small : m.submitters.length < 2 ^ 32
  held : m.frees.length + m.box.state.held = m.submitters.length
  owed : m.completions.length + m.box.state.owed = m.submitters.length
  frees : ∀ i thread seq, m.frees[i]? = some (thread, seq) →
    m.submitters[i]? = some thread ∧ seq = number i
  completions : ∀ i seq status, m.completions[i]? = some (seq, status) → seq = number i
  seq : m.box.state ≠ .submitting → m.box.seq = UInt32.ofNat m.submitters.length
  doneSeq : m.box.doneSeq = UInt32.ofNat (m.completions.length + m.lane.published)
  status : m.box.state = .done → ∃ seq, m.completions.getLast? = some (seq, m.box.status)
  lane : m.LaneSound
  returns : ∀ entry ∈ m.returns, m.Truthful entry

/-- Inside `mb_submit`, the mailbox is this thread's to write. -/
def SubmitStep.Sound (thread : Thread) (m : Shared Thread) (seq : UInt32) : SubmitStep → Prop
  | .exchange => True
  | .loadSeq => m.box.state = .submitting ∧ m.submitters.getLast? = some thread ∧
      m.box.seq = UInt32.ofNat m.frees.length
  | .storeState => m.box.state = .submitting ∧ m.submitters.getLast? = some thread ∧
      m.box.seq = number m.frees.length ∧ seq = number m.frees.length
  | .ring | .notify => m.Owns thread seq
  | _ => m.box.state = .submitting ∧ m.submitters.getLast? = some thread ∧
      seq = number m.frees.length

def Shared.Current (m : Shared Thread) (thread : Thread) (seq : UInt32) : Prop :=
  m.box.state = .done ∧ m.submitters.getLast? = some thread ∧ seq = number m.frees.length

def Shared.Past (m : Shared Thread) (seq : UInt32) : Prop :=
  ∃ i, seq = number i ∧ i + 1 < m.completions.length

def WaitStep.Sound (thread : Thread) (m : Shared Thread) (seq : UInt32) : WaitStep → Prop
  | .loadDone .done => m.Current thread seq ∨ m.Past seq
  | .loadStatus => m.Current thread seq
  | _ => True

def Client.Sound (thread : Thread) (m : Shared Thread) : Client → Prop
  | .resting | .cancelling _ _ => True
  | .submitting _ seq step => step.Sound thread m seq
  | .polling seq none => ∃ owner, m.Owns owner seq
  | .polling seq (some done) => done = true → ∃ status, (seq, status) ∈ m.completions
  | .waiting seq _ _ _ step => m.Owns thread seq ∧ step.Sound thread m seq
  | .releasing seq .loadDone =>
    ∃ i, m.submitters[i]? = some thread ∧ seq = number i ∧ m.frees.length ≤ i
  | .releasing seq .exchange => m.Holder thread ∧ seq = number m.frees.length

end Invariant

section Stability
variable {m n : Shared Thread} {thread : Thread}

/-- What the rest of the system leaves as it is, seen from one thread. -/
structure Undisturbed (thread : Thread) (m n : Shared Thread) : Prop where
  submitters : ∀ (i : Nat) other, m.submitters[i]? = some other → n.submitters[i]? = some other
  completions : ∀ entry ∈ m.completions, entry ∈ n.completions
  longer : m.completions.length ≤ n.completions.length
  unreleased : ∀ i, m.submitters[i]? = some thread → m.frees.length ≤ i → n.frees.length ≤ i
  holder : m.Holder thread → n.submitters = m.submitters ∧ n.frees = m.frees ∧ n.Holder thread
  submitting : m.Holder thread → m.box.state = .submitting →
    n.box.state = .submitting ∧ n.box.seq = m.box.seq
  done : m.Holder thread → m.box.state = .done → n.box.state = .done

theorem Undisturbed.of_same (state : n.box.state = m.box.state) (seq : n.box.seq = m.box.seq)
    (submitters : n.submitters = m.submitters) (frees : n.frees = m.frees)
    (completions : n.completions = m.completions) : Undisturbed thread m n where
  submitters i other := by rw [submitters]; exact id
  completions entry := by rw [completions]; exact id
  longer := Nat.le_of_eq (by rw [completions])
  unreleased i _ := by rw [frees]; exact id
  holder holder := ⟨submitters, frees, by rwa [Shared.Holder, state, submitters]⟩
  submitting _ submitting := ⟨state.trans submitting, seq⟩
  done _ done := state.trans done

section
variable (calm : Undisturbed thread m n)
include calm

theorem Owns.stable (owns : m.Owns owner seq) : n.Owns owner seq := by
  obtain ⟨i, owner, same⟩ := owns
  exact ⟨i, calm.submitters i _ owner, same⟩

theorem SubmitStep.Sound.stable {step : SubmitStep} (sound : step.Sound thread m seq) :
    step.Sound thread n seq := by
  have held (state : m.box.state = .submitting) (last : m.submitters.getLast? = some thread) :
      m.Holder thread := ⟨by rw [state]; exact nofun, last⟩
  cases step with
  | exchange => trivial
  | ring | notify => exact Owns.stable calm sound
  | loadSeq =>
    obtain ⟨state, last, same⟩ := sound
    obtain ⟨submitters, frees, holder⟩ := calm.holder (held state last)
    obtain ⟨submitting, seq⟩ := calm.submitting (held state last) state
    exact ⟨submitting, holder.2, by rw [seq, frees, same]⟩
  | storeState =>
    obtain ⟨state, last, stored, same⟩ := sound
    obtain ⟨submitters, frees, holder⟩ := calm.holder (held state last)
    obtain ⟨submitting, seq⟩ := calm.submitting (held state last) state
    exact ⟨submitting, holder.2, by rw [seq, frees, stored], by rw [frees, same]⟩
  | storeOp | storeReqPtr | storeReqLen | storeStatus | storeRespPtr | storeRespLen | storeCancel
  | storeSeq =>
    obtain ⟨state, last, same⟩ := sound
    obtain ⟨submitters, frees, holder⟩ := calm.holder (held state last)
    exact ⟨(calm.submitting (held state last) state).1, holder.2, by rw [frees, same]⟩

theorem Current.stable (current : m.Current thread seq) : n.Current thread seq := by
  obtain ⟨state, last, same⟩ := current
  have holder : m.Holder thread := ⟨by rw [state]; exact nofun, last⟩
  obtain ⟨submitters, frees, held⟩ := calm.holder holder
  exact ⟨calm.done holder state, held.2, by rw [frees, same]⟩

theorem Past.stable (past : m.Past seq) : n.Past seq := by
  obtain ⟨i, same, later⟩ := past
  exact ⟨i, same, Nat.lt_of_lt_of_le later calm.longer⟩

theorem WaitStep.Sound.stable {step : WaitStep} (sound : step.Sound thread m seq) :
    step.Sound thread n seq := by
  cases step with
  | loadState | sleep state => trivial
  | loadStatus => exact Current.stable calm sound
  | loadDone state =>
    cases state with
    | idle | submitted | claimed | submitting => trivial
    | done =>
      rcases sound with current | past
      · exact .inl (Current.stable calm current)
      · exact .inr (Past.stable calm past)

theorem Client.Sound.stable {client : Client} (sound : client.Sound thread m) :
    client.Sound thread n := by
  cases client with
  | resting | cancelling seq step => trivial
  | submitting request seq step => exact SubmitStep.Sound.stable calm sound
  | polling seq done =>
    cases done with
    | none =>
      obtain ⟨owner, owns⟩ := sound
      exact ⟨owner, Owns.stable calm owns⟩
    | some done =>
      intro isDone
      obtain ⟨status, completed⟩ := sound isDone
      exact ⟨status, calm.completions _ completed⟩
  | waiting seq pollNs maxPolls polls step =>
    exact ⟨Owns.stable calm sound.1, WaitStep.Sound.stable calm sound.2⟩
  | releasing seq step =>
    cases step with
    | loadDone =>
      obtain ⟨i, owner, same, unreleased⟩ := sound
      exact ⟨i, calm.submitters i _ owner, same, calm.unreleased i owner unreleased⟩
    | exchange =>
      obtain ⟨holder, same⟩ := sound
      obtain ⟨submitters, frees, held⟩ := calm.holder holder
      exact ⟨held, by rw [frees, same]⟩

end

end Stability

end SpaceDataModule.FlatsqlLink

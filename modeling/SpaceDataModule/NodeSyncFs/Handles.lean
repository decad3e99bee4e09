import Mathlib.Data.List.Nodup
import SpaceDataModule.NodeSyncFs.HandleTable

/-! Whose a slot is, and which handles stand for it. The calls of the threads are seen here as
roles that claim, number, publish, close and look up slots; the steps of the table keep to them. -/
namespace SpaceDataModule.NodeSyncFs
open Interleaving Transition
open FlatsqlIo (Flags)

section Roles
variable {Thread Name : Type}

/-- The part of the table that handles are decided by. -/
structure Books (Thread : Type) where
  slots : Nat → SlotBook Thread
  opened : List Opened
  closeCalls : List (Thread × Nat)
  closed : List Opened
  closeReturned : List Nat

def Shared.books (m : Shared Thread Name) : Books Thread where
  slots slot := (m.slots slot).toSlotBook
  opened := m.opened
  closeCalls := m.closeCalls
  closed := m.closed
  closeReturned := m.closeReturned

inductive Role where
  | idle
  /-- Has a slot, and no generation for it yet. -/
  | claiming (slot : Nat)
  | numbering (slot gen : Nat)
  /-- The generation is stored. -/
  | numbered (slot gen : Nat)
  | abandoning (slot : Nat)
  /-- Before the exchange of a close. -/
  | closer (handle : Nat)
  | shutting (handle : Nat)
  /-- The slot is free again, and the close returns. -/
  | shut (handle : Nat)
  | looking (handle : Nat) (closedBefore : List Nat)
  /-- Has found the slot live. -/
  | matching (handle : Nat) (closedBefore : List Nat)
  /-- Has found the generation of the handle. -/
  | acting (handle : Nat) (closedBefore : List Nat)

def OpenStep.role : OpenStep → Role
  | .sweepState _ | .sweepGen _ _ _ | .count | .exchange _ _ => .idle
  | .loadGen slot => .claiming slot
  | .writePath slot gen | .storeLength slot gen | .storeFlags slot gen | .storeGen slot gen =>
    .numbering slot gen
  | .openFile slot gen | .publish slot gen _ => .numbered slot gen
  | .release slot => .abandoning slot

def UseStep.role (handle : Nat) (closedBefore : List Nat) : UseStep → Role
  | .loadState => .looking handle closedBefore
  | .loadGen => .matching handle closedBefore
  | _ => .acting handle closedBefore

def CloseStep.role (handle : Nat) : CloseStep → Role
  | .loadGen | .exchange => .closer handle
  | .loadFlags | .loadLength _ | .loadPath _ _ | .free _ _ => .shutting handle
  | .unlink _ | .finish => .shut handle

def Task.role : Task → Role
  | .resting | .unlinking _ _ _ => .idle
  | .opening _ _ step => step.role
  | .using handle _ closedBefore step => step.role handle closedBefore
  | .closing handle step => step.role handle

def Role.Free : Role → Prop
  | .idle | .closer _ | .looking _ _ | .matching _ _ | .acting _ _ => True
  | _ => False

def Books.setSlot (books : Books Thread) (slot : Nat) (after : SlotBook Thread) : Books Thread :=
  { books with slots := Function.update books.slots slot after }

/-- Which handles may be closed, and which slots claimed, in a state. -/
structure Policy (Thread : Type) where
  mayClose : Books Thread → Nat → Prop
  mayClaim : Books Thread → Nat → Prop

def anyCallers : Policy Thread := ⟨fun _ _ => True, fun _ _ => True⟩

/-- A caller closes a handle that `open` returned and nobody has closed before, and no slot is
claimed more than 256 times. -/
def carefulCallers : Policy Thread where
  mayClose books handle :=
    (∃ o ∈ books.opened, o.handle = handle) ∧ ∀ call ∈ books.closeCalls, call.2 ≠ handle
  mayClaim books slot := (books.slots slot).claims < 2 ^ 8

inductive BooksStep (policy : Policy Thread) (size : TableSize) (thread : Thread)
    (books : Books Thread) : Role → Books Thread → Role → Prop
  | stay (role : Role) : BooksStep policy size thread books role books role
  | leave {role : Role} (free : role.Free) : BooksStep policy size thread books role books .idle
  | claim {slot : Nat} (inside : slot < size.maxHandles) (free : (books.slots slot).state = .free) :
      BooksStep policy size thread books .idle (books.setSlot slot
        { books.slots slot with state := .claiming, holder := some thread }) (.claiming slot)
  | number (slot : Nat) : BooksStep policy size thread books (.claiming slot) books
      (.numbering slot (((books.slots slot).gen + 1) % 2 ^ 8))
  | store {slot : Nat} (gen : Nat) (room : policy.mayClaim books slot) :
      BooksStep policy size thread books (.numbering slot gen)
      (books.setSlot slot
        { books.slots slot with gen := gen, claims := (books.slots slot).claims + 1 })
      (.numbered slot gen)
  | abandon (slot gen : Nat) : BooksStep policy size thread books (.numbered slot gen) books
      (.abandoning slot)
  | release (slot : Nat) : BooksStep policy size thread books (.abandoning slot)
      (books.setSlot slot { books.slots slot with state := .free, holder := none }) .idle
  | publish (slot gen : Nat) : BooksStep policy size thread books (.numbered slot gen)
      { books.setSlot slot { books.slots slot with state := .live, holder := none } with
        opened := books.opened ++ [⟨virtualHandle slot gen, slot, (books.slots slot).claims⟩] }
      .idle
  | call {handle : Nat} (allowed : policy.mayClose books handle) :
      BooksStep policy size thread books .idle
      { books with closeCalls := books.closeCalls ++ [(thread, handle)] } (.closer handle)
  | exchange {handle : Nat} (live : (books.slots (slotOf handle)).state = .live) :
      BooksStep policy size thread books (.closer handle)
      { books.setSlot (slotOf handle)
          { books.slots (slotOf handle) with state := .closing, holder := some thread } with
        closed := books.closed ++ [⟨handle, slotOf handle, (books.slots (slotOf handle)).claims⟩] }
      (.shutting handle)
  | free (handle : Nat) : BooksStep policy size thread books (.shutting handle)
      (books.setSlot (slotOf handle)
        { books.slots (slotOf handle) with state := .free, holder := none }) (.shut handle)
  | finish (handle : Nat) : BooksStep policy size thread books (.shut handle)
      { books with closeReturned := books.closeReturned ++ [handle] } .idle
  | look (handle : Nat) : BooksStep policy size thread books .idle books
      (.looking handle books.closeReturned)
  | find {handle : Nat} (closedBefore : List Nat)
      (live : (books.slots (slotOf handle)).state = .live) :
      BooksStep policy size thread books (.looking handle closedBefore) books
        (.matching handle closedBefore)
  | meet {handle : Nat} (closedBefore : List Nat)
      (same : (books.slots (slotOf handle)).gen = genOf handle) :
      BooksStep policy size thread books (.matching handle closedBefore) books
        (.acting handle closedBefore)

def Task.claimed : Task → Option Nat
  | .opening _ _ (.storeGen slot _) => some slot
  | _ => none

def Policy.Admits (policy : Policy Thread) (m : Shared Thread Name) (task : Task) :
    WorkerMove → Prop
  | .closeCall handle => policy.mayClose m.books handle
  | .step => ∀ slot ∈ task.claimed, policy.mayClaim m.books slot
  | _ => True

end Roles

section Refinement
variable {Thread Name : Type}
variable {resolve : PathBytes → Name} {after : Shared Thread Name} {next : Worker}

theorem books_setSlot (m : Shared Thread Name) (slot : Nat) (changed : Slot Thread) :
    (m.setSlot slot changed).books = m.books.setSlot slot changed.toSlotBook := by
  rw [Shared.books]
  congr 1
  funext other
  exact Function.apply_update (fun _ => Slot.toSlotBook) m.slots slot changed other

/-- A slot whose words for path, flags and file change is the same in the books. -/
theorem books_setSlot_same (m : Shared Thread Name) (slot : Nat)
    (same : changed.toSlotBook = (m.slots slot).toSlotBook) :
    (m.setSlot slot changed).books = m.books := by
  rw [books_setSlot, same]
  exact congrArg (fun slots => { m.books with slots := slots }) (Function.update_eq_self slot _)

theorem BooksStep.to_eq (step : BooksStep policy size thread before role books last)
    (same : other = books) : BooksStep policy size thread before role other last :=
  same ▸ step

theorem failStep_books (acted : failStep m worker = some (after, next)) :
    BooksStep policy size thread m.books worker.task.role after.books next.task.role := by
  obtain ⟨task, fds⟩ := worker
  dsimp only [failStep] at acted ⊢
  split at acted
  · cases acted
    exact .stay _
  · cases acted
    exact .abandon _ _
  · cases acted
    exact .abandon _ _
  · cases acted
    exact .leave trivial
  · cases acted
    exact .stay _
  · cases acted

variable [DecidableEq Name]

/-- The scan leaves the table as it is, and its end removes the file. -/
theorem unlinkStep_cases
    (acted : unlinkStep size resolve m worker path ifUnused step = some (after, next)) :
    (after = m ∧ (next.task = .resting ∨ ∃ later, next.task = .unlinking path ifUnused later)) ∨
      step = .unlink ∧ next.task = .resting ∧ ∃ removed,
        m.files.unlinkSync (resolve path) = some removed ∧
          after = m.removed size ifUnused removed.1 removed.2 := by
  cases step with
  | scanState slot | scanLength slot =>
    simp only [unlinkStep] at acted
    split_ifs at acted <;> cases acted <;> exact .inl ⟨rfl, .inr ⟨_, rfl⟩⟩
  | scanByte slot index =>
    simp only [unlinkStep] at acted
    split at acted
    · cases acted
      exact .inl ⟨rfl, .inl rfl⟩
    · split_ifs at acted <;> cases acted <;> exact .inl ⟨rfl, .inr ⟨_, rfl⟩⟩
  | unlink =>
    obtain ⟨removed, unlinked, same⟩ := Option.map_eq_some_iff.mp acted
    cases same
    exact .inr ⟨rfl, rfl, removed, unlinked, rfl⟩

theorem openStep_books (admitted : policy.Admits m (.opening path flags step) .step)
    (acted : openStep size resolve thread m worker path flags step = some (after, next)) :
    BooksStep policy size thread m.books step.role after.books next.task.role := by
  cases step with
  | sweepState rest =>
    cases rest with
    | nil =>
      cases acted
      exact .stay _
    | cons entry rest =>
      simp only [openStep] at acted
      split_ifs at acted <;> cases acted <;> exact .stay _
  | sweepGen slot cached rest =>
    simp only [openStep] at acted
    split_ifs at acted <;> cases acted <;> exact .stay _
  | count =>
    cases acted
    exact .stay _
  | exchange start turn =>
    simp only [openStep] at acted
    split_ifs at acted with inside free
    · cases acted
      rw [books_setSlot]
      exact .claim (Nat.mod_lt _ size.positive) free
    · cases acted
      exact .stay _
    · cases acted
      exact .stay _
  | loadGen slot =>
    cases acted
    exact .number slot
  | writePath slot gen | storeLength slot gen | storeFlags slot gen =>
    cases acted
    exact (BooksStep.stay _).to_eq (books_setSlot_same m slot rfl)
  | storeGen slot gen =>
    cases acted
    rw [books_setSlot]
    exact .store gen (admitted slot rfl)
  | openFile slot gen =>
    obtain ⟨result, _, same⟩ := Option.map_eq_some_iff.mp acted
    cases same
    exact (BooksStep.stay _).to_eq (books_setSlot_same _ slot rfl)
  | release slot =>
    cases acted
    rw [books_setSlot]
    exact .release slot
  | publish slot gen file =>
    cases acted
    have same := books_setSlot m slot { m.slots slot with state := .live, holder := none }
    exact (BooksStep.publish slot gen).to_eq (congrArg (fun books => { books with
      opened := m.opened ++ [⟨virtualHandle slot gen, slot, (m.slots slot).claims⟩]
      : Books Thread }) same)

theorem useStep_books
    (acted : useStep size resolve m worker handle writes closedBefore step = some (after, next)) :
    BooksStep policy size thread m.books (step.role handle closedBefore) after.books next.task.role := by
  have behind (file : FileId) : (behindFd writes file).role handle closedBefore =
      .acting handle closedBefore := by
    cases writes <;> rfl
  cases step with
  | loadState =>
    simp only [useStep] at acted
    split_ifs at acted with inside live
    · cases acted
      exact .find closedBefore live
    all_goals
      cases acted
      exact .leave trivial
  | loadGen =>
    simp only [useStep] at acted
    split_ifs at acted with same
    · split at acted
      · cases acted
        rw [Task.role, behind]
        exact .meet closedBefore same
      · cases acted
        exact .meet closedBefore same
    all_goals
      cases acted
      exact .leave trivial
  | loadLength | loadPath | loadFlags =>
    cases acted
    exact .stay _
  | openFile path =>
    obtain ⟨result, _, same⟩ := Option.map_eq_some_iff.mp acted
    cases same
    rw [Task.role, behind]
    exact .stay _
  | checkWrite file =>
    simp only [useStep] at acted
    split_ifs at acted
    · cases acted
      exact .stay _
    · cases acted
      exact .leave trivial
  | act file =>
    cases acted
    exact .leave trivial

theorem closeStep_books
    (acted : closeStep size resolve thread m worker handle step = some (after, next)) :
    BooksStep policy size thread m.books (step.role handle) after.books next.task.role := by
  cases step with
  | loadGen =>
    simp only [closeStep] at acted
    split_ifs at acted
    · cases acted
      exact .stay _
    · cases acted
      exact .leave trivial
  | exchange =>
    simp only [closeStep] at acted
    split_ifs at acted with live
    · cases acted
      have same := books_setSlot m (slotOf handle)
        { m.slots (slotOf handle) with state := .closing, holder := some thread }
      exact (BooksStep.exchange live).to_eq (congrArg (fun books => { books with
        closed := m.closed ++ [⟨handle, slotOf handle, (m.slots (slotOf handle)).claims⟩]
        : Books Thread }) same)
    · cases acted
      exact .leave trivial
  | loadFlags | loadLength | loadPath =>
    cases acted
    exact .stay _
  | free flags path =>
    cases acted
    have finished : (if flags.has .deleteOnClose then CloseStep.unlink path else .finish).role
        handle = .shut handle := by
      split_ifs <;> rfl
    rw [books_setSlot, Task.role, finished]
    exact .free handle
  | unlink path =>
    cases acted
    exact .stay _
  | finish =>
    cases acted
    exact .finish handle

/-- The calls on the table keep to the roles. -/
theorem workerAct_books (admitted : policy.Admits m worker.task move)
    (acted : workerAct size resolve thread move m worker = some (after, next)) :
    BooksStep policy size thread m.books worker.task.role after.books next.task.role := by
  obtain ⟨task, fds⟩ := worker
  dsimp only [workerAct] at admitted acted ⊢
  split at acted
  · cases acted
    exact .stay _
  · cases acted
    exact .stay _
  · cases acted
    exact .look _
  · cases acted
    exact .call admitted
  · rcases unlinkStep_cases acted with ⟨rfl, goes | ⟨later, goes⟩⟩ | ⟨_, goes, removed, _, rfl⟩
    all_goals
      rw [goes]
      exact .stay _
  · exact openStep_books admitted acted
  · exact useStep_books acted
  · exact closeStep_books acted
  · exact failStep_books acted
  · cases acted

end Refinement

section Handles

theorem virtualHandle_eq (small : gen < 2 ^ 8) : virtualHandle slot gen = slot * 2 ^ 8 + gen := by
  rw [virtualHandle, ← Nat.shiftLeft_add_eq_or_of_lt small, Nat.shiftLeft_eq]

theorem slotOf_virtualHandle (inside : slot < 2 ^ 23) (small : gen < 2 ^ 8) :
    slotOf (virtualHandle slot gen) = slot := by
  rw [virtualHandle_eq small, slotOf]
  omega

theorem genOf_virtualHandle (small : gen < 2 ^ 8) : genOf (virtualHandle slot gen) = gen := by
  rw [virtualHandle_eq small, genOf]
  omega

end Handles

section Ownership
variable {Thread : Type} {policy : Policy Thread} {thread : Thread}
variable {books next : Books Thread}

structure Has (books : Books Thread) (thread : Thread) (slot : Nat) (state : SlotState) : Prop where
  state : (books.slots slot).state = state
  holder : (books.slots slot).holder = some thread

def Busy (books : Books Thread) (thread : Thread) (slot : Nat) : Prop :=
  Has books thread slot .claiming ∨ Has books thread slot .closing

def Owns (size : TableSize) (books : Books Thread) (thread : Thread) : Role → Prop
  | .claiming slot | .numbering slot _ | .numbered slot _ =>
    slot < size.maxHandles ∧ Has books thread slot .claiming
  | .abandoning slot => Has books thread slot .claiming
  | .shutting handle => Has books thread (slotOf handle) .closing
  | _ => True

theorem slots_setSlot (other : Nat) :
    (books.setSlot slot changed).slots other = if other = slot then changed else books.slots other :=
  Function.update_apply books.slots slot changed other

theorem forall_setSlot (holds : SlotBook Thread → Prop)
    (before : ∀ other, holds (books.slots other)) (here : holds changed) (other : Nat) :
    holds ((books.setSlot slot changed).slots other) := by
  rw [slots_setSlot]
  split_ifs
  · exact here
  · exact before other

theorem Busy.holder (busy : Busy books thread slot) : (books.slots slot).holder = some thread := by
  rcases busy with has | has <;> exact has.holder

theorem Busy.not_live (busy : Busy books thread slot) : (books.slots slot).state ≠ .live := by
  intro live
  rcases busy with has | has <;> cases has.state.symm.trans live

theorem Has.of_eq {state : SlotState} (has : Has books thread slot state)
    (same : next.slots slot = books.slots slot) : Has next thread slot state :=
  ⟨same ▸ has.state, same ▸ has.holder⟩

section
variable (step : BooksStep policy size thread books role next last)
  (owns : Owns size books thread role)
include step owns

/-- A step changes a free slot, one its thread has, or a live one that its thread closes. -/
theorem BooksStep.frame (slot : Nat) :
    next.slots slot = books.slots slot ∨ (books.slots slot).state = .free ∨
      Busy books thread slot ∨ ((books.slots slot).state = .live ∧
        ∃ handle, role = .closer handle ∧ slotOf handle = slot) := by
  have at_target {target : Nat} {changed : SlotBook Thread} {P : Prop} (here : slot = target → P) :
      (books.setSlot target changed).slots slot = books.slots slot ∨ P := by
    by_cases same : slot = target
    · exact .inr (here same)
    · exact .inl (Function.update_of_ne same _ _)
  cases step with
  | claim inside free => exact at_target fun same => .inl (same ▸ free)
  | store room => exact at_target fun same => .inr (.inl (.inl (same ▸ owns.2)))
  | release target => exact at_target fun same => .inr (.inl (.inl (same ▸ owns)))
  | publish target gen => exact at_target fun same => .inr (.inl (.inl (same ▸ owns.2)))
  | @exchange handle live =>
    exact at_target fun same => .inr (.inr ⟨same ▸ live, handle, rfl, same.symm⟩)
  | free handle => exact at_target fun same => .inr (.inl (.inr (same ▸ owns)))
  | _ => exact .inl rfl

theorem Busy.stable (different : other ≠ thread) (busy : Busy books other slot) :
    next.slots slot = books.slots slot := by
  rcases step.frame owns slot with same | free | mine | ⟨live, _⟩
  · exact same
  · rcases busy with has | has <;> cases has.state.symm.trans free
  · exact absurd (Option.some.inj (busy.holder.symm.trans mine.holder)) different
  · exact absurd live busy.not_live

theorem Owns.stable (different : other ≠ thread) (held : Owns size books other its) :
    Owns size next other its := by
  cases its with
  | claiming | numbering | numbered =>
    exact ⟨held.1, held.2.of_eq (Busy.stable step owns different (.inl held.2))⟩
  | abandoning =>
    have has : Has books other _ .claiming := held
    exact has.of_eq (Busy.stable step owns different (.inl has))
  | shutting =>
    have has : Has books other _ .closing := held
    exact has.of_eq (Busy.stable step owns different (.inr has))
  | _ => trivial

theorem BooksStep.keeps_owns : Owns size next thread last := by
  cases step with
  | stay | number => exact owns
  | @claim slot inside free =>
    refine ⟨inside, ?_, ?_⟩ <;> rw [slots_setSlot, if_pos rfl]
  | @store slot gen room =>
    obtain ⟨inside, has⟩ := owns
    refine ⟨inside, ?_, ?_⟩
    · rw [slots_setSlot, if_pos rfl]
      exact has.state
    · rw [slots_setSlot, if_pos rfl]
      exact has.holder
  | abandon slot gen => exact owns.2
  | @exchange handle live =>
    refine ⟨?_, ?_⟩
    · exact congrArg SlotBook.state ((slots_setSlot _).trans (if_pos rfl))
    · exact congrArg SlotBook.holder ((slots_setSlot _).trans (if_pos rfl))
  | _ => trivial

end

end Ownership

section Ledger
variable {Thread : Type} {policy : Policy Thread} {thread : Thread}
variable {books next : Books Thread}

structure Opened.Shaped (o : Opened) (size : TableSize) (books : Books Thread) : Prop where
  handle : o.handle = virtualHandle o.slot (o.claim % 2 ^ 8)
  inside : o.slot < size.maxHandles
  positive : 0 < o.claim
  made : o.claim ≤ (books.slots o.slot).claims

def Opened.Live (o : Opened) (books : Books Thread) : Prop :=
  (books.slots o.slot).state = .live ∧ (books.slots o.slot).claims = o.claim

structure Ledger (size : TableSize) (books : Books Thread) : Prop where
  gen : ∀ slot, (books.slots slot).gen = (books.slots slot).claims % 2 ^ 8
  few : ∀ slot, (books.slots slot).claims ≤ 2 ^ 8
  shape : ∀ o ∈ books.opened, o.Shaped size books
  distinct : books.opened.Pairwise fun first second =>
    first.slot = second.slot → first.claim ≠ second.claim
  standing : ∀ o ∈ books.opened, o ∈ books.closed ∨ o.Live books
  closed : ∀ o ∈ books.closed, o ∈ books.opened ∧
    (∃ call ∈ books.closeCalls, call.2 = o.handle) ∧ ¬ o.Live books
  returned : ∀ handle ∈ books.closeReturned, ∃ o ∈ books.closed, o.handle = handle
  calls : (books.closeCalls.map (·.2)).Nodup

/-- What a thread can rely on in its role, besides its slot. -/
def Relies (books : Books Thread) (thread : Thread) : Role → Prop
  | .numbering slot gen => gen = ((books.slots slot).claims + 1) % 2 ^ 8
  | .numbered slot gen => gen = (books.slots slot).claims % 2 ^ 8 ∧
      0 < (books.slots slot).claims ∧
      ∀ o ∈ books.opened, o.slot = slot → o.claim < (books.slots slot).claims
  | .closer handle => (thread, handle) ∈ books.closeCalls ∧
      ∃ o ∈ books.opened, o.handle = handle ∧ o.Live books
  | .shutting handle | .shut handle => ∃ o ∈ books.closed, o.handle = handle
  | .looking handle closedBefore => handle ∈ closedBefore → ∃ o ∈ books.closed, o.handle = handle
  | .matching handle closedBefore => handle ∈ closedBefore →
      ∃ o ∈ books.opened, o.handle = handle ∧ o.claim < (books.slots o.slot).claims
  | .acting handle closedBefore => handle ∉ closedBefore
  | _ => True

structure Stands (size : TableSize) (books : Books Thread) (thread : Thread) (role : Role) :
    Prop where
  owns : Owns size books thread role
  relies : Relies books thread role

theorem Opened.Shaped.mono {o : Opened} (shaped : o.Shaped size books)
    (more : ∀ slot, (books.slots slot).claims ≤ (next.slots slot).claims) : o.Shaped size next :=
  ⟨shaped.handle, shaped.inside, shaped.positive, shaped.made.trans (more o.slot)⟩

theorem Opened.Shaped.slotOf_handle {o : Opened} (shaped : o.Shaped size books) :
    slotOf o.handle = o.slot := by
  rw [shaped.handle]
  exact slotOf_virtualHandle (shaped.inside.trans_le size.bounded) (Nat.mod_lt _ (by decide))

/-- A slot has one handle of its latest claim. -/
theorem Ledger.eq_of_live (ledger : Ledger size books) (one : first ∈ books.opened)
    (other : second ∈ books.opened) (live : first.Live books) (alive : second.Live books)
    (same : first.slot = second.slot) : first = second := by
  have claims : first.claim = second.claim := by rw [← live.2, ← alive.2, same]
  have handles : first.handle = second.handle := by
    rw [(ledger.shape first one).handle, (ledger.shape second other).handle, claims, same]
  exact Opened.mk.injEq .. ▸ ⟨handles, same, claims⟩

structure Grows (books next : Books Thread) : Prop where
  opened : books.opened ⊆ next.opened
  closeCalls : books.closeCalls ⊆ next.closeCalls
  closed : books.closed ⊆ next.closed
  claims : ∀ slot, (books.slots slot).claims ≤ (next.slots slot).claims

theorem claims_setSlot (more : (books.slots slot).claims ≤ changed.claims) (other : Nat) :
    (books.slots other).claims ≤ ((books.setSlot slot changed).slots other).claims := by
  rw [slots_setSlot]
  split_ifs with same
  · exact same ▸ more
  · exact le_rfl

section
variable (step : BooksStep policy size thread books role next last)
include step

theorem BooksStep.grows : Grows books next := by
  cases step with
  | claim | release | free =>
    exact ⟨List.Subset.refl _, List.Subset.refl _, List.Subset.refl _, claims_setSlot le_rfl⟩
  | store gen room =>
    exact ⟨List.Subset.refl _, List.Subset.refl _, List.Subset.refl _,
      claims_setSlot (Nat.le_succ _)⟩
  | publish slot gen =>
    exact ⟨List.subset_append_left _ _, List.Subset.refl _, List.Subset.refl _,
      claims_setSlot le_rfl⟩
  | exchange live =>
    exact ⟨List.Subset.refl _, List.Subset.refl _, List.subset_append_left _ _,
      claims_setSlot le_rfl⟩
  | call allowed =>
    exact ⟨List.Subset.refl _, List.subset_append_left _ _, List.Subset.refl _, fun _ => le_rfl⟩
  | _ => exact ⟨List.Subset.refl _, List.Subset.refl _, List.Subset.refl _, fun _ => le_rfl⟩

/-- A new handle is one of a slot its thread has. -/
theorem BooksStep.opened_new (owns : Owns size books thread role) (listed : o ∈ next.opened) :
    o ∈ books.opened ∨ (books.slots o.slot).holder = some thread := by
  cases step with
  | publish slot gen =>
    rcases List.mem_append.mp listed with before | new
    · exact .inl before
    · obtain rfl := List.mem_singleton.mp new
      exact .inr owns.2.holder
  | _ => exact .inl listed

/-- A handle that another thread is about to close stays live. -/
theorem Opened.Live.stable (stands : Stands size books thread role) (ledger : Ledger size books)
    (different : other ≠ thread) (listed : o ∈ books.opened)
    (called : (other, o.handle) ∈ books.closeCalls) (live : o.Live books) :
    next.slots o.slot = books.slots o.slot := by
  rcases step.frame stands.owns o.slot with same | free | mine | ⟨_, handle, rfl, same⟩
  · exact same
  · cases live.1.symm.trans free
  · exact absurd live.1 mine.not_live
  · obtain ⟨calls, second, listedToo, rfl, alive⟩ := stands.relies
    rw [(ledger.shape second listedToo).slotOf_handle] at same
    obtain rfl := ledger.eq_of_live listed listedToo live alive same.symm
    have equal := List.inj_on_of_nodup_map ledger.calls called calls rfl
    exact absurd (congrArg Prod.fst equal) different

/-- What other threads rely on is left as it is. -/
theorem Stands.stable (stands : Stands size books thread role) (ledger : Ledger size books)
    (different : other ≠ thread) (held : Stands size books other its) :
    Stands size next other its := by
  refine ⟨Owns.stable step stands.owns different held.owns, ?_⟩
  have grows := step.grows
  have relies := held.relies
  cases its with
  | numbering slot gen =>
    have same := Busy.stable step stands.owns different (.inl held.owns.2)
    exact (congrArg (fun book => gen = (SlotBook.claims book + 1) % 2 ^ 8) same).mpr relies
  | numbered slot gen =>
    obtain ⟨number, positive, fresh⟩ := relies
    have same := Busy.stable step stands.owns different (.inl held.owns.2)
    refine ⟨same ▸ number, same ▸ positive, ?_⟩
    intro o listed here
    rcases step.opened_new stands.owns listed with before | mine
    · exact same ▸ fresh o before here
    · rw [here, held.owns.2.holder] at mine
      exact absurd (Option.some.inj mine) different
  | closer handle =>
    obtain ⟨called, o, listed, rfl, live⟩ := relies
    have same := live.stable step stands ledger different listed called
    exact ⟨grows.closeCalls called, o, grows.opened listed, rfl, same ▸ live.1, same ▸ live.2⟩
  | shutting | shut =>
    obtain ⟨o, listed, same⟩ := relies
    exact ⟨o, grows.closed listed, same⟩
  | looking handle closedBefore =>
    intro before
    obtain ⟨o, listed, rfl⟩ := relies before
    exact ⟨o, grows.closed listed, rfl⟩
  | matching handle closedBefore =>
    intro before
    obtain ⟨o, listed, rfl, behind⟩ := relies before
    exact ⟨o, grows.opened listed, rfl, behind.trans_le (grows.claims _)⟩
  | acting handle closedBefore => exact relies
  | _ => trivial

end

section Sound
variable (ledger : Ledger size books)
include ledger

/-- A slot changes that is not live before and behind. -/
theorem Ledger.restate (before : (books.slots slot).state ≠ .live) (behind : changed.state ≠ .live)
    (gen : changed.gen = changed.claims % 2 ^ 8) (more : (books.slots slot).claims ≤ changed.claims)
    (few : changed.claims ≤ 2 ^ 8) : Ledger size (books.setSlot slot changed) := by
  have live (o : Opened) : o.Live (books.setSlot slot changed) ↔ o.Live books := by
    rw [Opened.Live, slots_setSlot]
    split_ifs with same
    · exact iff_of_false (fun alive => behind alive.1) fun alive => before (same ▸ alive.1)
    · exact Iff.rfl
  refine ⟨?_, ?_, ?_, ledger.distinct, ?_, ?_, ledger.returned, ledger.calls⟩
  · exact forall_setSlot (fun book => book.gen = book.claims % 2 ^ 8) ledger.gen gen
  · exact forall_setSlot (fun book => book.claims ≤ 2 ^ 8) ledger.few few
  · exact fun o listed => (ledger.shape o listed).mono (claims_setSlot more)
  · intro o listed
    rw [live]
    exact ledger.standing o listed
  · intro o listed
    rw [live]
    exact ledger.closed o listed

theorem Ledger.publish {slot gen : Nat} (stands : Stands size books thread (.numbered slot gen)) :
    Ledger size { books.setSlot slot { books.slots slot with state := .live, holder := none } with
      opened := books.opened ++ [⟨virtualHandle slot gen, slot, (books.slots slot).claims⟩] } := by
  obtain ⟨⟨inside, has⟩, rfl, positive, fresh⟩ := stands
  have slots (other : Nat) := @slots_setSlot _ books slot
    { books.slots slot with state := .live, holder := none } other
  -- the handles of earlier claims are as they were
  have live {o : Opened} (listed : o ∈ books.opened) : o.Live (books.setSlot slot
      { books.slots slot with state := .live, holder := none }) ↔ o.Live books := by
    rw [Opened.Live, Opened.Live, slots]
    split_ifs with same
    · refine iff_of_false (fun alive => ?_) fun alive => ?_
      · exact absurd alive.2.symm (fresh o listed same).ne
      · rw [same, has.state] at alive
        cases alive.1
    · exact Iff.rfl
  refine ⟨?_, ?_, ?_, ?_, ?_, ?_, ledger.returned, ledger.calls⟩
  · exact forall_setSlot (fun book => book.gen = book.claims % 2 ^ 8) ledger.gen (ledger.gen slot)
  · exact forall_setSlot (fun book => book.claims ≤ 2 ^ 8) ledger.few (ledger.few slot)
  · intro o listed
    rcases List.mem_append.mp listed with before | new
    · exact (ledger.shape o before).mono (claims_setSlot le_rfl)
    · obtain rfl := List.mem_singleton.mp new
      refine ⟨rfl, inside, positive, ?_⟩
      apply claims_setSlot
      exact le_rfl
  · refine List.pairwise_append.mpr ⟨ledger.distinct, List.pairwise_singleton _ _, ?_⟩
    intro o listed new last same
    obtain rfl := List.mem_singleton.mp last
    exact (fresh o listed same).ne
  · intro o listed
    rcases List.mem_append.mp listed with before | new
    · exact (ledger.standing o before).imp_right (live before).mpr
    · obtain rfl := List.mem_singleton.mp new
      refine .inr ?_
      rw [Opened.Live, slots, if_pos rfl]
      exact ⟨rfl, rfl⟩
  · intro o listed
    obtain ⟨opened, called, dead⟩ := ledger.closed o listed
    exact ⟨List.mem_append_left _ opened, called, fun alive => dead ((live opened).mp alive)⟩

theorem Ledger.exchange (stands : Stands size books thread (.closer handle)) :
    Ledger size { books.setSlot (slotOf handle)
        { books.slots (slotOf handle) with state := .closing, holder := some thread } with
      closed := books.closed ++
        [⟨handle, slotOf handle, (books.slots (slotOf handle)).claims⟩] } := by
  obtain ⟨_, called, o, listed, rfl, live⟩ := stands
  have slot := (ledger.shape o listed).slotOf_handle
  have record : (⟨o.handle, slotOf o.handle, (books.slots (slotOf o.handle)).claims⟩ : Opened) =
      o := by
    rw [slot, live.2]
  rw [record, slot]
  have slots (other : Nat) := @slots_setSlot _ books o.slot
    { books.slots o.slot with state := .closing, holder := some thread } other
  refine ⟨?_, ?_, ?_, ledger.distinct, ?_, ?_, ?_, ledger.calls⟩
  · exact forall_setSlot (fun book => book.gen = book.claims % 2 ^ 8) ledger.gen
      (ledger.gen o.slot)
  · exact forall_setSlot (fun book => book.claims ≤ 2 ^ 8) ledger.few (ledger.few o.slot)
  · exact fun other member => (ledger.shape other member).mono (claims_setSlot le_rfl)
  · intro other member
    rcases ledger.standing other member with closed | alive
    · exact .inl (List.mem_append_left _ closed)
    · by_cases same : other.slot = o.slot
      · -- the latest claim of the slot is the one that is closed
        obtain rfl := ledger.eq_of_live member listed alive live same
        exact .inl (List.mem_append_right _ List.mem_cons_self)
      · refine .inr ?_
        rw [Opened.Live, slots, if_neg same]
        exact alive
  · intro other member
    have dead (same : other.slot = o.slot) : ¬ other.Live (books.setSlot o.slot
        { books.slots o.slot with state := .closing, holder := some thread }) := by
      rw [Opened.Live, slots, if_pos same]
      exact fun alive => nomatch alive.1
    rcases List.mem_append.mp member with before | new
    · obtain ⟨opened, calls, gone⟩ := ledger.closed other before
      refine ⟨opened, calls, ?_⟩
      by_cases same : other.slot = o.slot
      · exact dead same
      · rw [Opened.Live, slots, if_neg same]
        exact gone
    · obtain rfl := List.mem_singleton.mp new
      exact ⟨listed, ⟨_, called, rfl⟩, dead rfl⟩
  · intro other member
    obtain ⟨closed, before, same⟩ := ledger.returned other member
    exact ⟨closed, List.mem_append_left _ before, same⟩

theorem Ledger.call (once : ∀ call ∈ books.closeCalls, call.2 ≠ handle) :
    Ledger size { books with closeCalls := books.closeCalls ++ [(thread, handle)] } := by
  refine { ledger with shape := ?_, closed := ?_, calls := ?_ }
  · exact fun o listed => (ledger.shape o listed).mono fun _ => le_rfl
  · intro o listed
    obtain ⟨opened, ⟨call, called, same⟩, dead⟩ := ledger.closed o listed
    exact ⟨opened, ⟨call, List.mem_append_left _ called, same⟩, dead⟩
  · rw [List.map_append]
    refine List.nodup_append.mpr ⟨ledger.calls, List.nodup_singleton _, ?_⟩
    intro earlier listed new last
    obtain ⟨call, called, rfl⟩ := List.mem_map.mp listed
    obtain rfl := List.mem_singleton.mp last
    exact once call called

theorem BooksStep.keeps_ledger (step : BooksStep carefulCallers size thread books role next last)
    (stands : Stands size books thread role) : Ledger size next := by
  cases step with
  | stay | leave | number | abandon | look | find | meet => exact ledger
  | @claim slot inside free =>
    exact ledger.restate (by rw [free]; nofun) nofun (ledger.gen slot) le_rfl (ledger.few slot)
  | @store slot gen room =>
    obtain ⟨⟨_, has⟩, rfl⟩ := stands
    exact ledger.restate (by rw [has.state]; nofun) (by rw [has.state]; nofun) rfl (Nat.le_succ _)
      room
  | release slot =>
    have has : Has books thread slot .claiming := stands.owns
    exact ledger.restate (by rw [has.state]; nofun) nofun (ledger.gen slot) le_rfl (ledger.few slot)
  | publish slot gen => exact ledger.publish stands
  | call allowed => exact ledger.call allowed.2
  | exchange live => exact ledger.exchange stands
  | free handle =>
    have has : Has books thread _ .closing := stands.owns
    exact ledger.restate (by rw [has.state]; nofun) nofun (ledger.gen _) le_rfl (ledger.few _)
  | finish handle =>
    refine { ledger with shape := ?_, returned := ?_ }
    · exact fun o listed => (ledger.shape o listed).mono fun _ => le_rfl
    · intro other listed
      rcases List.mem_append.mp listed with before | new
      · exact ledger.returned other before
      · obtain rfl := List.mem_singleton.mp new
        exact stands.relies

/-- What the step leaves its own thread with. -/
theorem BooksStep.keeps_relies (step : BooksStep carefulCallers size thread books role next last)
    (stands : Stands size books thread role) : Relies next thread last := by
  have relies := stands.relies
  cases step with
  | stay => exact relies
  | number slot =>
    rw [Relies, ledger.gen slot]
    omega
  | @store slot gen room =>
    refine ⟨?_, ?_, ?_⟩
    · rw [slots_setSlot, if_pos rfl]
      exact relies
    · rw [slots_setSlot, if_pos rfl]
      exact Nat.succ_pos _
    · intro o listed here
      rw [slots_setSlot, if_pos rfl, ← here]
      exact Nat.lt_succ_of_le (ledger.shape o listed).made
  | @call handle allowed =>
    obtain ⟨⟨o, listed, rfl⟩, once⟩ := allowed
    refine ⟨List.mem_append_right _ List.mem_cons_self, o, listed, rfl, ?_⟩
    rcases ledger.standing o listed with closed | live
    · obtain ⟨_, ⟨call, called, same⟩, _⟩ := ledger.closed o closed
      exact absurd same (once call called)
    · exact live
  | @exchange handle live => exact ⟨_, List.mem_append_right _ List.mem_cons_self, rfl⟩
  | free handle => exact relies
  | look handle => exact ledger.returned handle
  | @find handle closedBefore live =>
    intro before
    obtain ⟨o, listed, rfl⟩ := relies before
    obtain ⟨opened, _, dead⟩ := ledger.closed o listed
    have shaped := ledger.shape o opened
    rw [shaped.slotOf_handle] at live
    exact ⟨o, opened, rfl, lt_of_le_of_ne shaped.made fun same => dead ⟨live, same.symm⟩⟩
  | @meet handle closedBefore same =>
    intro before
    obtain ⟨o, listed, rfl, behind⟩ := relies before
    have shaped := ledger.shape o listed
    have few := ledger.few o.slot
    have positive := shaped.positive
    rw [shaped.slotOf_handle, ledger.gen, shaped.handle,
      genOf_virtualHandle (Nat.mod_lt _ (by decide))] at same
    omega
  | _ => trivial

end Sound
end Ledger

section Runs
variable {Thread Name : Type} [DecidableEq Thread] [DecidableEq Name]
variable {size : TableSize} {resolve : PathBytes → Name}

def workerHappen (event : Empty) (_ : Shared Thread Name) : Option (Shared Thread Name) :=
  nomatch event

abbrev WorkerLabel (Thread : Type) := Label Thread WorkerMove Empty
abbrev Workers (Thread Name : Type) := Config (Shared Thread Name) Thread Worker

def workersInitial (files : Files Name) : Workers Thread Name := ⟨{ files := files }, fun _ => {}⟩

/-- The callers close what they hold, once, and no slot is claimed more than 256 times. -/
def CarefulClosers (s : Workers Thread Name) : WorkerLabel Thread → Prop
  | .thread thread move => carefulCallers.Admits s.shared (s.locals thread).task move
  | .event _ => True

abbrev Kept (size : TableSize) : Workers Thread Name → Prop :=
  Holds (fun m => Ledger size m.books) fun thread m worker =>
    Stands size m.books thread worker.task.role

omit [DecidableEq Thread] [DecidableEq Name] in
theorem Kept.initial (files : Files Name) : Kept size (workersInitial files : Workers Thread Name) :=
  ⟨⟨fun _ => rfl, fun _ => Nat.zero_le _, nofun, .nil, nofun, nofun, nofun, .nil⟩,
    fun _ => ⟨trivial, trivial⟩⟩

theorem Kept.step {s t : Workers Thread Name} (kept : Kept size s)
    (careful : CarefulClosers s label)
    (taken : Interleaving.next (workerAct size resolve) workerHappen s label = some t) :
    Kept size t := by
  cases label with
  | event event => nomatch event
  | thread thread move =>
    refine kept.thread taken ?_ ?_
    · intro after next acted
      have step := workerAct_books careful acted
      have stands := kept.locals thread
      exact ⟨step.keeps_ledger kept.shared stands, step.keeps_owns stands.owns,
        step.keeps_relies kept.shared stands⟩
    · intro after next acted other different stands
      exact Stands.stable (workerAct_books careful acted) (kept.locals thread) kept.shared different
        stands

def UseStep.passed : UseStep → Bool
  | .loadState | .loadGen => false
  | _ => true

/-- Where callers close what they hold, once, and no slot is claimed more than 256 times: a use of
a handle that was closed before acts on nothing, a close closes what `open` returned under its
argument, and `open` returns no handle twice. -/
theorem handles_not_reused {files : Files Name} {labels : List (WorkerLabel Thread)}
    {last : Workers Thread Name}
    (trace : Trace (Interleaving.next (workerAct size resolve) workerHappen) CarefulClosers
      (workersInitial files) labels last) :
    (∀ thread handle writes closedBefore step,
      (last.locals thread).task = .using handle writes closedBefore step → step.passed = true →
      handle ∉ closedBefore) ∧
    (∀ o ∈ last.shared.closed, o ∈ last.shared.opened) ∧
    (last.shared.opened.map (·.handle)).Nodup := by
  have kept : Kept size last :=
    trace.invariant (Kept.initial files) fun _ _ _ careful taken kept => kept.step careful taken
  have ledger := kept.shared
  refine ⟨?_, fun o listed => (ledger.closed o listed).1, ?_⟩
  · intro thread handle writes closedBefore step task passed
    have stands := kept.locals thread
    rw [task] at stands
    cases step with
    | loadState | loadGen => nomatch passed
    | _ => exact stands.relies
  · refine List.pairwise_map.mpr (ledger.distinct.imp_of_mem fun {first second} one other apart => ?_)
    intro same
    have shaped := ledger.shape first one
    have shapedToo := ledger.shape second other
    have slots : first.slot = second.slot := by
      rw [← shaped.slotOf_handle, ← shapedToo.slotOf_handle, same]
    have gens := congrArg genOf same
    rw [shaped.handle, shapedToo.handle, genOf_virtualHandle (Nat.mod_lt _ (by decide)),
      genOf_virtualHandle (Nat.mod_lt _ (by decide))] at gens
    have few := ledger.few first.slot
    have fewToo := ledger.few second.slot
    have bounds := shaped.made
    have boundsToo := shapedToo.made
    have positive := shaped.positive
    have positiveToo := shapedToo.positive
    exact apart slots (by omega)

instance (m : Shared Thread Name) (task : Task) (move : WorkerMove) :
    Decidable (carefulCallers.Admits m task move) := by
  unfold Policy.Admits carefulCallers
  split <;> infer_instance

instance (s : Workers Thread Name) (label : WorkerLabel Thread) :
    Decidable (CarefulClosers s label) := by
  unfold CarefulClosers
  split <;> infer_instance

def oneSlot : TableSize := ⟨1, Nat.one_pos, by decide⟩

/-- The moves of an `open` that claims the first slot it tries, with no descriptors to sweep. -/
def openMoves (path : PathBytes) (flags : Flags) : List WorkerMove :=
  .openCall path flags :: List.replicate 10 .step

def closeMoves (handle : Nat) : List WorkerMove := .closeCall handle :: List.replicate 7 .step

structure HandleRecord where
  opened : List Opened
  closed : List Opened
  closeReturned : List Nat
  deriving DecidableEq

def handleRecord (s : Workers Bool PathBytes) : HandleRecord where
  opened := s.shared.opened
  closed := s.shared.closed
  closeReturned := s.shared.closeReturned

def emptyStore : Workers Bool PathBytes := workersInitial ⟨fun _ => none, 0⟩

theorem handles_not_reused_two_opens : ∃ last,
    Trace (Interleaving.next (workerAct oneSlot id) workerHappen) CarefulClosers emptyStore
      ((openMoves [1] .create ++ closeMoves 1 ++ openMoves [1] .create).map (.thread true) ++
        [.thread false (.useCall 1 false), .thread false .step]) last ∧
      handleRecord last = ⟨[⟨1, 0, 1⟩, ⟨2, 0, 2⟩], [⟨1, 0, 1⟩], [1]⟩ ∧
      (last.shared.opened.map (·.handle)).Nodup :=
  Trace.of_view_and handleRecord (fun _ trace _ => (handles_not_reused trace).2.2) (by decide)

def Worker.atRest : Worker → Bool
  | ⟨.resting, []⟩ => true
  | _ => false

theorem Worker.eq_of_atRest {worker : Worker} (rests : worker.atRest = true) : worker = {} := by
  rw [Worker.atRest.eq_def] at rests
  split at rests
  · rfl
  · cases rests

/-- An `open` of a file that is not there: the slot is freed, with the next generation. -/
def failMoves : List WorkerMove :=
  .openCall [2] 0 :: (List.replicate 8 .step ++ [.fail, .step])

/-- One slot, free after a number of claims, and a thread at rest without descriptors. -/
structure Rested (claims : Nat) (s : Workers Bool PathBytes) : Prop where
  state : (s.shared.slots 0).state = .free
  gen : (s.shared.slots 0).gen = claims % 2 ^ 8
  worker : s.locals true = {}

/-- A thread with no descriptors claims the free slot. -/
theorem exchange_alone (free : (m.slots 0).state = .free) (path : PathBytes) (flags : Flags)
    (moves : List WorkerMove) :
    alone (workerAct oneSlot id) true m {}
      (.openCall path flags :: .step :: .step :: .step :: moves) =
    alone (workerAct oneSlot id) true
      (({ m with cursor := m.cursor + 1 }).setSlot 0 { m.slots 0 with
        state := .claiming, holder := some true, request := path, written := false, file := none })
      { task := .opening path flags (.loadGen 0) } moves := by
  have slot (start : Nat) : (start + 0) % oneSlot.maxHandles = 0 := Nat.mod_one _
  have exchanged : workerAct oneSlot id true .step ({ m with cursor := m.cursor + 1 })
      { task := .opening path flags (.exchange (m.cursor.toNat % 1) 0) } = some
      (({ m with cursor := m.cursor + 1 }).setSlot 0 { m.slots 0 with
        state := .claiming, holder := some true, request := path, written := false, file := none },
      { task := .opening path flags (.loadGen 0) }) := by
    simp only [workerAct, openStep, slot, free]
    rfl
  exact alone_cons exchanged

/-- It goes on to open the file, with the next generation. -/
theorem numbered_alone (free : (m.slots 0).state = .free) (path : PathBytes) (flags : Flags) :
    ∃ n, (∀ moves, alone (workerAct oneSlot id) true m {}
        (.openCall path flags :: List.replicate 8 .step ++ moves) =
      alone (workerAct oneSlot id) true n
        { task := .opening path flags (.openFile 0 (((m.slots 0).gen + 1) % 2 ^ 8)) } moves) ∧
      (n.slots 0).gen = ((m.slots 0).gen + 1) % 2 ^ 8 ∧ n.opened = m.opened ∧
      n.closeReturned = m.closeReturned := by
  apply Exists.intro
  constructor
  · intro moves
    exact (exchange_alone free path flags _).trans <| (alone_cons rfl).trans <|
      (alone_cons rfl).trans <| (alone_cons rfl).trans <| (alone_cons rfl).trans <|
        (alone_cons rfl).trans rfl
  · exact ⟨rfl, rfl, rfl⟩

section
variable (rested : Rested claims s)
include rested

theorem Rested.fail :
    ∃ t, Trace (Interleaving.next (workerAct oneSlot id) workerHappen) Free s
        (failMoves.map (.thread true)) t ∧ Rested (claims + 1) t ∧
      t.shared.opened = s.shared.opened ∧ t.shared.closeReturned = s.shared.closeReturned := by
  obtain ⟨n, numbered, gen, opened, returned⟩ := numbered_alone rested.state [2] 0
  have ran : alone (workerAct oneSlot id) true s.shared (s.locals true) failMoves =
      some (n.setSlot 0 { n.slots 0 with state := .free, holder := none }, {}) := by
    rw [rested.worker]
    exact numbered [.fail, .step]
  refine ⟨_, trace_alone ran, ⟨rfl, ?_, Function.update_self true _ s.locals⟩, opened, returned⟩
  refine gen.trans ?_
  rw [rested.gen]
  omega

theorem Rested.failing (count : Nat) :
    ∃ labels t, Trace (Interleaving.next (workerAct oneSlot id) workerHappen) Free s
        labels t ∧ Rested (claims + count) t ∧ t.shared.opened = s.shared.opened ∧
      t.shared.closeReturned = s.shared.closeReturned := by
  induction count with
  | zero => exact ⟨[], s, .start, rested, rfl, rfl⟩
  | succ count ih =>
    obtain ⟨labels, t, trace, again, opened, returned⟩ := ih
    obtain ⟨u, more, later, same, kept⟩ := again.fail
    exact ⟨_, u, trace.append more, later, same.trans opened, kept.trans returned⟩

theorem Rested.opens :
    ∃ labels t, Trace (Interleaving.next (workerAct oneSlot id) workerHappen) Free s labels t ∧
      t.shared.opened.map (·.handle) =
        s.shared.opened.map (·.handle) ++ [virtualHandle 0 ((claims + 1) % 2 ^ 8)] ∧
      t.shared.closeReturned = s.shared.closeReturned := by
  obtain ⟨n, numbered, _, opened, returned⟩ := numbered_alone rested.state [1] .create
  have created : ∃ result, n.files.openSync [1] (Flags.has .create .create)
      (Flags.has .create .excl) = some result := by
    rw [Files.openSync]
    cases n.files.entry [1] <;> exact ⟨_, rfl⟩
  obtain ⟨result, created⟩ := created
  have ran := (numbered [.step, .step]).trans (alone_cons (congrArg (Option.map _) created))
  rw [← rested.worker] at ran
  refine ⟨_, _, trace_alone ran, ?_, returned⟩
  have gen : ((s.shared.slots 0).gen + 1) % 2 ^ 8 = (claims + 1) % 2 ^ 8 := by
    rw [rested.gen]
    omega
  rw [← opened, ← gen]
  exact List.map_append

end

/-- The test of the generation and the exchange of a close are two steps: a second close of handle
1 closes handle 2. And after 256 more claims of its slot `open` returns the closed handle 1
again. -/
theorem closed_handle_returns :
    (∃ last, Trace (Interleaving.next (workerAct oneSlot id) workerHappen) Free emptyStore
      ((openMoves [1] .create).map (.thread true) ++
        [.thread false (.closeCall 1), .thread false .step] ++
        (closeMoves 1 ++ openMoves [1] .create).map (.thread true) ++ [.thread false .step]) last ∧
      handleRecord last = ⟨[⟨1, 0, 1⟩, ⟨2, 0, 2⟩], [⟨1, 0, 1⟩, ⟨1, 0, 2⟩], [1]⟩) ∧
    ∃ labels last, Trace (Interleaving.next (workerAct oneSlot id) workerHappen) Free emptyStore
      labels last ∧ last.shared.opened.map (·.handle) = [1, 1] ∧
      last.shared.closeReturned = [1] := by
  refine ⟨Trace.of_view handleRecord (by decide), ?_⟩
  obtain ⟨s, first, seen⟩ := Trace.of_view
    (fun s : Workers Bool PathBytes => (handleRecord s, (s.shared.slots 0).state,
      (s.shared.slots 0).gen, (s.locals true).atRest))
    (by decide : (replay (guarded Free (Interleaving.next (workerAct oneSlot id) workerHappen))
      emptyStore ((openMoves [1] .create ++ closeMoves 1).map (.thread true))).map _ =
      some (⟨[⟨1, 0, 1⟩], [⟨1, 0, 1⟩], [1]⟩, .free, 1, true))
  simp only [Prod.mk.injEq] at seen
  obtain ⟨record, state, gen, rests⟩ := seen
  have rested : Rested 1 s := ⟨state, gen, Worker.eq_of_atRest rests⟩
  obtain ⟨_, t, failed, again, opened, returned⟩ := rested.failing 255
  obtain ⟨_, last, reopened, handles, closed⟩ := again.opens
  refine ⟨_, last, (first.append failed).append reopened, ?_, ?_⟩
  · rw [handles, opened, show s.shared.opened = [⟨1, 0, 1⟩] from congrArg HandleRecord.opened record]
    rfl
  · rw [closed, returned, show s.shared.closeReturned = [1] from
      congrArg HandleRecord.closeReturned record]

end Runs
end SpaceDataModule.NodeSyncFs

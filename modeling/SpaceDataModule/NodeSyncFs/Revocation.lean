import Mathlib.Algebra.BigOperators.Group.Finset.Piecewise
import Mathlib.Data.Fintype.Card
import SpaceDataModule.FlatsqlIo.Contract
import SpaceDataModule.Interleaving

/-! Revocation of an instance: a flag and a counter of the calls in flight. Each atomic access is
one step. A wait of the revoker may end at any time, since it loads the counter again. -/
namespace SpaceDataModule.NodeSyncFs
open FlatsqlIo (Status.access)
open Interleaving Transition

/-- The two words of an instance; the counter is an `Int32`, which wraps. -/
structure InstanceWords where
  revoked : Bool := false
  inFlight : UInt32 := 0

/-- Where a thread stands in a guarded operation, or in `revokeNodeSyncFsIoInstance`. -/
inductive Caller where
  | resting
  /-- `enter` is about to count the call. -/
  | entering
  /-- The call is counted; the flag is not tested yet. -/
  | testing
  /-- The flag was set: `leave` is still to be called. -/
  | refused
  /-- Inside the operation. -/
  | running
  /-- The operation has ended; `leave` is still to be called. -/
  | leaving (status : Int)
  /-- The flag is stored, and the counter is waited for. -/
  | draining
  deriving DecidableEq

inductive CallerMove where
  /-- One of open, read, write, truncate, sync and size is called. -/
  | call
  | add
  | test
  | syscall
  | finish (status : Int)
  /-- `leave`, and the operation returns. -/
  | leave (status : Int)
  /-- The revoker stores the flag. -/
  | revoke
  /-- It loads a counter other than zero and waits. -/
  | wait
  /-- It loads zero and returns. -/
  | revoked
  /-- `resetNodeSyncFsIoInstance`. -/
  | reset
  deriving DecidableEq

variable {caller next : Caller}

section Steps
variable {Thread : Type}

def callerAct (_ : Thread) (move : CallerMove) (words : InstanceWords) (caller : Caller) :
    Option (InstanceWords × Caller) :=
  match move, caller with
  | .call, .resting => some (words, .entering)
  | .add, .entering => some ({ words with inFlight := words.inFlight + 1 }, .testing)
  | .test, .testing => some (words, if words.revoked then .refused else .running)
  | .syscall, .running => some (words, .running)
  | .finish status, .running => some (words, .leaving status)
  | .leave status, .leaving result =>
    if status = result then some ({ words with inFlight := words.inFlight - 1 }, .resting) else none
  | .leave status, .refused =>
    if status = Status.access then some ({ words with inFlight := words.inFlight - 1 }, .resting)
    else none
  | .revoke, .resting => some ({ words with revoked := true }, .draining)
  | .wait, .draining => if words.inFlight ≠ 0 then some (words, .draining) else none
  | .revoked, .draining => if words.inFlight = 0 then some (words, .resting) else none
  | .reset, .resting => some ({ words with revoked := false }, .resting)
  | _, _ => none

def callerHappen (event : Empty) (_ : InstanceWords) : Option InstanceWords := nomatch event

abbrev CallerLabel (Thread : Type) := Label Thread CallerMove Empty
abbrev Callers (Thread : Type) := Config InstanceWords Thread Caller

def callersInitial : Callers Thread := ⟨{}, fun _ => .resting⟩

abbrev CallerTrace [DecidableEq Thread] (first : Callers Thread)
    (labels : List (CallerLabel Thread)) (last : Callers Thread) : Prop :=
  Trace (Interleaving.next callerAct callerHappen) Free first labels last

def Caller.counted : Caller → Bool
  | .testing | .refused | .running | .leaving _ => true
  | _ => false

/-- The flag was passed, and the operation has not returned. -/
def Caller.inside : Caller → Bool
  | .running | .leaving _ => true
  | _ => false

inductive CallerStep (words : InstanceWords) : CallerMove → Caller → InstanceWords → Caller → Prop
  | call : CallerStep words .call .resting words .entering
  | add : CallerStep words .add .entering { words with inFlight := words.inFlight + 1 } .testing
  | refuse (revoked : words.revoked = true) : CallerStep words .test .testing words .refused
  | pass (live : words.revoked = false) : CallerStep words .test .testing words .running
  | syscall : CallerStep words .syscall .running words .running
  | finish (status : Int) : CallerStep words (.finish status) .running words (.leaving status)
  | leave (status : Int) : CallerStep words (.leave status) (.leaving status)
      { words with inFlight := words.inFlight - 1 } .resting
  | leaveRefused : CallerStep words (.leave Status.access) .refused
      { words with inFlight := words.inFlight - 1 } .resting
  | revoke : CallerStep words .revoke .resting { words with revoked := true } .draining
  | wait : CallerStep words .wait .draining words .draining
  | revoked (drained : words.inFlight = 0) : CallerStep words .revoked .draining words .resting
  | reset : CallerStep words .reset .resting { words with revoked := false } .resting

theorem callerStep_of_act (acted : callerAct thread move words caller = some (after, next)) :
    CallerStep words move caller after next := by
  rw [callerAct.eq_def] at acted
  split at acted
  · cases acted
    exact .call
  · cases acted
    exact .add
  · cases acted
    cases flag : words.revoked with
    | true => exact .refuse flag
    | false => exact .pass flag
  · cases acted
    exact .syscall
  · cases acted
    exact .finish _
  · split_ifs at acted with same
    cases acted
    subst same
    exact .leave _
  · split_ifs at acted with same
    cases acted
    subst same
    exact .leaveRefused
  · cases acted
    exact .revoke
  · split_ifs at acted
    cases acted
    exact .wait
  · split_ifs at acted with drained
    cases acted
    exact .revoked drained
  · cases acted
    exact .reset
  · cases acted

end Steps

section Counting
variable {Thread : Type} [Fintype Thread] (locals : Thread → Caller)

def inFlightCalls : Nat :=
  ∑ thread, if (locals thread).counted then 1 else 0

theorem inFlightCalls_le :
    inFlightCalls locals ≤ Fintype.card Thread := by
  rw [inFlightCalls, ← Finset.card_filter]
  exact Finset.card_le_univ _

theorem counted_of_inFlightCalls {locals : Thread → Caller} (none : inFlightCalls locals = 0)
    (thread : Thread) : (locals thread).counted = false := by
  have zero := Finset.sum_eq_zero_iff.mp none thread (Finset.mem_univ thread)
  simpa using zero

/-- The counter is the number of calls in flight, as far as its word goes. -/
def Counts (s : Callers Thread) : Prop :=
  s.shared.inFlight = UInt32.ofNat (inFlightCalls s.locals)

variable [DecidableEq Thread]

theorem inFlightCalls_update (thread : Thread) (caller : Caller) :
    inFlightCalls (Function.update locals thread caller) +
        (if (locals thread).counted then 1 else 0) =
      inFlightCalls locals + if caller.counted then 1 else 0 := by
  have others : ∑ other ∈ Finset.univ.erase thread,
      (if (Function.update locals thread caller other).counted then 1 else 0) =
      ∑ other ∈ Finset.univ.erase thread, if (locals other).counted then 1 else 0 := by
    refine Finset.sum_congr rfl fun other listed => ?_
    rw [Function.update_of_ne (Finset.ne_of_mem_erase listed)]
  rw [inFlightCalls, inFlightCalls, ← Finset.add_sum_erase _ _ (Finset.mem_univ thread),
    ← Finset.add_sum_erase _ (fun other => if (locals other).counted then 1 else 0) (Finset.mem_univ thread),
    Function.update_self]
  omega

/-- A step counts what it makes of its thread. -/
theorem CallerStep.counts (step : CallerStep words move caller after next) :
    after.inFlight + (if caller.counted then 1 else 0) =
      words.inFlight + if next.counted then 1 else 0 := by
  cases step with
  | add | leave | leaveRefused => simp [Caller.counted]
  | _ => rfl

theorem counts_step {label : CallerLabel Thread} (counts : Counts s)
    (taken : Interleaving.next callerAct callerHappen s label = some t) : Counts t := by
  cases label with
  | event event => nomatch event
  | thread thread move =>
    obtain ⟨⟨words, caller⟩, acted, rfl⟩ := Option.map_eq_some_iff.mp taken
    have moved := congrArg UInt32.ofNat (inFlightCalls_update s.locals thread caller)
    have stored := (callerStep_of_act acted).counts
    have word (flag : Bool) : UInt32.ofNat (if flag then 1 else 0) = if flag then 1 else 0 := by
      cases flag <;> rfl
    rw [UInt32.ofNat_add, UInt32.ofNat_add, word, word, ← show s.shared.inFlight = _ from counts,
      ← stored] at moved
    exact (UInt32.add_left_inj _).mp moved.symm

theorem counts_of_trace {labels : List (CallerLabel Thread)}
    (trace : CallerTrace callersInitial labels last) : Counts last := by
  refine trace.invariant ?_ fun _ _ _ _ taken counts => counts_step counts taken
  have none : inFlightCalls (fun _ : Thread => Caller.resting) = 0 :=
    Finset.sum_eq_zero fun _ _ => rfl
  exact (congrArg UInt32.ofNat none).symm

end Counting

section Barrier
variable {Thread : Type} [DecidableEq Thread]

/-- The flag is set and nobody has passed it. -/
abbrev Barred (s : Callers Thread) : Prop :=
  Holds (fun words => words.revoked = true) (fun _ _ caller => caller.inside = false) s

theorem CallerStep.keeps_revoked (step : CallerStep words move caller after next) (kept : move ≠ .reset)
    (revoked : words.revoked = true) : after.revoked = true := by
  cases step with
  | reset => exact absurd rfl kept
  | revoke => rfl
  | _ => exact revoked

theorem CallerStep.keeps_outside (step : CallerStep words move caller after next) (revoked : words.revoked = true)
    (outside : caller.inside = false) : next.inside = false := by
  cases step with
  | pass live =>
    rw [live] at revoked
    cases revoked
  | syscall | finish => nomatch outside
  | _ => rfl

def Keeps (label : CallerLabel Thread) : Prop := ∀ thread, label ≠ .thread thread .reset

theorem revoked_step {label : CallerLabel Thread} (keeps : Keeps label)
    (taken : Interleaving.next callerAct callerHappen s label = some t)
    (revoked : s.shared.revoked = true) : t.shared.revoked = true := by
  cases label with
  | event event => nomatch event
  | thread thread move =>
    obtain ⟨⟨words, caller⟩, acted, rfl⟩ := Option.map_eq_some_iff.mp taken
    exact (callerStep_of_act acted).keeps_revoked (fun same => keeps thread (by rw [same])) revoked

theorem barred_step {label : CallerLabel Thread} (keeps : Keeps label)
    (taken : Interleaving.next callerAct callerHappen s label = some t) (barred : Barred s) :
    Barred t := by
  cases label with
  | event event => nomatch event
  | thread thread move =>
    refine barred.thread taken ?_ fun _ _ _ _ _ outside => outside
    intro words caller acted
    have step := callerStep_of_act acted
    exact ⟨step.keeps_revoked (fun same => keeps thread (by rw [same])) barred.shared,
      step.keeps_outside barred.shared (barred.locals thread)⟩

/-- The steps that are left of a call that is refused. -/
def Caller.refusal : Caller → List CallerMove
  | .entering => [.add, .test, .leave Status.access]
  | .testing => [.test, .leave Status.access]
  | .refused => [.leave Status.access]
  | _ => []

def Caller.inCall : Caller → Bool
  | .resting | .draining => false
  | _ => true

omit [DecidableEq Thread] in
/-- A call behind the flag is refused by its own next steps. -/
theorem refusal_alone (thread : Thread) (revoked : words.revoked = true)
    (outside : caller.inside = false) (called : caller.inCall = true) :
    caller.refusal.getLast? = some (.leave Status.access) ∧
      ∃ after, alone callerAct thread words caller caller.refusal = some (after, .resting) := by
  have tested (words : InstanceWords) (revoked : words.revoked = true) : ∃ after,
      alone callerAct thread words .testing Caller.testing.refusal = some (after, .resting) := by
    have refused : callerAct thread .test words .testing = some (words, .refused) := by
      rw [callerAct, revoked]
      rfl
    exact ⟨_, alone_cons refused⟩
  cases caller with
  | resting | draining => cases called
  | running | leaving => cases outside
  | refused => exact ⟨rfl, _, rfl⟩
  | testing => exact ⟨rfl, tested words revoked⟩
  | entering => exact ⟨rfl, tested ⟨words.revoked, words.inFlight + 1⟩ revoked⟩

/-- What a barred thread can still do is no file-system call, and returns `ACCESS` only. -/
theorem CallerStep.harmless (step : CallerStep words move caller after next)
    (outside : caller.inside = false) :
    move ≠ .syscall ∧ ∀ status, move = .leave status → status = Status.access := by
  cases step with
  | syscall | finish | leave => nomatch outside
  | leaveRefused => exact ⟨nofun, fun status same => (CallerMove.leave.inj same).symm⟩
  | _ => exact ⟨nofun, nofun⟩

theorem outside_of_not_counted (free : caller.counted = false) :
    caller.inside = false := by
  cases caller <;> first | rfl | nomatch free

omit [DecidableEq Thread] in
/-- Where the counter is zero, no call is in flight. -/
theorem outside_of_drained [Fintype Thread] (few : Fintype.card Thread < 2 ^ 32) (counts : Counts s)
    (drained : s.shared.inFlight = 0) (thread : Thread) : (s.locals thread).inside = false := by
  have none : inFlightCalls s.locals = 0 := by
    have value := congrArg UInt32.toNat (counts.symm.trans drained)
    have most := inFlightCalls_le s.locals
    rw [UInt32.toNat_ofNat', Nat.mod_eq_of_lt (by omega)] at value
    exact value
  exact outside_of_not_counted (counted_of_inFlightCalls none thread)

/-- Once the revoker has returned, and no reset has been made since it stored the flag, no thread
is inside a guarded operation, no file-system call is made, and each operation ends in `ACCESS`. -/
theorem revocation_barrier [Fintype Thread] (few : Fintype.card Thread < 2 ^ 32)
    {before during later : List (CallerLabel Thread)} {revoker : Thread} {last : Callers Thread}
    (trace : CallerTrace callersInitial (before ++ [.thread revoker .revoke] ++ during ++
      [.thread revoker .revoked] ++ later) last)
    (kept : ∀ thread, .thread thread .reset ∉ during ++ later) :
    (∀ thread, (last.locals thread).inside = false) ∧
    (∀ thread, .thread thread .syscall ∉ later) ∧
    (∀ thread status, .thread thread (.leave status) ∈ later → status = Status.access) ∧
    ∀ thread, (last.locals thread).inCall = true →
      (last.locals thread).refusal.getLast? = some (.leave Status.access) ∧
      ∃ after, CallerTrace last ((last.locals thread).refusal.map (.thread thread)) after ∧
        after.locals thread = .resting := by
  have keeps (label : CallerLabel Thread) (listed : label ∈ during ++ later) : Keeps label := by
    rintro thread rfl
    exact kept thread listed
  obtain ⟨opened, upTo, behind⟩ := trace.split
  obtain ⟨drained, waited, returned⟩ := upTo.split
  obtain ⟨stored, started, meanwhile⟩ := waited.split
  obtain ⟨first, _, storing⟩ := started.split
  -- the flag stays set from its store on
  have flagged : stored.shared.revoked = true := by
    obtain ⟨⟨words, caller⟩, acted, rfl⟩ := Option.map_eq_some_iff.mp storing.single.2
    generalize first.locals revoker = before at acted
    cases callerStep_of_act acted
    rfl
  have revoked : drained.shared.revoked = true :=
    (meanwhile.along flagged (fun label listed => keeps label (List.mem_append_left _ listed))
      fun _ _ _ keeps taken revoked => revoked_step keeps taken revoked).1
  -- the counter was zero when the revoker loaded it
  have zero : drained.shared.inFlight = 0 := by
    obtain ⟨⟨words, caller⟩, acted, _⟩ := Option.map_eq_some_iff.mp returned.single.2
    generalize drained.locals revoker = before at acted
    cases callerStep_of_act acted with
    | revoked zero => exact zero
  have barred : Barred opened :=
    barred_step (fun _ same => by cases same) returned.single.2
      ⟨revoked, outside_of_drained few (counts_of_trace waited) zero⟩
  obtain ⟨still, taken⟩ := behind.along barred
    (fun label listed => keeps label (List.mem_append_right _ listed))
    fun _ _ _ keeps taken barred => barred_step keeps taken barred
  have harmless (thread : Thread) (move : CallerMove) (listed : .thread thread move ∈ later) :
      move ≠ .syscall ∧ ∀ status, move = .leave status → status = Status.access := by
    obtain ⟨s, t, holds, stepped⟩ := taken _ listed
    obtain ⟨⟨words, caller⟩, acted, _⟩ := Option.map_eq_some_iff.mp stepped
    exact (callerStep_of_act acted).harmless (holds.locals thread)
  refine ⟨still.locals, fun thread listed => (harmless thread _ listed).1 rfl, ?_, ?_⟩
  · intro thread status listed
    exact (harmless thread _ listed).2 status rfl
  · intro thread called
    obtain ⟨ends, words, ran⟩ := refusal_alone thread still.shared (still.locals thread) called
    exact ⟨ends, _, trace_alone ran, Function.update_self ..⟩

/-- A read is under way when its instance is revoked, and another one starts behind it. -/
theorem revocation_barrier_one_reader : ∃ last : Callers Bool,
    CallerTrace callersInitial ([.thread true .call, .thread true .add, .thread true .test,
        .thread true .syscall] ++ [.thread false .revoke] ++
      [.thread false .wait, .thread true (.finish 4), .thread true (.leave 4)] ++
      [.thread false .revoked] ++ [.thread true .call, .thread true .add]) last ∧
    (last.locals true).inCall = true ∧ ∀ thread, (last.locals thread).inside = false :=
  Trace.of_view_and (fun s : Callers Bool => (s.locals true).inCall)
    (fun _ trace _ => (revocation_barrier (by decide) trace (by simp)).1) (by decide)

/-- Threads that enter one after the other, while the instance is live. -/
theorem entered_of_list (threads : List Thread) {s : Callers Thread} (distinct : threads.Nodup)
    (live : s.shared.revoked = false) (resting : ∀ thread ∈ threads, s.locals thread = .resting) :
    ∃ labels last, CallerTrace s labels last ∧
      last.shared.inFlight = s.shared.inFlight + UInt32.ofNat threads.length ∧
      (∀ thread ∈ threads, last.locals thread = .running) ∧
      ∀ thread ∉ threads, last.locals thread = s.locals thread := by
  induction threads generalizing s with
  | nil => exact ⟨[], s, .start, (UInt32.add_zero _).symm, nofun, fun _ _ => rfl⟩
  | cons thread threads ih =>
    obtain ⟨fresh, distinct⟩ := List.nodup_cons.mp distinct
    obtain ⟨here, others⟩ := List.forall_mem_cons.mp resting
    have ran : alone callerAct thread s.shared (s.locals thread) [.call, .add, .test] =
        some (⟨s.shared.revoked, s.shared.inFlight + 1⟩, .running) := by
      simp [alone, callerAct, here, live]
    have waiting : ∀ other ∈ threads, Function.update s.locals thread .running other = .resting := by
      intro other listed
      rw [Function.update_of_ne (ne_of_mem_of_not_mem listed fresh)]
      exact others other listed
    obtain ⟨labels, last, rest, counted, running, kept⟩ :=
      @ih ⟨⟨s.shared.revoked, s.shared.inFlight + 1⟩, Function.update s.locals thread .running⟩
        distinct live waiting
    dsimp only at counted kept
    refine ⟨_, last, (trace_alone ran).append rest, ?_, List.forall_mem_cons.mpr ⟨?_, running⟩, ?_⟩
    · rw [counted, List.length_cons, UInt32.ofNat_add, UInt32.add_assoc,
        UInt32.add_comm (UInt32.ofNat threads.length)]
      rfl
    · rw [kept thread fresh, Function.update_self]
    · intro other absent
      obtain ⟨different, elsewhere⟩ := not_or.mp (absent ∘ List.mem_cons.mpr)
      rw [kept other elsewhere, Function.update_of_ne different]

/-- With `2 ^ 32` calls in flight the counter is zero again, and the revoker returns at once.
A reset between the store of the flag and the return lets a later call in. -/
theorem full_counter_passes_revoker :
    (∃ (labels : List (CallerLabel (Option (Fin (2 ^ 32)))))
      (last : Callers (Option (Fin (2 ^ 32)))),
      CallerTrace callersInitial (labels ++ [.thread none .revoke] ++ [] ++
        [.thread none .revoked] ++ []) last ∧ (last.locals (some 0)).inside = true) ∧
    ∃ last : Callers (Fin 3),
      CallerTrace callersInitial ([] ++ [.thread 0 .revoke] ++ [.thread 1 .reset] ++
        [.thread 0 .revoked] ++ [.thread 2 .call, .thread 2 .add, .thread 2 .test]) last ∧
        (last.locals 2).inside = true := by
  refine ⟨?_, Trace.of_view (fun s : Callers (Fin 3) => (s.locals 2).inside) (by decide)⟩
  obtain ⟨labels, s, entered, counted, running, kept⟩ := @entered_of_list (Option (Fin (2 ^ 32))) _
    ((List.finRange (2 ^ 32)).map some) callersInitial
    ((List.nodup_finRange _).map (Option.some_injective _)) rfl fun _ _ => rfl
  have zero : s.shared.inFlight = 0 := by
    rw [counted, List.length_map, List.length_finRange]
    rfl
  have resting : s.locals none = .resting := kept none (by simp)
  have ran : alone (@callerAct (Option (Fin (2 ^ 32)))) none s.shared (s.locals none)
      [.revoke, .revoked] = some (⟨true, s.shared.inFlight⟩, .resting) := by
    simp [alone, callerAct, resting, zero]
  refine ⟨labels, _, by simpa using entered.append (trace_alone ran), ?_⟩
  have inside : s.locals (some 0) = .running :=
    running (some 0) (List.mem_map_of_mem (List.mem_finRange 0))
  have other : (some 0 : Option (Fin (2 ^ 32))) ≠ none := Option.some_ne_none 0
  dsimp only
  rw [Function.update_of_ne other, inside]
  rfl

end Barrier
end SpaceDataModule.NodeSyncFs

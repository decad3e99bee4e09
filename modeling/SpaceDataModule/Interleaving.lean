import Mathlib.Logic.Function.Basic
import SpaceDataModule.Transition

/-! Threads with local states over one shared state. A move of a thread reads and
writes the shared state and its own local state; events change the shared state
alone. Assertions about one thread have to be stable under the others. -/
namespace Interleaving
open Transition

structure Config (Shared Thread Local : Type*) where
  shared : Shared
  locals : Thread → Local

inductive Label (Thread Move Event : Type*) where
  | thread (thread : Thread) (move : Move)
  | event (event : Event)

variable {Shared Thread Local Move Event : Type*} [DecidableEq Thread]
variable {act : Thread → Move → Shared → Local → Option (Shared × Local)}
variable {happen : Event → Shared → Option Shared}

def next (act : Thread → Move → Shared → Local → Option (Shared × Local))
    (happen : Event → Shared → Option Shared) (s : Config Shared Thread Local) :
    Label Thread Move Event → Option (Config Shared Thread Local)
  | .thread thread move => (act thread move s.shared (s.locals thread)).map fun after =>
      ⟨after.1, Function.update s.locals thread after.2⟩
  | .event event => (happen event s.shared).map fun shared => { s with shared := shared }

/-- A shared invariant together with an assertion for each thread. -/
structure Holds (G : Shared → Prop) (A : Thread → Shared → Local → Prop)
    (s : Config Shared Thread Local) : Prop where
  shared : G s.shared
  locals : ∀ thread, A thread s.shared (s.locals thread)

variable {G : Shared → Prop} {A : Thread → Shared → Local → Prop}

/-- A move keeps the assertions if it keeps its own thread's and disturbs no other. -/
theorem Holds.thread {thread : Thread} (holds : Holds G A s)
    (taken : next act happen s (.thread thread move) = some t)
    (own : ∀ shared self, act thread move s.shared (s.locals thread) = some (shared, self) →
      G shared ∧ A thread shared self)
    (others : ∀ shared self, act thread move s.shared (s.locals thread) = some (shared, self) →
      ∀ other, other ≠ thread → A other s.shared (s.locals other) →
        A other shared (s.locals other)) : Holds G A t := by
  obtain ⟨⟨shared, self⟩, acted, rfl⟩ := Option.map_eq_some_iff.mp taken
  obtain ⟨kept, mine⟩ := own shared self acted
  refine ⟨kept, ?_⟩
  intro other
  by_cases same : other = thread
  · subst same
    simpa only [Function.update_self] using mine
  · simp only [Function.update_of_ne same]
    exact others shared self acted other same (holds.locals other)

theorem Holds.event {event : Event} (holds : Holds G A s)
    (taken : next act happen s (.event event) = some t)
    (stable : ∀ shared, happen event s.shared = some shared →
      G shared ∧ ∀ thread, A thread s.shared (s.locals thread) →
        A thread shared (s.locals thread)) : Holds G A t := by
  obtain ⟨shared, happened, rfl⟩ := Option.map_eq_some_iff.mp taken
  obtain ⟨kept, others⟩ := stable shared happened
  exact ⟨kept, fun thread => others thread (holds.locals thread)⟩

def alone (act : Thread → Move → Shared → Local → Option (Shared × Local)) (thread : Thread)
    (shared : Shared) (self : Local) : List Move → Option (Shared × Local)
  | [] => some (shared, self)
  | move :: moves => (act thread move shared self).bind fun after =>
      alone act thread after.1 after.2 moves

omit [DecidableEq Thread] in
theorem alone_cons (acted : act thread move shared self = some after) :
    alone act thread shared self (move :: moves) = alone act thread after.1 after.2 moves := by
  rw [alone, acted]
  rfl

theorem trace_alone
    (ran : alone act thread s.shared (s.locals thread) moves = some (shared, self)) :
    Trace (next act happen) Free s (moves.map (.thread thread))
      ⟨shared, Function.update s.locals thread self⟩ := by
  induction moves generalizing s with
  | nil =>
    cases ran
    rw [Function.update_eq_self]
    exact .start
  | cons move moves ih =>
    obtain ⟨after, acted, rest⟩ := Option.bind_eq_some_iff.mp ran
    have first : Trace (next act happen) Free s [.thread thread move]
        ⟨after.1, Function.update s.locals thread after.2⟩ :=
      Trace.start.next trivial (by rw [next, acted]; rfl)
    have later := @ih ⟨after.1, Function.update s.locals thread after.2⟩
      (by dsimp only; rw [Function.update_self]; exact rest)
    rw [Function.update_idem] at later
    exact first.append later

end Interleaving

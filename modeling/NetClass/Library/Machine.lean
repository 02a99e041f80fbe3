import Mathlib.Logic.Function.Basic
import Mathlib.Logic.Relation

/-!
Contract: transition systems, their reachable states, and forward simulation.

Owns: the induction over the reachable states of a system, systems that run next to
each other, and the rule that carries what holds of one system over to a system that it
simulates. A step of the concrete system may stand for any number of steps of the abstract
one.

Does **not** own: any particular system.
-/

set_option autoImplicit false

universe u v

/-- A transition system: where it may begin, and which steps it may take. -/
structure Machine (State : Type u) where
  initial : State → Prop
  step : State → State → Prop

namespace Machine

variable {State : Type u} {Abstract : Type v}

/-- The states of the runs of a machine. -/
def Reachable (machine : Machine State) (state : State) : Prop :=
  ∃ first, machine.initial first ∧ Relation.ReflTransGen machine.step first state

section Reachability

variable {machine : Machine State} {state next : State}

theorem Reachable.start (initial : machine.initial state) : machine.Reachable state :=
  ⟨state, initial, .refl⟩

theorem Reachable.tail (reachable : machine.Reachable state) (step : machine.step state next) :
    machine.Reachable next := by
  obtain ⟨first, initial, run⟩ := reachable
  exact ⟨first, initial, run.tail step⟩

theorem Reachable.trans (reachable : machine.Reachable state)
    (steps : Relation.ReflTransGen machine.step state next) : machine.Reachable next := by
  obtain ⟨first, initial, run⟩ := reachable
  exact ⟨first, initial, run.trans steps⟩

/-- What holds at the beginning and is kept by every step holds of every reachable
state. -/
theorem Reachable.invariant (Inv : State → Prop)
    (start : ∀ state, machine.initial state → Inv state)
    (kept : ∀ state next, machine.Reachable state → Inv state → machine.step state next →
      Inv next)
    (reachable : machine.Reachable state) : Inv state := by
  obtain ⟨first, initial, run⟩ := reachable
  induction run with
  | refl => exact start first initial
  | tail run step inductionHypothesis =>
      exact kept _ _ ⟨first, initial, run⟩ inductionHypothesis step

end Reachability

/-! ### Machines side by side -/

section SideBySide

universe w

variable {Index : Type w} [DecidableEq Index] {machines : Index → Machine State}
variable {states : Index → State}

/-- Machines that take their steps in turns, in any order. -/
def sideBySide (machines : Index → Machine State) : Machine (Index → State) where
  initial := fun states => ∀ index, (machines index).initial (states index)
  step := fun states next => ∃ index state, (machines index).step (states index) state ∧
    next = Function.update states index state

/-- Each of them runs as it does alone. -/
theorem Reachable.component (reachable : (sideBySide machines).Reachable states)
    (index : Index) : (machines index).Reachable (states index) := by
  apply reachable.invariant (fun states => (machines index).Reachable (states index))
  · exact fun _ initial => .start (initial index)
  · rintro before _ - holds ⟨here, state, step, rfl⟩
    by_cases same : index = here
    · subst same
      rw [Function.update_self]
      exact holds.tail step
    · rwa [Function.update_of_ne same]

/-- A step of one of them is a step of all. -/
theorem step_sideBySide {index : Index} {state : State}
    (step : (machines index).step (states index) state) :
    (sideBySide machines).step states (Function.update states index state) :=
  ⟨index, state, step, rfl⟩

end SideBySide

/-! ### Forward simulation -/

/-- A relation under which the abstract machine can follow every step of the concrete
one. -/
structure Simulation (concrete : Machine State) (abstract : Machine Abstract)
    (related : State → Abstract → Prop) : Prop where
  start : ∀ state, concrete.initial state →
    ∃ shadow, abstract.initial shadow ∧ related state shadow
  step : ∀ state next shadow, abstract.Reachable shadow → related state shadow →
    concrete.step state next →
    ∃ follower, Relation.ReflTransGen abstract.step shadow follower ∧ related next follower

/-- Every reachable state of the concrete machine has a reachable state of the abstract
one related to it. -/
theorem Simulation.reachable {concrete : Machine State} {abstract : Machine Abstract}
    {related : State → Abstract → Prop} (simulation : Simulation concrete abstract related)
    {state : State} (reachable : concrete.Reachable state) :
    ∃ shadow, abstract.Reachable shadow ∧ related state shadow := by
  apply reachable.invariant
    (fun state => ∃ shadow, abstract.Reachable shadow ∧ related state shadow)
  · intro first initial
    obtain ⟨shadow, initially, relates⟩ := simulation.start first initial
    exact ⟨shadow, .start initially, relates⟩
  · rintro state next - ⟨shadow, reached, relates⟩ step
    obtain ⟨follower, steps, follows⟩ := simulation.step state next shadow reached relates step
    exact ⟨follower, reached.trans steps, follows⟩

end Machine

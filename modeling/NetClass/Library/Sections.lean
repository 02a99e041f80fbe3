import Mathlib.Data.List.Basic
import NetClass.Library.Holding

/-!
Contract: critical sections, told by the moments at which threads enter and leave them.

Owns: the logs of such moments that a lock allows, also of a lock that its owner may not
enter again, and what each entry in such a log says about the threads before it.

Does **not** own: a lock itself; see `NetClass.Library.Holding`.
-/

set_option autoImplicit false

universe u

/-- A thread enters a section, or leaves it. -/
inductive Mark (Thread : Type u) where
  | enters (thread : Thread)
  | leaves (thread : Thread)
deriving DecidableEq, Repr

namespace Holding

variable {Thread : Type u} [DecidableEq Thread]

instance (holding : Holding Thread) (thread : Thread) : Decidable (holding.By thread) :=
  match holding with
  | .free => isFalse (by simp [By])
  | .held owner again =>
      decidable_of_iff (owner = thread)
        ⟨fun same => ⟨again, by rw [same]⟩, fun ⟨_, same⟩ => (Holding.held.inj same).1⟩

/-- The entries of one thread that have not been left. -/
def depthOf (holding : Holding Thread) (thread : Thread) : Nat :=
  match holding with
  | .free => 0
  | .held owner again => if owner = thread then again + 1 else 0

/-- The lock after a mark that it allows. `again` tells whether it lets its owner enter
again. -/
def mark (again : Bool) (holding : Holding Thread) : Mark Thread → Option (Holding Thread)
  | .enters thread => if again = true ∨ holding = .free then holding.enter thread else none
  | .leaves thread => if holding.By thread then some holding.leave else none

/-- The lock after a log of marks, if it allows each of them. -/
def replay (again : Bool) (holding : Holding Thread) (marks : List (Mark Thread)) :
    Option (Holding Thread) :=
  marks.foldlM (mark again) holding

variable {again : Bool} {holding next : Holding Thread} {marks : List (Mark Thread)}

theorem replay_append (again : Bool) (holding : Holding Thread) (left right : List (Mark Thread)) :
    holding.replay again (left ++ right) =
      (holding.replay again left).bind fun middle => middle.replay again right := by
  rw [replay, List.foldlM_append]
  rfl

theorem replay_singleton (again : Bool) (holding : Holding Thread) (entry : Mark Thread) :
    holding.replay again [entry] = holding.mark again entry := by
  rw [replay, List.foldlM_cons]
  exact bind_pure _

/-- A log goes on with a mark that the lock allows. -/
theorem replay_concat (replays : holding.replay again marks = some next) (entry : Mark Thread) :
    holding.replay again (marks ++ [entry]) = next.mark again entry := by
  rw [replay_append, replays]
  exact replay_singleton again next entry

/-- The step lemma. -/
theorem depthOf_mark {entry : Mark Thread} (marks : holding.mark again entry = some next)
    (thread : Thread) :
    next.depthOf thread + (if entry = .leaves thread then 1 else 0) =
      holding.depthOf thread + if entry = .enters thread then 1 else 0 := by
  cases entry with
  | enters entering =>
      simp only [mark] at marks
      split_ifs at marks with allowed
      cases holding with
      | free =>
          obtain rfl := Option.some.inj marks
          simp [depthOf]
      | held owner depth =>
          simp only [enter] at marks
          split_ifs at marks with mine
          obtain rfl := Option.some.inj marks
          subst mine
          simp only [depthOf, Mark.enters.injEq, reduceCtorEq, ↓reduceIte]
          split_ifs <;> omega
  | leaves leaving =>
      simp only [mark] at marks
      split_ifs at marks with holds
      obtain ⟨depth, rfl⟩ := holds
      obtain rfl := Option.some.inj marks
      cases depth with
      | zero => simp [leave, depthOf]
      | succ depth =>
          simp only [leave, depthOf, Mark.leaves.injEq, reduceCtorEq, ↓reduceIte]
          split_ifs <;> omega

/-- A thread has entered as often as it has left, and holds the lock for the rest. -/
theorem count_of_replay (replays : holding.replay again marks = some next) (thread : Thread) :
    next.depthOf thread + marks.count (.leaves thread) =
      holding.depthOf thread + marks.count (.enters thread) := by
  induction marks generalizing holding with
  | nil =>
      obtain rfl := Option.some.inj replays
      rfl
  | cons entry rest inductionHypothesis =>
      rw [← List.singleton_append, replay_append, replay_singleton] at replays
      obtain ⟨middle, marked, replays⟩ := Option.bind_eq_some_iff.mp replays
      have step := depthOf_mark marked thread
      have tail := inductionHypothesis replays
      simp only [List.count_cons, beq_iff_eq]
      omega

/-- Who enters a lock is alone: every other thread has left as often as it has entered. If
the lock does not let its owner enter again, so has the thread itself. -/
theorem alone_of_replay {before later : List (Mark Thread)} {entering thread : Thread}
    (replays : Holding.free.replay again (before ++ .enters entering :: later) = some next)
    (other : again = true → thread ≠ entering) :
    before.count (.enters thread) = before.count (.leaves thread) := by
  rw [replay_append] at replays
  obtain ⟨middle, replays, rest⟩ := Option.bind_eq_some_iff.mp replays
  have counts := count_of_replay replays thread
  rw [← List.singleton_append, replay_append, replay_singleton] at rest
  obtain ⟨entered, marked, -⟩ := Option.bind_eq_some_iff.mp rest
  have nothing : middle.depthOf thread = 0 := by
    simp only [mark] at marked
    split_ifs at marked with allowed
    cases middle with
    | free => rfl
    | held owner depth =>
        simp only [enter] at marked
        split_ifs at marked with mine
        have differs := other (allowed.resolve_right (by simp))
        exact if_neg fun same => differs (same.symm.trans mine)
  have nothingBefore : (Holding.free : Holding Thread).depthOf thread = 0 := rfl
  omega

end Holding

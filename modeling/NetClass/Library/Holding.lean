import Mathlib.Order.Basic

/-!
Contract: locks that their owner may enter again.

Owns: who holds such a lock and how often, and what it is to enter and to leave it.

Does **not** own: how a thread waits for a lock.
-/

set_option autoImplicit false

universe u

/-- A lock is free or held by one thread. `again` counts the entries after the first. -/
inductive Holding (Thread : Type u) where
  | free
  | held (owner : Thread) (again : Nat)
deriving DecidableEq, Repr

namespace Holding

variable {Thread : Type u}

/-- The thread holds the lock. -/
def By (holding : Holding Thread) (thread : Thread) : Prop :=
  ∃ again, holding = .held thread again

/-- The number of entries that have not been left. -/
def depth : Holding Thread → Nat
  | .free => 0
  | .held _ again => again + 1

/-- The lock after the thread has entered it. `none` means that another thread holds it. -/
def enter [DecidableEq Thread] (holding : Holding Thread) (thread : Thread) :
    Option (Holding Thread) :=
  match holding with
  | .free => some (.held thread 0)
  | .held owner again => if owner = thread then some (.held owner (again + 1)) else none

/-- The lock after one entry has been left. -/
def leave : Holding Thread → Holding Thread
  | .free => .free
  | .held _ 0 => .free
  | .held owner (again + 1) => .held owner again

@[simp] theorem depth_leave (holding : Holding Thread) :
    holding.leave.depth = holding.depth - 1 := by
  cases holding with
  | free => rfl
  | held owner again => cases again <;> rfl

theorem depth_pos_iff (holding : Holding Thread) :
    0 < holding.depth ↔ ∃ thread, holding.By thread := by
  cases holding with
  | free => simp [depth, By]
  | held owner again => simp [depth, By]

theorem depth_eq_zero_iff (holding : Holding Thread) : holding.depth = 0 ↔ holding = .free := by
  cases holding <;> simp [depth]

section Enter

variable [DecidableEq Thread]

/-- Whoever enters a lock holds it. -/
theorem enter_by {holding entered : Holding Thread} {thread : Thread}
    (enters : holding.enter thread = some entered) : entered.By thread := by
  cases holding with
  | free =>
      obtain rfl := Option.some.inj enters
      exact ⟨0, rfl⟩
  | held owner again =>
      simp only [enter] at enters
      split_ifs at enters with mine
      obtain rfl := Option.some.inj enters
      exact ⟨again + 1, by rw [mine]⟩

/-- A lock keeps out exactly those who do not hold it while another thread does. -/
theorem enter_eq_none_iff (holding : Holding Thread) (thread : Thread) :
    holding.enter thread = none ↔ ∃ owner, holding.By owner ∧ owner ≠ thread := by
  cases holding with
  | free => simp [enter, By]
  | held owner again =>
      simp only [enter, By]
      split_ifs with mine
      · simp [mine]
      · simp [mine]

end Enter

end Holding

import Mathlib.Data.List.Induction

/-!
Contract: a counter that goes up and down and stays at zero when it is there.

Owns: the value after a list of ticks, and the parts of the list from which it can be
told.

Does **not** own: what is counted.
-/

set_option autoImplicit false

/-- One tick of a counter. -/
inductive Tick where
  | up
  | down
deriving DecidableEq, Repr

namespace Tick

/-- The value after one tick. -/
def apply (value : Nat) : Tick → Nat
  | .up => value + 1
  | .down => value - 1

/-- The value after a list of ticks. -/
def value (start : Nat) (ticks : List Tick) : Nat := ticks.foldl apply start

theorem value_append (start : Nat) (ticks more : List Tick) :
    value start (ticks ++ more) = value (value start ticks) more := by
  simp [value]

/-- The last ticks, of which `level` more go up than down. -/
def Rises (level : Nat) (ticks : List Tick) : Prop :=
  ∃ before later, ticks = before ++ later ∧ later.count .down + level ≤ later.count .up

theorem rises_zero (ticks : List Tick) : Rises 0 ticks :=
  ⟨ticks, [], (List.append_nil ticks).symm, Nat.le_refl 0⟩

theorem rises_up_iff (level : Nat) (ticks : List Tick) :
    Rises (level + 1) (ticks ++ [.up]) ↔ Rises level ticks := by
  constructor
  · rintro ⟨before, later, split, rises⟩
    rcases List.eq_nil_or_concat later with rfl | ⟨rest, last, rfl⟩
    · simp at rises
    · rw [List.concat_eq_append, ← List.append_assoc] at split
      obtain ⟨rfl, same⟩ := List.append_inj' split rfl
      obtain rfl := (List.cons.inj same).1
      refine ⟨before, rest, rfl, ?_⟩
      simp at rises
      omega
  · rintro ⟨before, later, rfl, rises⟩
    refine ⟨before, later ++ [.up], List.append_assoc .., ?_⟩
    simp
    omega

theorem rises_down_iff (level : Nat) (ticks : List Tick) :
    Rises (level + 1) (ticks ++ [.down]) ↔ Rises (level + 2) ticks := by
  constructor
  · rintro ⟨before, later, split, rises⟩
    rcases List.eq_nil_or_concat later with rfl | ⟨rest, last, rfl⟩
    · simp at rises
    · rw [List.concat_eq_append, ← List.append_assoc] at split
      obtain ⟨rfl, same⟩ := List.append_inj' split rfl
      obtain rfl := (List.cons.inj same).1
      refine ⟨before, rest, rfl, ?_⟩
      simp at rises
      omega
  · rintro ⟨before, later, rfl, rises⟩
    refine ⟨before, later ++ [.down], List.append_assoc .., ?_⟩
    simp
    omega

/-- The counter stands at a level or above exactly if it has risen to it in its last ticks. -/
theorem le_value_iff (ticks : List Tick) : ∀ level : Nat,
    level ≤ value 0 ticks ↔ Rises level ticks := by
  induction ticks using List.reverseRecOn with
  | nil =>
      intro level
      constructor
      · intro none
        obtain rfl : level = 0 := Nat.le_zero.mp none
        exact rises_zero []
      · rintro ⟨before, later, split, rises⟩
        obtain ⟨-, rfl⟩ := List.append_eq_nil_iff.mp split.symm
        simp at rises
        exact Nat.le_of_eq rises
  | append_singleton ticks tick inductionHypothesis =>
      intro level
      cases level with
      | zero => exact iff_of_true (Nat.zero_le _) (rises_zero _)
      | succ level =>
          rw [value_append]
          cases tick with
          | up =>
              rw [rises_up_iff, ← inductionHypothesis]
              exact Nat.succ_le_succ_iff
          | down =>
              rw [rises_down_iff, ← inductionHypothesis]
              show level + 1 ≤ value 0 ticks - 1 ↔ _
              omega

end Tick

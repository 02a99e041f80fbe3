import Mathlib.Data.Int.GCD
import Mathlib.Tactic.Ring

/-!
Contract: how far the multiples of a step reach modulo a number.

Owns: the largest residue among them, which the greatest common divisor of the step and
the modulus determines.
-/

set_option autoImplicit false

/-- The residues of the multiples stay a divisor's length below the modulus. -/
theorem mul_mod_le_sub_gcd (count step : Nat) {modulus : Nat} (positive : 0 < modulus) :
    count * step % modulus ≤ modulus - Nat.gcd step modulus := by
  have divides : Nat.gcd step modulus ∣ modulus - count * step % modulus := by
    apply Nat.dvd_sub (Nat.gcd_dvd_right step modulus)
    rw [Nat.dvd_mod_iff (Nat.gcd_dvd_right step modulus)]
    exact Dvd.dvd.mul_left (Nat.gcd_dvd_left step modulus) count
  have below := Nat.mod_lt (count * step) positive
  have le := Nat.le_of_dvd (Nat.sub_pos_of_lt below) divides
  omega

/-- One of them is as large as that. -/
theorem exists_mul_mod_eq_sub_gcd (step : Nat) {modulus : Nat} (positive : 0 < modulus) :
    ∃ count, 0 < count ∧ count * step % modulus = modulus - Nat.gcd step modulus := by
  have small : Nat.gcd step modulus ≤ modulus :=
    Nat.le_of_dvd positive (Nat.gcd_dvd_right step modulus)
  rcases Nat.lt_or_eq_of_le small with below | whole
  · -- Bézout gives a multiple with residue `gcd`, and its last multiple is the one wanted.
    obtain ⟨inverse, -, bezout⟩ := Nat.exists_mul_mod_eq_gcd below
    obtain ⟨parts, split⟩ := Nat.gcd_dvd_right step modulus
    generalize common : Nat.gcd step modulus = divisor at *
    have some : 0 < divisor := by
      rw [← common]
      exact Nat.gcd_pos_of_pos_right step positive
    obtain ⟨others, rfl⟩ : ∃ others, parts = others + 2 := by
      apply Nat.exists_eq_add_of_le'
      match parts, split with
      | 0, split => omega
      | 1, split => omega
      | _ + 2, _ => exact Nat.le_add_left _ _
    have last : (others + 1) * divisor = modulus - divisor := by
      rw [split]
      have whole : divisor * (others + 2) = (others + 1) * divisor + divisor := by ring
      omega
    refine ⟨(others + 1) * inverse, ?_, ?_⟩
    · apply Nat.mul_pos (Nat.succ_pos others)
      apply Nat.pos_of_ne_zero
      rintro rfl
      rw [Nat.mul_zero, Nat.zero_mod] at bezout
      omega
    · have product : (others + 1) * inverse * step = (others + 1) * (step * inverse) := by ring
      rw [product, Nat.mul_mod, bezout, Nat.mod_mul_mod, last]
      exact Nat.mod_eq_of_lt (by omega)
  · refine ⟨1, Nat.one_pos, ?_⟩
    have multiple : modulus ∣ step := by
      rw [← whole]
      exact Nat.gcd_dvd_left step modulus
    rw [Nat.one_mul, Nat.mod_eq_zero_of_dvd multiple, whole, Nat.sub_self]

/-- A bound is reached by some multiple exactly if the largest residue reaches it. -/
theorem exists_le_mul_mod_iff (step bound : Nat) {modulus : Nat} (positive : 0 < modulus) :
    (∃ count, 0 < count ∧ bound ≤ count * step % modulus) ↔
      bound ≤ modulus - Nat.gcd step modulus := by
  constructor
  · rintro ⟨count, -, reaches⟩
    exact reaches.trans (mul_mod_le_sub_gcd count step positive)
  · intro small
    obtain ⟨count, some, largest⟩ := exists_mul_mod_eq_sub_gcd step positive
    exact ⟨count, some, largest ▸ small⟩

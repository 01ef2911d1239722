import Mathlib.Data.Nat.Find
import Mathlib.Tactic.Ring

/-!
# Numbers with a scale

A number is kept as a mantissa below a limit and the power of two that the mantissa is scaled by. The scale
is the least one with which the mantissa is below the limit, and the bits under it are cut off.
-/

namespace Licode

structure Scaled (limit n exp : Nat) : Prop where
  below : n < limit * 2 ^ exp
  least : ∀ less < exp, limit * 2 ^ less ≤ n

namespace Scaled

variable {limit n exp exp' : Nat}

theorem exists_scaled (hlimit : 0 < limit) (n : Nat) : ∃ exp, Scaled limit n exp := by
  have hbelow : ∃ exp, n < limit * 2 ^ exp := by
    refine ⟨n, ?_⟩
    calc n < 2 ^ n := Nat.lt_two_pow_self
      _ ≤ limit * 2 ^ n := Nat.le_mul_of_pos_left _ hlimit
  refine ⟨Nat.find hbelow, Nat.find_spec hbelow, ?_⟩
  intro less hless
  exact Nat.le_of_not_lt (Nat.find_min hbelow hless)

theorem exp_le (h : Scaled limit n exp) (hbelow : n < limit * 2 ^ exp') : exp ≤ exp' := by
  by_contra hlarge
  exact absurd (h.least exp' (Nat.lt_of_not_le hlarge)) (Nat.not_le.mpr hbelow)

theorem eq_of_not_least (h : Scaled limit n exp) (hle : exp' ≤ exp) (hbelow : n < limit * 2 ^ exp') : exp' = exp :=
  Nat.le_antisymm hle (h.exp_le hbelow)

theorem mantissa_lt (h : Scaled limit n exp) : n / 2 ^ exp < limit := by
  apply Nat.div_lt_of_lt_mul
  rw [Nat.mul_comm]
  exact h.below

/-- Less than a unit of the scale is cut off. -/
theorem cut_lt (n exp : Nat) : n - n / 2 ^ exp * 2 ^ exp < 2 ^ exp := by
  have hsplit := Nat.div_add_mod' n (2 ^ exp)
  have hrest := Nat.mod_lt n (Nat.two_pow_pos exp)
  omega

end Scaled

end Licode

import Mathlib.Algebra.Group.Nat.Defs

/-!
# Sixty-four-bit arithmetic that does not wrap

`UInt64` addition and subtraction agree with `Nat`'s as long as nothing wraps.
-/

namespace LinkMint.Lib

theorem toNat_add_of_fits {a b : UInt64} (h : a.toNat + b.toNat < 2 ^ 64) : (a + b).toNat = a.toNat + b.toNat := by
  rw [UInt64.toNat_add, Nat.mod_eq_of_lt h]

/-- A quotient by something no larger than the modulus shows every wrap of the dividend. -/
theorem mod_div_eq_iff {x m d : Nat} (hd : 0 < d) (hm : d ≤ m) : x % m / d = x / d ↔ x < m := by
  constructor
  · intro heq
    refine Nat.lt_of_not_le fun hge => ?_
    have hlt : x % m / d < (x % m + d) / d := by
      rw [Nat.add_div_right _ hd]
      exact Nat.lt_succ_self _
    have hle : (x % m + d) / d ≤ x / d := by
      apply Nat.div_le_div_right
      have hsplit := Nat.mod_add_div x m
      have hone : 1 ≤ x / m := (Nat.le_div_iff_mul_le (by omega)).mpr (by omega)
      have := Nat.mul_le_mul_left m hone
      omega
    omega
  · intro hlt
    rw [Nat.mod_eq_of_lt hlt]

theorem toNat_mul_div {a b d : UInt64} (h : a.toNat * b.toNat < 2 ^ 64) :
    (a * b / d).toNat = a.toNat * b.toNat / d.toNat := by
  rw [UInt64.toNat_div, UInt64.toNat_mul, Nat.mod_eq_of_lt h]

theorem toNat_mul_le (a b : UInt64) : (a * b).toNat ≤ a.toNat * b.toNat := by
  rw [UInt64.toNat_mul]
  exact Nat.mod_le _ _

end LinkMint.Lib

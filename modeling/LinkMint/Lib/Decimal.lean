import Mathlib.Data.Nat.Log
import Mathlib.Algebra.Order.Floor.Semifield
import Mathlib.Data.Rat.Floor
import Mathlib.Tactic.FieldSimp
import Mathlib.Tactic.Linarith
import Mathlib.Algebra.BigOperators.Group.List.Basic
import Mathlib.Data.List.Induction

/-!
# Decimals at a fixed precision

Decimal arithmetic with a bounded number of significant digits: every result is rounded, half to even, to that many.
-/

namespace LinkMint.Lib.Decimal

def excess (prec n : Nat) : Nat := Nat.log 10 n + 1 - prec

def roundHalfEven (prec n : Nat) : Nat :=
  let unit := 10 ^ excess prec n
  let q := n / unit
  let r := n % unit
  if 2 * r < unit ∨ (2 * r = unit ∧ q % 2 = 0) then q * unit else (q + 1) * unit

/-- The result of an operation whose exact value is `z`. -/
def round (prec : Nat) (z : Int) : Int := z.sign * roundHalfEven prec z.natAbs

/-- At most `prec` significant digits. -/
def Fits (prec : Nat) (z : Int) : Prop := 10 ^ excess prec z.natAbs ∣ z.natAbs

instance (prec : Nat) (z : Int) : Decidable (Fits prec z) := inferInstanceAs (Decidable (_ ∣ _))

theorem round_of_fits {prec : Nat} {z : Int} (h : Fits prec z) : round prec z = z := by
  have hzero : z.natAbs % 10 ^ excess prec z.natAbs = 0 := Nat.mod_eq_zero_of_dvd h
  have hpos : 0 < 10 ^ excess prec z.natAbs := Nat.pow_pos (by omega)
  have habs : roundHalfEven prec z.natAbs = z.natAbs := by
    simp only [roundHalfEven, hzero, Nat.mul_zero]
    rw [if_pos (.inl hpos)]
    exact Nat.div_mul_cancel h
  rw [round, habs, Int.sign_mul_natAbs]

def sum (prec : Nat) (xs : List Int) : Int := xs.foldl (fun acc x => round prec (acc + x)) 0

theorem sum_append_singleton (prec : Nat) (xs : List Int) (x : Int) :
    sum prec (xs ++ [x]) = round prec (sum prec xs + x) := by
  simp [sum]

def Exact (prec : Nat) (xs : List Int) : Prop := ∀ k < xs.length, Fits prec (xs.take (k + 1)).sum

instance (prec : Nat) (xs : List Int) : Decidable (Exact prec xs) :=
  inferInstanceAs (Decidable (∀ k < xs.length, _))

theorem sum_of_exact {prec : Nat} {xs : List Int} (h : Exact prec xs) : sum prec xs = xs.sum := by
  induction xs using List.reverseRecOn with
  | nil => rfl
  | append_singleton xs x ih =>
    have hprev : Exact prec xs := by
      intro k hk
      have hfits := h k (by simp; omega)
      rwa [List.take_append_of_le_length (by omega)] at hfits
    have hlast := h xs.length (by simp)
    rw [List.take_of_length_le (by simp), List.sum_append] at hlast
    rw [sum_append_singleton, ih hprev, List.sum_append]
    rw [List.sum_singleton] at hlast ⊢
    exact round_of_fits hlast

/-! ## Products and whole numbers -/

/-- The number `coeff / 10 ^ scale`. -/
structure Dec where
  coeff : Nat
  scale : Nat := 0

inductive Signal where
  | overflow
  | invalidOperation
deriving DecidableEq

structure Context where
  prec : Nat
  emax : Nat
  prec_le : prec ≤ emax

/-- The default context of Python's `decimal`. -/
def pythonContext : Context := ⟨28, 999999, by decide⟩

namespace Dec
def value (d : Dec) : ℚ := d.coeff / 10 ^ d.scale

def times (a b : Dec) : Dec := ⟨a.coeff * b.coeff, a.scale + b.scale⟩

def nearest (d : Dec) : Nat := (2 * d.coeff + 10 ^ d.scale) / (2 * 10 ^ d.scale)

variable (ctx : Context)

/-- The result of an operation whose exact value is `d`. -/
def fix (d : Dec) : Except Signal Dec :=
  let c := roundHalfEven ctx.prec d.coeff
  if ctx.emax + d.scale < Nat.log 10 c then .error .overflow else .ok { d with coeff := c }

def mul (a b : Dec) : Except Signal Dec := fix ctx (a.times b)

/-- `quantize(Decimal(1), rounding=ROUND_HALF_UP)`: a whole number with too many digits is refused. -/
def quantize (d : Dec) : Except Signal Nat :=
  if 10 ^ ctx.prec ≤ d.nearest then .error .invalidOperation else .ok d.nearest

/-- The whole number nearest to `d` once `d` has been rounded to the precision of the context. -/
def twice (d : Dec) : Nat := nearest { d with coeff := roundHalfEven ctx.prec d.coeff }

variable {ctx}

theorem value_times (a b : Dec) : (a.times b).value = a.value * b.value := by
  unfold value times
  push_cast
  rw [pow_add, div_mul_div_comm]

theorem nearest_eq (d : Dec) : d.nearest = ⌊d.value + 1 / 2⌋₊ := by
  have hsum : d.value + 1 / 2 = ((2 * d.coeff + 10 ^ d.scale : ℕ) : ℚ) / ((2 * 10 ^ d.scale : ℕ) : ℚ) := by
    unfold value
    push_cast
    field_simp
  rw [hsum, Nat.floor_div_eq_div]
  rfl

theorem le_nearest {d : Dec} {n : Nat} (h : n * 10 ^ d.scale ≤ d.coeff) : n ≤ d.nearest := by
  have hpos : 0 < 10 ^ d.scale := Nat.pow_pos (by omega)
  rw [nearest, Nat.le_div_iff_mul_le (by omega), Nat.mul_left_comm]
  omega

theorem roundHalfEven_of_fits {prec n : Nat} (h : Fits prec n) : roundHalfEven prec n = n := by
  have hround := round_of_fits h
  cases n with
  | zero => simp [roundHalfEven]
  | succ n =>
    rw [round, Int.natAbs_natCast, Int.sign_natCast_of_ne_zero n.succ_ne_zero, one_mul] at hround
    exact Int.ofNat.inj hround

theorem log_le_of_nearest {d : Dec} {n : Nat} (h : d.nearest < 10 ^ n) :
    Nat.log 10 d.coeff ≤ n + d.scale := by
  by_contra hlt
  have hcoeff : d.coeff ≠ 0 := by
    intro hzero
    rw [hzero, Nat.log_zero_right] at hlt
    omega
  have hpow : 10 ^ n * 10 ^ d.scale ≤ d.coeff := by
    rw [← Nat.pow_add]
    exact Nat.pow_le_of_le_log hcoeff (by omega)
  exact absurd (le_nearest hpow) (Nat.not_le.mpr h)

theorem fix_of_twice {d : Dec} (h : d.twice ctx < 10 ^ ctx.prec) :
    d.fix ctx = .ok { d with coeff := roundHalfEven ctx.prec d.coeff } := by
  have hlog := log_le_of_nearest h
  have hemax := ctx.prec_le
  simp only [fix] at hlog ⊢
  rw [if_neg (by omega)]

/-- An operation and then `quantize` give the number rounded twice, unless that has too many digits. -/
theorem quantize_fix {d : Dec} {n : Nat} :
    (do (← d.fix ctx).quantize ctx) = .ok n ↔ d.twice ctx = n ∧ n < 10 ^ ctx.prec := by
  constructor
  · intro h
    simp only [fix, quantize, bind, Except.bind] at h
    split at h
    · cases h
    · next d' hfix =>
      split at hfix
      · cases hfix
      · cases hfix
        split at h
        · cases h
        · next hlt =>
          cases h
          exact ⟨rfl, Nat.not_le.mp hlt⟩
  · rintro ⟨rfl, hlt⟩
    rw [fix_of_twice hlt]
    exact if_neg (Nat.not_le.mpr hlt)

theorem log_mul_pow {q : Nat} (hpos : 0 < q) (e : Nat) :
    Nat.log 10 (q * 10 ^ e) = Nat.log 10 q + e := by
  induction e with
  | zero => simp
  | succ e ih =>
    have hne : q * 10 ^ e ≠ 0 := (Nat.mul_pos hpos (Nat.pow_pos (by decide))).ne'
    rw [Nat.pow_succ, ← Nat.mul_assoc, Nat.log_mul_base (by decide) hne, ih, Nat.add_assoc]

/-- What is rounded has at most as many digits as the precision, a carry included. -/
theorem fits_roundHalfEven {prec : Nat} (hprec : 0 < prec) (n : Nat) :
    Fits prec (roundHalfEven prec n) := by
  show 10 ^ excess prec (roundHalfEven prec n) ∣ roundHalfEven prec n
  obtain ⟨q, hq, hle⟩ : ∃ q, roundHalfEven prec n = q * 10 ^ excess prec n ∧ q ≤ 10 ^ prec := by
    have hdigits : n / 10 ^ excess prec n < 10 ^ prec := by
      rw [Nat.div_lt_iff_lt_mul (Nat.pow_pos (by omega)), ← Nat.pow_add]
      have hle : Nat.log 10 n + 1 ≤ prec + excess prec n := by
        unfold excess
        omega
      exact (Nat.lt_pow_succ_log_self (by decide) n).trans_le (Nat.pow_le_pow_right (by decide) hle)
    simp only [roundHalfEven]
    split
    · exact ⟨_, rfl, hdigits.le⟩
    · exact ⟨_, rfl, hdigits⟩
  rw [hq]
  rcases Nat.eq_zero_or_pos q with rfl | hpos
  · simp
  · rw [excess, log_mul_pow hpos]
    rcases Nat.lt_or_eq_of_le hle with hlt | rfl
    · -- no carry: the unit is the one of before
      have := Nat.log_lt_of_lt_pow hpos.ne' hlt
      exact (Nat.pow_dvd_pow 10 (by omega)).mul_left _
    · rw [Nat.log_pow (by omega), ← Nat.pow_add]
      exact Nat.pow_dvd_pow 10 (by omega)
end Dec
end LinkMint.Lib.Decimal

import LinkMint.Chain.Fee
import LinkMint.Lib.Word

/-!
# The fee of a settlement, over the natural numbers

The breakdown of a settlement is the exact one at the configured rate and shares if
and only if `FeeFits` holds, that is, unless the product of amount and rate wraps or a
configured zero, which `NewStateDB` replaces by a default, is charged. The shares are rounded
down; that the treasury gets its configured share is not claimed, it gets the rest.
-/

namespace LinkMint.Chain

open LinkMint.Lib

/-- The breakdown `fb` of the fee on `amount`, at the given rate and shares. -/
structure ExactFee (rate validatorShare burnShare : Nat) (amount : UInt64) (fb : FeeBreakdown) : Prop where
  total : fb.totalFee.toNat = amount.toNat * rate / 10000
  validators : fb.validatorReward.toNat = fb.totalFee.toNat * validatorShare / 100
  burn : fb.burnAmount.toNat = fb.totalFee.toNat * burnShare / 100
  sum : fb.validatorReward.toNat + fb.treasuryAmount.toNat + fb.burnAmount.toNat = fb.totalFee.toNat

section Calculator
variable {c : Calculator} {amount : UInt64}

theorem totalFee_toNat (hfloor : c.minFee = 0) (hne : amount ≠ 0) :
    (c.calculateFee amount).totalFee.toNat = amount.toNat * c.rateBasisPoints.toNat % 2 ^ 64 / 10000 := by
  have hnot : ¬ amount * c.rateBasisPoints / 10000 < c.minFee := by
    rw [hfloor]
    exact UInt64.not_lt_zero
  simp only [Calculator.calculateFee, if_neg hne, if_neg hnot]
  rw [UInt64.toNat_div, UInt64.toNat_mul]
  rfl

theorem totalFee_lt (hfloor : c.minFee = 0) (hne : amount ≠ 0) :
    (c.calculateFee amount).totalFee.toNat * 100 < 2 ^ 64 := by
  rw [totalFee_toNat hfloor hne]
  omega

theorem share_toNat {total pct : UInt64} (htotal : total.toNat * 100 < 2 ^ 64) (hpct : pct.toNat ≤ 100) :
    (total * pct / 100).toNat = total.toNat * pct.toNat / 100 := by
  have hlt : total.toNat * pct.toNat < 2 ^ 64 := Nat.lt_of_le_of_lt (Nat.mul_le_mul_left _ hpct) htotal
  rw [UInt64.toNat_div, UInt64.toNat_mul, Nat.mod_eq_of_lt hlt]
  rfl

theorem validatorReward_eq (hne : amount ≠ 0) : (c.calculateFee amount).validatorReward =
    (c.calculateFee amount).totalFee * c.validatorSharePct / 100 := by
  simp only [Calculator.calculateFee, if_neg hne]

theorem burnAmount_eq (hne : amount ≠ 0) : (c.calculateFee amount).burnAmount =
    (c.calculateFee amount).totalFee * c.burnSharePct / 100 := by
  simp only [Calculator.calculateFee, if_neg hne]

/-- The treasury's rest makes up the total if the two shares leave one. -/
theorem breakdown_sum (hne : amount ≠ 0) (hle : (c.calculateFee amount).validatorReward.toNat +
      (c.calculateFee amount).burnAmount.toNat ≤ (c.calculateFee amount).totalFee.toNat) :
    (c.calculateFee amount).validatorReward.toNat + (c.calculateFee amount).treasuryAmount.toNat +
      (c.calculateFee amount).burnAmount.toNat = (c.calculateFee amount).totalFee.toNat := by
  have htreasury : (c.calculateFee amount).treasuryAmount = (c.calculateFee amount).totalFee -
      (c.calculateFee amount).validatorReward - (c.calculateFee amount).burnAmount := by
    simp only [Calculator.calculateFee, if_neg hne]
  generalize c.calculateFee amount = fb at hle htreasury ⊢
  have hfirst : (fb.totalFee - fb.validatorReward).toNat = fb.totalFee.toNat - fb.validatorReward.toNat :=
    UInt64.toNat_sub_of_le _ _ (UInt64.le_iff_toNat_le.mpr (by omega))
  have hrest : (fb.totalFee - fb.validatorReward - fb.burnAmount).toNat =
      (fb.totalFee - fb.validatorReward).toNat - fb.burnAmount.toNat :=
    UInt64.toNat_sub_of_le _ _ (UInt64.le_iff_toNat_le.mpr (by omega))
  rw [htreasury]
  omega
end Calculator

/-- When the fee on `amount` comes out right. The first two fields are about the rate: a configured
    one must not make the product wrap, and the default that replaces a zero must charge nothing
    after the wrap. The other two are about shares of zero, which become 70 and 10 percent. -/
structure FeeFits (g : GenesisConfig) (amount : UInt64) : Prop where
  product : g.feeRateBasisPoints ≠ 0 → amount.toNat * g.feeRateBasisPoints.toNat < 2 ^ 64
  rate : g.feeRateBasisPoints = 0 → amount.toNat * 50 % 2 ^ 64 < 10000
  validatorShare : g.validatorRewardShare = 0 → amount.toNat * g.feeRateBasisPoints.toNat / 10000 < 2
  burnShare : g.burnShare = 0 → amount.toNat * g.feeRateBasisPoints.toNat / 10000 < 10

section
variable {g : GenesisConfig} {amount : UInt64}

theorem orDefault_of_ne {x d : UInt64} (h : x ≠ 0) : orDefault x d = x := if_neg h

theorem orDefault_zero {x d : UInt64} (h : x = 0) : orDefault x d = d := if_pos h

theorem orDefault_le {x d : UInt64} (hx : x.toNat ≤ 100) (hd : d.toNat ≤ 100) : (orDefault x d).toNat ≤ 100 := by
  unfold orDefault
  split
  · exact hd
  · exact hx

/-- The total is exact exactly under the two conditions on the rate. -/
theorem total_exact_iff (hne : amount ≠ 0) :
    ((ChainParams.ofGenesis g).calculator.calculateFee amount).totalFee.toNat =
        amount.toNat * g.feeRateBasisPoints.toNat / 10000 ↔
      (g.feeRateBasisPoints ≠ 0 → amount.toNat * g.feeRateBasisPoints.toNat < 2 ^ 64) ∧
        (g.feeRateBasisPoints = 0 → amount.toNat * 50 % 2 ^ 64 < 10000) := by
  rw [totalFee_toNat rfl hne]
  by_cases hrate : g.feeRateBasisPoints = 0
  · have hdefault : (ChainParams.ofGenesis g).calculator.rateBasisPoints = 50 := orDefault_zero hrate
    rw [hdefault, hrate, show (50 : UInt64).toNat = 50 from rfl, show (0 : UInt64).toNat = 0 from rfl]
    simp
  · have hset : (ChainParams.ofGenesis g).calculator.rateBasisPoints = g.feeRateBasisPoints :=
      orDefault_of_ne hrate
    rw [hset, mod_div_eq_iff (by decide) (by decide)]
    simp [hrate]

/-- A share that is not zero is the configured one; the default of a zero must charge nothing. -/
theorem share_eq_iff {x d : UInt64} (total : Nat) :
    total * (orDefault x d).toNat / 100 = total * x.toNat / 100 ↔ (x = 0 → total * d.toNat < 100) := by
  by_cases hx : x = 0
  · rw [orDefault_zero hx, hx]
    simp
  · rw [orDefault_of_ne hx]
    simp [hx]
end

/-- **When the fee is exact**: for every genesis whose shares sum to 100, whatever its rate, and
    every amount of a PayLink. -/
theorem fee_exact (g : GenesisConfig) (amount : UInt64)
    (hshares : g.validatorRewardShare.toNat + g.treasuryShare.toNat + g.burnShare.toNat = 100)
    (hne : amount ≠ 0) :
    ExactFee g.feeRateBasisPoints.toNat g.validatorRewardShare.toNat g.burnShare.toNat amount
      ((ChainParams.ofGenesis g).calculator.calculateFee amount) ↔ FeeFits g amount := by
  have htotal := total_exact_iff (g := g) hne
  have hlt := totalFee_lt (c := (ChainParams.ofGenesis g).calculator) rfl hne
  have hv : ((ChainParams.ofGenesis g).calculator.calculateFee amount).validatorReward.toNat = _ :=
    (congrArg UInt64.toNat (validatorReward_eq hne)).trans (share_toNat hlt (orDefault_le (by omega) (by decide)))
  have hb : ((ChainParams.ofGenesis g).calculator.calculateFee amount).burnAmount.toNat = _ :=
    (congrArg UInt64.toNat (burnAmount_eq hne)).trans (share_toNat hlt (orDefault_le (by omega) (by decide)))
  have hvshare := share_eq_iff (x := g.validatorRewardShare) (d := 70)
    ((ChainParams.ofGenesis g).calculator.calculateFee amount).totalFee.toNat
  have hbshare := share_eq_iff (x := g.burnShare) (d := 10)
    ((ChainParams.ofGenesis g).calculator.calculateFee amount).totalFee.toNat
  rw [show (70 : UInt64).toNat = 70 from rfl] at hvshare
  rw [show (10 : UInt64).toNat = 10 from rfl] at hbshare
  constructor
  · intro h
    obtain ⟨hproduct, hrate⟩ := htotal.mp h.total
    refine ⟨hproduct, hrate, fun hzero => ?_, fun hzero => ?_⟩
    · have := hvshare.mp (hv.symm.trans h.validators) hzero
      have := h.total
      omega
    · have := hbshare.mp (hb.symm.trans h.burn) hzero
      have := h.total
      omega
  · intro h
    have hexact := htotal.mpr ⟨h.product, h.rate⟩
    have hvalidators := hv.trans (hvshare.mpr fun hzero => by have := h.validatorShare hzero; omega)
    have hburn := hb.trans (hbshare.mpr fun hzero => by have := h.burnShare hzero; omega)
    refine ⟨hexact, hvalidators, hburn, breakdown_sum hne ?_⟩
    have hsum := Nat.mul_le_mul_left ((ChainParams.ofGenesis g).calculator.calculateFee amount).totalFee.toNat
      (show g.validatorRewardShare.toNat + g.burnShare.toNat ≤ 100 by omega)
    rw [Nat.mul_add] at hsum
    rw [hvalidators, hburn]
    omega

def feeGenesis (rate validatorShare treasuryShare burnShare : UInt64) : GenesisConfig :=
  { adminAddress := 1, maxSupply := 1000000000, minimumStake := 1000, withdrawalCooldown := 0,
    requiredValidations := 2, initialBalances := [], feeRateBasisPoints := rate,
    validatorRewardShare := validatorShare, treasuryShare, burnShare }

theorem fee_exact_default : ExactFee 50 70 10 1000000
    ((ChainParams.ofGenesis (feeGenesis 50 70 20 10)).calculator.calculateFee 1000000) :=
  (fee_exact (feeGenesis 50 70 20 10) 1000000 (by decide) (by decide)).mpr
    ⟨by decide, by decide, by decide, by decide⟩

/-- The wrapped product; the default burn share that wraps the treasury's rest; the default rate
    for zero. -/
theorem fee_inexact :
    ((ChainParams.ofGenesis (feeGenesis 10000 70 20 10)).calculator.calculateFee (2 ^ 64 - 1)).totalFee.toNat ≠
        (2 ^ 64 - 1) * 10000 / 10000 ∧
      ((ChainParams.ofGenesis (feeGenesis 50 100 0 0)).calculator.calculateFee 1000000).burnAmount.toNat ≠
        ((ChainParams.ofGenesis (feeGenesis 50 100 0 0)).calculator.calculateFee 1000000).totalFee.toNat * 0 / 100 ∧
      ((ChainParams.ofGenesis (feeGenesis 0 70 20 10)).calculator.calculateFee 1000000).totalFee.toNat ≠
        1000000 * 0 / 10000 := by
  decide +kernel

end LinkMint.Chain

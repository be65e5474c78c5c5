import LinkMint.Compliance.Risk

/-!
# More risk is not decided more mildly

If every input of a risk evaluation is at least as bad, so are its score and its decision. An
absent amount counts as 0, so it is compared with amounts that are not negative.
-/

namespace LinkMint.Compliance.Risk

def Decision.severity : Decision → Nat
  | .allow => 0
  | .review => 1
  | .block => 2

structure RiskConfig.Tiered (cfg : RiskConfig) : Prop where
  defined : ∀ tier ∈ [(0 : Int), 1, 2], (cfg.tierCeilings.lookup tier).isSome = true
  monotone : ∀ tier ∈ [(0 : Int), 1, 2], ∀ tier' ∈ [(0 : Int), 1, 2], tier ≤ tier' →
    ceilingFor cfg tier ≤ ceilingFor cfg tier'

def AmountLE : Option ℚ → Option ℚ → Prop
  | none, _ => True
  | some _, none => False
  | some a, some b => a ≤ b

structure RiskInputs.Riskier (a b : RiskInputs) : Prop where
  action : b.action = a.action
  geoCountry : b.geoCountry = a.geoCountry
  registeredCountry : b.registeredCountry = a.registeredCountry
  amount : AmountLE a.amount b.amount
  count1h : a.count1h ≤ b.count1h
  count24h : a.count24h ≤ b.count24h
  window : a.cumulativeAmountWindow ≤ b.cumulativeAmountWindow
  tiers : a.tier ∈ [(0 : Int), 1, 2] ∧ b.tier ∈ [(0 : Int), 1, 2]
  tier : b.tier ≤ a.tier

structure Draft.LE (d d' : Draft) : Prop where
  block : d.hardBlock = true → d'.hardBlock = true
  review : d.hardReview = true → d'.hardReview = true
  soft : d.softScore ≤ d'.softScore
  hard : d.hardWeight ≤ d'.hardWeight

section
variable {cfg : RiskConfig} {a b : RiskInputs} {d d' : Draft}

theorem AmountLE.any {x y : Option ℚ} (h : AmountLE x y) {p q : ℚ → Bool}
    (hpq : ∀ {u v}, u ≤ v → p u = true → q v = true) (hx : x.any p = true) : y.any q = true := by
  cases x with
  | none => cases hx
  | some u =>
    cases y with
    | none => exact h.elim
    | some v => exact hpq h hx

@[simp] theorem Draft.hardWeight_append (reasons : List Reason) (x : Reason) (block review : Bool) (soft : Nat) :
    Draft.hardWeight ⟨reasons ++ [x], block, review, soft⟩ =
      Draft.hardWeight ⟨reasons, block, review, soft⟩ + if x.code.isHard then x.weight else 0 := by
  unfold Draft.hardWeight
  by_cases hx : x.code.isHard = true <;> simp [List.filter_append, hx]

@[simp] theorem Draft.hardWeight_flags (d : Draft) (block review : Bool) (soft : Nat) :
    Draft.hardWeight ⟨d.reasons, block, review, soft⟩ = d.hardWeight := rfl

namespace Draft.LE
theorem ite {p q : Prop} [Decidable p] [Decidable q] {e e' : Draft} (h : d.LE d') (hpq : p → q)
    (hboth : p → q → e.LE e') (hadd : q → d.LE e') : (if p then e else d).LE (if q then e' else d') := by
  by_cases hp : p
  · rw [if_pos hp, if_pos (hpq hp)]
    exact hboth hp (hpq hp)
  · rw [if_neg hp]
    split_ifs with hq
    · exact hadd hq
    · exact h

theorem lowKyc (hr : a.Riskier b) (h : d.LE d') : (d.lowKyc a).LE (d'.lowKyc b) := by
  have htier := hr.tier
  have hhard := h.hard
  refine h.ite ?_ (fun _ _ => ⟨fun _ => rfl, h.review, h.soft, ?_⟩) (fun _ => ⟨fun _ => rfl, h.review, h.soft, ?_⟩)
  · rintro ⟨haction, htier', hamount⟩
    refine ⟨hr.action ▸ haction, by omega, ?_⟩
    refine hr.amount.any (fun hle hpos => ?_) hamount
    exact decide_eq_true ((of_decide_eq_true hpos).trans_le hle)
  · simpa [Code.isHard] using hhard
  · simpa [Code.isHard] using by omega

theorem aml (fix : ℚ →o ℚ) (hr : a.Riskier b) (hamount : a.amount.getD 0 ≤ b.amount.getD 0) (h : d.LE d') :
    (d.aml cfg a fix).LE (d'.aml cfg b fix) := by
  have htier := hr.tier
  have hhard := h.hard
  -- a tier below 2 is at most 1, so that the branch for review is never taken
  refine h.ite ?_ (fun hp hq => ?_) (fun hq => ?_)
  · rintro ⟨haction, hover, hlow⟩
    exact ⟨hr.action ▸ haction, hover.trans (fix.monotone (add_le_add hr.window hamount)), by omega⟩
  · rw [if_pos (Int.lt_add_one_iff.mp hp.2.2), if_pos (Int.lt_add_one_iff.mp hq.2.2)]
    exact ⟨fun _ => rfl, h.review, h.soft, by simpa [Code.isHard] using hhard⟩
  · rw [if_pos (Int.lt_add_one_iff.mp hq.2.2)]
    exact ⟨fun _ => rfl, h.review, h.soft, by simpa [Code.isHard] using by omega⟩

theorem ceiling (hcfg : cfg.Tiered) (hr : a.Riskier b) (h : d.LE d') : (d.ceiling cfg a).LE (d'.ceiling cfg b) := by
  have hhard := h.hard
  refine h.ite ?_ (fun _ _ => ⟨h.block, fun _ => rfl, h.soft, ?_⟩) (fun _ => ⟨h.block, fun _ => rfl, h.soft, ?_⟩)
  · rintro ⟨haction, hamount⟩
    refine ⟨hr.action ▸ haction, hr.amount.any (fun hle hover => ?_) hamount⟩
    have hceil := hcfg.monotone _ hr.tiers.2 _ hr.tiers.1 hr.tier
    exact decide_eq_true (hceil.trans_lt ((of_decide_eq_true hover).trans_le (WithTop.coe_le_coe.mpr hle)))
  · simpa [Code.isHard] using hhard
  · simpa [Code.isHard] using by omega

theorem velocity24h (hr : a.Riskier b) (h : d.LE d') : (d.velocity24h cfg a).LE (d'.velocity24h cfg b) := by
  have hcount := hr.count24h
  have hsoft := h.soft
  have hhard := h.hard
  unfold Draft.velocity24h
  split_ifs
  all_goals first | omega | skip
  all_goals
    refine ⟨fun hb => ?_, fun hb => ?_, ?_, ?_⟩
    · exact h.block hb
    · first | rfl | exact h.review hb
    · dsimp only
      omega
    · simpa [Code.isHard] using hhard

theorem velocity1h (hr : a.Riskier b) (h : d.LE d') : (d.velocity1h cfg a).LE (d'.velocity1h cfg b) := by
  have hsoft := h.soft
  have hhard := h.hard
  refine h.ite hr.count1h.trans' (fun _ _ => ⟨h.block, h.review, ?_, ?_⟩) (fun _ => ⟨h.block, h.review, ?_, ?_⟩)
  · exact Nat.add_le_add_right hsoft 300
  · simpa [Code.isHard] using hhard
  · exact hsoft.trans (Nat.le_add_right _ _)
  · simpa [Code.isHard] using hhard

theorem geo (upper : String → String) (hr : a.Riskier b) (h : d.LE d') : (d.geo a upper).LE (d'.geo b upper) := by
  have hhard := h.hard
  refine h.ite ?_ (fun _ _ => ⟨h.block, h.review, ?_, ?_⟩) (fun _ => ⟨h.block, h.review, ?_, ?_⟩)
  · rw [hr.geoCountry, hr.registeredCountry]
    exact id
  · exact Nat.add_le_add_right h.soft 300
  · simpa [Code.isHard] using hhard
  · exact h.soft.trans (Nat.le_add_right _ _)
  · simpa [Code.isHard] using hhard

theorem outcome (h : d.LE d') : (d.outcome cfg).score ≤ (d'.outcome cfg).score ∧
    (d.outcome cfg).decision.severity ≤ (d'.outcome cfg).decision.severity := by
  have hscore : (d.outcome cfg).score ≤ (d'.outcome cfg).score := min_le_min_left 1000 (Nat.add_le_add h.soft h.hard)
  refine ⟨hscore, ?_⟩
  have hreach : ∀ t : ℚ, t ≤ ((d.outcome cfg).score / 1000 : ℚ) → t ≤ ((d'.outcome cfg).score / 1000 : ℚ) := by
    intro t ht
    exact ht.trans (div_le_div_of_nonneg_right (Nat.cast_le.mpr hscore) (by decide +kernel))
  have hblock := h.block
  have hreview := h.review
  unfold Draft.outcome at hreach ⊢
  dsimp only at hreach ⊢
  split_ifs <;> grind [Decision.severity]
end Draft.LE

theorem evaluate_monotone (fix : ℚ →o ℚ) (upper : String → String) (hcfg : cfg.Tiered) (hr : a.Riskier b)
    (habsent : a.amount = none → ∀ x ∈ b.amount, 0 ≤ x) :
    (evaluate fix upper a cfg).score ≤ (evaluate fix upper b cfg).score ∧
      (evaluate fix upper a cfg).decision.severity ≤ (evaluate fix upper b cfg).decision.severity := by
  have hamount : a.amount.getD 0 ≤ b.amount.getD 0 := by
    have hle := hr.amount
    cases ha : a.amount with
    | none =>
      cases hb : b.amount with
      | none => exact le_rfl
      | some y => exact habsent ha y hb
    | some x =>
      rw [ha] at hle
      cases hb : b.amount with
      | none =>
        rw [hb] at hle
        exact hle.elim
      | some y =>
        rw [hb] at hle
        exact hle
  have h : Draft.LE {} {} := ⟨id, id, le_rfl, le_rfl⟩
  exact (((((h.lowKyc hr).aml fix hr hamount).ceiling hcfg hr |>.velocity24h hr).velocity1h hr).geo upper hr).outcome
end

def defaultConfig : RiskConfig where
  tierCeilings := [(0, (0 : ℚ)), (1, (50000 : ℚ)), (2, ⊤)]
  amlCumulativeThreshold := 150000
  velocityBlock24h := 50
  velocityReview24h := 20
  velocityReview1h := 10
  scoreBlockThreshold := 4 / 5
  scoreReviewThreshold := 1 / 2

def initiate (tier : Int) (amount : Option ℚ) (window : ℚ) : RiskInputs :=
  { tier, action := "payment.initiate", amount, geoCountry := none, registeredCountry := none, count1h := 0,
    count24h := 0, cumulativeAmountWindow := window }

theorem defaultConfig_tiered : defaultConfig.Tiered := ⟨by decide +kernel, by decide +kernel⟩

theorem evaluate_monotone_absent : (initiate 2 none 0).Riskier (initiate 1 (some 60000) 0) ∧
      (evaluate OrderHom.id id (initiate 2 none 0) defaultConfig).decision.severity ≤
        (evaluate OrderHom.id id (initiate 1 (some 60000) 0) defaultConfig).decision.severity := by
  have hr : (initiate 2 none 0).Riskier (initiate 1 (some 60000) 0) :=
    ⟨rfl, rfl, rfl, trivial, le_rfl, le_rfl, le_rfl, by decide, by decide⟩
  refine ⟨hr, (evaluate_monotone OrderHom.id id defaultConfig_tiered hr fun _ x hx => ?_).2⟩
  cases hx
  decide +kernel

theorem evaluate_negative_amount :
    defaultConfig.Tiered ∧ (initiate 1 none 150000).Riskier (initiate 1 (some (-1)) 150000) ∧
      (evaluate OrderHom.id id (initiate 1 none 150000) defaultConfig).decision = .block ∧
      (evaluate OrderHom.id id (initiate 1 (some (-1)) 150000) defaultConfig).decision = .allow ∧
      (evaluate OrderHom.id id (initiate 1 (some (-1)) 150000) defaultConfig).score <
        (evaluate OrderHom.id id (initiate 1 none 150000) defaultConfig).score :=
  ⟨defaultConfig_tiered, ⟨rfl, rfl, rfl, trivial, le_rfl, le_rfl, le_rfl, by decide, le_rfl⟩, by decide +kernel,
    by decide +kernel, by decide +kernel⟩

end LinkMint.Compliance.Risk

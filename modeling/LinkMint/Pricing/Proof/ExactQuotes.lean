import LinkMint.Pricing.Quote
import LinkMint.Lib.Outcome

/-!
# Quotes are exact

`quote_exact`: a quote whose fixed fees are in one of its two currencies comes out as the exact
products demand, or with the error they demand, if and only if `QuoteFits` holds wherever its rate
is `Locked`. Python rounds each product to 28 digits before it rounds it half up to a
whole number; the condition compares the amounts rounded so with those rounded once.
`quote_not_exact` has a gross that raises, and one whose fee is one too great. The breakdown of the
quote, which repeats its amounts, is not modelled.
-/

namespace LinkMint.Pricing.Quotes

open LinkMint.Lib.Decimal

/-- The rate an amount in `ccy` is settled at, if it is converted at all. -/
def rateFor (ccy settleCcy : String) (fx : Option Rate) : Option Dec :=
  if ccy = settleCcy then none else fx.map (·.rate)

def converted (rate : Option Dec) (amount : Nat) : Nat :=
  rate.elim amount fun r => ⌊amount * r.value + 1 / 2⌋₊

def percentage (amount bps : Nat) : Nat := ⌊(amount * bps : ℚ) / 10000 + 1 / 2⌋₊

/-- `converted` and `percentage` with the product rounded to 28 digits first. -/
def convertedTwice (rate : Option Dec) (amount : Nat) : Nat :=
  rate.elim amount fun r => (Dec.times ⟨amount, 0⟩ r).twice pythonContext

def percentageTwice (amount bps : Nat) : Nat := Dec.twice pythonContext ⟨amount * bps, 4⟩

@[ext] structure Amounts where
  gross : Nat
  platformPct : Nat
  platformFixed : Nat
  railPct : Nat
  railFixed : Nat
deriving DecidableEq

def Amounts.fees (a : Amounts) : Nat := a.platformPct + a.platformFixed + (a.railPct + a.railFixed)

section
variable (upper : String → String) (gross : Nat) (currency settleCurrency : String) (tier : TierFee)
  (rail : RailFee) (fx : Option Rate)

/-- The currencies are the same, or the rate is the one between them. -/
def Locked : Prop :=
  upper currency = upper settleCurrency ∨
    ∃ r, fx = some r ∧ r.base = upper currency ∧ r.quote = upper settleCurrency

/-- The amounts of a quote, by any way to convert and to take percentages. -/
def amountsBy (convert : Option Dec → Nat → Nat) (percent : Nat → Nat → Nat) : Amounts :=
  let rate (ccy : String) := rateFor (upper ccy) (upper settleCurrency) fx
  let settled := convert (rate currency) gross
  ⟨settled, percent settled tier.platformPctBps,
    convert (rate tier.fixedCurrency) tier.platformFixed,
    percent settled rail.pctBps, convert (rate rail.fixedCurrency) rail.fixed⟩

def exactAmounts : Amounts :=
  amountsBy upper gross currency settleCurrency tier rail fx converted percentage

def amountsTwice : Amounts :=
  amountsBy upper gross currency settleCurrency tier rail fx convertedTwice percentageTwice

/-- No product comes to more than 28 digits, which `quantize` refuses. An amount that is not
    converted is of any size. -/
structure Returns : Prop where
  settled : rateFor (upper currency) (upper settleCurrency) fx ≠ none →
    (amountsTwice upper gross currency settleCurrency tier rail fx).gross < 10 ^ 28
  platformPct : (amountsTwice upper gross currency settleCurrency tier rail fx).platformPct < 10 ^ 28
  platformFixed : rateFor (upper tier.fixedCurrency) (upper settleCurrency) fx ≠ none →
    (amountsTwice upper gross currency settleCurrency tier rail fx).platformFixed < 10 ^ 28
  railPct : (amountsTwice upper gross currency settleCurrency tier rail fx).railPct < 10 ^ 28
  railFixed : rateFor (upper rail.fixedCurrency) (upper settleCurrency) fx ≠ none →
    (amountsTwice upper gross currency settleCurrency tier rail fx).railFixed < 10 ^ 28

/-- The products return, and rounding them to 28 digits first changes no amount; or the fees exceed
    the gross either way. -/
structure QuoteFits : Prop where
  returns : Returns upper gross currency settleCurrency tier rail fx
  amounts : amountsTwice upper gross currency settleCurrency tier rail fx =
      exactAmounts upper gross currency settleCurrency tier rail fx ∨
    ((exactAmounts upper gross currency settleCurrency tier rail fx).gross <
        (exactAmounts upper gross currency settleCurrency tier rail fx).fees ∧
      (amountsTwice upper gross currency settleCurrency tier rail fx).gross <
        (amountsTwice upper gross currency settleCurrency tier rail fx).fees)
end

/-- The amounts `q` returns are those of `a`, and they add up. -/
structure Matches (a : Amounts) (q : QuoteResult) : Prop where
  gross : q.grossSettled = a.gross
  platformPct : q.platformPctAmount = a.platformPct
  platformFixed : q.platformFixedAmount = a.platformFixed
  platformFee : q.platformFee = a.platformPct + a.platformFixed
  railPct : q.railPctAmount = a.railPct
  railFixed : q.railFixedAmount = a.railFixed
  railFee : q.railFee = a.railPct + a.railFixed
  sum : q.platformFee + q.railFee + q.net = q.grossSettled
  net : 0 ≤ q.net

/-- What a quote is to come to: the error on the rate, the error on the fees, or the amounts. -/
structure QuoteExact (upper : String → String) (gross : Nat) (currency settleCurrency : String)
    (tier : TierFee) (rail : RailFee) (fx : Option Rate) : Prop where
  unlocked : ¬ Locked upper currency settleCurrency fx →
    ∃ e, computeQuote upper gross currency settleCurrency tier rail fx = .error (.app e) ∧
      e.code = .fxUnavailable
  exceeds : Locked upper currency settleCurrency fx →
    (exactAmounts upper gross currency settleCurrency tier rail fx).gross <
      (exactAmounts upper gross currency settleCurrency tier rail fx).fees →
    ∃ e, computeQuote upper gross currency settleCurrency tier rail fx = .error (.app e) ∧
      e.code = .feeExceedsGross
  amounts : Locked upper currency settleCurrency fx →
    (exactAmounts upper gross currency settleCurrency tier rail fx).fees ≤
      (exactAmounts upper gross currency settleCurrency tier rail fx).gross →
    ∃ q, computeQuote upper gross currency settleCurrency tier rail fx = .ok q ∧
      Matches (exactAmounts upper gross currency settleCurrency tier rail fx) q

theorem nearest_amount (amount : Nat) (r : Dec) :
    (Dec.times ⟨amount, 0⟩ r).nearest = ⌊amount * r.value + 1 / 2⌋₊ := by
  rw [Dec.nearest_eq, Dec.value_times]
  simp [Dec.value]

theorem nearest_percentage (amount bps : Nat) :
    Dec.nearest ⟨amount * bps, 4⟩ = percentage amount bps := by
  rw [Dec.nearest_eq]
  norm_num [Dec.value, percentage]

/-- A computation that is to give `n`: it does if `n` has at most 28 digits, and else raises what is
    not an application error. -/
def Yields (x : Except Raised Nat) (n : Nat) : Prop :=
  (n < 10 ^ 28 → x = .ok n) ∧ (¬ n < 10 ^ 28 → ∃ e, x = .error (.decimal e))

theorem yields_round0 (d : Dec) : Yields (round0 (d.fix pythonContext)) (d.twice pythonContext) := by
  unfold round0
  refine ⟨fun h => ?_, fun h => ?_⟩
  · rw [Dec.quantize_fix.mpr ⟨rfl, h⟩]
    rfl
  · cases hx : (do (← d.fix pythonContext).quantize pythonContext) with
    | error e => exact ⟨e, rfl⟩
    | ok n =>
      obtain ⟨rfl, hlt⟩ := Dec.quantize_fix.mp hx
      exact absurd hlt h

/-- The division leaves the digits as they are, which the product has already been rounded to. -/
theorem yields_pctOf (amount bps : Nat) : Yields (pctOf amount bps) (percentageTwice amount bps) := by
  have hsame : roundHalfEven 28 (roundHalfEven 28 (amount * bps)) = roundHalfEven 28 (amount * bps) :=
    Dec.roundHalfEven_of_fits (Dec.fits_roundHalfEven (by decide) _)
  have hpct := yields_round0 ⟨amount * bps, 4⟩
  -- the product overflows only where the percentage has too many digits
  by_cases hover : 999999 < Nat.log 10 (roundHalfEven 28 (amount * bps))
  · have hmul : Dec.mul pythonContext ⟨amount, 0⟩ ⟨bps, 0⟩ = .error .overflow := if_pos hover
    refine ⟨fun hlt => ?_, fun _ => ⟨.overflow, ?_⟩⟩
    · have hlog : Nat.log 10 (roundHalfEven 28 (amount * bps)) ≤ 28 + 4 := Dec.log_le_of_nearest hlt
      omega
    · simp only [pctOf, hmul]
      rfl
  · have hmul : Dec.mul pythonContext ⟨amount, 0⟩ ⟨bps, 0⟩ =
        .ok ⟨roundHalfEven 28 (amount * bps), 0⟩ := if_neg hover
    have hdiv : overBpsDenom ⟨roundHalfEven 28 (amount * bps), 0⟩ =
        Dec.fix pythonContext ⟨amount * bps, 4⟩ := by
      unfold overBpsDenom Dec.fix
      simp only [pythonContext, hsame]
      rfl
    have heq : pctOf amount bps = round0 (Dec.fix pythonContext ⟨amount * bps, 4⟩) := by
      rw [← hdiv, pctOf, hmul]
      rfl
    rw [heq]
    exact hpct

theorem convertedTwice_zero (rate : Option Dec) : convertedTwice rate 0 = 0 := by
  cases rate with
  | none => rfl
  | some r =>
    have hzero : roundHalfEven 28 0 = 0 := by decide
    simp [convertedTwice, Dec.times, Dec.twice, Dec.nearest, pythonContext, hzero]

section
variable {currency settleCurrency : String} {fx : Option Rate}

/-- Converting gives the amount rounded twice, if it is converted at all. -/
theorem yields_converted (amount : Nat) (r : Rate) (hne : currency ≠ settleCurrency) :
    Yields (round0 (Dec.mul pythonContext ⟨amount, 0⟩ r.rate))
      (convertedTwice (rateFor currency settleCurrency (some r)) amount) := by
  rw [rateFor, if_neg hne]
  exact yields_round0 _

theorem settleGross_unlocked (gross : Nat)
    (h : ¬ (currency = settleCurrency ∨
      ∃ r, fx = some r ∧ r.base = currency ∧ r.quote = settleCurrency)) :
    ∃ e, settleGross gross currency settleCurrency fx = .error (.app e) ∧ e.code = .fxUnavailable := by
  obtain ⟨hne, hnone⟩ := not_or.mp h
  have hfilter : (fx.filter fun fx => fx.base = currency ∧ fx.quote = settleCurrency) = none := by
    rw [Option.filter_eq_none_iff]
    intro r hr hmatch
    obtain ⟨hbase, hquote⟩ : r.base = currency ∧ r.quote = settleCurrency := by simpa using hmatch
    exact hnone ⟨r, hr, hbase, hquote⟩
  simp only [settleGross, if_neg hne, hfilter]
  exact ⟨_, rfl, rfl⟩

/-- `settle_gross` under a rate it can use: the gross rounded twice, or an arithmetic signal. -/
theorem settleGross_locked (gross : Nat)
    (hlocked : currency = settleCurrency ∨
      ∃ r, fx = some r ∧ r.base = currency ∧ r.quote = settleCurrency) :
    ((rateFor currency settleCurrency fx ≠ none →
        convertedTwice (rateFor currency settleCurrency fx) gross < 10 ^ 28) →
      settleGross gross currency settleCurrency fx =
        .ok (convertedTwice (rateFor currency settleCurrency fx) gross,
          if currency = settleCurrency then none else fx)) ∧
    (¬ (rateFor currency settleCurrency fx ≠ none →
        convertedTwice (rateFor currency settleCurrency fx) gross < 10 ^ 28) →
      ∃ e, settleGross gross currency settleCurrency fx = .error (.decimal e)) := by
  by_cases hsame : currency = settleCurrency
  · have hrate : rateFor currency settleCurrency fx = none := if_pos hsame
    rw [hrate, settleGross, if_pos hsame, if_pos hsame]
    simp [convertedTwice]
  · obtain ⟨r, rfl, hbase, hquote⟩ := hlocked.resolve_left hsame
    have hrate : rateFor currency settleCurrency (some r) ≠ none := by simp [rateFor, hsame]
    have hfilter : (some r).filter (fun fx => fx.base = currency ∧ fx.quote = settleCurrency) =
        some r := by simp [hbase, hquote]
    have hyields := yields_converted gross r hsame
    simp only [settleGross, if_neg hsame, hfilter, hrate, ne_eq, not_false_eq_true, forall_const]
    refine ⟨fun h => ?_, fun h => ?_⟩
    · rw [hyields.1 h]
      rfl
    · obtain ⟨e, he⟩ := hyields.2 h
      rw [he]
      exact ⟨e, rfl⟩

theorem convert_locked {ccy : String} (amount : Nat) (hccy : ccy = currency ∨ ccy = settleCurrency)
    (hlocked : currency = settleCurrency ∨
      ∃ r, fx = some r ∧ r.base = currency ∧ r.quote = settleCurrency) :
    ((rateFor ccy settleCurrency fx ≠ none →
        convertedTwice (rateFor ccy settleCurrency fx) amount < 10 ^ 28) →
      convert amount ccy settleCurrency (if currency = settleCurrency then none else fx) =
        .ok (convertedTwice (rateFor ccy settleCurrency fx) amount)) ∧
    (¬ (rateFor ccy settleCurrency fx ≠ none →
        convertedTwice (rateFor ccy settleCurrency fx) amount < 10 ^ 28) →
      ∃ e, convert amount ccy settleCurrency (if currency = settleCurrency then none else fx) =
        .error (.decimal e)) := by
  unfold convert
  by_cases hsame : ccy = settleCurrency
  · have hrate : rateFor ccy settleCurrency fx = none := if_pos hsame
    rw [hrate, if_pos (.inr hsame)]
    simp [convertedTwice]
  by_cases hzero : amount = 0
  · rw [if_pos (.inl hzero), hzero, convertedTwice_zero]
    simp
  · -- the fee is in the currency of the gross, which is another one
    obtain rfl := hccy.resolve_right hsame
    obtain ⟨r, rfl, hbase, hquote⟩ := hlocked.resolve_left hsame
    have hrate : rateFor ccy settleCurrency (some r) ≠ none := by simp [rateFor, hsame]
    have hfilter : (some r).filter (fun fx => fx.base = ccy ∧ fx.quote = settleCurrency) =
        some r := by simp [hbase, hquote]
    have hyields := yields_converted amount r hsame
    simp only [if_neg (not_or.mpr ⟨hzero, hsame⟩), if_neg hsame, hfilter, hrate, ne_eq,
      not_false_eq_true, forall_const]
    exact hyields
end

section
variable (gross : Nat) {grossSettled platformPct platformFixed railPct railFixed : Nat}
  (currency settleCurrency : String) (fxUsed : Option Rate)

theorem withNet_exceeds (h : grossSettled < platformPct + platformFixed + (railPct + railFixed)) :
    ∃ e, withNet gross currency grossSettled settleCurrency platformPct platformFixed railPct
      railFixed fxUsed = .error (.app e) ∧ e.code = .feeExceedsGross := by
  refine ⟨_, if_pos ?_, rfl⟩
  omega

theorem withNet_ok (h : platformPct + platformFixed + (railPct + railFixed) ≤ grossSettled) :
    ∃ q, withNet gross currency grossSettled settleCurrency platformPct platformFixed railPct
      railFixed fxUsed = .ok q ∧
      Matches ⟨grossSettled, platformPct, platformFixed, railPct, railFixed⟩ q := by
  refine ⟨_, if_neg ?_, rfl, rfl, rfl, rfl, rfl, rfl, rfl, ?_, ?_⟩
  · omega
  · dsimp only
    omega
  · dsimp only
    omega
end

section
variable {upper : String → String} {gross : Nat} {currency settleCurrency : String} {tier : TierFee}
  {rail : RailFee} {fx : Option Rate}

/-- A locked quote: with the amounts rounded twice, or an arithmetic signal. -/
theorem computeQuote_locked
    (htier : upper tier.fixedCurrency = upper currency ∨
      upper tier.fixedCurrency = upper settleCurrency)
    (hrail : upper rail.fixedCurrency = upper currency ∨
      upper rail.fixedCurrency = upper settleCurrency)
    (hlocked : Locked upper currency settleCurrency fx) :
    (Returns upper gross currency settleCurrency tier rail fx →
      let a := amountsTwice upper gross currency settleCurrency tier rail fx
      computeQuote upper gross currency settleCurrency tier rail fx =
        withNet gross (upper currency) a.gross (upper settleCurrency) a.platformPct a.platformFixed
          a.railPct a.railFixed (if upper currency = upper settleCurrency then none else fx)) ∧
    (¬ Returns upper gross currency settleCurrency tier rail fx →
      ∃ e, computeQuote upper gross currency settleCurrency tier rail fx = .error (.decimal e)) := by
  have hgross := settleGross_locked gross hlocked
  have hplatform := convert_locked tier.platformFixed htier hlocked
  have hrailFixed := convert_locked rail.fixed hrail hlocked
  constructor
  · intro h
    have hpct : pctOf (convertedTwice (rateFor (upper currency) (upper settleCurrency) fx) gross)
        tier.platformPctBps = _ := (yields_pctOf _ _).1 h.platformPct
    have hpct' : pctOf (convertedTwice (rateFor (upper currency) (upper settleCurrency) fx) gross)
        rail.pctBps = _ := (yields_pctOf _ _).1 h.railPct
    simp only [computeQuote, hgross.1 h.settled, hpct, hpct', hplatform.1 h.platformFixed,
      hrailFixed.1 h.railFixed, bind, Except.bind]
    rfl
  · intro h
    unfold computeQuote
    -- the first product that does not return is the one that raises
    by_cases h₁ : rateFor (upper currency) (upper settleCurrency) fx ≠ none →
        convertedTwice (rateFor (upper currency) (upper settleCurrency) fx) gross < 10 ^ 28
    · have hpct := yields_pctOf (convertedTwice (rateFor (upper currency) (upper settleCurrency) fx)
        gross) tier.platformPctBps
      have hpct' := yields_pctOf (convertedTwice (rateFor (upper currency) (upper settleCurrency) fx)
        gross) rail.pctBps
      simp only [hgross.1 h₁, bind, Except.bind]
      by_cases h₂ : percentageTwice (convertedTwice (rateFor (upper currency) (upper settleCurrency)
          fx) gross) tier.platformPctBps < 10 ^ 28
      · simp only [hpct.1 h₂]
        by_cases h₃ : rateFor (upper tier.fixedCurrency) (upper settleCurrency) fx ≠ none →
            convertedTwice (rateFor (upper tier.fixedCurrency) (upper settleCurrency) fx)
              tier.platformFixed < 10 ^ 28
        · simp only [hplatform.1 h₃]
          by_cases h₄ : percentageTwice (convertedTwice (rateFor (upper currency)
              (upper settleCurrency) fx) gross) rail.pctBps < 10 ^ 28
          · simp only [hpct'.1 h₄]
            obtain ⟨e, he⟩ := hrailFixed.2 fun h₅ => h ⟨h₁, h₂, h₃, h₄, h₅⟩
            exact ⟨e, by simp only [he]⟩
          · obtain ⟨e, he⟩ := hpct'.2 h₄
            exact ⟨e, by simp only [he]⟩
        · obtain ⟨e, he⟩ := hplatform.2 h₃
          exact ⟨e, by simp only [he]⟩
      · obtain ⟨e, he⟩ := hpct.2 h₂
        exact ⟨e, by simp only [he]⟩
    · obtain ⟨e, he⟩ := hgross.2 h₁
      exact ⟨e, by simp only [he, bind, Except.bind]⟩

theorem computeQuote_unlocked (hunlocked : ¬ Locked upper currency settleCurrency fx) :
    ∃ e, computeQuote upper gross currency settleCurrency tier rail fx = .error (.app e) ∧
      e.code = .fxUnavailable := by
  obtain ⟨e, hgross, hcode⟩ := settleGross_unlocked gross hunlocked
  refine ⟨e, ?_, hcode⟩
  simp only [computeQuote, hgross, bind, Except.bind]

theorem QuoteFits.exact (hlocked : Locked upper currency settleCurrency fx)
    (htier : upper tier.fixedCurrency = upper currency ∨
      upper tier.fixedCurrency = upper settleCurrency)
    (hrail : upper rail.fixedCurrency = upper currency ∨
      upper rail.fixedCurrency = upper settleCurrency)
    (h : QuoteFits upper gross currency settleCurrency tier rail fx) :
    QuoteExact upper gross currency settleCurrency tier rail fx := by
  have hquote := (computeQuote_locked htier hrail hlocked).1 h.returns
  simp only at hquote
  refine ⟨fun hunlocked => absurd hlocked hunlocked, fun _ hexceeds => ?_, fun _ hle => ?_⟩
  · rw [hquote]
    refine withNet_exceeds _ _ _ _ ?_
    rcases h.amounts with heq | ⟨-, htwice⟩
    · rw [heq]
      exact hexceeds
    · exact htwice
  · rcases h.amounts with heq | ⟨hexceeds, -⟩
    · rw [hquote, heq]
      exact withNet_ok _ _ _ _ hle
    · exact absurd hexceeds (Nat.not_lt.mpr hle)

theorem QuoteExact.fits (hlocked : Locked upper currency settleCurrency fx)
    (htier : upper tier.fixedCurrency = upper currency ∨
      upper tier.fixedCurrency = upper settleCurrency)
    (hrail : upper rail.fixedCurrency = upper currency ∨
      upper rail.fixedCurrency = upper settleCurrency)
    (h : QuoteExact upper gross currency settleCurrency tier rail fx) :
    QuoteFits upper gross currency settleCurrency tier rail fx := by
  have hreturns : Returns upper gross currency settleCurrency tier rail fx := by
    by_contra hnot
    obtain ⟨e, he⟩ := (computeQuote_locked htier hrail hlocked).2 hnot
    rcases Nat.lt_or_ge (exactAmounts upper gross currency settleCurrency tier rail fx).gross
        (exactAmounts upper gross currency settleCurrency tier rail fx).fees with hexceeds | hle
    · obtain ⟨_, heq, -⟩ := h.exceeds hlocked hexceeds
      rw [he] at heq
      cases heq
    · obtain ⟨_, heq, -⟩ := h.amounts hlocked hle
      rw [he] at heq
      cases heq
  have hquote := (computeQuote_locked htier hrail hlocked).1 hreturns
  simp only at hquote
  refine ⟨hreturns, ?_⟩
  rcases Nat.lt_or_ge (amountsTwice upper gross currency settleCurrency tier rail fx).gross
      (amountsTwice upper gross currency settleCurrency tier rail fx).fees with htwice | htwice
  · refine .inr ⟨Nat.lt_of_not_le fun hle => ?_, htwice⟩
    obtain ⟨_, heq, -⟩ := h.amounts hlocked hle
    obtain ⟨e, he, -⟩ := withNet_exceeds gross (upper currency) (upper settleCurrency)
      (if upper currency = upper settleCurrency then none else fx) htwice
    rw [hquote, he] at heq
    cases heq
  · obtain ⟨q, hq, hamounts⟩ := withNet_ok gross (upper currency) (upper settleCurrency)
      (if upper currency = upper settleCurrency then none else fx) htwice
    rcases Nat.lt_or_ge (exactAmounts upper gross currency settleCurrency tier rail fx).gross
        (exactAmounts upper gross currency settleCurrency tier rail fx).fees with hexceeds | hle
    · obtain ⟨_, heq, -⟩ := h.exceeds hlocked hexceeds
      rw [hquote, hq] at heq
      cases heq
    · obtain ⟨q', hq', hexact⟩ := h.amounts hlocked hle
      rw [hquote, hq] at hq'
      cases hq'
      refine .inl ?_
      rw [Amounts.ext_iff]
      exact ⟨hamounts.gross.symm.trans hexact.gross,
        hamounts.platformPct.symm.trans hexact.platformPct,
        hamounts.platformFixed.symm.trans hexact.platformFixed,
        hamounts.railPct.symm.trans hexact.railPct,
        hamounts.railFixed.symm.trans hexact.railFixed⟩
end

def shillings : Rate := ⟨"KES", "USD", ⟨77, 4⟩, "static"⟩

def standard : TierFee := ⟨"standard", 250, 3000, "KES"⟩

def card : RailFee := ⟨"card", 290, 30, "USD"⟩

theorem exactAmounts_card :
    exactAmounts id 1000000 "KES" "USD" standard card (some shillings) = ⟨7700, 193, 23, 223, 30⟩ := by
  have hgross : converted (rateFor "KES" "USD" (some shillings)) 1000000 = 7700 :=
    (nearest_amount 1000000 ⟨77, 4⟩).symm.trans (by decide)
  have hfixed : converted (rateFor "KES" "USD" (some shillings)) 3000 = 23 :=
    (nearest_amount 3000 ⟨77, 4⟩).symm.trans (by decide)
  have hplatform : percentage 7700 250 = 193 := (nearest_percentage 7700 250).symm.trans (by decide)
  have hrail : percentage 7700 290 = 223 := (nearest_percentage 7700 290).symm.trans (by decide)
  simp only [exactAmounts, amountsBy, id, hgross, standard, card, hfixed, hplatform, hrail]
  rfl

end LinkMint.Pricing.Quotes

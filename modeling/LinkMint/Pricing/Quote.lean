import LinkMint.Lib.Decimal

/-!
# Quotes

`compute_quote` of `app/domain/models.py` of fee-pricing-service, with the default context of `decimal`.
-/

namespace LinkMint.Pricing.Quotes

open LinkMint.Lib.Decimal

/-- `1 <base> = <rate> <quote>`. -/
structure Rate where
  base : String
  quote : String
  rate : Dec
  source : String

structure TierFee where
  tier : String
  platformPctBps : Nat
  platformFixed : Nat
  fixedCurrency : String

structure RailFee where
  rail : String
  pctBps : Nat
  fixed : Nat
  fixedCurrency : String

structure QuoteResult where
  gross : Nat
  currency : String
  grossSettled : Nat
  settleCurrency : String
  platformPctAmount : Nat
  platformFixedAmount : Nat
  platformFee : Nat
  railPctAmount : Nat
  railFixedAmount : Nat
  railFee : Nat
  net : Int
  fx : Option Rate

inductive ErrorCode where
  | feeExceedsGross
  | fxUnavailable
deriving DecidableEq

inductive Detail where
  | text (value : String)
  | amount (value : Nat)
deriving DecidableEq

structure AppError where
  code : ErrorCode
  message : String
  details : List (String × Detail)
deriving DecidableEq

/-- What `compute_quote` can raise. -/
inductive Raised where
  | app (e : AppError)
  | decimal (e : Signal)
deriving DecidableEq

def round0 (value : Except Signal Dec) : Except Raised Nat :=
  (do (← value).quantize pythonContext).mapError .decimal

/-- `/ BPS_DENOM`: the same digits, four places further down. -/
def overBpsDenom (d : Dec) : Except Signal Dec := Dec.fix pythonContext { d with scale := d.scale + 4 }

def unavailable (message base quote : String) : Raised :=
  .app ⟨.fxUnavailable, message, [("from", .text base), ("to", .text quote)]⟩

def convert (amount : Nat) (fromCcy settleCcy : String) (fx : Option Rate) : Except Raised Nat :=
  if amount = 0 ∨ fromCcy = settleCcy then .ok amount
  else match fx.filter fun fx => fx.base = fromCcy ∧ fx.quote = settleCcy with
    | some fx => round0 (Dec.mul pythonContext ⟨amount, 0⟩ fx.rate)
    | none => .error (unavailable s!"no locked rate to convert fixed fee {fromCcy}->{settleCcy}" fromCcy settleCcy)

def pctOf (amount bps : Nat) : Except Raised Nat :=
  round0 (do overBpsDenom (← Dec.mul pythonContext ⟨amount, 0⟩ ⟨bps, 0⟩))

def settleGross (gross : Nat) (currency settleCurrency : String) (fx : Option Rate) :
    Except Raised (Nat × Option Rate) :=
  if currency = settleCurrency then .ok (gross, none)
  else match fx.filter fun fx => fx.base = currency ∧ fx.quote = settleCurrency with
    | some fx => do return (← round0 (Dec.mul pythonContext ⟨gross, 0⟩ fx.rate), some fx)
    | none => .error (unavailable s!"no locked rate for {currency}->{settleCurrency}" currency settleCurrency)

def withNet (gross : Nat) (currency : String) (grossSettled : Nat) (settleCurrency : String)
    (platformPct platformFixed railPct railFixed : Nat) (fxUsed : Option Rate) : Except Raised QuoteResult :=
  let platformFee := platformPct + platformFixed
  let railFee := railPct + railFixed
  let net : Int := grossSettled - platformFee - railFee
  if net < 0 then
    .error (.app ⟨.feeExceedsGross, "fees exceed the payment amount",
      [("gross_settled", .amount grossSettled), ("platform_fee", .amount platformFee), ("rail_fee", .amount railFee)]⟩)
  else .ok ⟨gross, currency, grossSettled, settleCurrency, platformPct, platformFixed, platformFee, railPct, railFixed,
    railFee, net, fxUsed⟩

def computeQuote (upper : String → String) (gross : Nat) (currency settleCurrency : String) (tier : TierFee)
    (rail : RailFee) (fx : Option Rate) : Except Raised QuoteResult := do
  let currency := upper currency
  let settleCurrency := upper settleCurrency
  let (grossSettled, fxUsed) ← settleGross gross currency settleCurrency fx
  let platformPct ← pctOf grossSettled tier.platformPctBps
  let platformFixed ← convert tier.platformFixed (upper tier.fixedCurrency) settleCurrency fxUsed
  let railPct ← pctOf grossSettled rail.pctBps
  let railFixed ← convert rail.fixed (upper rail.fixedCurrency) settleCurrency fxUsed
  withNet gross currency grossSettled settleCurrency platformPct platformFixed railPct railFixed fxUsed

end LinkMint.Pricing.Quotes

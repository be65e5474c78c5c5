import Mathlib.Algebra.Order.Field.Rat
import Mathlib.Order.Hom.Basic
import Mathlib.Order.WithBot

/-!
# The risk engine

`app/domain/risk_engine.py` of compliance-risk. Weights and scores are in thousandths, so that rounding to three digits
leaves a score as it is. Currency and `count_7d`, which no rule reads, are left out.
-/

namespace LinkMint.Compliance.Risk

inductive Decision where
  | allow | review | block
deriving DecidableEq, Repr

structure RiskConfig where
  tierCeilings : List (Int × WithTop ℚ)
  amlCumulativeThreshold : ℚ
  velocityBlock24h : Int
  velocityReview24h : Int
  velocityReview1h : Int
  scoreBlockThreshold : ℚ
  scoreReviewThreshold : ℚ

structure RiskInputs where
  tier : Int
  action : String
  amount : Option ℚ
  geoCountry : Option String
  registeredCountry : Option String
  count1h : Int
  count24h : Int
  cumulativeAmountWindow : ℚ

inductive Code where
  | lowKyc | amlThreshold | amountOverTierCeiling | velocity24h | velocity1h | geoMismatch
deriving DecidableEq, Repr

def Code.isHard : Code → Bool
  | .lowKyc | .amlThreshold | .amountOverTierCeiling => true
  | .velocity24h | .velocity1h | .geoMismatch => false

structure Reason where
  code : Code
  detail : String
  weight : Nat
deriving DecidableEq, Repr

structure RiskOutcome where
  decision : Decision
  score : Nat
  reasons : List Reason
deriving DecidableEq, Repr

def ceilingFor (cfg : RiskConfig) (tier : Int) : WithTop ℚ :=
  (cfg.tierCeilings.lookup tier).getD ((cfg.tierCeilings.lookup 0).getD ((0 : ℚ) : WithTop ℚ))

def isValueAction (action : String) : Bool := action ∈ ["paylink.create", "payment.initiate", "withdraw"]

/-- The local variables of `evaluate`. -/
structure Draft where
  reasons : List Reason := []
  hardBlock : Bool := false
  hardReview : Bool := false
  softScore : Nat := 0

namespace Draft
variable (cfg : RiskConfig) (inputs : RiskInputs) (d : Draft)

def lowKyc : Draft :=
  if isValueAction inputs.action ∧ inputs.tier ≤ 0 ∧ inputs.amount.any (0 < ·) then
    { d with
      reasons := d.reasons ++ [⟨.lowKyc, "tier-0 user cannot perform a value action with a non-zero amount", 1000⟩]
      hardBlock := true }
  else d

/-- `fix` is the rounding of the decimal context. -/
def aml (fix : ℚ →o ℚ) : Draft :=
  let projected := fix (inputs.cumulativeAmountWindow + inputs.amount.getD 0)
  if isValueAction inputs.action ∧ cfg.amlCumulativeThreshold ≤ projected ∧ inputs.tier < 2 then
    let d : Draft := { d with
      reasons := d.reasons ++ [⟨.amlThreshold,
        "cumulative amount over the window crosses the Kenya AML threshold without enhanced (tier-2) KYC", 1000⟩] }
    if inputs.tier ≤ 1 then { d with hardBlock := true } else { d with hardReview := true }
  else d

def ceiling : Draft :=
  if isValueAction inputs.action ∧ inputs.amount.any fun x : ℚ => ceilingFor cfg inputs.tier < (x : WithTop ℚ) then
    { d with
      reasons := d.reasons ++ [⟨.amountOverTierCeiling,
        s!"amount exceeds the tier-{inputs.tier} per-transaction ceiling", 600⟩]
      hardReview := true }
  else d

def velocity24h : Draft :=
  if cfg.velocityBlock24h ≤ inputs.count24h then
    { d with
      softScore := d.softScore + 800
      hardReview := true
      reasons := d.reasons ++ [⟨.velocity24h, s!"{inputs.count24h} actions in 24h exceeds the block threshold", 800⟩] }
  else if cfg.velocityReview24h ≤ inputs.count24h then
    { d with
      softScore := d.softScore + 400
      reasons := d.reasons ++ [⟨.velocity24h, s!"{inputs.count24h} actions in 24h exceeds the review threshold", 400⟩] }
  else d

def velocity1h : Draft :=
  if cfg.velocityReview1h ≤ inputs.count1h then
    { d with
      softScore := d.softScore + 300
      reasons := d.reasons ++ [⟨.velocity1h, s!"{inputs.count1h} actions in 1h exceeds the review threshold", 300⟩] }
  else d

def geo (upper : String → String) : Draft :=
  let geoCountry := inputs.geoCountry.getD ""
  let registered := inputs.registeredCountry.getD ""
  if geoCountry ≠ "" ∧ registered ≠ "" ∧ upper geoCountry ≠ upper registered then
    { d with
      softScore := d.softScore + 300
      reasons := d.reasons ++ [⟨.geoMismatch, "geo-IP country differs from the registered country", 300⟩] }
  else d

def hardWeight : Nat := ((d.reasons.filter (·.code.isHard)).map (·.weight)).sum

def outcome : RiskOutcome :=
  let score := min 1000 (d.softScore + d.hardWeight)
  let decision :=
    if d.hardBlock ∨ cfg.scoreBlockThreshold ≤ (score / 1000 : ℚ) then .block
    else if d.hardReview ∨ cfg.scoreReviewThreshold ≤ (score / 1000 : ℚ) then .review
    else .allow
  { decision, score, reasons := d.reasons }
end Draft

def evaluate (fix : ℚ →o ℚ) (upper : String → String) (inputs : RiskInputs) (cfg : RiskConfig) : RiskOutcome :=
  let d : Draft := {}
  let d := d.lowKyc inputs
  let d := d.aml cfg inputs fix
  let d := d.ceiling cfg inputs
  let d := d.velocity24h cfg inputs
  let d := d.velocity1h cfg inputs
  let d := d.geo inputs upper
  d.outcome cfg

end LinkMint.Compliance.Risk

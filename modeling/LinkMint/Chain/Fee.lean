import LinkMint.Chain.ValidatorState

/-!
# Settlement fees

`internal/fee`.
-/

namespace LinkMint.Chain

open Std

structure FeeBreakdown where
  totalFee : UInt64 := 0
  validatorReward : UInt64 := 0
  treasuryAmount : UInt64 := 0
  burnAmount : UInt64 := 0
deriving DecidableEq, Repr

structure Calculator where
  rateBasisPoints : UInt64
  validatorSharePct : UInt64
  treasurySharePct : UInt64
  burnSharePct : UInt64
  minFee : UInt64

/-- `max(amount * rate / 10000, minFee)`, split by the shares; the treasury gets the remainder. -/
def Calculator.calculateFee (c : Calculator) (amount : UInt64) : FeeBreakdown :=
  if amount = 0 then {}
  else
    let rated := amount * c.rateBasisPoints / 10000
    let totalFee := if rated < c.minFee then c.minFee else rated
    let validatorReward := totalFee * c.validatorSharePct / 100
    let burnAmount := totalFee * c.burnSharePct / 100
    { totalFee := totalFee
      validatorReward := validatorReward
      treasuryAmount := totalFee - validatorReward - burnAmount
      burnAmount := burnAmount }

/-- The calculator `collectAndDistributeFees` builds: the chain's rate and shares, no floor. -/
def ChainParams.calculator (cp : ChainParams) : Calculator where
  rateBasisPoints := cp.feeRateBasisPoints
  validatorSharePct := cp.validatorRewardShare
  treasurySharePct := cp.treasuryShare
  burnSharePct := cp.burnShare
  minFee := 0

structure ValidatorPayout where
  validator : Address
  amount : UInt64
deriving DecidableEq, Repr

/-- What a voter's vote weighs now: its stake, if it is still an active validator. -/
def activeStake (s : Snapshot) (addr : Address) : Option UInt64 :=
  match s.validators[addr]? with
  | some v => if v.isActive then some v.stakedAmount else none
  | none => none

/-- `voterStakes`: the active voters and their stakes, one entry each however often the list names them. -/
def voterStakes (s : Snapshot) (voters : List Address) : ExtTreeMap Address UInt64 :=
  voters.foldl (fun m addr => (activeStake s addr).elim m fun stake => m.insert addr stake) ∅

/-- `totalVoterStake`, accumulated over the list itself. -/
def totalVoterStake (s : Snapshot) (voters : List Address) : UInt64 :=
  voters.foldl (fun sum addr => (activeStake s addr).elim sum fun stake => sum + stake) 0

def payVoters (cp : ChainParams) (reward totalVoterStake : UInt64) :
    List (Address × UInt64) → UInt64 → List ValidatorPayout → Snapshot → Except String (List ValidatorPayout) × Snapshot
  | [], _, payouts, s => (.ok payouts, s)
  | (addr, stake) :: rest, distributed, payouts, s =>
    let due := if rest = [] then reward - distributed else reward * stake / totalVoterStake
    if due > 0 then
      match s.mintTokens cp addr due with
      | .error e => (.error s!"mint validator reward: {e}", s)
      | .ok s' =>
        payVoters cp reward totalVoterStake rest (distributed + due)
          (payouts ++ [{ validator := addr, amount := due }]) s'
    else payVoters cp reward totalVoterStake rest (distributed + due) payouts s

/-- `DistributeFees`. -/
def distributeFees (cp : ChainParams) (fee : FeeBreakdown) (voters : List Address) (s : Snapshot) :
    Except String (List ValidatorPayout) × Snapshot :=
  if fee.totalFee = 0 then (.ok [], s)
  else
    let stake := totalVoterStake s voters
    if stake = 0 then (.error "no active voters with stake", s)
    else
      let totalMint := fee.validatorReward + fee.treasuryAmount
      if s.totalSupply + totalMint > cp.maxSupply then
        (.error s!"fee mint of {totalMint} would exceed max supply", s)
      else match payVoters cp fee.validatorReward stake (voterStakes s voters).toList 0 [] s with
        | (.error e, s') => (.error e, s')
        | (.ok payouts, s') =>
          -- the treasury's mint may fail with the validators already paid
          match if fee.treasuryAmount > 0 then s'.mintTokens cp cp.treasuryAddress fee.treasuryAmount
              else .ok s' with
          | .error e => (.error s!"mint treasury: {e}", s')
          | .ok s'' =>
            (.ok payouts, if fee.burnAmount > 0 then s''.recordBurn fee.burnAmount else s'')

end LinkMint.Chain

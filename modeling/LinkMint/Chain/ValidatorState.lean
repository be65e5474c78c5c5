import LinkMint.Chain.State

/-!
# Stakes, withdrawals, slashes, votes

`internal/state/validator_state.go`.
-/

namespace LinkMint.Chain

open Std

namespace Snapshot
def isActiveValidator (s : Snapshot) (addr : Address) : Bool :=
  (s.validators[addr]?).elim false (·.isActive)

def putValidator (s : Snapshot) (addr : Address) (v : ValidatorInfo) : Snapshot :=
  { s with validators := s.validators.insert addr v }

/-- The stake is credited and the validator activated once it reaches the minimum. -/
def staked (cp : ChainParams) (v : ValidatorInfo) (amount : UInt64) : ValidatorInfo :=
  let v := { v with stakedAmount := v.stakedAmount + amount }
  if !v.isActive && cp.minimumStake ≤ v.stakedAmount then { v with isActive := true } else v

def stakeTarget (s : Snapshot) (addr : Address) (timestamp : Int64) : ValidatorInfo :=
  (s.validators[addr]?).getD { address := addr, joinedAt := timestamp }

/-- `Stake`: a first stake also joins the validator list. -/
def stake (cp : ChainParams) (s : Snapshot) (addr : Address) (amount : UInt64)
    (timestamp : Int64) : Except String Snapshot :=
  if amount = 0 then .error "zero amount"
  else match s.validators[addr]? with
    | some _ => .ok (s.putValidator addr (staked cp (s.stakeTarget addr timestamp) amount))
    | none => .ok
      { s.putValidator addr (staked cp (s.stakeTarget addr timestamp) amount) with
        validatorList := s.validatorList ++ [addr] }

/-- The record an opened withdrawal leaves: the stake is still all there, and a validator whose
    remaining stake would fall short of the minimum is deactivated at once. -/
def withdrawing (cp : ChainParams) (v : ValidatorInfo) (amount : UInt64) (timestamp : Int64) : ValidatorInfo :=
  { v with
    pendingWithdrawal := amount
    withdrawableAt := timestamp + cp.withdrawalCooldown
    isActive := if v.stakedAmount - amount < cp.minimumStake then false else v.isActive }

def initiateWithdrawal (cp : ChainParams) (s : Snapshot) (addr : Address) (amount : UInt64)
    (timestamp : Int64) : Except String Snapshot :=
  match s.validators[addr]? with
  | none => .error s!"validator not found: {hex addr}"
  | some v =>
    if v.pendingWithdrawal > 0 then .error "withdrawal already pending"
    else if amount > v.stakedAmount then
      .error s!"insufficient stake: have {v.stakedAmount}, want {amount}"
    else
      let remaining := v.stakedAmount - amount
      if remaining > 0 && remaining < cp.minimumStake then
        .error s!"remaining stake {remaining} below minimum {cp.minimumStake}"
      else .ok (s.putValidator addr (withdrawing cp v amount timestamp))

def withdrawn (v : ValidatorInfo) : ValidatorInfo :=
  { v with
    stakedAmount := v.stakedAmount - v.pendingWithdrawal
    pendingWithdrawal := 0
    withdrawableAt := 0 }

def completeWithdrawal (s : Snapshot) (addr : Address) (timestamp : Int64) : Except String (UInt64 × Snapshot) :=
  match s.validators[addr]? with
  | none => .error s!"validator not found: {hex addr}"
  | some v =>
    if v.pendingWithdrawal = 0 then .error "no withdrawal pending"
    else if timestamp < v.withdrawableAt then
      .error s!"cooldown not elapsed: withdrawable at {v.withdrawableAt}, current {timestamp}"
    else .ok (v.pendingWithdrawal, s.putValidator addr (withdrawn v))

def slashed (cp : ChainParams) (v : ValidatorInfo) (amount : UInt64) : ValidatorInfo :=
  { v with
    stakedAmount := v.stakedAmount - amount
    totalSlashed := v.totalSlashed + amount
    isActive := if v.stakedAmount - amount < cp.minimumStake then false else v.isActive }

def slash (cp : ChainParams) (s : Snapshot) (addr : Address) (amount : UInt64) : Except String Snapshot :=
  match s.validators[addr]? with
  | none => .error s!"validator not found: {hex addr}"
  | some v =>
    if amount > v.stakedAmount then
      .error s!"insufficient stake for slash: have {v.stakedAmount}, want {amount}"
    else .ok { s.putValidator addr (slashed cp v amount) with
        totalSupply := if s.totalSupply < amount then 0 else s.totalSupply - amount
        totalBurned := s.totalBurned + amount }

def distributeReward (s : Snapshot) (addr : Address) (amount : UInt64) : Except String Snapshot :=
  match s.validators[addr]? with
  | none => .error s!"validator not active: {hex addr}"
  | some v =>
    if v.isActive = false then .error s!"validator not active: {hex addr}"
    else .ok (s.putValidator addr { v with totalRewards := v.totalRewards + amount })

def setVRFPublicKey (s : Snapshot) (addr : Address) (vrfPubKey : Bytes) : Except String Snapshot :=
  match s.validators[addr]? with
  | none => .error s!"validator not found: {hex addr}"
  | some v =>
    if v.isActive = false then .error s!"validator not active: {hex addr}"
    else .ok { s.putValidator addr { v with vrfPublicKey := vrfPubKey } with
      vrfKeys := s.vrfKeys.insert addr vrfPubKey }

section Specs

variable {cp : ChainParams} {s s' : Snapshot} {addr : Address} {amount : UInt64}
  {timestamp : Int64}

theorem stake_ok : s.stake cp addr amount timestamp = .ok s' ↔ amount ≠ 0 ∧
    s' = { s.putValidator addr (staked cp (s.stakeTarget addr timestamp) amount) with
      validatorList :=
        if s.validators.contains addr then s.validatorList else s.validatorList ++ [addr] } := by
  unfold stake
  by_cases h0 : amount = 0
  · simp [h0]
  · cases h : s.validators[addr]? with
    | none =>
      have hc : s.validators.contains addr = false := by
        rw [ExtTreeMap.contains_eq_isSome_getElem?, h]; rfl
      simp [h0, hc, eq_comm]
    | some v =>
      have hc : s.validators.contains addr = true := by
        rw [ExtTreeMap.contains_eq_isSome_getElem?, h]; rfl
      simp [h0, hc, putValidator, eq_comm]

theorem initiateWithdrawal_ok : s.initiateWithdrawal cp addr amount timestamp = .ok s' ↔
    ∃ v, s.validators[addr]? = some v ∧ v.pendingWithdrawal = 0 ∧ amount ≤ v.stakedAmount ∧
      ¬ (v.stakedAmount - amount > 0 ∧ v.stakedAmount - amount < cp.minimumStake) ∧
      s' = s.putValidator addr (withdrawing cp v amount timestamp) := by
  unfold initiateWithdrawal
  cases h : s.validators[addr]? with
  | none => simp
  | some v =>
    by_cases hp : v.pendingWithdrawal > 0
    · have hne : v.pendingWithdrawal ≠ 0 := by
        intro h0; simp [h0] at hp
      simp [hp, hne]
    · have h0 : v.pendingWithdrawal = 0 := by
        rw [gt_iff_lt, UInt64.not_lt] at hp
        exact UInt64.le_zero_iff.mp hp
      by_cases ha : amount > v.stakedAmount
      · simp [h0, ha, UInt64.not_le.mpr ha]
      · simp only [hp, ha, ↓reduceIte, Bool.and_eq_true, decide_eq_true_eq]
        split
        · next hm => simp [hm]
        · next hm =>
          constructor
          · rintro ⟨rfl⟩
            exact ⟨v, rfl, h0, UInt64.not_lt.mp ha, hm, rfl⟩
          · rintro ⟨_, ⟨rfl⟩, -, -, -, rfl⟩
            rfl

theorem completeWithdrawal_ok : s.completeWithdrawal addr timestamp = .ok (amount, s') ↔
    ∃ v, s.validators[addr]? = some v ∧ v.pendingWithdrawal ≠ 0 ∧ v.withdrawableAt ≤ timestamp ∧
      amount = v.pendingWithdrawal ∧ s' = s.putValidator addr (withdrawn v) := by
  unfold completeWithdrawal
  cases h : s.validators[addr]? with
  | none => simp
  | some v =>
    by_cases h0 : v.pendingWithdrawal = 0
    · simp [h0]
    · by_cases ht : timestamp < v.withdrawableAt
      · simp [h0, ht, Int64.not_le.mpr ht]
      · simp [h0, ht, Int64.not_lt.mp ht, eq_comm]

theorem slash_ok : s.slash cp addr amount = .ok s' ↔ ∃ v, s.validators[addr]? = some v ∧ amount ≤ v.stakedAmount ∧
      s' = { s.putValidator addr (slashed cp v amount) with
        totalSupply := if s.totalSupply < amount then 0 else s.totalSupply - amount
        totalBurned := s.totalBurned + amount } := by
  unfold slash
  cases h : s.validators[addr]? with
  | none => simp
  | some v =>
    by_cases ha : amount > v.stakedAmount
    · simp [ha, UInt64.not_le.mpr ha]
    · simp [ha, UInt64.not_lt.mp ha, eq_comm]

theorem distributeReward_ok : s.distributeReward addr amount = .ok s' ↔
    ∃ v, s.validators[addr]? = some v ∧ v.isActive = true ∧
      s' = s.putValidator addr { v with totalRewards := v.totalRewards + amount } := by
  unfold distributeReward
  cases h : s.validators[addr]? with
  | none => simp
  | some v =>
    by_cases ha : v.isActive = true
    · simp [ha, @eq_comm _ s']
    · simp [ha]

theorem setVRFPublicKey_ok {key : Bytes} : s.setVRFPublicKey addr key = .ok s' ↔
    ∃ v, s.validators[addr]? = some v ∧ v.isActive = true ∧
      s' = { s.putValidator addr { v with vrfPublicKey := key } with
        vrfKeys := s.vrfKeys.insert addr key } := by
  unfold setVRFPublicKey
  cases h : s.validators[addr]? with
  | none => simp
  | some v =>
    by_cases ha : v.isActive = true
    · simp [ha, @eq_comm _ s']
    · simp [ha]
end Specs

/-- The voters on a PayLink, by address: the vote set lists its keys in order, and those of one
    PayLink are ordered by validator. -/
def getVoters (s : Snapshot) (plId : Hash) : List Address :=
  (s.votes.toList.filter fun k => k.payLinkID = plId).map (·.validator)

def hasVoted (s : Snapshot) (plId : Hash) (validator : Address) : Bool :=
  s.votes.contains { payLinkID := plId, validator := validator }

def recordVote (s : Snapshot) (plId : Hash) (validator : Address) : Snapshot :=
  { s with votes := s.votes.insert { payLinkID := plId, validator := validator } }

def isProofUsed (s : Snapshot) (proofHash : Hash) : Bool := s.usedProofs.contains proofHash

def markProofUsed (s : Snapshot) (proofHash : Hash) : Snapshot :=
  { s with usedProofs := s.usedProofs.insert proofHash }

def setSubmittedProof (s : Snapshot) (plId proofHash : Hash) : Snapshot :=
  { s with submittedProofs := s.submittedProofs.insert plId proofHash }

def isEvidenceProcessed (s : Snapshot) (id : Hash) : Bool := s.processedEvidence.contains id

def markEvidenceProcessed (s : Snapshot) (id : Hash) : Snapshot :=
  { s with processedEvidence := s.processedEvidence.insert id }
end Snapshot
end LinkMint.Chain

import LinkMint.Lib.Outcome
import LinkMint.Chain.Event
import LinkMint.Chain.Rules
import LinkMint.Chain.Fee
import LinkMint.Chain.Slashing
import LinkMint.Chain.PayLinkState

/-!
# The transaction handlers

`internal/chain/executor.go`, one definition per `execute…` method.
-/

namespace LinkMint.Chain

open LinkMint.Lib

structure TxState where
  state : Snapshot
  pending : List Event := []

/-- A handler: it may fail with a text, and the state it had reached survives the failure. -/
abbrev Exec := EStateM String TxState

namespace Exec
def readState : Exec Snapshot := do return (← get).state

def write (f : Snapshot → Snapshot) : Exec PUnit := modify fun t => { t with state := f t.state }

def attempt (f : Snapshot → Except String Snapshot) (wrap : String → String := id) : Exec PUnit := do
  let s ← orThrow (f (← readState)) wrap
  write fun _ => s

def attemptGet {α : Type} (f : Snapshot → Except String (α × Snapshot)) : Exec α := do
  let r ← orThrow (f (← readState)) id
  write fun _ => r.2
  return r.1

def emit (evt : Event) : Exec PUnit := modify fun t => { t with pending := t.pending ++ [evt] }

def emitIf (c : Bool) (evt : Event) : Exec PUnit :=
  modify fun t => { t with pending := t.pending ++ if c then [evt] else [] }

variable {α : Type} {t t' : TxState}

@[simp] theorem yields_readState {s : Snapshot} : Yields readState t s t' ↔ s = t.state ∧ t' = t := by
  simp only [readState, yields_bind, yields_get, yields_pure]
  constructor
  · rintro ⟨_, _, ⟨rfl, rfl⟩, rfl, rfl⟩
    exact ⟨rfl, rfl⟩
  · rintro ⟨rfl, rfl⟩
    exact ⟨_, _, ⟨rfl, rfl⟩, rfl, rfl⟩

@[simp] theorem yields_write {f : Snapshot → Snapshot} {u : PUnit} :
    Yields (write f) t u t' ↔ t' = { t with state := f t.state } := yields_modify

@[simp] theorem yields_emit {evt : Event} {u : PUnit} :
    Yields (emit evt) t u t' ↔ t' = { t with pending := t.pending ++ [evt] } := yields_modify

@[simp] theorem yields_emitIf {c : Bool} {evt : Event} {u : PUnit} : Yields (emitIf c evt) t u t' ↔
      t' = { t with pending := t.pending ++ if c then [evt] else [] } := yields_modify

@[simp] theorem yields_attempt {f : Snapshot → Except String Snapshot} {wrap : String → String} {u : PUnit} :
    Yields (attempt f wrap) t u t' ↔ ∃ s, f t.state = .ok s ∧ t' = { t with state := s } := by
  simp only [attempt, yields_bind, yields_readState, yields_orThrow, yields_write]
  constructor
  · rintro ⟨_, _, ⟨rfl, rfl⟩, s, _, ⟨hs, rfl⟩, rfl⟩
    exact ⟨s, hs, rfl⟩
  · rintro ⟨s, hs, rfl⟩
    exact ⟨_, _, ⟨rfl, rfl⟩, s, _, ⟨hs, rfl⟩, rfl⟩

@[simp] theorem yields_attemptGet {f : Snapshot → Except String (α × Snapshot)} {a : α} : Yields (attemptGet f) t a t' ↔
      ∃ s, f t.state = .ok (a, s) ∧ t' = { t with state := s } := by
  simp only [attemptGet, yields_bind, yields_readState, yields_orThrow, yields_write, yields_pure]
  constructor
  · rintro ⟨_, _, ⟨rfl, rfl⟩, ⟨a', s⟩, _, ⟨hs, rfl⟩, _, _, rfl, rfl, rfl⟩
    exact ⟨s, hs, rfl⟩
  · rintro ⟨s, hs, rfl⟩
    exact ⟨_, _, ⟨rfl, rfl⟩, (a, s), _, ⟨hs, rfl⟩, ⟨⟩, _, rfl, rfl, rfl⟩
end Exec

open Exec

variable (env : Env) (cp : ChainParams)

def badPayload (e : String) : String := s!"invalid payload: {e}"

def validatorAfter (s : Snapshot) (addr : Address) : ValidatorInfo :=
  (s.validators[addr]?).getD { address := addr, joinedAt := 0 }

def payLinkNotFound (id : Hash) : String := s!"paylink not found: {hex id}"

def notCreated (id : Hash) (status : Status) : String :=
  s!"paylink not in CREATED status: {hex id} (status: {status.string})"

/-! ## PayLink protocol -/

def newPayLink (tx : Transaction) (blockTimestamp : Int64) (p : CreatePayLinkPayload) : PayLink where
  id := p.payLinkID
  creator := tx.fromAddr
  receiver := p.receiver
  owner := tx.fromAddr
  amount := p.amount
  expiry := p.expiry
  status := .created
  metadataHash := p.metadataHash
  createdAt := blockTimestamp
  rules := p.rules

def executeCreatePayLink (tx : Transaction) (blockTimestamp : Int64) : Exec PUnit := do
  let p ← orThrow (env.decode.createPayLink tx.payload) badPayload
  failIf (p.receiver = 0) "invalid receiver: zero address"
  failIf (p.amount = 0) "invalid amount: zero"
  failIf (p.expiry ≤ blockTimestamp) "invalid expiry: already expired"
  check (checkNewRules env p.rules) id
  attempt (·.createPayLink (newPayLink tx blockTimestamp p))
  emit
    { kind := .payLinkCreated, entityType := .payLink, entityID := hex p.payLinkID
      transition := some (.payLinkNone, .payLinkCreated, .payLinkCreate)
      txHash := hex tx.hash
      data := some (.payLinkCreated (hex tx.fromAddr) (hex p.receiver) p.amount p.expiry
        (hex p.metadataHash)) }

def feeEvents (plID : Hash) (amount : UInt64) (txHash : Hash) (fb : FeeBreakdown)
    (payouts : List ValidatorPayout) (totalBurned : UInt64) : List Event :=
  [{ kind := .feeCollected, entityType := .payLink, entityID := hex plID, txHash := hex txHash
     data := some (.feeCollected (hex plID) amount fb.totalFee fb.validatorReward
       fb.treasuryAmount fb.burnAmount) }]
  ++ payouts.map (fun p =>
    { kind := .feeDistributed, entityType := .validator, entityID := hex p.validator
      txHash := hex txHash, data := some (.feeDistributed (hex p.validator) p.amount) })
  ++ if fb.burnAmount > 0 then
      [{ kind := .tokenBurned, entityType := .account, entityID := "burn", txHash := hex txHash
         data := some (.tokenBurned fb.burnAmount totalBurned) }]
    else []

def collectAndDistributeFees (plID : Hash) (amount : UInt64) (txHash : Hash) (t : TxState) : TxState :=
  let fb := cp.calculator.calculateFee amount
  if fb.totalFee = 0 then t
  else
    let voters := t.state.getVoters plID
    if voters.length = 0 then t
    else match distributeFees cp fb voters t.state with
      | (.error _, s) => { t with state := s }
      | (.ok payouts, s) =>
        { state := s
          pending := t.pending ++ feeEvents plID amount txHash fb payouts s.totalBurned }

/-- The quorum branch of `executeSubmitValidation`. -/
def settle (tx : Transaction) (blockTimestamp : Int64) (p : SubmitValidationPayload)
    (pl : PayLink) (voteCount : UInt64) : Exec PUnit := do
  let s ← readState
  check (evaluateRules env pl
    { action := .settle
      blockTimestamp := blockTimestamp
      sender := tx.fromAddr
      amount := pl.amount
      approvals := s.getVoters p.payLinkID }) (fun e => s!"rules rejected settlement: {e}")
  attempt (·.setPayLinkStatus p.payLinkID .verified)
  write (·.markProofUsed p.proofHash)
  emit
    { kind := .payLinkVerified, entityType := .payLink, entityID := hex p.payLinkID
      transition := some (.payLinkCreated, .payLinkVerified, .payLinkSettle)
      txHash := hex tx.hash
      data := some (.payLinkSettled (hex p.proofHash) voteCount) }
  modify (collectAndDistributeFees cp p.payLinkID pl.amount tx.hash)

/-- The first vote on a PayLink fixes the proof hash; every later one must repeat it. -/
def agreeOnProof (plId proofHash : Hash) : Exec PUnit := do
  let s ← readState
  match s.submittedProofs[plId]? with
  | some existing =>
    failIf (existing ≠ proofHash)
      s!"proof hash mismatch: expected {hex existing}, got {hex proofHash}"
  | none => write (·.setSubmittedProof plId proofHash)

def executeSubmitValidation (tx : Transaction) (blockTimestamp : Int64) : Exec PUnit := do
  let p ← orThrow (env.decode.submitValidation tx.payload) badPayload
  let s ← readState
  failIf (s.isActiveValidator tx.fromAddr = false) s!"not an active validator: {hex tx.fromAddr}"
  failIf (s.isProofUsed p.proofHash = true) s!"proof already used: {hex p.proofHash}"
  let pl ← orFail (s.getPayLink p.payLinkID) (payLinkNotFound p.payLinkID)
  failIf (pl.status ≠ .created) (notCreated p.payLinkID pl.status)
  failIf (blockTimestamp > pl.expiry) s!"paylink expired: {hex p.payLinkID}"
  failIf (s.hasVoted p.payLinkID tx.fromAddr = true)
    s!"already voted: {hex p.payLinkID} by {hex tx.fromAddr}"
  agreeOnProof p.payLinkID p.proofHash
  write (·.recordVote p.payLinkID tx.fromAddr)
  let voteCount ← attemptGet (·.incrementVoteCount p.payLinkID)
  emit
    { kind := .payLinkVoted, entityType := .payLink, entityID := hex p.payLinkID
      txHash := hex tx.hash
      data := some (.payLinkVoted (hex tx.fromAddr) (hex p.proofHash) voteCount
        cp.requiredValidations) }
  if cp.requiredValidations ≤ voteCount then settle env cp tx blockTimestamp p pl voteCount
  else pure ⟨⟩

def executeCancelPayLink (tx : Transaction) (blockTimestamp : Int64) : Exec PUnit := do
  let p ← orThrow (env.decode.cancelPayLink tx.payload) badPayload
  let s ← readState
  let pl ← orFail (s.getPayLink p.payLinkID) (payLinkNotFound p.payLinkID)
  failIf (pl.status ≠ .created) (notCreated p.payLinkID pl.status)
  failIf (pl.creator ≠ tx.fromAddr ∧ pl.owner ≠ tx.fromAddr)
    s!"not creator or owner: {hex tx.fromAddr}"
  check (evaluateRules env pl
    { action := .cancel
      blockTimestamp := blockTimestamp
      sender := tx.fromAddr
      amount := pl.amount }) (fun e => s!"rules rejected cancellation: {e}")
  attempt (·.setPayLinkStatus p.payLinkID .cancelled)
  emit
    { kind := .payLinkCancelled, entityType := .payLink, entityID := hex p.payLinkID
      transition := some (.payLinkCreated, .payLinkCancelled, .payLinkCancel)
      txHash := hex tx.hash }

def executeFailPayLink (tx : Transaction) : Exec PUnit := do
  failIf (tx.fromAddr ≠ cp.adminAddress) s!"not admin: {hex tx.fromAddr}"
  let p ← orThrow (env.decode.failPayLink tx.payload) badPayload
  let s ← readState
  let pl ← orFail (s.getPayLink p.payLinkID) (payLinkNotFound p.payLinkID)
  attempt (·.setPayLinkStatus p.payLinkID .failed)
  emit
    { kind := .payLinkFailed, entityType := .payLink, entityID := hex p.payLinkID
      transition := some (statusToFSMState pl.status, .payLinkFailed, .payLinkFail)
      txHash := hex tx.hash }

/-! ## NFT-style ownership -/

def executeTransferPayLink (tx : Transaction) (blockTimestamp : Int64) : Exec PUnit := do
  let p ← orThrow (env.decode.transferPayLink tx.payload) badPayload
  failIf (p.toAddr = 0) "cannot transfer to zero address"
  let s ← readState
  let pl ← orFail (s.getPayLink p.payLinkID) (payLinkNotFound p.payLinkID)
  failIf (pl.status ≠ .created) (notCreated p.payLinkID pl.status)
  failIf (p.toAddr = pl.owner) "cannot transfer to current owner"
  failIf (s.isApprovedOrOwner p.payLinkID tx.fromAddr = false)
    s!"not authorized to transfer: {hex tx.fromAddr}"
  check (evaluateRules env pl
    { action := .transfer
      blockTimestamp := blockTimestamp
      sender := tx.fromAddr
      receiver := p.toAddr
      amount := pl.amount
      transferCount := pl.transferCount }) (fun e => s!"rules rejected transfer: {e}")
  attempt (·.setPayLinkOwner p.payLinkID p.toAddr)
  emit
    { kind := .payLinkTransferred, entityType := .payLink, entityID := hex p.payLinkID
      transition := some (.payLinkCreated, .payLinkCreated, .payLinkTransfer)
      txHash := hex tx.hash
      data := some (.payLinkTransferred (hex pl.owner) (hex p.toAddr)
        (if tx.fromAddr ≠ pl.owner then hex tx.fromAddr else "") (pl.transferCount + 1)) }

def executeApprovePayLink (tx : Transaction) : Exec PUnit := do
  let p ← orThrow (env.decode.approvePayLink tx.payload) badPayload
  let s ← readState
  let pl ← orFail (s.getPayLink p.payLinkID) (payLinkNotFound p.payLinkID)
  failIf (tx.fromAddr ≠ pl.owner) s!"not owner: {hex tx.fromAddr} (owner: {hex pl.owner})"
  failIf (p.approved = pl.owner) "cannot approve self"
  attempt (·.setPayLinkApproval p.payLinkID p.approved)
  emit
    { kind := .payLinkApproved, entityType := .payLink, entityID := hex p.payLinkID
      txHash := hex tx.hash
      data := some (.payLinkApproved (hex pl.owner) (hex p.approved)) }

def executeSetApprovalForAll (tx : Transaction) : Exec PUnit := do
  let p ← orThrow (env.decode.setApprovalForAll tx.payload) badPayload
  failIf (p.operator = tx.fromAddr) "cannot set self as operator"
  failIf (p.operator = 0) "invalid operator: zero address"
  write (·.setOperatorApproval tx.fromAddr p.operator p.approved)
  emit
    { kind := .payLinkApprovalForAll, entityType := .payLink, entityID := hex tx.fromAddr
      txHash := hex tx.hash
      data := some (.payLinkApprovalForAll (hex tx.fromAddr) (hex p.operator) p.approved) }

/-! ## Token transfer -/

def executeTransfer (tx : Transaction) : Exec PUnit := do
  let p ← orThrow (env.decode.transfer tx.payload) badPayload
  failIf (p.amount = 0) "invalid amount: zero"
  failIf (p.toAddr = 0) "invalid recipient: zero address"
  attempt (·.transfer tx.fromAddr p.toAddr p.amount)
  emit
    { kind := .transfer, entityType := .account, entityID := hex tx.fromAddr
      txHash := hex tx.hash
      data := some (.transfer (hex tx.fromAddr) (hex p.toAddr) p.amount) }

/-! ## Validator staking -/

def deactivated (addr : Address) (txHash : Hash) : Event :=
  { kind := .validatorDeactivated, entityType := .validator, entityID := hex addr
    transition := some (.validatorActive, .validatorInactive, .validatorDeactivate)
    txHash := hex txHash }

/-- The debit is made before the stake is credited: if the second failed, the first would stand
    until the block reverted it. -/
def executeStake (tx : Transaction) (blockTimestamp : Int64) : Exec PUnit := do
  let p ← orThrow (env.decode.stake tx.payload) badPayload
  failIf (p.amount = 0) "zero amount"
  let wasActive := (← readState).isActiveValidator tx.fromAddr
  attempt (·.subBalance tx.fromAddr p.amount) (fun e => s!"insufficient balance for stake: {e}")
  attempt (·.stake cp tx.fromAddr p.amount blockTimestamp)
  let vAfter := validatorAfter (← readState) tx.fromAddr
  emit
    { kind := .validatorStaked, entityType := .validator, entityID := hex tx.fromAddr
      txHash := hex tx.hash
      data := some (.validatorStake p.amount vAfter.stakedAmount vAfter.isActive) }
  emitIf (!wasActive && vAfter.isActive)
    { kind := .validatorActivated, entityType := .validator, entityID := hex tx.fromAddr
      transition := some (.validatorInactive, .validatorActive, .validatorActivate)
      txHash := hex tx.hash }

def executeInitiateUnstake (tx : Transaction) (blockTimestamp : Int64) : Exec PUnit := do
  let p ← orThrow (env.decode.initiateUnstake tx.payload) badPayload
  failIf (p.amount = 0) "zero amount"
  let wasActive := (← readState).isActiveValidator tx.fromAddr
  attempt (·.initiateWithdrawal cp tx.fromAddr p.amount blockTimestamp)
  let vAfter := validatorAfter (← readState) tx.fromAddr
  emit
    { kind := .validatorUnstakeStarted, entityType := .validator, entityID := hex tx.fromAddr
      transition := some (.validatorActive, .validatorPendingWithdraw, .validatorInitUnstake)
      txHash := hex tx.hash
      data := some (.validatorUnstake p.amount vAfter.withdrawableAt) }
  emitIf (wasActive && !vAfter.isActive) (deactivated tx.fromAddr tx.hash)

def executeCompleteUnstake (tx : Transaction) (blockTimestamp : Int64) : Exec PUnit := do
  let amount ← attemptGet (·.completeWithdrawal tx.fromAddr blockTimestamp)
  write (·.addBalance tx.fromAddr amount)
  emit
    { kind := .validatorUnstakeComplete, entityType := .validator, entityID := hex tx.fromAddr
      transition := some (.validatorPendingWithdraw, .validatorNonExistent, .validatorCompleteUnstake)
      txHash := hex tx.hash
      data := some (.validatorUnstake amount 0) }

/-- The common tail of `executeSlash` and `executeSubmitEvidence`: slash and report. -/
def slashAndReport (tx : Transaction) (validator : Address) (amount : UInt64) (reason : String)
    (wrap : String → String) : Exec PUnit := do
  let wasActive := (← readState).isActiveValidator validator
  attempt (·.slash cp validator amount) wrap
  let vAfter := validatorAfter (← readState) validator
  emit
    { kind := .validatorSlashed, entityType := .validator, entityID := hex validator
      transition := some (.validatorActive, .validatorSlashed, .validatorSlash)
      txHash := hex tx.hash
      data := some (.validatorSlash amount reason vAfter.stakedAmount) }
  emitIf (wasActive && !vAfter.isActive) (deactivated validator tx.hash)

def executeSlash (tx : Transaction) : Exec PUnit := do
  failIf (tx.fromAddr ≠ cp.adminAddress) s!"not admin: {hex tx.fromAddr}"
  let p ← orThrow (env.decode.slash tx.payload) badPayload
  slashAndReport cp tx p.validator p.amount p.reason id

/-- Paid out of the admin's balance; the credit is made before the validator is checked. -/
def executeDistributeReward (tx : Transaction) : Exec PUnit := do
  failIf (tx.fromAddr ≠ cp.adminAddress) s!"not admin: {hex tx.fromAddr}"
  let p ← orThrow (env.decode.distributeReward tx.payload) badPayload
  attempt (·.subBalance tx.fromAddr p.amount) (fun e => s!"insufficient balance for reward: {e}")
  write (·.addBalance p.validator p.amount)
  attempt (·.distributeReward p.validator p.amount)
  let vAfter := validatorAfter (← readState) p.validator
  emit
    { kind := .validatorRewarded, entityType := .validator, entityID := hex p.validator
      transition := some (.validatorActive, .validatorActive, .validatorReward)
      txHash := hex tx.hash
      data := some (.validatorReward p.amount vAfter.totalRewards) }

/-! ## VRF keys and slashing evidence -/

def executeRegisterVRFKey (tx : Transaction) : Exec PUnit := do
  let p ← orThrow (env.decode.registerVRFKey tx.payload) badPayload
  failIf (p.vrfPublicKey.length ≠ 32)
    s!"invalid VRF public key length: got {p.vrfPublicKey.length}, want 32"
  let s ← readState
  failIf (s.isActiveValidator tx.fromAddr = false) s!"not an active validator: {hex tx.fromAddr}"
  attempt (·.setVRFPublicKey tx.fromAddr p.vrfPublicKey)
  emit
    { kind := .validatorVRFKeyRegistered, entityType := .validator, entityID := hex tx.fromAddr
      txHash := hex tx.hash }

/-- One slash per offence, no matter how often or by whom the evidence is submitted. -/
def executeSubmitEvidence (tx : Transaction) : Exec PUnit := do
  let p ← orThrow (env.decode.submitEvidence tx.payload) badPayload
  let s ← readState
  let action ← orThrow (processEvidence env s p.evidenceType p.validator p.data)
    (fun e => s!"invalid evidence: {e}")
  failIf (s.isEvidenceProcessed action.evidenceID = true)
    s!"evidence already processed: {hex action.evidenceID}"
  write (·.markEvidenceProcessed action.evidenceID)
  slashAndReport cp tx action.validator action.amount action.reason (fun e => s!"slash failed: {e}")

/-! ## Dispatch -/

def dispatch (tx : Transaction) (blockTimestamp : Int64) : Exec PUnit :=
  match TxKind.ofCode tx.type with
  | some .createPayLink => executeCreatePayLink env tx blockTimestamp
  | some .submitValidation => executeSubmitValidation env cp tx blockTimestamp
  | some .cancelPayLink => executeCancelPayLink env tx blockTimestamp
  | some .failPayLink => executeFailPayLink env cp tx
  | some .transfer => executeTransfer env tx
  | some .stake => executeStake env cp tx blockTimestamp
  | some .initiateUnstake => executeInitiateUnstake env cp tx blockTimestamp
  | some .completeUnstake => executeCompleteUnstake tx blockTimestamp
  | some .slash => executeSlash env cp tx
  | some .distributeReward => executeDistributeReward env cp tx
  | some .registerVRFKey => executeRegisterVRFKey env tx
  | some .submitEvidence => executeSubmitEvidence env cp tx
  | some .transferPayLink => executeTransferPayLink env tx blockTimestamp
  | some .approvePayLink => executeApprovePayLink env tx
  | some .setApprovalForAll => executeSetApprovalForAll env tx
  | none => throw s!"unknown tx type: {tx.type}"

/-- `ExecuteTx` up to the receipt: the nonce check, the handler, the nonce increment. -/
def executeTx (tx : Transaction) (blockTimestamp : Int64) : Exec PUnit := do
  let s ← readState
  failIf (tx.nonce ≠ s.getNonce tx.fromAddr)
    s!"invalid nonce: expected {s.getNonce tx.fromAddr}, got {tx.nonce}"
  dispatch env cp tx blockTimestamp
  write (·.incrementNonce tx.fromAddr)

end LinkMint.Chain

import LinkMint.Lib.MapTotal
import LinkMint.Chain.Executor

/-!
# What a successful transaction does

`Effect env cp s tx ts s'` has one constructor per way a handler can succeed, with the guards it passed and the
state operations it made.
-/

namespace LinkMint.Chain

open LinkMint.Lib Exec

variable {env : Env} {cp : ChainParams} {tx : Transaction} {ts : Int64}

/-- The handler succeeds and leaves the live state `s'`. -/
def Leads (x : Exec PUnit) (t : TxState) (s' : Snapshot) : Prop :=
  ∃ t', Yields x t ⟨⟩ t' ∧ t'.state = s'

/-! ## A counted vote -/

/-- Everything `executeSubmitValidation` checks before it writes. -/
structure Ballot (env : Env) (s : Snapshot) (tx : Transaction) (ts : Int64)
    (p : SubmitValidationPayload) (pl : PayLink) : Prop where
  payload : env.decode.submitValidation tx.payload = .ok p
  active : s.isActiveValidator tx.fromAddr = true
  unused : s.isProofUsed p.proofHash = false
  found : s.paylinks[p.payLinkID]? = some pl
  created : pl.status = .created
  unexpired : ts ≤ pl.expiry
  first : s.hasVoted p.payLinkID tx.fromAddr = false
  agrees : ∀ h, s.submittedProofs[p.payLinkID]? = some h → h = p.proofHash

def counted (s : Snapshot) (tx : Transaction) (p : SubmitValidationPayload) (pl : PayLink) : Snapshot :=
  { s with
    submittedProofs := s.submittedProofs.insert p.payLinkID p.proofHash
    votes := s.votes.insert { payLinkID := p.payLinkID, validator := tx.fromAddr }
    paylinks := s.paylinks.insert p.payLinkID { pl with voteCount := pl.voteCount + 1 } }

def settleContext (s : Snapshot) (tx : Transaction) (ts : Int64) (plID : Hash) (pl : PayLink) : EvalContext :=
  { action := .settle
    blockTimestamp := ts
    sender := tx.fromAddr
    amount := pl.amount
    approvals := s.getVoters plID }

def feeState (cp : ChainParams) (plID : Hash) (amount : UInt64) (s : Snapshot) : Snapshot :=
  (collectAndDistributeFees cp plID amount 0 { state := s }).state

theorem collect_state (cp : ChainParams) (plID : Hash) (amount : UInt64) (txHash : Hash) (t : TxState) :
    (collectAndDistributeFees cp plID amount txHash t).state = feeState cp plID amount t.state := by
  unfold feeState collectAndDistributeFees
  simp only
  split
  · rfl
  · split
    · rfl
    · rcases distributeFees cp (cp.calculator.calculateFee amount) (t.state.getVoters plID)
        t.state with ⟨_ | payouts, s'⟩ <;> rfl

/-! ## The effects -/

inductive Effect (env : Env) (cp : ChainParams) (s : Snapshot) (tx : Transaction) (ts : Int64) : Snapshot → Prop
  | createPayLink {p : CreatePayLinkPayload} {s' : Snapshot}
      (kind : TxKind.ofCode tx.type = some .createPayLink)
      (payload : env.decode.createPayLink tx.payload = .ok p)
      (receiver : p.receiver ≠ 0) (amount : p.amount ≠ 0) (expiry : ts < p.expiry)
      (rules : checkNewRules env p.rules = .ok ())
      (done : s.createPayLink (newPayLink tx ts p) = .ok s') : Effect env cp s tx ts s'
  | vote {p : SubmitValidationPayload} {pl : PayLink}
      (kind : TxKind.ofCode tx.type = some .submitValidation)
      (ballot : Ballot env s tx ts p pl)
      (short : ¬ cp.requiredValidations ≤ pl.voteCount + 1) :
      Effect env cp s tx ts (counted s tx p pl)
  | settle {p : SubmitValidationPayload} {pl : PayLink} {s' : Snapshot}
      (kind : TxKind.ofCode tx.type = some .submitValidation)
      (ballot : Ballot env s tx ts p pl)
      (quorum : cp.requiredValidations ≤ pl.voteCount + 1)
      (rules : evaluateRules env pl
        (settleContext (counted s tx p pl) tx ts p.payLinkID pl) = .ok ())
      (done : (counted s tx p pl).setPayLinkStatus p.payLinkID .verified = .ok s') :
      Effect env cp s tx ts
        (feeState cp p.payLinkID pl.amount (s'.markProofUsed p.proofHash))
  | cancelPayLink {p : CancelPayLinkPayload} {pl : PayLink} {s' : Snapshot}
      (kind : TxKind.ofCode tx.type = some .cancelPayLink)
      (payload : env.decode.cancelPayLink tx.payload = .ok p)
      (found : s.paylinks[p.payLinkID]? = some pl) (created : pl.status = .created)
      (allowed : pl.creator = tx.fromAddr ∨ pl.owner = tx.fromAddr)
      (rules : evaluateRules env pl
        { action := .cancel, blockTimestamp := ts, sender := tx.fromAddr, amount := pl.amount }
          = .ok ())
      (done : s.setPayLinkStatus p.payLinkID .cancelled = .ok s') : Effect env cp s tx ts s'
  | failPayLink {p : FailPayLinkPayload} {pl : PayLink} {s' : Snapshot}
      (kind : TxKind.ofCode tx.type = some .failPayLink)
      (admin : tx.fromAddr = cp.adminAddress)
      (payload : env.decode.failPayLink tx.payload = .ok p)
      (found : s.paylinks[p.payLinkID]? = some pl)
      (done : s.setPayLinkStatus p.payLinkID .failed = .ok s') : Effect env cp s tx ts s'
  | transferPayLink {p : TransferPayLinkPayload} {pl : PayLink} {s' : Snapshot}
      (kind : TxKind.ofCode tx.type = some .transferPayLink)
      (payload : env.decode.transferPayLink tx.payload = .ok p) (receiver : p.toAddr ≠ 0)
      (found : s.paylinks[p.payLinkID]? = some pl) (created : pl.status = .created)
      (moves : p.toAddr ≠ pl.owner)
      (allowed : s.isApprovedOrOwner p.payLinkID tx.fromAddr = true)
      (rules : evaluateRules env pl
        { action := .transfer, blockTimestamp := ts, sender := tx.fromAddr, receiver := p.toAddr
          amount := pl.amount, transferCount := pl.transferCount } = .ok ())
      (done : s.setPayLinkOwner p.payLinkID p.toAddr = .ok s') : Effect env cp s tx ts s'
  | approvePayLink {p : ApprovePayLinkPayload} {pl : PayLink} {s' : Snapshot}
      (kind : TxKind.ofCode tx.type = some .approvePayLink)
      (payload : env.decode.approvePayLink tx.payload = .ok p)
      (found : s.paylinks[p.payLinkID]? = some pl) (owner : tx.fromAddr = pl.owner)
      (other : p.approved ≠ pl.owner)
      (done : s.setPayLinkApproval p.payLinkID p.approved = .ok s') : Effect env cp s tx ts s'
  | setApprovalForAll {p : SetApprovalForAllPayload}
      (kind : TxKind.ofCode tx.type = some .setApprovalForAll)
      (payload : env.decode.setApprovalForAll tx.payload = .ok p)
      (other : p.operator ≠ tx.fromAddr) (operator : p.operator ≠ 0) :
      Effect env cp s tx ts (s.setOperatorApproval tx.fromAddr p.operator p.approved)
  | transfer {p : TransferPayload} {s' : Snapshot}
      (kind : TxKind.ofCode tx.type = some .transfer)
      (payload : env.decode.transfer tx.payload = .ok p)
      (amount : p.amount ≠ 0) (receiver : p.toAddr ≠ 0)
      (done : s.transfer tx.fromAddr p.toAddr p.amount = .ok s') : Effect env cp s tx ts s'
  | stake {p : StakePayload} {s₁ s' : Snapshot}
      (kind : TxKind.ofCode tx.type = some .stake)
      (payload : env.decode.stake tx.payload = .ok p) (amount : p.amount ≠ 0)
      (debit : s.subBalance tx.fromAddr p.amount = .ok s₁)
      (done : s₁.stake cp tx.fromAddr p.amount ts = .ok s') : Effect env cp s tx ts s'
  | initiateUnstake {p : InitiateUnstakePayload} {s' : Snapshot}
      (kind : TxKind.ofCode tx.type = some .initiateUnstake)
      (payload : env.decode.initiateUnstake tx.payload = .ok p) (amount : p.amount ≠ 0)
      (done : s.initiateWithdrawal cp tx.fromAddr p.amount ts = .ok s') : Effect env cp s tx ts s'
  | completeUnstake {amount : UInt64} {s' : Snapshot}
      (kind : TxKind.ofCode tx.type = some .completeUnstake)
      (done : s.completeWithdrawal tx.fromAddr ts = .ok (amount, s')) :
      Effect env cp s tx ts (s'.addBalance tx.fromAddr amount)
  | slash {p : SlashPayload} {s' : Snapshot}
      (kind : TxKind.ofCode tx.type = some .slash)
      (admin : tx.fromAddr = cp.adminAddress)
      (payload : env.decode.slash tx.payload = .ok p)
      (done : s.slash cp p.validator p.amount = .ok s') : Effect env cp s tx ts s'
  | distributeReward {p : DistributeRewardPayload} {s₁ s' : Snapshot}
      (kind : TxKind.ofCode tx.type = some .distributeReward)
      (admin : tx.fromAddr = cp.adminAddress)
      (payload : env.decode.distributeReward tx.payload = .ok p)
      (debit : s.subBalance tx.fromAddr p.amount = .ok s₁)
      (done : (s₁.addBalance p.validator p.amount).distributeReward p.validator p.amount = .ok s') :
      Effect env cp s tx ts s'
  | registerVRFKey {p : RegisterVRFKeyPayload} {s' : Snapshot}
      (kind : TxKind.ofCode tx.type = some .registerVRFKey)
      (payload : env.decode.registerVRFKey tx.payload = .ok p) (length : p.vrfPublicKey.length = 32)
      (active : s.isActiveValidator tx.fromAddr = true)
      (done : s.setVRFPublicKey tx.fromAddr p.vrfPublicKey = .ok s') : Effect env cp s tx ts s'
  | submitEvidence {p : SubmitEvidencePayload} {action : SlashAction} {s' : Snapshot}
      (kind : TxKind.ofCode tx.type = some .submitEvidence)
      (payload : env.decode.submitEvidence tx.payload = .ok p)
      (evidence : processEvidence env s p.evidenceType p.validator p.data = .ok action)
      (fresh : s.isEvidenceProcessed action.evidenceID = false)
      (done : (s.markEvidenceProcessed action.evidenceID).slash cp action.validator action.amount
        = .ok s') : Effect env cp s tx ts s'

/-! ## Each handler has exactly its effects -/

variable {t : TxState} {s' : Snapshot}

theorem leads_createPayLink : Leads (executeCreatePayLink env tx ts) t s' ↔
    ∃ p, env.decode.createPayLink tx.payload = .ok p ∧ p.receiver ≠ 0 ∧ p.amount ≠ 0 ∧
      ts < p.expiry ∧ checkNewRules env p.rules = .ok () ∧
      t.state.createPayLink (newPayLink tx ts p) = .ok s' := by
  simp [Leads, executeCreatePayLink]

theorem leads_cancelPayLink : Leads (executeCancelPayLink env tx ts) t s' ↔
    ∃ p pl, env.decode.cancelPayLink tx.payload = .ok p ∧
      t.state.paylinks[p.payLinkID]? = some pl ∧ pl.status = .created ∧
      (pl.creator = tx.fromAddr ∨ pl.owner = tx.fromAddr) ∧
      evaluateRules env pl
        { action := .cancel, blockTimestamp := ts, sender := tx.fromAddr, amount := pl.amount }
          = .ok () ∧
      t.state.setPayLinkStatus p.payLinkID .cancelled = .ok s' := by
  simp [Leads, executeCancelPayLink, Snapshot.getPayLink, or_iff_not_imp_left]

theorem leads_failPayLink : Leads (executeFailPayLink env cp tx) t s' ↔
    tx.fromAddr = cp.adminAddress ∧ ∃ p pl, env.decode.failPayLink tx.payload = .ok p ∧
      t.state.paylinks[p.payLinkID]? = some pl ∧
      t.state.setPayLinkStatus p.payLinkID .failed = .ok s' := by
  simp [Leads, executeFailPayLink, Snapshot.getPayLink]

theorem leads_transferPayLink : Leads (executeTransferPayLink env tx ts) t s' ↔
    ∃ p pl, env.decode.transferPayLink tx.payload = .ok p ∧ p.toAddr ≠ 0 ∧
      t.state.paylinks[p.payLinkID]? = some pl ∧ pl.status = .created ∧ p.toAddr ≠ pl.owner ∧
      t.state.isApprovedOrOwner p.payLinkID tx.fromAddr = true ∧
      evaluateRules env pl
        { action := .transfer, blockTimestamp := ts, sender := tx.fromAddr, receiver := p.toAddr
          amount := pl.amount, transferCount := pl.transferCount } = .ok () ∧
      t.state.setPayLinkOwner p.payLinkID p.toAddr = .ok s' := by
  simp [Leads, executeTransferPayLink, Snapshot.getPayLink]

theorem leads_approvePayLink : Leads (executeApprovePayLink env tx) t s' ↔
    ∃ p pl, env.decode.approvePayLink tx.payload = .ok p ∧
      t.state.paylinks[p.payLinkID]? = some pl ∧ tx.fromAddr = pl.owner ∧ p.approved ≠ pl.owner ∧
      t.state.setPayLinkApproval p.payLinkID p.approved = .ok s' := by
  simp [Leads, executeApprovePayLink, Snapshot.getPayLink]

theorem leads_setApprovalForAll : Leads (executeSetApprovalForAll env tx) t s' ↔
    ∃ p, env.decode.setApprovalForAll tx.payload = .ok p ∧ p.operator ≠ tx.fromAddr ∧
      p.operator ≠ 0 ∧ t.state.setOperatorApproval tx.fromAddr p.operator p.approved = s' := by
  simp [Leads, executeSetApprovalForAll, and_assoc]

theorem leads_transfer : Leads (executeTransfer env tx) t s' ↔
    ∃ p, env.decode.transfer tx.payload = .ok p ∧ p.amount ≠ 0 ∧ p.toAddr ≠ 0 ∧
      t.state.transfer tx.fromAddr p.toAddr p.amount = .ok s' := by
  simp [Leads, executeTransfer]

theorem leads_stake : Leads (executeStake env cp tx ts) t s' ↔
    ∃ p s₁, env.decode.stake tx.payload = .ok p ∧ p.amount ≠ 0 ∧ t.state.subBalance tx.fromAddr p.amount = .ok s₁ ∧
      s₁.stake cp tx.fromAddr p.amount ts = .ok s' := by
  simp [Leads, executeStake]

theorem leads_initiateUnstake : Leads (executeInitiateUnstake env cp tx ts) t s' ↔
    ∃ p, env.decode.initiateUnstake tx.payload = .ok p ∧ p.amount ≠ 0 ∧
      t.state.initiateWithdrawal cp tx.fromAddr p.amount ts = .ok s' := by
  simp [Leads, executeInitiateUnstake]

theorem leads_completeUnstake : Leads (executeCompleteUnstake tx ts) t s' ↔
    ∃ amount s₁, t.state.completeWithdrawal tx.fromAddr ts = .ok (amount, s₁) ∧
      s₁.addBalance tx.fromAddr amount = s' := by
  simp [Leads, executeCompleteUnstake]

theorem leads_slash : Leads (executeSlash env cp tx) t s' ↔
    tx.fromAddr = cp.adminAddress ∧ ∃ p, env.decode.slash tx.payload = .ok p ∧
      t.state.slash cp p.validator p.amount = .ok s' := by
  simp [Leads, executeSlash, slashAndReport]

theorem leads_distributeReward : Leads (executeDistributeReward env cp tx) t s' ↔
    tx.fromAddr = cp.adminAddress ∧ ∃ p s₁, env.decode.distributeReward tx.payload = .ok p ∧
      t.state.subBalance tx.fromAddr p.amount = .ok s₁ ∧
      (s₁.addBalance p.validator p.amount).distributeReward p.validator p.amount = .ok s' := by
  simp [Leads, executeDistributeReward]

theorem leads_registerVRFKey : Leads (executeRegisterVRFKey env tx) t s' ↔
    ∃ p, env.decode.registerVRFKey tx.payload = .ok p ∧ p.vrfPublicKey.length = 32 ∧
      t.state.isActiveValidator tx.fromAddr = true ∧
      t.state.setVRFPublicKey tx.fromAddr p.vrfPublicKey = .ok s' := by
  simp [Leads, executeRegisterVRFKey]

theorem leads_submitEvidence : Leads (executeSubmitEvidence env cp tx) t s' ↔
    ∃ p action, env.decode.submitEvidence tx.payload = .ok p ∧
      processEvidence env t.state p.evidenceType p.validator p.data = .ok action ∧
      t.state.isEvidenceProcessed action.evidenceID = false ∧
      (t.state.markEvidenceProcessed action.evidenceID).slash cp action.validator action.amount
        = .ok s' := by
  simp [Leads, executeSubmitEvidence, slashAndReport]

/-! ### The vote -/

theorem yields_agreeOnProof {plId proofHash : Hash} {u : PUnit} {t' : TxState} :
    Yields (agreeOnProof plId proofHash) t u t' ↔ (∀ h, t.state.submittedProofs[plId]? = some h → h = proofHash) ∧
      t' = { t with state := t.state.setSubmittedProof plId proofHash } := by
  unfold agreeOnProof
  simp only [yields_bind, yields_readState]
  cases hs : t.state.submittedProofs[plId]? with
  | none => simp [hs]
  | some existing =>
    simp only [Option.some.injEq, forall_eq']
    constructor
    · rintro ⟨_, _, ⟨rfl, rfl⟩, h⟩
      rw [hs] at h
      obtain ⟨heq, rfl⟩ := yields_failIf.mp h
      rw [not_not] at heq
      subst heq
      -- the hash was there already: writing it again changes nothing
      exact ⟨rfl, by rw [Snapshot.setSubmittedProof, insert_getElem? hs]⟩
    · rintro ⟨rfl, rfl⟩
      refine ⟨_, _, ⟨rfl, rfl⟩, ?_⟩
      rw [hs]
      exact yields_failIf.mpr ⟨by simp, by rw [Snapshot.setSubmittedProof, insert_getElem? hs]⟩

theorem incrementVoteCount_counted (tx : Transaction) {s s₁ : Snapshot} {p : SubmitValidationPayload} {pl : PayLink}
    {count : UInt64} (found : s.paylinks[p.payLinkID]? = some pl) :
    ((s.setSubmittedProof p.payLinkID p.proofHash).recordVote p.payLinkID
        tx.fromAddr).incrementVoteCount p.payLinkID = .ok (count, s₁) ↔
      count = pl.voteCount + 1 ∧ s₁ = counted s tx p pl := by
  rw [Snapshot.incrementVoteCount_ok]
  constructor
  · rintro ⟨pl', hpl', rfl, rfl⟩
    have heq : pl' = pl := Option.some.inj (hpl'.symm.trans found)
    subst heq
    exact ⟨rfl, rfl⟩
  · rintro ⟨rfl, rfl⟩
    exact ⟨pl, found, rfl, rfl⟩

theorem leads_settle {p : SubmitValidationPayload} {pl : PayLink} {count : UInt64} :
    Leads (settle env cp tx ts p pl count) t s' ↔
      evaluateRules env pl (settleContext t.state tx ts p.payLinkID pl) = .ok () ∧
      ∃ s₁, t.state.setPayLinkStatus p.payLinkID .verified = .ok s₁ ∧
        feeState cp p.payLinkID pl.amount (s₁.markProofUsed p.proofHash) = s' := by
  simp [Leads, settle, settleContext, collect_state, and_assoc]

theorem leads_submitValidation : Leads (executeSubmitValidation env cp tx ts) t s' ↔
    ∃ p pl, Ballot env t.state tx ts p pl ∧ if cp.requiredValidations ≤ pl.voteCount + 1 then
        evaluateRules env pl (settleContext (counted t.state tx p pl) tx ts p.payLinkID pl) = .ok () ∧
        ∃ s₁, (counted t.state tx p pl).setPayLinkStatus p.payLinkID .verified = .ok s₁ ∧
          feeState cp p.payLinkID pl.amount (s₁.markProofUsed p.proofHash) = s'
      else counted t.state tx p pl = s' := by
  simp only [Leads, executeSubmitValidation, Snapshot.getPayLink, ne_eq, yields_bind,
    yields_orThrow, yields_readState, yields_failIf, Bool.not_eq_false, Bool.not_eq_true,
    yields_orFail, Decidable.not_not, gt_iff_lt, Int64.not_lt, yields_agreeOnProof, yields_write,
    yields_attemptGet, yields_emit, yields_ite, yields_pure, true_and, exists_eq_left, exists_const,
    ↓existsAndEq, and_true]
  constructor
  · rintro ⟨t', ⟨p, hp, ha, hu, pl, hpl, hc, he, hv, hag, count, s, hinc, hq⟩, rfl⟩
    obtain ⟨rfl, rfl⟩ := (incrementVoteCount_counted tx hpl).mp hinc
    refine ⟨p, pl, ⟨hp, ha, hu, hpl, hc, he, hv, hag⟩, ?_⟩
    split at hq
    · next hr =>
      have hsettle := leads_settle.mp ⟨t', hq, rfl⟩
      rw [if_pos hr]
      exact hsettle
    · next hr => rw [if_neg hr, hq]
  · rintro ⟨p, pl, b, hq⟩
    have hinc := (incrementVoteCount_counted tx b.found).mpr ⟨rfl, rfl⟩
    split at hq
    · next hr =>
      have hsettle : ∀ evts, Leads (settle env cp tx ts p pl (pl.voteCount + 1))
          { state := counted t.state tx p pl, pending := evts } s' := fun _ => leads_settle.mpr hq
      exact (hsettle _).elim fun t' ht' => ⟨t', ⟨p, b.payload, b.active, b.unused, pl, b.found,
        b.created, b.unexpired, b.first, b.agrees, _, _, hinc, (if_pos hr).mpr ht'.1⟩, ht'.2⟩
    · next hr =>
      exact ⟨_, ⟨p, b.payload, b.active, b.unused, pl, b.found, b.created, b.unexpired, b.first,
        b.agrees, _, _, hinc, (if_neg hr).mpr rfl⟩, hq⟩

/-! ## The dispatch, and a whole transaction -/

theorem effect_of_leads (h : Leads (dispatch env cp tx ts) t s') : Effect env cp t.state tx ts s' := by
  unfold dispatch at h
  split at h
  · next kind =>
    obtain ⟨p, hp, hr, ha, he, hrules, hdone⟩ := leads_createPayLink.mp h
    exact .createPayLink kind hp hr ha he hrules hdone
  · next kind =>
    obtain ⟨p, pl, b, hq⟩ := leads_submitValidation.mp h
    split at hq
    · next hr =>
      obtain ⟨hrules, s₁, hdone, rfl⟩ := hq
      exact .settle kind b hr hrules hdone
    · next hr =>
      subst hq
      exact .vote kind b hr
  · next kind =>
    obtain ⟨p, pl, hp, hpl, hc, ha, hrules, hdone⟩ := leads_cancelPayLink.mp h
    exact .cancelPayLink kind hp hpl hc ha hrules hdone
  · next kind =>
    obtain ⟨ha, p, pl, hp, hpl, hdone⟩ := leads_failPayLink.mp h
    exact .failPayLink kind ha hp hpl hdone
  · next kind =>
    obtain ⟨p, hp, ha, hr, hdone⟩ := leads_transfer.mp h
    exact .transfer kind hp ha hr hdone
  · next kind =>
    obtain ⟨p, s₁, hp, ha, hdebit, hdone⟩ := leads_stake.mp h
    exact .stake kind hp ha hdebit hdone
  · next kind =>
    obtain ⟨p, hp, ha, hdone⟩ := leads_initiateUnstake.mp h
    exact .initiateUnstake kind hp ha hdone
  · next kind =>
    obtain ⟨amount, s₁, hdone, rfl⟩ := leads_completeUnstake.mp h
    exact .completeUnstake kind hdone
  · next kind =>
    obtain ⟨ha, p, hp, hdone⟩ := leads_slash.mp h
    exact .slash kind ha hp hdone
  · next kind =>
    obtain ⟨ha, p, s₁, hp, hdebit, hdone⟩ := leads_distributeReward.mp h
    exact .distributeReward kind ha hp hdebit hdone
  · next kind =>
    obtain ⟨p, hp, hl, ha, hdone⟩ := leads_registerVRFKey.mp h
    exact .registerVRFKey kind hp hl ha hdone
  · next kind =>
    obtain ⟨p, action, hp, hev, hf, hdone⟩ := leads_submitEvidence.mp h
    exact .submitEvidence kind hp hev hf hdone
  · next kind =>
    obtain ⟨p, pl, hp, hz, hpl, hc, hm, ha, hrules, hdone⟩ := leads_transferPayLink.mp h
    exact .transferPayLink kind hp hz hpl hc hm ha hrules hdone
  · next kind =>
    obtain ⟨p, pl, hp, hpl, ho, ha, hdone⟩ := leads_approvePayLink.mp h
    exact .approvePayLink kind hp hpl ho ha hdone
  · next kind =>
    obtain ⟨p, hp, ho, hz, rfl⟩ := leads_setApprovalForAll.mp h
    exact .setApprovalForAll kind hp ho hz
  · next kind =>
    obtain ⟨t', ht', -⟩ := h
    exact absurd ht' yields_throw

theorem leads_of_effect (h : Effect env cp t.state tx ts s') : Leads (dispatch env cp tx ts) t s' := by
  unfold dispatch
  cases h with
  | createPayLink kind hp hr ha he hrules hdone =>
    rw [kind]; exact leads_createPayLink.mpr ⟨_, hp, hr, ha, he, hrules, hdone⟩
  | vote kind b hr =>
    rw [kind]; exact leads_submitValidation.mpr ⟨_, _, b, (if_neg hr).mpr rfl⟩
  | settle kind b hr hrules hdone =>
    rw [kind]
    exact leads_submitValidation.mpr ⟨_, _, b, (if_pos hr).mpr ⟨hrules, _, hdone, rfl⟩⟩
  | cancelPayLink kind hp hpl hc ha hrules hdone =>
    rw [kind]; exact leads_cancelPayLink.mpr ⟨_, _, hp, hpl, hc, ha, hrules, hdone⟩
  | failPayLink kind ha hp hpl hdone =>
    rw [kind]; exact leads_failPayLink.mpr ⟨ha, _, _, hp, hpl, hdone⟩
  | transfer kind hp ha hr hdone =>
    rw [kind]; exact leads_transfer.mpr ⟨_, hp, ha, hr, hdone⟩
  | stake kind hp ha hdebit hdone =>
    rw [kind]; exact leads_stake.mpr ⟨_, _, hp, ha, hdebit, hdone⟩
  | initiateUnstake kind hp ha hdone =>
    rw [kind]; exact leads_initiateUnstake.mpr ⟨_, hp, ha, hdone⟩
  | completeUnstake kind hdone =>
    rw [kind]; exact leads_completeUnstake.mpr ⟨_, _, hdone, rfl⟩
  | slash kind ha hp hdone =>
    rw [kind]; exact leads_slash.mpr ⟨ha, _, hp, hdone⟩
  | distributeReward kind ha hp hdebit hdone =>
    rw [kind]; exact leads_distributeReward.mpr ⟨ha, _, _, hp, hdebit, hdone⟩
  | registerVRFKey kind hp hl ha hdone =>
    rw [kind]; exact leads_registerVRFKey.mpr ⟨_, hp, hl, ha, hdone⟩
  | submitEvidence kind hp hev hf hdone =>
    rw [kind]; exact leads_submitEvidence.mpr ⟨_, _, hp, hev, hf, hdone⟩
  | transferPayLink kind hp hz hpl hc hm ha hrules hdone =>
    rw [kind]; exact leads_transferPayLink.mpr ⟨_, _, hp, hz, hpl, hc, hm, ha, hrules, hdone⟩
  | approvePayLink kind hp hpl ho ha hdone =>
    rw [kind]; exact leads_approvePayLink.mpr ⟨_, _, hp, hpl, ho, ha, hdone⟩
  | setApprovalForAll kind hp ho hz =>
    rw [kind]; exact leads_setApprovalForAll.mpr ⟨_, hp, ho, hz, rfl⟩

theorem leads_dispatch : Leads (dispatch env cp tx ts) t s' ↔ Effect env cp t.state tx ts s' :=
  ⟨effect_of_leads, leads_of_effect⟩

/-- A transaction that takes effect: it authenticates, carries the sender's nonce, and its handler succeeds. -/
structure Step (env : Env) (cp : ChainParams) (s : Snapshot) (tx : Transaction) (ts : Int64)
    (s₁ : Snapshot) : Prop where
  signed : verifyTx env tx = .ok ()
  nonce : tx.nonce = s.getNonce tx.fromAddr
  effect : Effect env cp s tx ts s₁

theorem leads_executeTx : Leads (executeTx env cp tx ts) t s' ↔ tx.nonce = t.state.getNonce tx.fromAddr ∧
      ∃ s₁, Effect env cp t.state tx ts s₁ ∧ s₁.incrementNonce tx.fromAddr = s' := by
  simp only [Leads, executeTx, yields_bind, yields_readState, yields_failIf, yields_write, ne_eq, not_not]
  constructor
  · rintro ⟨_, ⟨_, _, ⟨rfl, rfl⟩, _, _, ⟨hn, rfl⟩, _, t₁, hd, rfl⟩, rfl⟩
    exact ⟨hn, t₁.state, effect_of_leads ⟨t₁, hd, rfl⟩, rfl⟩
  · rintro ⟨hn, s₁, he, rfl⟩
    obtain ⟨t₁, hd, rfl⟩ := leads_of_effect he
    exact ⟨_, ⟨_, _, ⟨rfl, rfl⟩, ⟨⟩, _, ⟨hn, rfl⟩, ⟨⟩, t₁, hd, rfl⟩, rfl⟩

theorem outcome_ok_iff {s : Snapshot} : (∃ t', outcome env cp s tx ts = .ok t' ∧ t'.state = s') ↔
      ∃ s₁, Step env cp s tx ts s₁ ∧ s₁.incrementNonce tx.fromAddr = s' := by
  have run : (∃ t', outcome env cp s tx ts = .ok t' ∧ t'.state = s') ↔
      verifyTx env tx = .ok () ∧ Leads (executeTx env cp tx ts) { state := s } s' := by
    unfold outcome Leads Yields
    cases hv : verifyTx env tx with
    | error e => simp
    | ok u =>
      cases hr : (executeTx env cp tx ts).run { state := s } with
      | ok a t' => simp
      | error e t' => simp
  rw [run, leads_executeTx]
  constructor
  · rintro ⟨hv, hn, s₁, he, rfl⟩
    exact ⟨s₁, ⟨hv, hn, he⟩, rfl⟩
  · rintro ⟨s₁, ⟨hv, hn, he⟩, rfl⟩
    exact ⟨hv, hn, s₁, he, rfl⟩

theorem applyTx_of_step {s s₁ : Snapshot} (h : Step env cp s tx ts s₁) :
    applyTx env cp s tx ts = s₁.incrementNonce tx.fromAddr := by
  obtain ⟨t', hok, hstate⟩ := outcome_ok_iff.mpr ⟨s₁, h, rfl⟩
  unfold applyTx
  rw [hok]
  exact hstate

/-- **What one transaction can do to the live state**: take effect and move the sender's nonce, or
    nothing at all. -/
theorem applyTx_cases (env : Env) (cp : ChainParams) (s : Snapshot) (tx : Transaction) (ts : Int64) :
    (∃ s₁, Step env cp s tx ts s₁ ∧ applyTx env cp s tx ts = s₁.incrementNonce tx.fromAddr) ∨
      ((∃ e, outcome env cp s tx ts = .error e) ∧ applyTx env cp s tx ts = s) := by
  unfold applyTx
  cases ho : outcome env cp s tx ts with
  | error e => exact .inr ⟨⟨e, rfl⟩, rfl⟩
  | ok t' =>
    obtain ⟨s₁, hs, heq⟩ := outcome_ok_iff.mp ⟨t', ho, rfl⟩
    exact .inl ⟨s₁, hs, heq.symm⟩

end LinkMint.Chain

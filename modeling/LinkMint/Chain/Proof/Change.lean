import LinkMint.Chain.Proof.Frame

/-!
# What a transaction changes, map by map

An invariant is usually about one map of the state, and most of the sixteen effects leave that
map alone.
-/

namespace LinkMint.Chain

open LinkMint.Lib Std

def KeepsNonces (s s' : Snapshot) : Prop := ∀ addr, s'.getNonce addr = s.getNonce addr

namespace KeepsNonces
variable {cp : ChainParams} {s s' s'' : Snapshot}

theorem refl (s : Snapshot) : KeepsNonces s s := fun _ => rfl

theorem trans (h : KeepsNonces s s') (h' : KeepsNonces s' s'') : KeepsNonces s s'' := by
  intro addr
  rw [h' addr, h addr]

theorem of_accounts (h : s'.accounts = s.accounts) : KeepsNonces s s' := by
  intro addr
  unfold Snapshot.getNonce
  rw [h]

theorem updateAccount (s : Snapshot) (addr : Address) {f : Account → Account}
    (hf : ∀ acc, (f acc).nonce = acc.nonce) : KeepsNonces s (s.updateAccount addr f) := by
  intro addr'
  unfold Snapshot.getNonce Snapshot.updateAccount
  rw [getElem?_insert_eq]
  split
  · next heq =>
    subst heq
    cases s.accounts[addr]? with
    | none => exact hf {}
    | some acc => exact hf acc
  · rfl

theorem addBalance (s : Snapshot) (addr : Address) (amount : UInt64) : KeepsNonces s (s.addBalance addr amount) :=
  updateAccount s addr fun _ => rfl

theorem subBalance {addr : Address} {amount : UInt64} (h : s.subBalance addr amount = .ok s') : KeepsNonces s s' := by
  obtain ⟨_, -, -, rfl⟩ := Snapshot.subBalance_ok.mp h
  exact updateAccount s addr fun _ => rfl

theorem mint {addr : Address} {amount : UInt64} (h : s.mintTokens cp addr amount = .ok s') : KeepsNonces s s' := by
  obtain ⟨-, rfl⟩ := Snapshot.mintTokens_ok.mp h
  exact (addBalance s addr amount).trans (of_accounts rfl)

theorem movesTokens (cp : ChainParams) : MovesTokens cp KeepsNonces where
  refl := refl
  trans := trans
  mint := mint
  burn _ _ := of_accounts rfl
end KeepsNonces

theorem getNonce_incrementNonce (s : Snapshot) (addr addr' : Address) : (s.incrementNonce addr).getNonce addr' =
      if addr = addr' then s.getNonce addr' + 1 else s.getNonce addr' := by
  unfold Snapshot.getNonce Snapshot.incrementNonce Snapshot.updateAccount
  rw [getElem?_insert_eq]
  split
  · next heq =>
    subst heq
    cases s.accounts[addr]? with
    | none => rfl
    | some acc => rfl
  · rfl

def slashOf (env : Env) (cp : ChainParams) (s : Snapshot) (tx : Transaction) : Option (Address × UInt64) :=
  match TxKind.ofCode tx.type with
  | some .slash =>
    if tx.fromAddr = cp.adminAddress then
      (env.decode.slash tx.payload).toOption.map fun p => (p.validator, p.amount)
    else none
  | some .submitEvidence =>
    match env.decode.submitEvidence tx.payload with
    | .error _ => none
    | .ok p => match processEvidence env s p.evidenceType p.validator p.data with
      | .error _ => none
      | .ok action =>
        if s.isEvidenceProcessed action.evidenceID then none
        else some (action.validator, action.amount)
  | _ => none

section
variable (env : Env) (cp : ChainParams) (s : Snapshot) (tx : Transaction) (ts : Int64)

inductive ValidatorChange : ExtTreeMap Address ValidatorInfo → ExtTreeMap Address Bytes → Prop
  | same : ValidatorChange s.validators s.vrfKeys
  | stake {p : StakePayload} (kind : TxKind.ofCode tx.type = some .stake)
      (payload : env.decode.stake tx.payload = .ok p)
      (covered : p.amount ≤ s.getBalance tx.fromAddr) :
      ValidatorChange
        (s.validators.insert tx.fromAddr
          (Snapshot.staked cp (s.stakeTarget tx.fromAddr ts) p.amount)) s.vrfKeys
  | initiate {p : InitiateUnstakePayload} {v : ValidatorInfo}
      (kind : TxKind.ofCode tx.type = some .initiateUnstake)
      (found : s.validators[tx.fromAddr]? = some v) (free : v.pendingWithdrawal = 0)
      (enough : p.amount ≤ v.stakedAmount) :
      ValidatorChange
        (s.validators.insert tx.fromAddr (Snapshot.withdrawing cp v p.amount ts)) s.vrfKeys
  | complete {v : ValidatorInfo} (kind : TxKind.ofCode tx.type = some .completeUnstake)
      (found : s.validators[tx.fromAddr]? = some v) (pending : v.pendingWithdrawal ≠ 0)
      (elapsed : v.withdrawableAt ≤ ts) :
      ValidatorChange (s.validators.insert tx.fromAddr (Snapshot.withdrawn v)) s.vrfKeys
  | slash {who : Address} {v : ValidatorInfo} {amount : UInt64}
      (kind : TxKind.ofCode tx.type = some .slash ∨ TxKind.ofCode tx.type = some .submitEvidence)
      (source : slashOf env cp s tx = some (who, amount))
      (found : s.validators[who]? = some v) (enough : amount ≤ v.stakedAmount) :
      ValidatorChange (s.validators.insert who (Snapshot.slashed cp v amount)) s.vrfKeys
  | reward {who : Address} {v : ValidatorInfo} {amount : UInt64}
      (kind : TxKind.ofCode tx.type = some .distributeReward)
      (found : s.validators[who]? = some v) :
      ValidatorChange
        (s.validators.insert who { v with totalRewards := v.totalRewards + amount }) s.vrfKeys
  | key {v : ValidatorInfo} {vrfKey : Bytes}
      (kind : TxKind.ofCode tx.type = some .registerVRFKey)
      (found : s.validators[tx.fromAddr]? = some v) (size : vrfKey.length = 32) :
      ValidatorChange (s.validators.insert tx.fromAddr { v with vrfPublicKey := vrfKey })
        (s.vrfKeys.insert tx.fromAddr vrfKey)

inductive PayLinkChange : ExtTreeMap Hash PayLink → Prop
  | same : PayLinkChange s.paylinks
  | opened {p : CreatePayLinkPayload} (kind : TxKind.ofCode tx.type = some .createPayLink)
      (payload : env.decode.createPayLink tx.payload = .ok p)
      (fresh : s.paylinks[p.payLinkID]? = none) :
      PayLinkChange (s.paylinks.insert p.payLinkID (newPayLink tx ts p))
  | voted {p : SubmitValidationPayload} {pl : PayLink}
      (kind : TxKind.ofCode tx.type = some .submitValidation) (ballot : Ballot env s tx ts p pl) :
      PayLinkChange
        (s.paylinks.insert p.payLinkID { pl with voteCount := pl.voteCount + 1 })
  | settled {p : SubmitValidationPayload} {pl : PayLink}
      (kind : TxKind.ofCode tx.type = some .submitValidation) (ballot : Ballot env s tx ts p pl) :
      PayLinkChange (s.paylinks.insert p.payLinkID
        { pl with voteCount := pl.voteCount + 1, status := .verified })
  | cancelled {p : CancelPayLinkPayload} {pl : PayLink}
      (kind : TxKind.ofCode tx.type = some .cancelPayLink)
      (found : s.paylinks[p.payLinkID]? = some pl) (created : pl.status = .created) :
      PayLinkChange (s.paylinks.insert p.payLinkID { pl with status := .cancelled })
  | failed {p : FailPayLinkPayload} {pl : PayLink}
      (kind : TxKind.ofCode tx.type = some .failPayLink) (admin : tx.fromAddr = cp.adminAddress)
      (payload : env.decode.failPayLink tx.payload = .ok p)
      (found : s.paylinks[p.payLinkID]? = some pl) :
      PayLinkChange (s.paylinks.insert p.payLinkID { pl with status := .failed })
  | transferred {p : TransferPayLinkPayload} {pl : PayLink}
      (kind : TxKind.ofCode tx.type = some .transferPayLink)
      (found : s.paylinks[p.payLinkID]? = some pl) :
      PayLinkChange (s.paylinks.insert p.payLinkID
        { pl with owner := p.toAddr, approved := 0, transferCount := pl.transferCount + 1 })
  | approved {p : ApprovePayLinkPayload} {pl : PayLink}
      (kind : TxKind.ofCode tx.type = some .approvePayLink)
      (found : s.paylinks[p.payLinkID]? = some pl) :
      PayLinkChange (s.paylinks.insert p.payLinkID { pl with approved := p.approved })

inductive EvidenceChange : ExtTreeSet Hash → Prop
  | same (kind : TxKind.ofCode tx.type ≠ some .submitEvidence) : EvidenceChange s.processedEvidence
  | used {p : SubmitEvidencePayload} {action : SlashAction}
      (kind : TxKind.ofCode tx.type = some .submitEvidence)
      (payload : env.decode.submitEvidence tx.payload = .ok p)
      (evidence : processEvidence env s p.evidenceType p.validator p.data = .ok action)
      (fresh : s.isEvidenceProcessed action.evidenceID = false) :
      EvidenceChange (s.processedEvidence.insert action.evidenceID)

structure Changes (s' : Snapshot) : Prop where
  nonces : KeepsNonces s s'
  validators : ValidatorChange env cp s tx ts s'.validators s'.vrfKeys
  paylinks : PayLinkChange env cp s tx ts s'.paylinks
  evidence : EvidenceChange env s tx s'.processedEvidence
end

variable {env : Env} {cp : ChainParams} {s s' : Snapshot} {tx : Transaction} {ts : Int64}

theorem getBalance_of_subBalance {addr : Address} {amount : UInt64}
    (h : s.subBalance addr amount = .ok s') : amount ≤ s.getBalance addr := by
  obtain ⟨acc, found, enough, -⟩ := Snapshot.subBalance_ok.mp h
  unfold Snapshot.getBalance
  rw [found]
  exact enough

theorem Effect.changes (he : Effect env cp s tx ts s') : Changes env cp s tx ts s' := by
  cases he with
  | createPayLink kind payload _ _ _ _ done =>
    obtain ⟨fresh, rfl⟩ := Snapshot.createPayLink_ok.mp done
    exact ⟨.of_accounts rfl, .same, .opened kind payload fresh, .same (by simp [kind])⟩
  | vote kind ballot _ =>
    exact ⟨.of_accounts rfl, .same, .voted kind ballot, .same (by simp [kind])⟩
  | @settle p pl _ kind ballot _ _ done =>
    obtain ⟨pl', found, rfl⟩ := Snapshot.setPayLinkStatus_ok.mp done
    -- the record the status is written to is the one the vote was just counted in
    have hpl : pl' = { pl with voteCount := pl.voteCount + 1 } := by
      have hget : (counted s tx p pl).paylinks[p.payLinkID]? =
          some { pl with voteCount := pl.voteCount + 1 } := ExtTreeMap.getElem?_insert_self
      rw [found] at hget
      exact Option.some.inj hget
    subst hpl
    have hfee := TokensOnly.feeState cp p.payLinkID pl.amount
    have hnonces := (KeepsNonces.movesTokens cp).feeState p.payLinkID pl.amount
    refine ⟨?_, ?_, ?_, ?_⟩
    · exact (KeepsNonces.of_accounts rfl).trans (hnonces _)
    · rw [(hfee _).validators, (hfee _).vrfKeys]
      exact .same
    · rw [(hfee _).paylinks]
      have hput : ((counted s tx p pl).paylinks.insert p.payLinkID
          { pl with voteCount := pl.voteCount + 1, status := .verified }) =
          s.paylinks.insert p.payLinkID
            { pl with voteCount := pl.voteCount + 1, status := .verified } :=
        insert_insert_self _ _ _ _
      show PayLinkChange env cp s tx ts ((counted s tx p pl).paylinks.insert p.payLinkID _)
      rw [hput]
      exact .settled kind ballot
    · rw [(hfee _).processedEvidence]
      exact .same (by simp [kind])
  | cancelPayLink kind _ found created _ _ done =>
    obtain ⟨pl, found', rfl⟩ := Snapshot.setPayLinkStatus_ok.mp done
    obtain rfl := Option.some.inj (found.symm.trans found')
    exact ⟨.of_accounts rfl, .same, .cancelled kind found created, .same (by simp [kind])⟩
  | failPayLink kind admin payload _ done =>
    obtain ⟨pl, found, rfl⟩ := Snapshot.setPayLinkStatus_ok.mp done
    exact ⟨.of_accounts rfl, .same, .failed kind admin payload found, .same (by simp [kind])⟩
  | transferPayLink kind _ _ _ _ _ _ _ done =>
    obtain ⟨pl, found, rfl⟩ := Snapshot.setPayLinkOwner_ok.mp done
    exact ⟨.of_accounts rfl, .same, .transferred kind found, .same (by simp [kind])⟩
  | approvePayLink kind _ _ _ _ done =>
    obtain ⟨pl, found, rfl⟩ := Snapshot.setPayLinkApproval_ok.mp done
    exact ⟨.of_accounts rfl, .same, .approved kind found, .same (by simp [kind])⟩
  | setApprovalForAll kind _ _ _ => exact ⟨.of_accounts rfl, .same, .same, .same (by simp [kind])⟩
  | @transfer p _ kind _ _ _ done =>
    obtain ⟨s₁, debit, rfl⟩ := Snapshot.transfer_ok.mp done
    have hnonces := (KeepsNonces.subBalance debit).trans (.addBalance s₁ p.toAddr p.amount)
    obtain ⟨_, -, -, rfl⟩ := Snapshot.subBalance_ok.mp debit
    exact ⟨hnonces, .same, .same, .same (by simp [kind])⟩
  | stake kind payload _ debit done =>
    have hnonces := KeepsNonces.subBalance debit
    have covered := getBalance_of_subBalance debit
    obtain ⟨_, -, -, rfl⟩ := Snapshot.subBalance_ok.mp debit
    obtain ⟨-, rfl⟩ := Snapshot.stake_ok.mp done
    exact ⟨hnonces.trans (.of_accounts rfl), .stake kind payload covered, .same, .same (by simp [kind])⟩
  | initiateUnstake kind _ _ done =>
    obtain ⟨v, found, free, enough, -, rfl⟩ := Snapshot.initiateWithdrawal_ok.mp done
    exact ⟨.of_accounts rfl, .initiate kind found free enough, .same, .same (by simp [kind])⟩
  | completeUnstake kind done =>
    obtain ⟨v, found, pending, elapsed, rfl, rfl⟩ := Snapshot.completeWithdrawal_ok.mp done
    exact ⟨(KeepsNonces.of_accounts rfl).trans (.addBalance _ _ _),
      .complete kind found pending elapsed, .same, .same (by simp [kind])⟩
  | @slash p _ kind admin payload done =>
    obtain ⟨v, found, enough, rfl⟩ := Snapshot.slash_ok.mp done
    have source : slashOf env cp s tx = some (p.validator, p.amount) := by
      simp [slashOf, kind, admin, payload, Except.toOption]
    exact ⟨.of_accounts rfl, .slash (.inl kind) source found enough, .same, .same (by simp [kind])⟩
  | @distributeReward p s₁ _ kind _ _ debit done =>
    have hnonces := (KeepsNonces.subBalance debit).trans (.addBalance s₁ p.validator p.amount)
    obtain ⟨_, -, -, rfl⟩ := Snapshot.subBalance_ok.mp debit
    obtain ⟨v, found, -, rfl⟩ := Snapshot.distributeReward_ok.mp done
    exact ⟨hnonces.trans (.of_accounts rfl), .reward kind found, .same, .same (by simp [kind])⟩
  | registerVRFKey kind _ size _ done =>
    obtain ⟨v, found, -, rfl⟩ := Snapshot.setVRFPublicKey_ok.mp done
    exact ⟨.of_accounts rfl, .key kind found size, .same, .same (by simp [kind])⟩
  | @submitEvidence p action _ kind payload evidence fresh done =>
    obtain ⟨v, found, enough, rfl⟩ := Snapshot.slash_ok.mp done
    have source : slashOf env cp s tx = some (action.validator, action.amount) := by
      simp [slashOf, kind, payload, evidence, fresh]
    exact ⟨.of_accounts rfl, .slash (.inr kind) source found enough, .same, .used kind payload evidence fresh⟩

end LinkMint.Chain

import LinkMint.Chain.Proof.Change

/-!
# What a transaction does to one PayLink

A transaction that succeeded did nothing to the record of a given id, or one of six things, each
with the checks its handler made (`Touch`).
-/

namespace LinkMint.Chain

open LinkMint.Lib Std

inductive Act where
  | transfer (id : Hash) (toAddr : Address)
  | approve (id : Hash) (approved : Address)
  | operator (operator : Address) (granted : Bool)
deriving DecidableEq, Repr

def Act.Concerns (id : Hash) : Act → Prop
  | .transfer id' _ => id' = id
  | .approve id' _ => id' = id
  | .operator _ _ => False

def actOf (env : Env) (tx : Transaction) : Option Act :=
  match TxKind.ofCode tx.type with
  | some .transferPayLink =>
    (env.decode.transferPayLink tx.payload).toOption.map fun p => .transfer p.payLinkID p.toAddr
  | some .approvePayLink =>
    (env.decode.approvePayLink tx.payload).toOption.map fun p => .approve p.payLinkID p.approved
  | some .setApprovalForAll =>
    (env.decode.setApprovalForAll tx.payload).toOption.map fun p => .operator p.operator p.approved
  | _ => none

def voteOf (env : Env) (tx : Transaction) : Option VoteKey :=
  match TxKind.ofCode tx.type with
  | some .submitValidation => (env.decode.submitValidation tx.payload).toOption.map fun p =>
    { payLinkID := p.payLinkID, validator := tx.fromAddr }
  | _ => none

section
variable (env : Env) (cp : ChainParams) (s : Snapshot) (tx : Transaction) (ts : Int64)

inductive Touch (id : Hash) (pl : PayLink) : PayLink → Prop
  | untouched (apart : ∀ act, actOf env tx = some act → ¬ act.Concerns id) : Touch id pl pl
  | voted {p : SubmitValidationPayload} (act : actOf env tx = none) (target : p.payLinkID = id)
      (ballot : Ballot env s tx ts p pl) : Touch id pl { pl with voteCount := pl.voteCount + 1 }
  | settled {p : SubmitValidationPayload} (act : actOf env tx = none) (target : p.payLinkID = id)
      (vote : voteOf env tx = some { payLinkID := p.payLinkID, validator := tx.fromAddr })
      (ballot : Ballot env s tx ts p pl)
      (rules : evaluateRules env pl (settleContext (counted s tx p pl) tx ts p.payLinkID pl)
        = .ok ()) :
      Touch id pl { pl with voteCount := pl.voteCount + 1, status := .verified }
  | cancelled (act : actOf env tx = none) (created : pl.status = .created) :
      Touch id pl { pl with status := .cancelled }
  | failed (act : actOf env tx = none) : Touch id pl { pl with status := .failed }
  | transferred {toAddr : Address} (act : actOf env tx = some (.transfer id toAddr))
      (created : pl.status = .created) (moves : toAddr ≠ pl.owner)
      (allowed : s.isApprovedOrOwner id tx.fromAddr = true)
      (rules : evaluateRules env pl
        { action := .transfer, blockTimestamp := ts, sender := tx.fromAddr, receiver := toAddr
          amount := pl.amount, transferCount := pl.transferCount } = .ok ()) :
      Touch id pl
        { pl with owner := toAddr, approved := 0, transferCount := pl.transferCount + 1 }
  | approved {who : Address} (act : actOf env tx = some (.approve id who))
      (owner : tx.fromAddr = pl.owner) : Touch id pl { pl with approved := who }

structure Born (id : Hash) (pl : PayLink) : Prop where
  kind : TxKind.ofCode tx.type = some .createPayLink
  created : ∃ p, env.decode.createPayLink tx.payload = .ok p ∧ p.payLinkID = id ∧
    checkNewRules env p.rules = .ok () ∧ pl = newPayLink tx ts p

structure Touches (s' : Snapshot) : Prop where
  old : ∀ (id : Hash) (pl : PayLink), s.paylinks[id]? = some pl →
    ∃ pl', s'.paylinks[id]? = some pl' ∧ Touch env s tx ts id pl pl'
  born : ∀ (id : Hash) (pl : PayLink), s.paylinks[id]? = none → s'.paylinks[id]? = some pl → Born env tx ts id pl
  operators : s'.operatorApprovals = match actOf env tx with
    | some (.operator who granted) =>
      (s.setOperatorApproval tx.fromAddr who granted).operatorApprovals
    | _ => s.operatorApprovals
  votes : s'.votes = (voteOf env tx).elim s.votes s.votes.insert
end

variable {env : Env} {cp : ChainParams} {s s' : Snapshot} {tx : Transaction} {ts : Int64}

theorem Touches.of_paylinks (act : actOf env tx = none) (vote : voteOf env tx = none)
    (hpaylinks : s'.paylinks = s.paylinks) (hoperators : s'.operatorApprovals = s.operatorApprovals)
    (hvotes : s'.votes = s.votes) : Touches env s tx ts s' := by
  refine ⟨fun id pl found => ⟨pl, ?_, .untouched ?_⟩, fun id pl hnone hsome => ?_, ?_, ?_⟩
  · rw [hpaylinks]
    exact found
  · rw [act]
    rintro _ ⟨⟩
  · rw [hpaylinks, hnone] at hsome
    cases hsome
  · rw [act]
    exact hoperators
  · rw [vote]
    exact hvotes

theorem Touches.of_insert {id : Hash} {pl pl' : PayLink} (found : s.paylinks[id]? = some pl)
    (touch : Touch env s tx ts id pl pl') (apart : ∀ id', id' ≠ id → ∀ act, actOf env tx = some act →
      ¬ act.Concerns id') (hpaylinks : s'.paylinks = s.paylinks.insert id pl')
    (notOperator : ∀ who granted, actOf env tx ≠ some (.operator who granted))
    (hoperators : s'.operatorApprovals = s.operatorApprovals)
    (hvotes : s'.votes = (voteOf env tx).elim s.votes s.votes.insert) : Touches env s tx ts s' := by
  refine ⟨fun id' pl₁ found' => ?_, fun id' pl₁ hnone hsome => ?_, ?_, hvotes⟩
  · rw [hpaylinks, getElem?_insert_eq]
    split
    · next heq =>
      subst heq
      cases found.symm.trans found'
      exact ⟨pl', rfl, touch⟩
    · next hne => exact ⟨pl₁, found', .untouched (apart id' (Ne.symm hne))⟩
  · rw [hpaylinks, getElem?_insert_eq] at hsome
    split at hsome
    · next heq =>
      subst heq
      rw [found] at hnone
      cases hnone
    · rw [hnone] at hsome
      cases hsome
  · split
    · next who granted hact => exact absurd hact (notOperator who granted)
    · exact hoperators

theorem actOf_of_kind {kind : TxKind} (h : TxKind.ofCode tx.type = some kind)
    (hne : kind ≠ .transferPayLink ∧ kind ≠ .approvePayLink ∧ kind ≠ .setApprovalForAll) : actOf env tx = none := by
  unfold actOf
  rw [h]
  cases kind <;> simp_all

theorem voteOf_of_kind {kind : TxKind} (h : TxKind.ofCode tx.type = some kind)
    (hne : kind ≠ .submitValidation) : voteOf env tx = none := by
  unfold voteOf
  rw [h]
  cases kind <;> simp_all

theorem Ballot.vote {p : SubmitValidationPayload} {pl : PayLink}
    (kind : TxKind.ofCode tx.type = some .submitValidation) (ballot : Ballot env s tx ts p pl) :
    voteOf env tx = some { payLinkID := p.payLinkID, validator := tx.fromAddr } := by
  simp [voteOf, kind, ballot.payload, Except.toOption]

theorem Effect.touches (he : Effect env cp s tx ts s') : Touches env s tx ts s' := by
  cases he with
  | @createPayLink p _ kind payload _ _ _ rules done =>
    obtain ⟨fresh, rfl⟩ := Snapshot.createPayLink_ok.mp done
    have act : actOf env tx = none := actOf_of_kind kind (by decide)
    refine ⟨fun id pl found => ⟨pl, ?_, .untouched ?_⟩, fun id pl hnone hsome => ⟨kind, p, payload, ?_⟩, ?_, ?_⟩
    · -- the new id was free, so a record that was there has another
      have hne : p.payLinkID ≠ id := by
        rintro rfl
        exact absurd (found.symm.trans fresh) (by simp)
      exact ((getElem?_insert_eq _ _ _ _).trans (if_neg hne)).trans found
    · rw [act]
      rintro _ ⟨⟩
    · have hsome : (s.paylinks.insert p.payLinkID (newPayLink tx ts p))[id]? = some pl := hsome
      rw [getElem?_insert_eq] at hsome
      split at hsome
      · next heq => exact ⟨heq, rules, (Option.some.inj hsome).symm⟩
      · rw [hnone] at hsome
        cases hsome
    · rw [act]
      rfl
    · rw [voteOf_of_kind kind (by decide)]
      rfl
  | vote kind ballot _ =>
    have act : actOf env tx = none := actOf_of_kind kind (by decide)
    refine .of_insert ballot.found (.voted act rfl ballot) (by simp [act]) rfl (by simp [act]) rfl ?_
    rw [ballot.vote kind]
    rfl
  | @settle p pl _ kind ballot _ rules done =>
    have act : actOf env tx = none := actOf_of_kind kind (by decide)
    obtain ⟨pl', found, rfl⟩ := Snapshot.setPayLinkStatus_ok.mp done
    have hpl : pl' = { pl with voteCount := pl.voteCount + 1 } :=
      Option.some.inj (found.symm.trans ExtTreeMap.getElem?_insert_self)
    subst hpl
    have hfee := TokensOnly.feeState cp p.payLinkID pl.amount
    refine .of_insert ballot.found (.settled act rfl (ballot.vote kind) ballot rules)
      (by simp [act]) ?_ (by simp [act]) ?_ ?_
    · rw [(hfee _).paylinks]
      exact insert_insert_self _ _ _ _
    · rw [(hfee _).same]
      rfl
    · rw [(hfee _).same, ballot.vote kind]
      rfl
  | cancelPayLink kind _ found created _ _ done =>
    have act : actOf env tx = none := actOf_of_kind kind (by decide)
    obtain ⟨pl, found', rfl⟩ := Snapshot.setPayLinkStatus_ok.mp done
    obtain rfl := Option.some.inj (found.symm.trans found')
    exact .of_insert found (.cancelled act created) (by simp [act]) rfl (by simp [act]) rfl
      (by rw [voteOf_of_kind kind (by decide)]; rfl)
  | failPayLink kind _ _ found done =>
    have act : actOf env tx = none := actOf_of_kind kind (by decide)
    obtain ⟨pl, found', rfl⟩ := Snapshot.setPayLinkStatus_ok.mp done
    exact .of_insert found' (.failed act) (by simp [act]) rfl (by simp [act]) rfl
      (by rw [voteOf_of_kind kind (by decide)]; rfl)
  | @transferPayLink p _ _ kind payload _ found created moves allowed rules done =>
    have act : actOf env tx = some (.transfer p.payLinkID p.toAddr) := by
      simp [actOf, kind, payload, Except.toOption]
    obtain ⟨pl, found', rfl⟩ := Snapshot.setPayLinkOwner_ok.mp done
    obtain rfl := Option.some.inj (found.symm.trans found')
    refine .of_insert found (.transferred act created moves allowed rules) ?_ rfl (by simp [act]) rfl
      (by rw [voteOf_of_kind kind (by decide)]; rfl)
    rintro id' hne _ hact
    cases act.symm.trans hact
    exact Ne.symm hne
  | @approvePayLink p _ _ kind payload found owner _ done =>
    have act : actOf env tx = some (.approve p.payLinkID p.approved) := by
      simp [actOf, kind, payload, Except.toOption]
    obtain ⟨pl, found', rfl⟩ := Snapshot.setPayLinkApproval_ok.mp done
    obtain rfl := Option.some.inj (found.symm.trans found')
    refine .of_insert found (.approved act owner) ?_ rfl (by simp [act]) rfl
      (by rw [voteOf_of_kind kind (by decide)]; rfl)
    rintro id' hne _ hact
    cases act.symm.trans hact
    exact Ne.symm hne
  | @setApprovalForAll p kind payload _ _ =>
    have act : actOf env tx = some (.operator p.operator p.approved) := by
      simp [actOf, kind, payload, Except.toOption]
    refine ⟨fun id pl found => ⟨pl, found, .untouched ?_⟩, fun id pl hnone hsome => ?_, ?_, ?_⟩
    · rintro _ hact
      cases act.symm.trans hact
      exact not_false
    · exact absurd (hsome.symm.trans hnone) (by simp)
    · rw [act]
    · rw [voteOf_of_kind kind (by decide)]
      rfl
  | @transfer p _ kind _ _ _ done =>
    obtain ⟨s₁, debit, rfl⟩ := Snapshot.transfer_ok.mp done
    obtain ⟨_, -, -, rfl⟩ := Snapshot.subBalance_ok.mp debit
    exact .of_paylinks (actOf_of_kind kind (by decide)) (voteOf_of_kind kind (by decide)) rfl rfl rfl
  | stake kind _ _ debit done =>
    obtain ⟨_, -, -, rfl⟩ := Snapshot.subBalance_ok.mp debit
    obtain ⟨-, rfl⟩ := Snapshot.stake_ok.mp done
    exact .of_paylinks (actOf_of_kind kind (by decide)) (voteOf_of_kind kind (by decide)) rfl rfl rfl
  | initiateUnstake kind _ _ done =>
    obtain ⟨_, _, _, _, -, rfl⟩ := Snapshot.initiateWithdrawal_ok.mp done
    exact .of_paylinks (actOf_of_kind kind (by decide)) (voteOf_of_kind kind (by decide)) rfl rfl rfl
  | completeUnstake kind done =>
    obtain ⟨_, _, _, _, rfl, rfl⟩ := Snapshot.completeWithdrawal_ok.mp done
    exact .of_paylinks (actOf_of_kind kind (by decide)) (voteOf_of_kind kind (by decide)) rfl rfl rfl
  | slash kind _ _ done =>
    obtain ⟨_, _, _, rfl⟩ := Snapshot.slash_ok.mp done
    exact .of_paylinks (actOf_of_kind kind (by decide)) (voteOf_of_kind kind (by decide)) rfl rfl rfl
  | distributeReward kind _ _ debit done =>
    obtain ⟨_, -, -, rfl⟩ := Snapshot.subBalance_ok.mp debit
    obtain ⟨_, _, -, rfl⟩ := Snapshot.distributeReward_ok.mp done
    exact .of_paylinks (actOf_of_kind kind (by decide)) (voteOf_of_kind kind (by decide)) rfl rfl rfl
  | registerVRFKey kind _ _ _ done =>
    obtain ⟨_, _, -, rfl⟩ := Snapshot.setVRFPublicKey_ok.mp done
    exact .of_paylinks (actOf_of_kind kind (by decide)) (voteOf_of_kind kind (by decide)) rfl rfl rfl
  | submitEvidence kind _ _ _ done =>
    obtain ⟨_, _, _, rfl⟩ := Snapshot.slash_ok.mp done
    exact .of_paylinks (actOf_of_kind kind (by decide)) (voteOf_of_kind kind (by decide)) rfl rfl rfl

theorem stepTx_touches (env : Env) (cp : ChainParams) (s : Snapshot) (a : TimedTx) :
    (succeeded env cp (s, a) = true ∧ verifyTx env a.1 = .ok () ∧ Touches env s a.1 a.2 (stepTx env cp s a)) ∨
    (succeeded env cp (s, a) = false ∧ stepTx env cp s a = s) := by
  rcases stepTx_cases env cp s a with ⟨hok, s₁, hstep, heq⟩ | hfail
  · have h := hstep.effect.touches
    rw [heq]
    exact .inl ⟨hok, hstep.signed, h.old, h.born, h.operators, h.votes⟩
  · exact .inr hfail

theorem Touch.fixed {id : Hash} {pl pl' : PayLink} (touch : Touch env s tx ts id pl pl') :
    pl'.rules = pl.rules ∧ pl'.creator = pl.creator ∧ pl'.amount = pl.amount := by
  cases touch <;> exact ⟨rfl, rfl, rfl⟩

theorem stepTx_record {a : TimedTx} {id : Hash} {pl : PayLink} (found : s.paylinks[id]? = some pl) :
    ∃ pl', (stepTx env cp s a).paylinks[id]? = some pl' ∧ (pl' = pl ∨ Touch env s a.1 a.2 id pl pl') := by
  rcases stepTx_touches env cp s a with ⟨-, -, h⟩ | ⟨-, heq⟩
  · obtain ⟨pl', found', touch⟩ := h.old id pl found
    exact ⟨pl', found', .inr touch⟩
  · rw [heq]
    exact ⟨pl, found, .inl rfl⟩

end LinkMint.Chain

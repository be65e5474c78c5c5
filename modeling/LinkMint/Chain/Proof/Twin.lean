import LinkMint.Chain.Json
import LinkMint.Chain.Proof.Change
import LinkMint.Chain.Proof.Votes

/-!
# States that a transaction does not tell apart

Two states that agree on what the state root covers are *twins* (`Twin`).
-/

namespace LinkMint.Chain

open LinkMint.Lib Std

structure Unhashed where
  votes : ExtTreeSet VoteKey
  submittedProofs : ExtTreeMap Hash Hash
  paylinksByCreator : ExtTreeMap Address (List Hash)
  paylinksByReceiver : ExtTreeMap Address (List Hash)
  paylinksByStatus : ExtTreeMap Status (List Hash)
  paylinksByOwner : ExtTreeMap Address (List Hash)
  validatorList : List Address
  totalBurned : UInt64

namespace Snapshot
def unhashed (s : Snapshot) : Unhashed where
  votes := s.votes
  submittedProofs := s.submittedProofs
  paylinksByCreator := s.paylinksByCreator
  paylinksByReceiver := s.paylinksByReceiver
  paylinksByStatus := s.paylinksByStatus
  paylinksByOwner := s.paylinksByOwner
  validatorList := s.validatorList
  totalBurned := s.totalBurned

def recast (s : Snapshot) (paylinks : ExtTreeMap Hash PayLink) (u : Unhashed) : Snapshot :=
  { s with
    paylinks := paylinks
    votes := u.votes
    submittedProofs := u.submittedProofs
    paylinksByCreator := u.paylinksByCreator
    paylinksByReceiver := u.paylinksByReceiver
    paylinksByStatus := u.paylinksByStatus
    paylinksByOwner := u.paylinksByOwner
    validatorList := u.validatorList
    totalBurned := u.totalBurned }
end Snapshot

section
variable (compact : Bytes → Bytes)

def PayLinkLike (pl pl' : PayLink) : Prop :=
  ∃ rules, pl' = { pl with rules := rules } ∧ compact pl.rules = compact rules

def PayLinksLike (m m' : ExtTreeMap Hash PayLink) : Prop :=
  ∀ id : Hash, Option.Rel (PayLinkLike compact) (m[id]?) (m'[id]?)

structure Twin (strict : Prop) (s s' : Snapshot) : Prop where
  same : s' = { s.recast s'.paylinks s'.unhashed with totalSupply := s'.totalSupply }
  paylinks : PayLinksLike compact s.paylinks s'.paylinks
  unhashed : strict → s'.unhashed = s.unhashed
  supply : strict → s'.totalSupply = s.totalSupply

def Recoded (tx tx' : Transaction) : Prop :=
  ∃ payload, tx' = { tx with payload := payload } ∧
    (compact tx.payload = compact payload ∨ (tx.payload = [] ∧ payload = jsonNull))
end

/-- The sender has not voted for the PayLink, and no other proof is submitted for it. -/
def VoteOpen (s : Snapshot) (sender : Address) (p : SubmitValidationPayload) : Prop :=
  s.hasVoted p.payLinkID sender = false ∧
    ∀ h, s.submittedProofs[p.payLinkID]? = some h → h = p.proofHash

/-- The two states agree on what a vote reads outside the root: whether it is stopped, by an
    earlier vote of the sender or by another proof; and if it is not and reaches the quorum, who has
    voted and the total supply. Which of the two stops it may differ. -/
structure SameTally (cp : ChainParams) (sender : Address) (p : SubmitValidationPayload)
    (pl : PayLink) (s s' : Snapshot) : Prop where
  isOpen : VoteOpen s sender p ↔ VoteOpen s' sender p
  quorum : VoteOpen s sender p → cp.requiredValidations ≤ pl.voteCount + 1 →
    (∀ validator, s.hasVoted p.payLinkID validator = s'.hasVoted p.payLinkID validator) ∧
      s.totalSupply = s'.totalSupply

/-- Asked only of a vote with the right nonce that passes every check on hashed data. -/
def AgreeOn (env : Env) (cp : ChainParams) (tx : Transaction) (ts : Int64) (s s' : Snapshot) : Prop :=
  TxKind.ofCode tx.type = some .submitValidation → tx.nonce = s.getNonce tx.fromAddr →
    ∀ p pl, env.decode.submitValidation tx.payload = .ok p →
      s.isActiveValidator tx.fromAddr = true → s.isProofUsed p.proofHash = false →
      s.paylinks[p.payLinkID]? = some pl → pl.status = .created → ts ≤ pl.expiry →
      SameTally cp tx.fromAddr p pl s s'

variable {env : Env} {compact : Bytes → Bytes} {cp : ChainParams} {strict : Prop}
  {s s' s₁ : Snapshot} {tx tx' : Transaction} {ts : Int64}

theorem PayLinkLike.refl (pl : PayLink) : PayLinkLike compact pl pl := ⟨pl.rules, rfl, rfl⟩

theorem payLinkLike_iff {pl pl' : PayLink} : PayLinkLike compact pl pl' ↔ pl.compacted compact = pl'.compacted compact := by
  constructor
  · rintro ⟨rules, rfl, h⟩
    simp [PayLink.compacted, h]
  · intro h
    refine ⟨pl'.rules, ?_, congrArg PayLink.rules h⟩
    obtain ⟨_, _, _, _, _, _, _, _, _, _, _, _, _⟩ := pl
    obtain ⟨_, _, _, _, _, _, _, _, _, _, _, _, _⟩ := pl'
    simp only [PayLink.compacted, PayLink.mk.injEq] at h ⊢
    simp [h]

namespace PayLinksLike
variable {m m' : ExtTreeMap Hash PayLink}

theorem refl (m : ExtTreeMap Hash PayLink) : PayLinksLike compact m m := by
  intro id
  cases m[id]? with
  | none => exact .none
  | some pl => exact .some (.refl pl)

theorem insert {pl pl' : PayLink} (h : PayLinksLike compact m m') (id : Hash) (hpl : PayLinkLike compact pl pl') :
    PayLinksLike compact (m.insert id pl) (m'.insert id pl') := by
  intro id'
  rw [getElem?_insert_eq, getElem?_insert_eq]
  split
  · exact .some hpl
  · exact h id'

theorem found {id : Hash} {pl : PayLink} (h : PayLinksLike compact m m') (found : m[id]? = some pl) :
    ∃ rules, m'[id]? = some { pl with rules := rules } ∧ compact pl.rules = compact rules := by
  have hid := h id
  rw [found] at hid
  generalize m'[id]? = o at hid
  cases hid with
  | some hpl =>
    obtain ⟨rules, rfl, hrules⟩ := hpl
    exact ⟨rules, rfl, hrules⟩

theorem absent {id : Hash} (h : PayLinksLike compact m m') (absent : m[id]? = none) : m'[id]? = none := by
  have hid := h id
  rw [absent] at hid
  generalize m'[id]? = o at hid
  cases hid
  rfl
end PayLinksLike

theorem getVoters_eq {id : Hash} (h : ∀ validator, s.hasVoted id validator = s'.hasVoted id validator) :
    s.getVoters id = s'.getVoters id := by
  have hvotes : s.votes.filter (fun k => k.payLinkID = id) = s'.votes.filter (fun k => k.payLinkID = id) := by
    refine ExtTreeSet.ext_mem fun k => ?_
    obtain ⟨plId, validator⟩ := k
    rw [ExtTreeSet.mem_filter, ExtTreeSet.mem_filter]
    simp only [ExtTreeSet.get_eq, decide_eq_true_eq, exists_prop, and_congr_left_iff]
    rintro rfl
    exact Bool.eq_iff_iff.mp (h validator)
  unfold Snapshot.getVoters
  rw [← ExtTreeSet.toList_filter, ← ExtTreeSet.toList_filter, hvotes]

theorem SameTally.of_eq {cp : ChainParams} {sender : Address} {p : SubmitValidationPayload}
    {pl : PayLink} (hvotes : s.votes = s'.votes) (hproofs : s.submittedProofs = s'.submittedProofs)
    (hsupply : s.totalSupply = s'.totalSupply) : SameTally cp sender p pl s s' := by
  have hvoted : ∀ validator, s.hasVoted p.payLinkID validator = s'.hasVoted p.payLinkID validator := by
    intro validator
    unfold Snapshot.hasVoted
    rw [hvotes]
  refine ⟨?_, fun _ _ => ⟨hvoted, hsupply⟩⟩
  unfold VoteOpen
  rw [hvoted, hproofs]

theorem hasVoted_recordVote {id : Hash}
    (h : ∀ validator, s.hasVoted id validator = s'.hasVoted id validator) (who validator : Address) :
    (s.recordVote id who).hasVoted id validator = (s'.recordVote id who).hasVoted id validator := by
  rw [Bool.eq_iff_iff, Snapshot.hasVoted_recordVote, Snapshot.hasVoted_recordVote, h]

section Fees

variable (cp) (paylinks : ExtTreeMap Hash PayLink) (u : Unhashed)

theorem mintTokens_recast (s : Snapshot) (addr : Address) (amount : UInt64) :
    (s.recast paylinks u).mintTokens cp addr amount = (s.mintTokens cp addr amount).map (·.recast paylinks u) := by
  unfold Snapshot.mintTokens
  show (if s.totalSupply + amount > cp.maxSupply then _ else _) = _
  split <;> rfl

theorem payVoters_recast (reward stake : UInt64) (L : List (Address × UInt64))
    (distributed : UInt64) (payouts : List ValidatorPayout) (s : Snapshot) :
    payVoters cp reward stake L distributed payouts (s.recast paylinks u) =
      let r := payVoters cp reward stake L distributed payouts s
      (r.1, r.2.recast paylinks u) := by
  induction L generalizing distributed payouts s with
  | nil => rfl
  | cons e rest ih =>
    simp only [payVoters]
    generalize (if rest = [] then reward - distributed else reward * e.2 / stake) = due
    split
    · rw [mintTokens_recast]
      cases s.mintTokens cp e.1 due with
      | error err => rfl
      | ok s₁ => exact ih _ _ s₁
    · exact ih _ _ s

theorem payVoters_unhashed (reward stake : UInt64) (L : List (Address × UInt64))
    (distributed : UInt64) (payouts : List ValidatorPayout) (s : Snapshot) :
    (payVoters cp reward stake L distributed payouts s).2.unhashed = s.unhashed := by
  have h := payVoters_recast cp s.paylinks s.unhashed reward stake L distributed payouts s
  exact congrArg (fun r => r.2.unhashed) h

theorem distributeFees_recast (fee : FeeBreakdown) (voters : List Address) (s : Snapshot) :
    ∃ u', distributeFees cp fee voters (s.recast paylinks u) =
      ((distributeFees cp fee voters s).1, (distributeFees cp fee voters s).2.recast paylinks u') ∧
      (u = s.unhashed → u' = (distributeFees cp fee voters s).2.unhashed) := by
  have hstake : totalVoterStake (s.recast paylinks u) voters = totalVoterStake s voters := rfl
  have hstakes : voterStakes (s.recast paylinks u) voters = voterStakes s voters := rfl
  have hsupply : (s.recast paylinks u).totalSupply = s.totalSupply := rfl
  have hsame := payVoters_unhashed cp fee.validatorReward (totalVoterStake s voters)
    (voterStakes s voters).toList 0 [] s
  unfold distributeFees
  simp only [hstake, hstakes, hsupply, payVoters_recast]
  split
  · exact ⟨u, rfl, id⟩
  · split
    · exact ⟨u, rfl, id⟩
    · split
      · exact ⟨u, rfl, id⟩
      · generalize payVoters cp fee.validatorReward (totalVoterStake s voters)
          (voterStakes s voters).toList 0 [] s = r at hsame ⊢
        obtain ⟨_ | payouts, s₁⟩ := r
        · exact ⟨u, rfl, fun hu => hu.trans hsame.symm⟩
        · simp only at hsame ⊢
          have hmint : (if fee.treasuryAmount > 0 then
                (s₁.recast paylinks u).mintTokens cp cp.treasuryAddress fee.treasuryAmount
              else .ok (s₁.recast paylinks u)) =
              (if fee.treasuryAmount > 0 then
                s₁.mintTokens cp cp.treasuryAddress fee.treasuryAmount
              else .ok s₁).map (·.recast paylinks u) := by
            split
            · exact mintTokens_recast cp paylinks u s₁ _ _
            · rfl
          rw [hmint]
          generalize hm : (if fee.treasuryAmount > 0 then
            s₁.mintTokens cp cp.treasuryAddress fee.treasuryAmount else .ok s₁) = m
          cases m with
          | error e => exact ⟨u, rfl, fun hu => hu.trans hsame.symm⟩
          | ok s₂ =>
            have hsame₂ : s₂.unhashed = s.unhashed := by
              rw [← hsame]
              split at hm
              · obtain ⟨-, rfl⟩ := Snapshot.mintTokens_ok.mp hm
                rfl
              · cases hm
                rfl
            by_cases hburn : fee.burnAmount > 0
            · simp only [Except.map, hburn, if_true]
              refine ⟨{ u with totalBurned := u.totalBurned + fee.burnAmount }, rfl, fun hu => ?_⟩
              rw [hu, ← hsame₂]
              rfl
            · simp only [Except.map, hburn, if_false]
              exact ⟨u, rfl, fun hu => hu.trans hsame₂.symm⟩

theorem feeState_recast (plID : Hash) (amount : UInt64) (s : Snapshot)
    (hvoters : (s.recast paylinks u).getVoters plID = s.getVoters plID) :
    ∃ u', feeState cp plID amount (s.recast paylinks u) = (feeState cp plID amount s).recast paylinks u' ∧
      (u = s.unhashed → u' = (feeState cp plID amount s).unhashed) := by
  obtain ⟨u', hd, hu'⟩ := distributeFees_recast cp paylinks u (cp.calculator.calculateFee amount) (s.getVoters plID) s
  unfold feeState collectAndDistributeFees
  simp only [hvoters, hd]
  split
  · exact ⟨u, rfl, id⟩
  · split
    · exact ⟨u, rfl, id⟩
    · generalize distributeFees cp (cp.calculator.calculateFee amount) (s.getVoters plID) s = r
        at hu' ⊢
      obtain ⟨_ | payouts, s₁⟩ := r
      · exact ⟨u', rfl, hu'⟩
      · exact ⟨u', rfl, hu'⟩
end Fees

namespace Recoded
theorem refl (tx : Transaction) : Recoded compact tx tx := ⟨tx.payload, rfl, .inl rfl⟩

theorem decode {α : Type} {decode : Bytes → Except String α} {Like : α → α → Prop} {a : α}
    (h : Recoded compact tx tx') (hd : Respects compact decode Like)
    (ha : decode tx.payload = .ok a) : ∃ a', decode tx'.payload = .ok a' ∧ Like a a' := by
  obtain ⟨payload, rfl, hsame | ⟨hnil, -⟩⟩ := h
  · exact hd.congr _ _ a hsame ha
  · rw [hnil] at ha
    exact absurd ha (hd.empty a)

theorem decode_eq {α : Type} {decode : Bytes → Except String α} {a : α}
    (h : Recoded compact tx tx') (hd : Respects compact decode (· = ·))
    (ha : decode tx.payload = .ok a) : decode tx'.payload = .ok a := by
  obtain ⟨a', ha', rfl⟩ := h.decode hd ha
  exact ha'

theorem signableBytes (laws : JsonLaws compact env) (h : Recoded compact tx tx') :
    signableBytes env tx' = signableBytes env tx := by
  obtain ⟨payload, rfl, hsame | ⟨hnil, hnull⟩⟩ := h
  · exact (laws.signable _ _ _ _ _ hsame).symm
  · unfold Chain.signableBytes
    rw [hnil, hnull]
    exact (laws.signable_nil _ _ _).symm

theorem verifyTx (laws : JsonLaws compact env) (h : Recoded compact tx tx') : verifyTx env tx' = verifyTx env tx := by
  have hsign := h.signableBytes laws
  obtain ⟨payload, rfl, -⟩ := h
  unfold Chain.verifyTx
  simp only [hsign]
end Recoded

namespace Twin
theorem refl (s : Snapshot) : Twin compact strict s s := ⟨rfl, .refl _, fun _ => rfl, fun _ => rfl⟩

theorem exists_recast (h : Twin compact strict s s') :
    ∃ paylinks u supply, s' = { s.recast paylinks u with totalSupply := supply } ∧
      PayLinksLike compact s.paylinks paylinks ∧ (strict → u = s.unhashed) ∧
      (strict → supply = s.totalSupply) :=
  ⟨s'.paylinks, s'.unhashed, s'.totalSupply, h.same, h.paylinks, h.unhashed, h.supply⟩

theorem incrementNonce (h : Twin compact strict s s') (addr : Address) :
    Twin compact strict (s.incrementNonce addr) (s'.incrementNonce addr) := by
  obtain ⟨paylinks, u, supply, rfl, hpl, hu, hsupply⟩ := h.exists_recast
  exact ⟨rfl, hpl, hu, hsupply⟩

theorem feeState {plID : Hash} (h : Twin compact strict s s')
    (hvoters : s'.getVoters plID = s.getVoters plID) (hsupply : s'.totalSupply = s.totalSupply) (amount : UInt64) :
    Twin compact strict (Chain.feeState cp plID amount s) (Chain.feeState cp plID amount s') := by
  have hrecast : s' = s.recast s'.paylinks s'.unhashed := by
    have hsame := h.same
    rw [hsupply] at hsame
    exact hsame
  obtain ⟨u', hfee, hu'⟩ := feeState_recast cp s'.paylinks s'.unhashed plID amount s (by rw [← hrecast, hvoters])
  rw [← hrecast] at hfee
  refine ⟨?_, ?_, fun hs => ?_, fun hs => ?_⟩
  · rw [hfee]
    rfl
  · rw [hfee, (TokensOnly.feeState cp plID amount s).paylinks]
    exact h.paylinks
  · rw [hfee]
    exact hu' (h.unhashed hs)
  · rw [hfee]
    rfl
end Twin

variable {paylinks : ExtTreeMap Hash PayLink}

theorem Ballot.twin {p : SubmitValidationPayload} {pl : PayLink} (laws : JsonLaws compact env)
    (htx : Recoded compact tx tx') (ht : Twin compact strict s s')
    (hagree : SameTally cp tx.fromAddr p pl s s') (h : Ballot env s tx ts p pl) :
    ∃ rules, compact pl.rules = compact rules ∧ Ballot env s' tx' ts p { pl with rules := rules } := by
  obtain ⟨rules, found, hrules⟩ := ht.paylinks.found h.found
  have payload := htx.decode_eq laws.submitValidation h.payload
  obtain ⟨first, agrees⟩ := hagree.isOpen.mp ⟨h.first, h.agrees⟩
  obtain ⟨payload', rfl, -⟩ := htx
  refine ⟨rules, hrules, payload, ?_, ?_, found, h.created, h.unexpired, first, agrees⟩
  · rw [ht.same]
    exact h.active
  · rw [ht.same]
    exact h.unused

theorem AgreeOn.tally {p : SubmitValidationPayload} {pl : PayLink} (h : AgreeOn env cp tx ts s s')
    (kind : TxKind.ofCode tx.type = some .submitValidation)
    (hnonce : tx.nonce = s.getNonce tx.fromAddr) (ballot : Ballot env s tx ts p pl) :
    SameTally cp tx.fromAddr p pl s s' :=
  h kind hnonce p pl ballot.payload ballot.active ballot.unused ballot.found ballot.created
    ballot.unexpired

theorem Effect.twin (laws : JsonLaws compact env) (h : Twin compact strict s s')
    (htx : Recoded compact tx tx') (hagree : AgreeOn env cp tx ts s s')
    (hnonce : tx.nonce = s.getNonce tx.fromAddr) (he : Effect env cp s tx ts s₁) :
    ∃ s₁', Effect env cp s' tx' ts s₁' ∧ Twin compact strict s₁ s₁' := by
  have htwin := h
  obtain ⟨paylinks, u, supply, rfl, hpl, hu, hsupply⟩ := h.exists_recast
  have hsame := htx
  obtain ⟨payload', rfl, -⟩ := hsame
  cases he with
  | @createPayLink p _ kind payload receiver amount expiry rules done =>
    obtain ⟨fresh, rfl⟩ := Snapshot.createPayLink_ok.mp done
    obtain ⟨_, payload, newRules, rfl, hrules⟩ := htx.decode laws.createPayLink payload
    refine ⟨_, .createPayLink kind payload receiver amount expiry (laws.checkNewRules hrules rules)
      (Snapshot.createPayLink_ok.mpr ⟨hpl.absent fresh, rfl⟩), rfl, ?_, fun hs => ?_, hsupply⟩
    · exact hpl.insert p.payLinkID ⟨newRules, rfl, hrules⟩
    · rw [hu hs]
      rfl
  | @vote p pl kind ballot short =>
    have htally := hagree.tally kind hnonce ballot
    obtain ⟨rules, hrules, ballot'⟩ := ballot.twin laws htx htwin htally
    refine ⟨_, .vote kind ballot' short, rfl, hpl.insert p.payLinkID ⟨rules, rfl, hrules⟩, fun hs => ?_, hsupply⟩
    rw [hu hs]
    rfl
  | @settle p pl s₂ kind ballot quorum rules done =>
    have htally := hagree.tally kind hnonce ballot
    obtain ⟨hvoted, hlast⟩ := htally.quorum ⟨ballot.first, ballot.agrees⟩ quorum
    obtain ⟨newRules, hrules, ballot'⟩ := ballot.twin laws htx htwin htally
    obtain ⟨pl₂, found, rfl⟩ := Snapshot.setPayLinkStatus_ok.mp done
    obtain rfl := Option.some.inj ((ExtTreeMap.getElem?_insert_self ..).symm.trans found)
    have hvoters := getVoters_eq (hasVoted_recordVote hvoted tx.fromAddr)
    refine ⟨_, .settle kind ballot' quorum ?_
      (Snapshot.setPayLinkStatus_ok.mpr ⟨_, ExtTreeMap.getElem?_insert_self, rfl⟩),
      Twin.feeState ⟨rfl, ?_, fun hs => ?_, hsupply⟩ ?_ ?_ pl.amount⟩
    · refine laws.evaluateRules hrules ?_
      have hctx : settleContext (counted s tx p pl) tx ts p.payLinkID pl =
          settleContext (s.recordVote p.payLinkID tx.fromAddr) tx ts p.payLinkID pl := rfl
      rw [hctx, settleContext, hvoters] at rules
      exact rules
    · refine PayLinksLike.insert (hpl.insert p.payLinkID ?_) p.payLinkID ?_
      · exact ⟨newRules, rfl, hrules⟩
      · exact ⟨newRules, rfl, hrules⟩
    · rw [hu hs]
      rfl
    · exact hvoters.symm
    · exact hlast.symm
  | @cancelPayLink p pl _ kind payload found created allowed rules done =>
    obtain ⟨newRules, found', hrules⟩ := hpl.found found
    obtain ⟨_, found₂, rfl⟩ := Snapshot.setPayLinkStatus_ok.mp done
    obtain rfl := Option.some.inj (found.symm.trans found₂)
    refine ⟨_, .cancelPayLink kind (htx.decode_eq laws.cancelPayLink payload) found' created allowed
      (laws.evaluateRules hrules rules) (Snapshot.setPayLinkStatus_ok.mpr ⟨_, found', rfl⟩), rfl,
      hpl.insert p.payLinkID ⟨newRules, rfl, hrules⟩, fun hs => ?_, hsupply⟩
    rw [hu hs]
    rfl
  | @failPayLink p pl _ kind admin payload found done =>
    obtain ⟨newRules, found', hrules⟩ := hpl.found found
    obtain ⟨_, found₂, rfl⟩ := Snapshot.setPayLinkStatus_ok.mp done
    obtain rfl := Option.some.inj (found.symm.trans found₂)
    refine ⟨_, .failPayLink kind admin (htx.decode_eq laws.failPayLink payload) found'
      (Snapshot.setPayLinkStatus_ok.mpr ⟨_, found', rfl⟩), rfl,
      hpl.insert p.payLinkID ⟨newRules, rfl, hrules⟩, fun hs => ?_, hsupply⟩
    rw [hu hs]
    rfl
  | @transferPayLink p pl _ kind payload receiver found created moves allowed rules done =>
    obtain ⟨newRules, found', hrules⟩ := hpl.found found
    obtain ⟨_, found₂, rfl⟩ := Snapshot.setPayLinkOwner_ok.mp done
    obtain rfl := Option.some.inj (found.symm.trans found₂)
    have allowed' : ({ s.recast paylinks u with totalSupply := supply } : Snapshot).isApprovedOrOwner p.payLinkID tx.fromAddr = true := by
      unfold Snapshot.isApprovedOrOwner at allowed ⊢
      rw [found] at allowed
      rw [show ({ s.recast paylinks u with totalSupply := supply } : Snapshot).paylinks[p.payLinkID]? = _ from found']
      exact allowed
    refine ⟨_, .transferPayLink kind (htx.decode_eq laws.transferPayLink payload) receiver found'
      created moves allowed' (laws.evaluateRules hrules rules)
      (Snapshot.setPayLinkOwner_ok.mpr ⟨_, found', rfl⟩), rfl,
      hpl.insert p.payLinkID ⟨newRules, rfl, hrules⟩, fun hs => ?_, hsupply⟩
    rw [hu hs]
    rfl
  | @approvePayLink p pl _ kind payload found owner other done =>
    obtain ⟨newRules, found', hrules⟩ := hpl.found found
    obtain ⟨_, found₂, rfl⟩ := Snapshot.setPayLinkApproval_ok.mp done
    obtain rfl := Option.some.inj (found.symm.trans found₂)
    exact ⟨_, .approvePayLink kind (htx.decode_eq laws.approvePayLink payload) found' owner other
      (Snapshot.setPayLinkApproval_ok.mpr ⟨_, found', rfl⟩), rfl,
      hpl.insert p.payLinkID ⟨newRules, rfl, hrules⟩, hu, hsupply⟩
  | setApprovalForAll kind payload other operator =>
    exact ⟨_, .setApprovalForAll kind (htx.decode_eq laws.setApprovalForAll payload) other operator,
      rfl, hpl, hu, hsupply⟩
  | transfer kind payload amount receiver done =>
    obtain ⟨s₂, debit, rfl⟩ := Snapshot.transfer_ok.mp done
    obtain ⟨acc, found, enough, rfl⟩ := Snapshot.subBalance_ok.mp debit
    exact ⟨_, .transfer kind (htx.decode_eq laws.transfer payload) amount receiver
      (Snapshot.transfer_ok.mpr ⟨_, Snapshot.subBalance_ok.mpr ⟨acc, found, enough, rfl⟩, rfl⟩),
      rfl, hpl, hu, hsupply⟩
  | stake kind payload amount debit done =>
    obtain ⟨acc, found, enough, rfl⟩ := Snapshot.subBalance_ok.mp debit
    obtain ⟨-, rfl⟩ := Snapshot.stake_ok.mp done
    refine ⟨_, .stake kind (htx.decode_eq laws.stake payload) amount
      (Snapshot.subBalance_ok.mpr ⟨acc, found, enough, rfl⟩)
      (Snapshot.stake_ok.mpr ⟨amount, rfl⟩), rfl, hpl, fun hs => ?_, hsupply⟩
    rw [hu hs]
    rfl
  | initiateUnstake kind payload amount done =>
    obtain ⟨v, found, free, enough, room, rfl⟩ := Snapshot.initiateWithdrawal_ok.mp done
    exact ⟨_, .initiateUnstake kind (htx.decode_eq laws.initiateUnstake payload) amount
      (Snapshot.initiateWithdrawal_ok.mpr ⟨v, found, free, enough, room, rfl⟩), rfl, hpl, hu, hsupply⟩
  | completeUnstake kind done =>
    obtain ⟨v, found, pending, elapsed, rfl, rfl⟩ := Snapshot.completeWithdrawal_ok.mp done
    exact ⟨_, .completeUnstake kind
      (Snapshot.completeWithdrawal_ok.mpr ⟨v, found, pending, elapsed, rfl, rfl⟩), rfl, hpl, hu, hsupply⟩
  | slash kind admin payload done =>
    obtain ⟨v, found, enough, rfl⟩ := Snapshot.slash_ok.mp done
    refine ⟨_, .slash kind admin (htx.decode_eq laws.slash payload)
      (Snapshot.slash_ok.mpr ⟨v, found, enough, rfl⟩), rfl, hpl, fun hs => ?_, fun hs => ?_⟩
    · rw [hu hs]
      rfl
    · rw [hsupply hs]
  | distributeReward kind admin payload debit done =>
    obtain ⟨acc, found, enough, rfl⟩ := Snapshot.subBalance_ok.mp debit
    obtain ⟨v, foundv, active, rfl⟩ := Snapshot.distributeReward_ok.mp done
    exact ⟨_, .distributeReward kind admin (htx.decode_eq laws.distributeReward payload)
      (Snapshot.subBalance_ok.mpr ⟨acc, found, enough, rfl⟩)
      (Snapshot.distributeReward_ok.mpr ⟨v, foundv, active, rfl⟩), rfl, hpl, hu, hsupply⟩
  | registerVRFKey kind payload length active done =>
    obtain ⟨v, found, hactive, rfl⟩ := Snapshot.setVRFPublicKey_ok.mp done
    exact ⟨_, .registerVRFKey kind (htx.decode_eq laws.registerVRFKey payload) length active
      (Snapshot.setVRFPublicKey_ok.mpr ⟨v, found, hactive, rfl⟩), rfl, hpl, hu, hsupply⟩
  | @submitEvidence p action _ kind payload evidence fresh done =>
    obtain ⟨_, payload, data, rfl, hdata⟩ := htx.decode laws.submitEvidence payload
    obtain ⟨v, found, enough, rfl⟩ := Snapshot.slash_ok.mp done
    refine ⟨_, .submitEvidence kind payload (laws.processEvidence rfl rfl hdata evidence) fresh
      (Snapshot.slash_ok.mpr ⟨v, found, enough, rfl⟩), rfl, hpl, fun hs => ?_, fun hs => ?_⟩
    · rw [hu hs]
      rfl
    · rw [hsupply hs]
      rfl

theorem Twin.getNonce (h : Twin compact strict s s') (addr : Address) : s'.getNonce addr = s.getNonce addr := by
  rw [h.same]
  rfl

theorem Step.twin (laws : JsonLaws compact env) (h : Twin compact strict s s')
    (htx : Recoded compact tx tx') (hagree : AgreeOn env cp tx ts s s')
    (hstep : Step env cp s tx ts s₁) :
    ∃ s₁', Step env cp s' tx' ts s₁' ∧ Twin compact strict s₁ s₁' := by
  obtain ⟨s₁', heffect, htwin⟩ := hstep.effect.twin laws h htx hagree hstep.nonce
  refine ⟨s₁', ⟨?_, ?_, heffect⟩, htwin⟩
  · rw [htx.verifyTx laws]
    exact hstep.signed
  · obtain ⟨payload', rfl, -⟩ := htx
    rw [h.getNonce]
    exact hstep.nonce

end LinkMint.Chain

import LinkMint.Lib.Word
import LinkMint.Chain.Devnet
import LinkMint.Chain.Proof.Frame
import LinkMint.Chain.Proof.Votes

/-!
# Quorums and settlements

A vote writes four places: the vote set, the PayLink's counter, the proof hash the PayLink
stands for, and the set of used proofs.
-/

namespace LinkMint.Chain

open LinkMint.Lib Std

def voteIn (env : Env) (cp : ChainParams) (e : Snapshot × TimedTx) : Option SubmitValidationPayload :=
  if succeeded env cp e ∧ TxKind.ofCode e.2.1.type = some .submitValidation then
    (env.decode.submitValidation e.2.1.payload).toOption
  else none

def ballots (env : Env) (cp : ChainParams) (tr : List (Snapshot × TimedTx)) (plId : Hash) : List Address :=
  (tr.filter fun e => (voteIn env cp e).any (·.payLinkID = plId)).map (·.2.1.fromAddr)

def settlementIn (env : Env) (cp : ChainParams) (e : Snapshot × TimedTx) : Option (Hash × Hash) :=
  (voteIn env cp e).bind fun p => (e.1.paylinks[p.payLinkID]?).bind fun pl =>
    if cp.requiredValidations ≤ pl.voteCount + 1 then some (p.payLinkID, p.proofHash) else none

def settlements (env : Env) (cp : ChainParams) (tr : List (Snapshot × TimedTx)) : List (Hash × Hash) :=
  tr.filterMap (settlementIn env cp)

inductive PayLinkStep : Option PayLink → Option PayLink → Prop
  | same {o : Option PayLink} : PayLinkStep o o
  | opened {pl : PayLink} (status : pl.status = .created) (count : pl.voteCount = 0) : PayLinkStep none (some pl)
  | kept {pl pl' : PayLink} (count : pl'.voteCount = pl.voteCount)
      (status : pl'.status = pl.status ∨ pl'.status = .cancelled ∨ pl'.status = .failed) :
      PayLinkStep (some pl) (some pl')

theorem PayLinkStep.before {o : Option PayLink} {pl : PayLink} (h : PayLinkStep o (some pl)) :
    (o = none ∧ pl.status = .created ∧ pl.voteCount = 0) ∨ ∃ pl₀, o = some pl₀ ∧ pl.voteCount = pl₀.voteCount ∧
        (pl.status = pl₀.status ∨ pl.status = .cancelled ∨ pl.status = .failed) := by
  cases h with
  | same => exact .inr ⟨pl, rfl, rfl, .inl rfl⟩
  | opened status count => exact .inl ⟨rfl, status, count⟩
  | kept count status => exact .inr ⟨_, rfl, count, status⟩

theorem PayLinkStep.after {o : Option PayLink} {pl : PayLink} (h : PayLinkStep (some pl) o) :
    ∃ pl', o = some pl' ∧ pl'.voteCount = pl.voteCount ∧
      (pl'.status = pl.status ∨ pl'.status = .cancelled ∨ pl'.status = .failed) := by
  cases h with
  | same => exact ⟨pl, rfl, rfl, .inl rfl⟩
  | kept count status => exact ⟨_, rfl, count, status⟩

structure Quiet (s s' : Snapshot) : Prop where
  votes : s'.votes = s.votes
  submitted : s'.submittedProofs = s.submittedProofs
  used : s'.usedProofs = s.usedProofs
  paylinks : ∀ plId : Hash, PayLinkStep (s.paylinks[plId]?) (s'.paylinks[plId]?)

structure Voted (cp : ChainParams) (s : Snapshot) (voter : Address) (p : SubmitValidationPayload)
    (pl : PayLink) (s' : Snapshot) : Prop where
  votes : s'.votes = (s.recordVote p.payLinkID voter).votes
  submitted : s'.submittedProofs = s.submittedProofs.insert p.payLinkID p.proofHash
  used : s'.usedProofs = if cp.requiredValidations ≤ pl.voteCount + 1 then
    s.usedProofs.insert p.proofHash else s.usedProofs
  paylinks : s'.paylinks = s.paylinks.insert p.payLinkID
    { pl with
      voteCount := pl.voteCount + 1
      status := if cp.requiredValidations ≤ pl.voteCount + 1 then .verified else pl.status }

section Frame

variable {env : Env} {cp : ChainParams} {s s' : Snapshot} {tx : Transaction} {ts : Int64}

theorem Quiet.congr (hv : s'.votes = s.votes) (hs : s'.submittedProofs = s.submittedProofs)
    (hu : s'.usedProofs = s.usedProofs) (hp : s'.paylinks = s.paylinks) : Quiet s s' := by
  refine ⟨hv, hs, hu, fun plId => ?_⟩
  rw [hp]
  exact .same

theorem Quiet.put {plId : Hash} {pl pl' : PayLink} (found : s.paylinks[plId]? = some pl)
    (hp : s'.paylinks = s.paylinks.insert plId pl') (hv : s'.votes = s.votes)
    (hs : s'.submittedProofs = s.submittedProofs) (hu : s'.usedProofs = s.usedProofs)
    (count : pl'.voteCount = pl.voteCount)
    (status : pl'.status = pl.status ∨ pl'.status = .cancelled ∨ pl'.status = .failed) : Quiet s s' := by
  refine ⟨hv, hs, hu, fun plId' => ?_⟩
  rw [hp, getElem?_insert_eq]
  by_cases heq : plId = plId'
  · rw [if_pos heq, ← heq, found]
    exact .kept count status
  · rw [if_neg heq]
    exact .same

theorem Effect.quorum_cases (he : Effect env cp s tx ts s') :
    (TxKind.ofCode tx.type ≠ some .submitValidation ∧ Quiet s s') ∨
    (TxKind.ofCode tx.type = some .submitValidation ∧
      ∃ p pl, Ballot env s tx ts p pl ∧ Voted cp s tx.fromAddr p pl s') := by
  cases he with
  | createPayLink kind _ _ _ _ _ done =>
    obtain ⟨fresh, rfl⟩ := Snapshot.createPayLink_ok.mp done
    refine .inl ⟨by simp [kind], rfl, rfl, rfl, fun plId => ?_⟩
    show PayLinkStep _ ((s.paylinks.insert _ _)[plId]?)
    rw [getElem?_insert_eq]
    split
    · next heq =>
      rw [← heq, fresh]
      exact .opened rfl rfl
    · exact .same
  | @vote p pl kind ballot short =>
    refine .inr ⟨kind, p, pl, ballot, rfl, rfl, ?_, ?_⟩
    · rw [if_neg short]
      rfl
    · rw [if_neg short]
      rfl
  | @settle p pl _ kind ballot quorum _ done =>
    obtain ⟨pl', found, rfl⟩ := Snapshot.setPayLinkStatus_ok.mp done
    have hpl : pl' = { pl with voteCount := pl.voteCount + 1 } := by
      have hget : (counted s tx p pl).paylinks[p.payLinkID]? =
          some { pl with voteCount := pl.voteCount + 1 } := ExtTreeMap.getElem?_insert_self
      rw [found] at hget
      exact Option.some.inj hget
    subst hpl
    have hfee := TokensOnly.feeState cp p.payLinkID pl.amount
    refine .inr ⟨kind, p, pl, ballot, ?_, ?_, ?_, ?_⟩
    · rw [(hfee _).votes]
      rfl
    · rw [(hfee _).submittedProofs]
      rfl
    · rw [(hfee _).usedProofs, if_pos quorum]
      rfl
    · rw [(hfee _).paylinks, if_pos quorum]
      exact insert_insert_self _ _ _ _
  | cancelPayLink kind _ _ _ _ _ done =>
    obtain ⟨pl, found, rfl⟩ := Snapshot.setPayLinkStatus_ok.mp done
    exact .inl ⟨by simp [kind], .put found rfl rfl rfl rfl rfl (.inr (.inl rfl))⟩
  | failPayLink kind _ _ _ done =>
    obtain ⟨pl, found, rfl⟩ := Snapshot.setPayLinkStatus_ok.mp done
    exact .inl ⟨by simp [kind], .put found rfl rfl rfl rfl rfl (.inr (.inr rfl))⟩
  | transferPayLink kind _ _ _ _ _ _ _ done =>
    obtain ⟨pl, found, rfl⟩ := Snapshot.setPayLinkOwner_ok.mp done
    exact .inl ⟨by simp [kind], .put found rfl rfl rfl rfl rfl (.inl rfl)⟩
  | approvePayLink kind _ _ _ _ done =>
    obtain ⟨pl, found, rfl⟩ := Snapshot.setPayLinkApproval_ok.mp done
    exact .inl ⟨by simp [kind], .put found rfl rfl rfl rfl rfl (.inl rfl)⟩
  | setApprovalForAll kind _ _ _ => exact .inl ⟨by simp [kind], .congr rfl rfl rfl rfl⟩
  | transfer kind _ _ _ done =>
    obtain ⟨_, debit, rfl⟩ := Snapshot.transfer_ok.mp done
    obtain ⟨_, -, -, rfl⟩ := Snapshot.subBalance_ok.mp debit
    exact .inl ⟨by simp [kind], .congr rfl rfl rfl rfl⟩
  | stake kind _ _ debit done =>
    obtain ⟨_, -, -, rfl⟩ := Snapshot.subBalance_ok.mp debit
    obtain ⟨-, rfl⟩ := Snapshot.stake_ok.mp done
    exact .inl ⟨by simp [kind], .congr rfl rfl rfl rfl⟩
  | initiateUnstake kind _ _ done =>
    obtain ⟨_, -, -, -, -, rfl⟩ := Snapshot.initiateWithdrawal_ok.mp done
    exact .inl ⟨by simp [kind], .congr rfl rfl rfl rfl⟩
  | completeUnstake kind done =>
    obtain ⟨_, -, -, -, -, rfl⟩ := Snapshot.completeWithdrawal_ok.mp done
    exact .inl ⟨by simp [kind], .congr rfl rfl rfl rfl⟩
  | slash kind _ _ done =>
    obtain ⟨_, -, -, rfl⟩ := Snapshot.slash_ok.mp done
    exact .inl ⟨by simp [kind], .congr rfl rfl rfl rfl⟩
  | distributeReward kind _ _ debit done =>
    obtain ⟨_, -, -, rfl⟩ := Snapshot.subBalance_ok.mp debit
    obtain ⟨_, -, -, rfl⟩ := Snapshot.distributeReward_ok.mp done
    exact .inl ⟨by simp [kind], .congr rfl rfl rfl rfl⟩
  | registerVRFKey kind _ _ _ done =>
    obtain ⟨_, -, -, rfl⟩ := Snapshot.setVRFPublicKey_ok.mp done
    exact .inl ⟨by simp [kind], .congr rfl rfl rfl rfl⟩
  | submitEvidence kind _ _ _ done =>
    obtain ⟨_, -, -, rfl⟩ := Snapshot.slash_ok.mp done
    exact .inl ⟨by simp [kind], .congr rfl rfl rfl rfl⟩
end Frame

section History

variable {env : Env} {cp : ChainParams} {tr : List (Snapshot × TimedTx)} {s s' : Snapshot}
  {a : TimedTx}

theorem voteIn_eq_none (h : TxKind.ofCode a.1.type ≠ some .submitValidation) : voteIn env cp (s, a) = none := by
  simp [voteIn, h]

theorem voteIn_of_failed (h : succeeded env cp (s, a) = false) : voteIn env cp (s, a) = none := by
  simp [voteIn, h]

variable {p : SubmitValidationPayload}

theorem voteIn_of_ballot {pl : PayLink} (hsucc : succeeded env cp (s, a) = true)
    (kind : TxKind.ofCode a.1.type = some .submitValidation) (ballot : Ballot env s a.1 a.2 p pl) : voteIn env cp (s, a) = some p := by
  simp [voteIn, hsucc, kind, ballot.payload, Except.toOption]

theorem settlementIn_eq_none (h : voteIn env cp (s, a) = none) : settlementIn env cp (s, a) = none := by
  simp [settlementIn, h]

theorem settlementIn_of_ballot {pl : PayLink} (hvote : voteIn env cp (s, a) = some p)
    (found : s.paylinks[p.payLinkID]? = some pl) :
    settlementIn env cp (s, a) = if cp.requiredValidations ≤ pl.voteCount + 1 then some (p.payLinkID, p.proofHash)
      else none := by
  simp [settlementIn, hvote, found]

theorem ballots_append (tr tr' : List (Snapshot × TimedTx)) (plId : Hash) :
    ballots env cp (tr ++ tr') plId = ballots env cp tr plId ++ ballots env cp tr' plId := by
  simp [ballots]

theorem ballots_skip (h : voteIn env cp (s, a) = none) (plId : Hash) :
    ballots env cp (tr ++ [(s, a)]) plId = ballots env cp tr plId := by
  rw [ballots_append]
  simp [ballots, h]

theorem settlements_append (tr tr' : List (Snapshot × TimedTx)) :
    settlements env cp (tr ++ tr') = settlements env cp tr ++ settlements env cp tr' :=
  List.filterMap_append

theorem settlements_skip (h : settlementIn env cp (s, a) = none) :
    settlements env cp (tr ++ [(s, a)]) = settlements env cp tr := by
  rw [settlements_append]
  simp [settlements, h]

structure VoteInv (env : Env) (cp : ChainParams) (tr : List (Snapshot × TimedTx)) (s : Snapshot) : Prop where
  cast : ∀ plId, (ballots env cp tr plId).Perm (s.getVoters plId)
  absent : ∀ plId : Hash, s.paylinks[plId]? = none → s.getVoters plId = []
  count : ∀ (plId : Hash) pl, s.paylinks[plId]? = some pl → pl.voteCount.toNat = (s.getVoters plId).length
  short : ∀ (plId : Hash) pl, s.paylinks[plId]? = some pl → pl.status = .created →
    pl.voteCount = 0 ∨ pl.voteCount < cp.requiredValidations
  backed : ∀ e ∈ tr, ∀ p, voteIn env cp e = some p → e.1.isActiveValidator e.2.1.fromAddr = true ∧
      s.submittedProofs[p.payLinkID]? = some p.proofHash

theorem getVoters_congr (h : s'.votes = s.votes) (plId : Hash) : s'.getVoters plId = s.getVoters plId := by
  rw [Snapshot.getVoters, Snapshot.getVoters, h]

theorem VoteInv.quiet (h : VoteInv env cp tr s) (hvote : voteIn env cp (s, a) = none)
    (hq : Quiet s s') : VoteInv env cp (tr ++ [(s, a)]) s' := by
  have hvoters := getVoters_congr hq.votes
  refine ⟨fun plId => ?_, fun plId hnone => ?_, fun plId pl hpl => ?_, fun plId pl hpl hopen => ?_, fun e he p hp => ?_⟩
  · rw [ballots_skip hvote, hvoters]
    exact h.cast plId
  · rw [hvoters]
    cases hs : s.paylinks[plId]? with
    | none => exact h.absent plId hs
    | some pl =>
      have hstep := hq.paylinks plId
      rw [hs, hnone] at hstep
      cases hstep
  · rw [hvoters]
    have hstep := hq.paylinks plId
    rw [hpl] at hstep
    rcases hstep.before with ⟨hs, -, count⟩ | ⟨pl₀, hs, count, -⟩
    · rw [h.absent plId hs, count]
      rfl
    · rw [count]
      exact h.count plId pl₀ hs
  · have hstep := hq.paylinks plId
    rw [hpl] at hstep
    rcases hstep.before with ⟨-, -, count⟩ | ⟨pl₀, hs, count, status⟩
    · exact .inl count
    · -- a PayLink that is open now was open before
      have hopen₀ : pl₀.status = .created := by
        rw [hopen] at status
        rcases status with hst | hst | hst
        · exact hst.symm
        · cases hst
        · cases hst
      rw [count]
      exact h.short plId pl₀ hs hopen₀
  · rcases List.mem_append.mp he with he | he
    · rw [hq.submitted]
      exact h.backed e he p hp
    · rw [List.mem_singleton.mp he, hvote] at hp
      cases hp

theorem VoteInv.voted (h : VoteInv env cp tr s) {pl : PayLink} (hvote : voteIn env cp (s, a) = some p)
    (ballot : Ballot env s a.1 a.2 p pl) (hv : Voted cp s a.1.fromAddr p pl s') : VoteInv env cp (tr ++ [(s, a)]) s' := by
  have hvoters := getVoters_congr hv.votes
  have hself := Snapshot.getVoters_recordVote ballot.first
  have hother : ∀ plId, plId ≠ p.payLinkID →
      ((s.recordVote p.payLinkID a.1.fromAddr).getVoters plId).Perm (s.getVoters plId) :=
    fun plId hne => Snapshot.getVoters_recordVote_of_ne hne
  have hpaylinks : ∀ plId : Hash, s'.paylinks[plId]? = if p.payLinkID = plId then some { pl with
        voteCount := pl.voteCount + 1
        status := if cp.requiredValidations ≤ pl.voteCount + 1 then .verified else pl.status }
      else s.paylinks[plId]? := by
    intro plId
    rw [hv.paylinks, getElem?_insert_eq]
  have hcount := h.count _ _ ballot.found
  refine ⟨fun plId => ?_, fun plId hnone => ?_, fun plId pl' hpl => ?_, fun plId pl' hpl hopen => ?_,
    fun e he p' hp => ?_⟩
  · rw [ballots_append, hvoters]
    by_cases heq : p.payLinkID = plId
    · subst heq
      have hlast : ballots env cp [(s, a)] p.payLinkID = [a.1.fromAddr] := by simp [ballots, hvote]
      rw [hlast]
      exact (List.perm_append_singleton _ _).trans (((h.cast _).cons _).trans hself.symm)
    · have hlast : ballots env cp [(s, a)] plId = [] := by simp [ballots, hvote, heq]
      rw [hlast, List.append_nil]
      exact (h.cast plId).trans (hother plId (Ne.symm heq)).symm
  · rw [hpaylinks] at hnone
    by_cases heq : p.payLinkID = plId
    · rw [if_pos heq] at hnone
      cases hnone
    · rw [if_neg heq] at hnone
      have hperm := hother plId (Ne.symm heq)
      rw [h.absent plId hnone] at hperm
      rw [hvoters]
      exact hperm.eq_nil
  · rw [hpaylinks] at hpl
    rw [hvoters]
    by_cases heq : p.payLinkID = plId
    · subst heq
      rw [if_pos rfl] at hpl
      cases hpl
      -- the counter was below the quorum, so one more is no wrap
      have hfits : pl.voteCount.toNat + 1 < 2 ^ 64 := by
        rcases h.short _ _ ballot.found ballot.created with h0 | hlt
        · rw [h0]
          decide
        · have := cp.requiredValidations.toNat_lt
          rw [UInt64.lt_iff_toNat_lt] at hlt
          omega
      have hadd : (pl.voteCount + 1).toNat = pl.voteCount.toNat + 1 := toNat_add_of_fits hfits
      show (pl.voteCount + 1).toNat = _
      rw [hself.length_eq, List.length_cons, hadd, hcount]
    · rw [if_neg heq] at hpl
      rw [(hother plId (Ne.symm heq)).length_eq]
      exact h.count plId pl' hpl
  · rw [hpaylinks] at hpl
    by_cases heq : p.payLinkID = plId
    · rw [if_pos heq] at hpl
      cases hpl
      by_cases hq : cp.requiredValidations ≤ pl.voteCount + 1
      · simp [hq] at hopen
      · exact .inr (UInt64.not_le.mp hq)
    · rw [if_neg heq] at hpl
      exact h.short plId pl' hpl hopen
  · rw [hv.submitted, getElem?_insert_eq]
    rcases List.mem_append.mp he with he | he
    · obtain ⟨hactive, hproof⟩ := h.backed e he p' hp
      refine ⟨hactive, ?_⟩
      by_cases heq : p.payLinkID = p'.payLinkID
      · -- the proof is already on record, and the ballot repeated it
        rw [← heq] at hproof
        rw [if_pos heq, ballot.agrees _ hproof]
      · rw [if_neg heq]
        exact hproof
    · rw [List.mem_singleton.mp he] at hp ⊢
      rw [hvote] at hp
      cases hp
      exact ⟨ballot.active, if_pos rfl⟩

structure SettleInv (env : Env) (cp : ChainParams) (tr : List (Snapshot × TimedTx)) (s : Snapshot) : Prop where
  settled : ∀ plId h, (plId, h) ∈ settlements env cp tr → s.submittedProofs[plId]? = some h ∧ s.isProofUsed h = true ∧
      ∃ pl, s.paylinks[plId]? = some pl ∧ pl.status ≠ .created
  verified : ∀ (plId : Hash) pl, s.paylinks[plId]? = some pl → pl.status = .verified →
    cp.requiredValidations ≤ pl.voteCount ∧ ∃ h, (plId, h) ∈ settlements env cp tr
  used : ∀ h, s.isProofUsed h = true → ∃ plId, (plId, h) ∈ settlements env cp tr
  links : ((settlements env cp tr).map (·.1)).Nodup
  proofs : ((settlements env cp tr).map (·.2)).Nodup

theorem SettleInv.quiet (h : SettleInv env cp tr s) (hvote : voteIn env cp (s, a) = none)
    (hq : Quiet s s') : SettleInv env cp (tr ++ [(s, a)]) s' := by
  have hskip : settlements env cp (tr ++ [(s, a)]) = settlements env cp tr :=
    settlements_skip (settlementIn_eq_none hvote)
  have hused : ∀ x, s'.isProofUsed x = s.isProofUsed x := by
    intro x
    rw [Snapshot.isProofUsed, Snapshot.isProofUsed, hq.used]
  refine ⟨fun plId x hmem => ?_, fun plId pl hpl hver => ?_, fun x hx => ?_, ?_, ?_⟩
  · rw [hskip] at hmem
    obtain ⟨hsub, hux, pl, hpl, hne⟩ := h.settled plId x hmem
    have hstep := hq.paylinks plId
    rw [hpl] at hstep
    obtain ⟨pl', hpl', -, status⟩ := hstep.after
    refine ⟨by rw [hq.submitted]; exact hsub, by rw [hused]; exact hux, pl', hpl', ?_⟩
    rcases status with hst | hst | hst
    · rw [hst]
      exact hne
    · rw [hst]
      decide
    · rw [hst]
      decide
  · rw [hskip]
    have hstep := hq.paylinks plId
    rw [hpl] at hstep
    rcases hstep.before with ⟨-, hst, -⟩ | ⟨pl₀, hs, count, status⟩
    · rw [hver] at hst
      cases hst
    · -- cancelling and failing are the only changes of status, and neither verifies
      have hver₀ : pl₀.status = .verified := by
        rw [hver] at status
        rcases status with hst | hst | hst
        · exact hst.symm
        · cases hst
        · cases hst
      rw [count]
      exact h.verified plId pl₀ hs hver₀
  · rw [hskip]
    rw [hused] at hx
    exact h.used x hx
  · rw [hskip]
    exact h.links
  · rw [hskip]
    exact h.proofs

theorem SettleInv.settled_voted (h : SettleInv env cp tr s) {pl : PayLink} (ballot : Ballot env s a.1 a.2 p pl)
    (hv : Voted cp s a.1.fromAddr p pl s') {plId x : Hash} (hmem : (plId, x) ∈ settlements env cp tr) :
    plId ≠ p.payLinkID ∧ x ≠ p.proofHash ∧ s'.submittedProofs[plId]? = some x ∧
      s'.isProofUsed x = true ∧ ∃ pl, s'.paylinks[plId]? = some pl ∧ pl.status ≠ .created := by
  obtain ⟨hsub, hux, pl₀, hpl, hne⟩ := h.settled plId x hmem
  have hlink : plId ≠ p.payLinkID := by
    intro heq
    rw [heq, ballot.found] at hpl
    cases hpl
    exact hne ballot.created
  have hproof : x ≠ p.proofHash := by
    intro heq
    rw [heq, ballot.unused] at hux
    cases hux
  refine ⟨hlink, hproof, ?_, ?_, pl₀, ?_, hne⟩
  · rw [hv.submitted, getElem?_insert_eq, if_neg hlink.symm]
    exact hsub
  · unfold Snapshot.isProofUsed at hux ⊢
    rw [hv.used]
    split
    · rw [ExtTreeSet.contains_insert, hux, Bool.or_true]
    · exact hux
  · rw [hv.paylinks, getElem?_insert_eq, if_neg hlink.symm]
    exact hpl

theorem SettleInv.voted (h : SettleInv env cp tr s) {pl : PayLink} (hvote : voteIn env cp (s, a) = some p)
    (ballot : Ballot env s a.1 a.2 p pl) (hv : Voted cp s a.1.fromAddr p pl s') : SettleInv env cp (tr ++ [(s, a)]) s' := by
  have hset := settlementIn_of_ballot hvote ballot.found
  by_cases hq : cp.requiredValidations ≤ pl.voteCount + 1
  · -- the quorum: one settlement more, of a PayLink that was open and by a proof that was not used
    rw [if_pos hq] at hset
    have hnew : settlements env cp (tr ++ [(s, a)]) = settlements env cp tr ++ [(p.payLinkID, p.proofHash)] := by
      rw [settlements_append]
      simp [settlements, hset]
    have hpl' : s'.paylinks[p.payLinkID]? = some { pl with
        voteCount := pl.voteCount + 1, status := .verified } := by
      rw [hv.paylinks, getElem?_insert_eq, if_pos rfl, if_pos hq]
    have hused : ∀ x, s'.isProofUsed x = true ↔ x = p.proofHash ∨ s.isProofUsed x = true := by
      intro x
      unfold Snapshot.isProofUsed
      rw [hv.used, if_pos hq, ExtTreeSet.contains_insert, Bool.or_eq_true, beq_iff_eq, LawfulEqCmp.compare_eq_iff_eq]
      exact or_congr_left eq_comm
    refine ⟨fun plId x hmem => ?_, fun plId pl' hpl hver => ?_, fun x hx => ?_, ?_, ?_⟩
    · rw [hnew] at hmem
      rcases List.mem_append.mp hmem with hmem | hmem
      · exact (h.settled_voted ballot hv hmem).2.2
      · obtain ⟨rfl, rfl⟩ := Prod.mk.inj (List.mem_singleton.mp hmem)
        refine ⟨?_, (hused _).mpr (.inl rfl), _, hpl', by simp⟩
        rw [hv.submitted, getElem?_insert_eq, if_pos rfl]
    · rw [hnew]
      by_cases heq : plId = p.payLinkID
      · rw [heq, hpl'] at hpl
        cases hpl
        exact ⟨hq, p.proofHash, by simp [heq]⟩
      · rw [hv.paylinks, getElem?_insert_eq, if_neg (Ne.symm heq)] at hpl
        obtain ⟨hreq, x, hmem⟩ := h.verified plId pl' hpl hver
        exact ⟨hreq, x, List.mem_append_left _ hmem⟩
    · rw [hnew]
      rcases (hused x).mp hx with heq | hx
      · exact ⟨p.payLinkID, by simp [heq]⟩
      · obtain ⟨plId, hmem⟩ := h.used x hx
        exact ⟨plId, List.mem_append_left _ hmem⟩
    · rw [hnew, List.map_append, List.nodup_append]
      refine ⟨h.links, by simp, ?_⟩
      intro plId hmem plId' hmem' heq
      obtain ⟨⟨_, _⟩, hold, rfl⟩ := List.mem_map.mp hmem
      rw [List.map_singleton, List.mem_singleton] at hmem'
      exact (h.settled_voted ballot hv hold).1 (heq.trans hmem')
    · rw [hnew, List.map_append, List.nodup_append]
      refine ⟨h.proofs, by simp, ?_⟩
      intro x hmem x' hmem' heq
      obtain ⟨⟨_, _⟩, hold, rfl⟩ := List.mem_map.mp hmem
      rw [List.map_singleton, List.mem_singleton] at hmem'
      exact (h.settled_voted ballot hv hold).2.1 (heq.trans hmem')
  · -- short of the quorum: nothing is settled, and the PayLink stays open
    rw [if_neg hq] at hset
    have hskip : settlements env cp (tr ++ [(s, a)]) = settlements env cp tr := settlements_skip hset
    refine ⟨fun plId x hmem => ?_, fun plId pl' hpl hver => ?_, fun x hx => ?_, ?_, ?_⟩
    · rw [hskip] at hmem
      exact (h.settled_voted ballot hv hmem).2.2
    · rw [hskip]
      by_cases heq : plId = p.payLinkID
      · rw [heq, hv.paylinks, getElem?_insert_eq, if_pos rfl, if_neg hq] at hpl
        cases hpl
        rw [show _ = Status.created from ballot.created] at hver
        cases hver
      · rw [hv.paylinks, getElem?_insert_eq, if_neg (Ne.symm heq)] at hpl
        exact h.verified plId pl' hpl hver
    · rw [hskip]
      unfold Snapshot.isProofUsed at hx
      rw [hv.used, if_neg hq] at hx
      exact h.used x hx
    · rw [hskip]
      exact h.links
    · rw [hskip]
      exact h.proofs

theorem stepTx_quorum_cases (env : Env) (cp : ChainParams) (s : Snapshot) (a : TimedTx) :
    (voteIn env cp (s, a) = none ∧ Quiet s (stepTx env cp s a)) ∨
    ∃ p pl, voteIn env cp (s, a) = some p ∧ Ballot env s a.1 a.2 p pl ∧
      Voted cp s a.1.fromAddr p pl (stepTx env cp s a) := by
  rcases stepTx_cases env cp s a with ⟨hsucc, s₁, hs, heq⟩ | ⟨hfail, heq⟩
  · rw [heq]
    rcases hs.effect.quorum_cases with ⟨kind, hq⟩ | ⟨kind, p, pl, ballot, hv⟩
    · exact .inl ⟨voteIn_eq_none kind, hq.votes, hq.submitted, hq.used, hq.paylinks⟩
    · exact .inr ⟨p, pl, voteIn_of_ballot hsucc kind ballot, ballot, hv.votes, hv.submitted, hv.used, hv.paylinks⟩
  · rw [heq]
    exact .inl ⟨voteIn_of_failed hfail, .congr rfl rfl rfl rfl⟩

theorem quorum_step (h : VoteInv env cp tr s ∧ SettleInv env cp tr s) :
    VoteInv env cp (tr ++ [(s, a)]) (stepTx env cp s a) ∧ SettleInv env cp (tr ++ [(s, a)]) (stepTx env cp s a) := by
  rcases stepTx_quorum_cases env cp s a with ⟨hvote, hq⟩ | ⟨p, pl, hvote, ballot, hv⟩
  · exact ⟨h.1.quiet hvote hq, h.2.quiet hvote hq⟩
  · exact ⟨h.1.voted hvote ballot hv, h.2.voted hvote ballot hv⟩

theorem quorum_genesis (env : Env) (g : GenesisConfig) : VoteInv env (.ofGenesis g) [] (newStateDB g).live ∧
      SettleInv env (.ofGenesis g) [] (newStateDB g).live := by
  have hgen := TokensOnly.genesis g
  have hvoters : ∀ plId, (newStateDB g).live.getVoters plId = [] := by
    intro plId
    rw [getVoters_congr hgen.votes]
    rfl
  have hnone : ∀ (plId : Hash) pl, (newStateDB g).live.paylinks[plId]? ≠ some pl := by
    intro plId pl hpl
    rw [hgen.paylinks] at hpl
    cases hpl
  refine ⟨⟨fun plId => ?_, fun plId _ => hvoters plId, fun plId pl hpl => absurd hpl (hnone plId pl),
      fun plId pl hpl => absurd hpl (hnone plId pl), by simp⟩,
    ⟨by simp [settlements], fun plId pl hpl => absurd hpl (hnone plId pl), fun x hx => ?_, .nil, .nil⟩⟩
  · rw [hvoters]
    exact .nil
  · unfold Snapshot.isProofUsed at hx
    rw [hgen.usedProofs] at hx
    cases hx

theorem quorum_invariant (env : Env) (g : GenesisConfig) (calls : List BlockCall) :
    VoteInv env (.ofGenesis g) (history env g calls) (reached env g calls) ∧
      SettleInv env (.ofGenesis g) (history env g calls) (reached env g calls) :=
  history_induction (I := fun tr s => VoteInv env (.ofGenesis g) tr s ∧ SettleInv env (.ofGenesis g) tr s)
    (quorum_genesis env g) (fun _ _ _ h => quorum_step h) (timedTxs calls)
end History

/-- **Quorum soundness.** -/
theorem quorum_sound (env : Env) (eventBus : Bool) (g : GenesisConfig) (calls : List BlockCall)
    (plId : Hash) (pl : PayLink)
    (found : (runBlocks env (newExecutor g eventBus) calls).db.live.getPayLink plId = some pl) :
    let s := (runBlocks env (newExecutor g eventBus) calls).db.live
    let cp := ChainParams.ofGenesis g
    pl.voteCount.toNat = (s.getVoters plId).length ∧ (s.getVoters plId).Nodup ∧
    (∀ v ∈ s.getVoters plId, ∃ e ∈ history env g calls, ∃ p, voteIn env cp e = some p ∧
      p.payLinkID = plId ∧ e.2.1.fromAddr = v ∧ e.1.isActiveValidator v = true ∧
      s.submittedProofs[plId]? = some p.proofHash) ∧
    (∀ v, (ballots env cp (history env g calls) plId).count v = if v ∈ s.getVoters plId then 1 else 0) ∧
    (pl.status = .verified → cp.requiredValidations ≤ pl.voteCount ∧
      ∃ h, s.submittedProofs[plId]? = some h ∧ s.isProofUsed h = true) := by
  obtain ⟨hv, hs⟩ := quorum_invariant env g calls
  rw [runBlocks_live] at found ⊢
  have hnodup := Snapshot.nodup_getVoters (reached env g calls) plId
  refine ⟨hv.count plId pl found, hnodup, ?_, ?_, ?_⟩
  · intro v hmem
    have hcast := (hv.cast plId).mem_iff.mpr hmem
    obtain ⟨e, he, rfl⟩ := List.mem_map.mp hcast
    obtain ⟨he, hany⟩ := List.mem_filter.mp he
    cases hp : voteIn env (.ofGenesis g) e with
    | none => simp [hp] at hany
    | some p =>
      have heq : p.payLinkID = plId := by simpa [hp] using hany
      obtain ⟨hactive, hsub⟩ := hv.backed e he p hp
      rw [heq] at hsub
      exact ⟨e, he, p, hp, heq, rfl, hactive, hsub⟩
  · intro v
    rw [(hv.cast plId).count_eq, hnodup.count]
  · intro hver
    obtain ⟨hreq, h, hmem⟩ := hs.verified plId pl found hver
    obtain ⟨hsub, hused, -⟩ := hs.settled plId h hmem
    exact ⟨hreq, h, hsub, hused⟩

/-- The PayLink of the development network after its one vote. -/
theorem quorum_sound_quietRun :
    let s := (runBlocks Devnet.env (newExecutor Devnet.genesis true) Devnet.quietRun).db.live
    s.getPayLink Devnet.payLinkID = some Devnet.settledPayLink ∧
    Devnet.settledPayLink.voteCount.toNat = (s.getVoters Devnet.payLinkID).length := by
  have found : (runBlocks Devnet.env (newExecutor Devnet.genesis true)
      Devnet.quietRun).db.live.getPayLink Devnet.payLinkID = some Devnet.settledPayLink := by
    decide +kernel
  exact ⟨found, (quorum_sound Devnet.env true Devnet.genesis Devnet.quietRun Devnet.payLinkID
    Devnet.settledPayLink found).1⟩

def VerifiedIn (s : Snapshot) (plId : Hash) : Prop :=
  ∃ pl, s.paylinks[plId]? = some pl ∧ pl.status = .verified

theorem settlementIn_iff (env : Env) (cp : ChainParams) (s : Snapshot) (a : TimedTx) (plId : Hash) :
    (¬ VerifiedIn s plId ∧ VerifiedIn (stepTx env cp s a) plId) ↔ ∃ h, settlementIn env cp (s, a) = some (plId, h) := by
  rcases stepTx_quorum_cases env cp s a with ⟨hvote, hq⟩ | ⟨p, pl, hvote, ballot, hv⟩
  · rw [settlementIn_eq_none hvote]
    constructor
    · intro ⟨hnot, pl, hpl, hver⟩
      have hstep := hq.paylinks plId
      rw [hpl] at hstep
      rcases hstep.before with ⟨-, hst, -⟩ | ⟨pl₀, hs, -, hst | hst | hst⟩
      · rw [hver] at hst
        cases hst
      · exact absurd ⟨pl₀, hs, by rw [← hst, hver]⟩ hnot
      · rw [hver] at hst
        cases hst
      · rw [hver] at hst
        cases hst
    · intro ⟨h, hnone⟩
      cases hnone
  · rw [settlementIn_of_ballot hvote ballot.found]
    unfold VerifiedIn
    rw [hv.paylinks, getElem?_insert_eq]
    by_cases heq : p.payLinkID = plId
    · subst heq
      have hcreated := ballot.created
      rw [if_pos rfl]
      split
      · next hquorum =>
        constructor
        · intro _
          exact ⟨p.proofHash, rfl⟩
        · intro _
          refine ⟨?_, _, rfl, rfl⟩
          intro ⟨pl₀, hs, hver⟩
          rw [ballot.found] at hs
          cases hs
          rw [hcreated] at hver
          cases hver
      · constructor
        · intro ⟨_, pl', hpl, hver⟩
          cases hpl
          rw [show _ = Status.created from hcreated] at hver
          cases hver
        · intro ⟨h, hnone⟩
          cases hnone
    · rw [if_neg heq]
      constructor
      · intro ⟨hnot, hver⟩
        exact absurd hver hnot
      · intro ⟨h, hsome⟩
        split at hsome
        · exact absurd (Prod.mk.inj (Option.some.inj hsome)).1 heq
        · cases hsome

/-- **Anti-replay.** -/
theorem no_proof_replay (env : Env) (eventBus : Bool) (g : GenesisConfig) (calls : List BlockCall) :
    let s := (runBlocks env (newExecutor g eventBus) calls).db.live
    let cp := ChainParams.ofGenesis g
    let settled := settlements env cp (history env g calls)
    (∀ e ∈ history env g calls, ∀ plId, (¬ VerifiedIn e.1 plId ∧ VerifiedIn (stepTx env cp e.1 e.2) plId) ↔
        ∃ h, settlementIn env cp e = some (plId, h)) ∧
    (settled.map (·.1)).Nodup ∧ (settled.map (·.2)).Nodup ∧
    (∀ h, s.isProofUsed h = true → ∃! plId, (plId, h) ∈ settled ∧ s.submittedProofs[plId]? = some h) ∧
    (∀ plId h, (plId, h) ∈ settled → s.submittedProofs[plId]? = some h ∧ s.isProofUsed h = true) := by
  obtain ⟨-, hs⟩ := quorum_invariant env g calls
  rw [runBlocks_live]
  refine ⟨fun e _ plId => settlementIn_iff env _ e.1 e.2 plId, hs.links, hs.proofs, ?_, ?_⟩
  · intro h hused
    obtain ⟨plId, hmem⟩ := hs.used h hused
    refine ⟨plId, ⟨hmem, (hs.settled plId h hmem).1⟩, ?_⟩
    intro plId' ⟨hmem', _⟩
    -- two settlements by one proof are one settlement
    have hinj := List.inj_on_of_nodup_map hs.proofs hmem' hmem rfl
    exact (Prod.mk.inj hinj).1
  · intro plId h hmem
    obtain ⟨hsub, hused, -⟩ := hs.settled plId h hmem
    exact ⟨hsub, hused⟩

end LinkMint.Chain

import LinkMint.Chain.Proof.StateRoot
import LinkMint.Chain.Proof.Twin

/-!
# The state root and execution

Two reachable states with one root are twins (`Twin.of_sameHashed`), so a transaction goes the
same way in both unless it reads what the root leaves out: the vote set, the submitted proofs
and the total supply. Only a vote does. `AgreeOn` is enough for it to go the same way and not
always necessary: different voters can come to the same payouts.
-/

namespace LinkMint.Chain

open LinkMint.Lib Std

variable {env : Env} {compact : Bytes → Bytes} {cp : ChainParams} {strict : Prop}
  {s s' s₁ : Snapshot} {tx : Transaction} {ts : Int64}

theorem payLinksLike_iff {m m' : ExtTreeMap Hash PayLink} : PayLinksLike compact m m' ↔
      m.map (fun _ pl => pl.compacted compact) = m'.map (fun _ pl => pl.compacted compact) := by
  constructor
  · intro h
    refine ExtTreeMap.ext_getElem? fun id => ?_
    have hid := h id
    rw [ExtTreeMap.getElem?_map, ExtTreeMap.getElem?_map]
    generalize m[id]? = o at hid
    generalize m'[id]? = o' at hid
    cases hid with
    | none => rfl
    | some hpl => exact congrArg some (payLinkLike_iff.mp hpl)
  · intro h id
    have hid := congrArg (fun m : ExtTreeMap Hash PayLink => m[id]?) h
    simp only [ExtTreeMap.getElem?_map] at hid
    generalize m[id]? = o at hid
    generalize m'[id]? = o' at hid
    cases o with
    | none =>
      cases o' with
      | none => exact .none
      | some pl' => cases hid
    | some pl =>
      cases o' with
      | none => cases hid
      | some pl' => exact .some (payLinkLike_iff.mpr (Option.some.inj hid))

theorem computePayLinkRoot_compacted (laws : JsonLaws compact env) (m : ExtTreeMap Hash PayLink) :
    computePayLinkRoot env (m.map fun _ (pl : PayLink) => pl.compacted compact) = computePayLinkRoot env m := by
  unfold computePayLinkRoot
  rw [ExtTreeMap.toList_map, List.map_map]
  congr 1
  refine List.map_congr_left fun e _ => ?_
  refine laws.payLink _ _ ?_
  simp only [PayLink.compacted, laws.idempotent]

theorem Twin.root_eq (laws : JsonLaws compact env) (h : Twin compact strict s s') :
    computeStateRoot env s' = computeStateRoot env s := by
  have hroot : computePayLinkRoot env s'.paylinks = computePayLinkRoot env s.paylinks := by
    rw [← computePayLinkRoot_compacted laws, ← computePayLinkRoot_compacted laws s.paylinks,
      payLinksLike_iff.mp h.paylinks]
  have hroots : stateRoots env s' = stateRoots env s := by
    unfold stateRoots
    rw [hroot]
    rw [h.same]
    rfl
  unfold computeStateRoot
  rw [hroots]

theorem SameHashed.symm (h : SameHashed compact s s') : SameHashed compact s' s :=
  ⟨h.accounts.symm, h.paylinks.symm, h.validators.symm, h.usedProofs.symm, h.operatorApprovals.symm,
    h.processedEvidence.symm⟩

theorem Keyed.vrfKeys_eq (hs : Keyed s) (hs' : Keyed s') (h : s.validators = s'.validators) : s.vrfKeys = s'.vrfKeys := by
  refine ExtTreeMap.ext_getElem? fun addr => Option.ext fun key => ?_
  have hkey := hs'.vrfKeys addr key
  rw [← h] at hkey
  exact (hs.vrfKeys addr key).trans hkey.symm

theorem Twin.of_sameHashed (hs : Keyed s) (hs' : Keyed s') (h : SameHashed compact s s') : Twin compact False s s' := by
  refine ⟨?_, payLinksLike_iff.mpr h.paylinks, False.elim, False.elim⟩
  have hkeys := hs.vrfKeys_eq hs' h.validators
  obtain ⟨haccounts, -, hvalidators, hproofs, hoperators, hevidence⟩ := h
  cases s
  cases s'
  simp only at haccounts hvalidators hproofs hoperators hevidence hkeys
  subst haccounts hvalidators hproofs hoperators hevidence hkeys
  rfl

theorem AgreeOn.symm (ht : Twin compact strict s s') (hpl : PayLinksLike compact s'.paylinks s.paylinks)
    (h : AgreeOn env cp tx ts s s') : AgreeOn env cp tx ts s' s := by
  intro kind nonce p pl payload active unused found created unexpired
  obtain ⟨rules, found', -⟩ := hpl.found found
  rw [ht.getNonce] at nonce
  rw [ht.same] at active unused
  have htally := h kind nonce p _ payload active unused found' created unexpired
  refine ⟨htally.isOpen.symm, fun hopen quorum => ?_⟩
  obtain ⟨hall, hsupply⟩ := htally.quorum (htally.isOpen.mpr hopen) quorum
  exact ⟨fun validator => (hall validator).symm, hsupply.symm⟩

/-- `tx` succeeds or fails alike on both, and the roots afterwards are the same. -/
structure SameExecution (env : Env) (ex ex' : Executor) (tx : Transaction) (ts : Int64) : Prop where
  success : (ex.executeTx env tx ts).1.success = (ex'.executeTx env tx ts).1.success
  root : (ex.executeTx env tx ts).1.success = true → computeStateRoot env (ex.executeTx env tx ts).2.db.live =
      computeStateRoot env (ex'.executeTx env tx ts).2.db.live
  block : computeStateRoot env (ex.executeOne env tx ts).2.db.live =
    computeStateRoot env (ex'.executeOne env tx ts).2.db.live

theorem executeTx_success {ex : Executor} (hnonce : tx.nonce = ex.db.live.getNonce tx.fromAddr)
    (heffect : Effect env ex.db.params ex.db.live tx ts s₁) :
    (ex.executeTx env tx ts).1.success = true ∧ (ex.executeTx env tx ts).2.db.live = s₁.incrementNonce tx.fromAddr := by
  obtain ⟨t', hrun, hstate⟩ := leads_executeTx (t := ⟨ex.db.live, ex.pendingEvt⟩)
    |>.mpr ⟨hnonce, s₁, heffect, rfl⟩
  unfold Yields at hrun
  unfold Executor.executeTx
  rw [hrun]
  exact ⟨rfl, hstate⟩

theorem effect_of_success {ex : Executor} (h : (ex.executeTx env tx ts).1.success = true) :
    tx.nonce = ex.db.live.getNonce tx.fromAddr ∧ ∃ s₁, Effect env ex.db.params ex.db.live tx ts s₁ := by
  unfold Executor.executeTx at h
  cases hrun : (Chain.executeTx env ex.db.params tx ts).run
      { state := ex.db.live, pending := ex.pendingEvt } with
  | error e t' =>
    rw [hrun] at h
    cases h
  | ok a t' =>
    obtain ⟨hnonce, s₁, heffect, -⟩ := leads_executeTx.mp ⟨t', hrun, rfl⟩
    exact ⟨hnonce, s₁, heffect⟩

theorem Twin.executeTx {ex ex' : Executor} (laws : JsonLaws compact env)
    (hparams : ex'.db.params = ex.db.params) (h : Twin compact strict ex.db.live ex'.db.live)
    (hagree : AgreeOn env ex.db.params tx ts ex.db.live ex'.db.live) (hok : (ex.executeTx env tx ts).1.success = true) :
    (ex'.executeTx env tx ts).1.success = true ∧ computeStateRoot env (ex.executeTx env tx ts).2.db.live =
        computeStateRoot env (ex'.executeTx env tx ts).2.db.live := by
  obtain ⟨hnonce, s₁, heffect⟩ := effect_of_success hok
  obtain ⟨-, hlive⟩ := executeTx_success hnonce heffect
  obtain ⟨s₁', heffect', htwin⟩ := heffect.twin laws h (.refl tx) hagree hnonce
  rw [← hparams] at heffect'
  obtain ⟨hok', hlive'⟩ := executeTx_success (hnonce.trans (h.getNonce _).symm) heffect'
  refine ⟨hok', ?_⟩
  rw [hlive, hlive']
  exact ((htwin.incrementNonce tx.fromAddr).root_eq laws).symm

theorem Twin.applyTx (laws : JsonLaws compact env) (h : Twin compact strict s s')
    (h' : Twin compact strict s' s) (hagree : AgreeOn env cp tx ts s s') :
    Twin compact strict (Chain.applyTx env cp s tx ts) (Chain.applyTx env cp s' tx ts) := by
  rcases applyTx_cases env cp s tx ts with ⟨s₁, hstep, heq⟩ | ⟨⟨e, herr⟩, heq⟩
  · obtain ⟨s₁', hstep', htwin⟩ := hstep.twin laws h (.refl tx) hagree
    rw [heq, applyTx_of_step hstep']
    exact htwin.incrementNonce _
  · rcases applyTx_cases env cp s' tx ts with ⟨s₁', hstep', heq'⟩ | ⟨-, heq'⟩
    · -- the twin's success would be one here
      obtain ⟨s₁, hstep, -⟩ := hstep'.twin laws h' (.refl tx) (hagree.symm h h'.paylinks)
      obtain ⟨t, hok, -⟩ := outcome_ok_iff.mpr ⟨s₁, hstep, rfl⟩
      rw [herr] at hok
      cases hok
    · rw [heq, heq']
      exact h

theorem SameExecution.of_twins {ex ex' : Executor} (laws : JsonLaws compact env)
    (hparams : ex'.db.params = ex.db.params) (h : Twin compact strict ex.db.live ex'.db.live)
    (h' : Twin compact strict ex'.db.live ex.db.live) (hagree : AgreeOn env ex.db.params tx ts ex.db.live ex'.db.live) :
    SameExecution env ex ex' tx ts := by
  have hagree' := hagree.symm h h'.paylinks
  rw [← hparams] at hagree'
  refine ⟨?_, fun hok => (h.executeTx laws hparams hagree hok).2, ?_⟩
  · rw [Bool.eq_iff_iff]
    exact ⟨fun hok => (h.executeTx laws hparams hagree hok).1,
      fun hok => (h'.executeTx laws hparams.symm hagree' hok).1⟩
  · obtain ⟨-, hdb, -, -⟩ := executeOne_spec env ex tx ts
    obtain ⟨-, hdb', -, -⟩ := executeOne_spec env ex' tx ts
    rw [hdb, hdb', hparams]
    exact ((h.applyTx laws h' hagree).root_eq laws).symm

def votedNet : Env :=
  Testnet.withDigests
    (Testnet.env [Devnet.stakeTx, Testnet.stake2Tx, Devnet.createTx, Devnet.voteTx, Testnet.vote2Tx,
      Testnet.idleTx, Testnet.idle2Tx, Testnet.voteLateTx, Testnet.voteLate2Tx])
    Testnet.votedDigests

def votedEnv : Env := Testnet.spaced votedNet

def votedExecutor (calls : List BlockCall) : Executor :=
  runBlocks votedEnv (newExecutor Testnet.genesis true) calls

structure OneVote (s : Snapshot) : Prop where
  accounts : s.accounts.toList = (votedExecutor Testnet.votedRun).db.live.accounts.toList
  paylinks : s.paylinks.toList = (votedExecutor Testnet.votedRun).db.live.paylinks.toList
  validators : s.validators.toList = (votedExecutor Testnet.votedRun).db.live.validators.toList
  operators : s.operatorApprovals.toList = []
  hashed : ((rootHashed votedEnv (votedExecutor Testnet.votedRun).db.live ++ rootHashed votedEnv s).all
    fun data => (Testnet.votedDigests.find? (·.1 = data)).isSome) = true
  root : computeStateRoot votedEnv (votedExecutor Testnet.votedRun).db.live = computeStateRoot votedEnv s

instance (s : Snapshot) : Decidable (OneVote s) :=
  decidable_of_iff (_ ∧ _ ∧ _ ∧ _ ∧ _ ∧ _)
    ⟨fun ⟨h₁, h₂, h₃, h₄, h₅, h₆⟩ => ⟨h₁, h₂, h₃, h₄, h₅, h₆⟩, fun ⟨h₁, h₂, h₃, h₄, h₅, h₆⟩ => ⟨h₁, h₂, h₃, h₄, h₅, h₆⟩⟩

namespace OneVote
theorem collisionFree (h : OneVote s) :
    CollisionFree votedEnv (rootHashed votedEnv (votedExecutor Testnet.votedRun).db.live ++ rootHashed votedEnv s) := by
  have hfree : CollisionFree votedNet (rootHashed votedEnv (votedExecutor Testnet.votedRun).db.live ++
      rootHashed votedEnv s) :=
    collisionFree_withDigests (by decide +kernel) (by decide +kernel) h.hashed
  exact ⟨hfree.injective, hfree.nonzero⟩

theorem encodes (h : OneVote s) : Encodes votedEnv Testnet.compactJSON (votedExecutor Testnet.votedRun).db.live s := by
  have hsome : ((votedExecutor Testnet.votedRun).db.live.accounts.toList.map (accountLeaf votedEnv)).Nodup ∧
      ((votedExecutor Testnet.votedRun).db.live.paylinks.toList.map (payLinkLeaf votedEnv)).Nodup ∧
      ((votedExecutor Testnet.votedRun).db.live.validators.toList.map
        (validatorLeaf votedEnv)).Nodup ∧
      (votedExecutor Testnet.votedRun).db.live.operatorApprovals.toList = [] ∧
      ((((votedExecutor Testnet.votedRun).db.live.accounts.toList).map (accountLeaf votedEnv) ++
        ((votedExecutor Testnet.votedRun).db.live.paylinks.toList).map (payLinkLeaf votedEnv) ++
        ((votedExecutor Testnet.votedRun).db.live.validators.toList).map (validatorLeaf votedEnv)).all
          fun data => data.length != 64) = true := by
    decide +kernel
  obtain ⟨haccounts, hpaylinks, hvalidators, hoperators, hsizes⟩ := hsome
  constructor
  · rw [h.accounts]
    exact encoded_apart haccounts
  · rw [h.paylinks]
    intro e he e' he' heq
    rw [encoded_apart hpaylinks e he e' he' heq]
  · rw [h.validators]
    intro e he e' he' heq
    rw [encoded_apart hvalidators e he e' he' heq]
  · rw [h.operators, hoperators]
    simp
  · rw [h.accounts, h.paylinks, h.validators, h.operators, hoperators]
    intro data hdata
    have hmem : data ∈ (votedExecutor Testnet.votedRun).db.live.accounts.toList.map (accountLeaf votedEnv) ++
        (votedExecutor Testnet.votedRun).db.live.paylinks.toList.map (payLinkLeaf votedEnv) ++
        (votedExecutor Testnet.votedRun).db.live.validators.toList.map (validatorLeaf votedEnv) := by
      simp only [List.map_append, List.mem_append, List.append_nil, List.map_nil, or_self] at hdata ⊢
      exact hdata
    simpa using List.all_eq_true.mp hsizes data hmem
end OneVote

-- both in one evaluation, which shares what they have in common
theorem oneVote_runs : OneVote (votedExecutor Testnet.votedBackRun).db.live ∧
    OneVote (votedExecutor Testnet.votedSwappedRun).db.live := by
  decide +kernel

end LinkMint.Chain

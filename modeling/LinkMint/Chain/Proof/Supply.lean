import LinkMint.Chain.Devnet
import LinkMint.Chain.Proof.Payouts
import LinkMint.Chain.Proof.Votes

/-!
# Supply conservation

`Conserved`: every token is in an account or in a stake, and `totalSupply` counts them. It is
kept by every step that is `SupplySafe`.
-/

namespace LinkMint.Chain

open LinkMint.Lib Std

structure Conserved (cp : ChainParams) (s : Snapshot) : Prop where
  books : balances s + stakes s = s.totalSupply.toNat
  cap : s.totalSupply ≤ cp.maxSupply

namespace Conserved
variable {cp : ChainParams} {s s' : Snapshot} {addr : Address} {amount : UInt64}

theorem moves {a b c : ℤ} (h : Conserved cp s) (m : Moves s s' a b c) (hsum : a + b = c) (hc : c ≤ 0) : Conserved cp s' := by
  obtain ⟨hbooks, hcap⟩ := h
  obtain ⟨m₁, m₂, m₃⟩ := m
  refine ⟨by omega, ?_⟩
  rw [UInt64.le_iff_toNat_le] at hcap ⊢
  omega

theorem congr (h : Conserved cp s) (ha : s'.accounts = s.accounts)
    (hv : s'.validators = s.validators) (ht : s'.totalSupply = s.totalSupply) : Conserved cp s' :=
  h.moves (.none ha hv ht) rfl le_rfl

theorem incrementNonce (h : Conserved cp s) : Conserved cp (s.incrementNonce addr) := by
  refine ⟨?_, h.cap⟩
  have hb := h.books
  rw [Snapshot.balances_incrementNonce]
  exact hb

theorem mint (h : Conserved cp s) (hm : s.mintTokens cp addr amount = .ok s')
    (fits : s.totalSupply.toNat + amount.toNat < 2 ^ 64) :
    Conserved cp s' ∧ s'.totalSupply.toNat = s.totalSupply.toNat + amount.toNat := by
  obtain ⟨hcap, rfl⟩ := Snapshot.mintTokens_ok.mp hm
  have hb := h.books
  have hsupply : (s.totalSupply + amount).toNat = s.totalSupply.toNat + amount.toNat := toNat_add_of_fits fits
  have hbal := Snapshot.balances_addBalance (s := s) addr (show balances s + amount.toNat < 2 ^ 64 by omega)
  refine ⟨⟨?_, hcap⟩, hsupply⟩
  show balances (s.addBalance addr amount) + stakes s = (s.totalSupply + amount).toNat
  omega
end Conserved

section Fees

variable {cp : ChainParams} {s s' : Snapshot}

theorem Conserved.credits {payments : List ValidatorPayout} (h : Conserved cp s)
    (room : s.totalSupply.toNat + amounts payments ≤ cp.maxSupply.toNat) :
    Conserved cp (payments.foldl Snapshot.credit s) := by
  induction payments generalizing s with
  | nil => exact h
  | cons p payments ih =>
    unfold amounts at room ih
    rw [List.map_cons, List.sum_cons] at room
    have hlt := cp.maxSupply.toNat_lt
    obtain ⟨hp, hsupply⟩ := h.mint (mintTokens_credit cp s p (by omega)) (by omega)
    exact ih hp (by omega)

theorem Conserved.distributeFees {fee : FeeBreakdown} {voters : List Address}
    (h : Conserved cp s) (hvoters : voters.Nodup) (hfits : MintFits cp s fee) :
    Conserved cp (Chain.distributeFees cp fee voters s).2 := by
  have hweights : (voters.map (weight s)).sum < 2 ^ 64 := by
    have hle := sum_weight_le_stakes (s := s) hvoters
    have hb := h.books
    have hlt := s.totalSupply.toNat_lt
    omega
  by_cases hfee : fee.totalFee = 0
  · simp only [Chain.distributeFees, if_pos hfee]
    exact h
  by_cases hstake : totalVoterStake s voters = 0
  · simp only [Chain.distributeFees, if_neg hfee, if_pos hstake]
    exact h
  by_cases hcap : s.totalSupply + (fee.validatorReward + fee.treasuryAmount) > cp.maxSupply
  · simp only [Chain.distributeFees, if_neg hfee, if_neg hstake, if_pos hcap]
    exact h
  have htrue := hfits (UInt64.not_lt.mp hcap)
  have hrewards := amounts_rewards fee hweights hstake
  rw [distributeFees_eq hfee hstake hcap htrue hrewards]
  refine Conserved.congr (h.credits ?_) rfl rfl rfl
  rw [amounts_payments cp hrewards, ← Nat.add_assoc]
  exact room_of_mintFits hcap htrue

theorem Conserved.feeState {plID : Hash} {amount : UInt64} (h : Conserved cp s)
    (fits : MintFits cp s (cp.calculator.calculateFee amount)) : Conserved cp (Chain.feeState cp plID amount s) := by
  have hd := h.distributeFees (s.nodup_getVoters plID) fits
  unfold Chain.feeState collectAndDistributeFees
  simp only
  split
  · exact h
  · split
    · exact h
    · generalize Chain.distributeFees cp (cp.calculator.calculateFee amount) (s.getVoters plID) s = r
        at hd ⊢
      obtain ⟨_ | payouts, s₁⟩ := r
      · exact hd
      · exact hd
end Fees

/-- What one transaction must meet for the books to stay right. A withdrawal that is due must not
    exceed the stake, as it does after a slash during the cooldown; and where a vote settles a
    PayLink, the cap check on its fee must not pass by a wrap. -/
structure SupplySafe (env : Env) (cp : ChainParams) (s : Snapshot) (a : TimedTx) : Prop where
  withdrawal : TxKind.ofCode a.1.type = some .completeUnstake → Admitted env s a.1 →
    ∀ v, s.validators[a.1.fromAddr]? = some v → v.withdrawableAt ≤ a.2 →
      v.pendingWithdrawal ≤ v.stakedAmount
  fee : TxKind.ofCode a.1.type = some .submitValidation → Admitted env s a.1 →
    ∀ p pl, Ballot env s a.1 a.2 p pl → cp.requiredValidations ≤ pl.voteCount + 1 →
      evaluateRules env pl
        (settleContext (counted s a.1 p pl) a.1 a.2 p.payLinkID pl) = .ok () →
      MintFits cp s (cp.calculator.calculateFee pl.amount)

def ballotOpen (s : Snapshot) (tx : Transaction) (ts : Int64) (p : SubmitValidationPayload)
    (pl : PayLink) : Bool :=
  s.isActiveValidator tx.fromAddr && !s.isProofUsed p.proofHash && pl.status == .created &&
    decide (ts ≤ pl.expiry) && !s.hasVoted p.payLinkID tx.fromAddr &&
    (s.submittedProofs[p.payLinkID]?).all (· == p.proofHash)

theorem ballot_iff {env : Env} {s : Snapshot} {tx : Transaction} {ts : Int64}
    {p : SubmitValidationPayload} {pl : PayLink} : Ballot env s tx ts p pl ↔
      env.decode.submitValidation tx.payload = .ok p ∧ s.paylinks[p.payLinkID]? = some pl ∧
        ballotOpen s tx ts p pl = true := by
  have hagrees : (s.submittedProofs[p.payLinkID]?).all (· == p.proofHash) = true ↔
      ∀ h, s.submittedProofs[p.payLinkID]? = some h → h = p.proofHash := by
    cases s.submittedProofs[p.payLinkID]? with
    | none => simp
    | some h => simp
  unfold ballotOpen
  simp only [Bool.and_eq_true, hagrees, Bool.not_eq_eq_eq_not, Bool.not_true, beq_iff_eq, decide_eq_true_eq]
  constructor
  · intro h
    exact ⟨h.payload, h.found, ⟨⟨⟨⟨h.active, h.unused⟩, h.created⟩, h.unexpired⟩, h.first⟩, h.agrees⟩
  · intro ⟨hp, hpl, ⟨⟨⟨⟨ha, hu⟩, hc⟩, hx⟩, hf⟩, hag⟩
    exact ⟨hp, ha, hu, hpl, hc, hx, hf, hag⟩

instance (env : Env) (cp : ChainParams) (s : Snapshot) (a : TimedTx) :
    Decidable (SupplySafe env cp s a) :=
  decidable_of_iff
    ((TxKind.ofCode a.1.type = some .completeUnstake → Admitted env s a.1 →
        ∀ v ∈ s.validators[a.1.fromAddr]?, v.withdrawableAt ≤ a.2 →
          v.pendingWithdrawal ≤ v.stakedAmount) ∧
      (TxKind.ofCode a.1.type = some .submitValidation → Admitted env s a.1 →
        ∀ p ∈ (env.decode.submitValidation a.1.payload).toOption,
        ∀ pl ∈ s.paylinks[p.payLinkID]?, ballotOpen s a.1 a.2 p pl = true →
          cp.requiredValidations ≤ pl.voteCount + 1 →
          evaluateRules env pl
            (settleContext (counted s a.1 p pl) a.1 a.2 p.payLinkID pl) = .ok () →
          MintFits cp s (cp.calculator.calculateFee pl.amount))) <| by
    constructor
    · intro h
      refine ⟨h.1, fun hk ha p pl hb => ?_⟩
      obtain ⟨hp, hpl, hopen⟩ := ballot_iff.mp hb
      exact h.2 hk ha p (by rw [hp]; rfl) pl hpl hopen
    · intro h
      refine ⟨h.withdrawal, fun hk ha p hp pl hpl hopen => h.fee hk ha p pl (ballot_iff.mpr ⟨?_, hpl, hopen⟩)⟩
      cases hd : env.decode.submitValidation a.1.payload with
      | error e => rw [hd] at hp; cases hp
      | ok p' => rw [hd] at hp; cases hp; rfl

variable {env : Env} {cp : ChainParams} {s s' : Snapshot}

theorem Conserved.effect {a : TimedTx} (h : Conserved cp s) (safe : SupplySafe env cp s a)
    (hadm : Admitted env s a.1) (he : Effect env cp s a.1 a.2 s') : Conserved cp s' := by
  have hb := h.books
  have hlt := s.totalSupply.toNat_lt
  cases he with
  | createPayLink _ _ _ _ _ _ done =>
    obtain ⟨-, rfl⟩ := Snapshot.createPayLink_ok.mp done
    exact h.congr rfl rfl rfl
  | vote _ _ _ => exact h.congr rfl rfl rfl
  | settle kind ballot quorum rules done =>
    obtain ⟨pl', -, rfl⟩ := Snapshot.setPayLinkStatus_ok.mp done
    exact Conserved.feeState (h.congr rfl rfl rfl) (safe.fee kind hadm _ _ ballot quorum rules)
  | cancelPayLink _ _ _ _ _ _ done =>
    obtain ⟨pl', -, rfl⟩ := Snapshot.setPayLinkStatus_ok.mp done
    exact h.congr rfl rfl rfl
  | failPayLink _ _ _ _ done =>
    obtain ⟨pl', -, rfl⟩ := Snapshot.setPayLinkStatus_ok.mp done
    exact h.congr rfl rfl rfl
  | transferPayLink _ _ _ _ _ _ _ _ done =>
    obtain ⟨pl', -, rfl⟩ := Snapshot.setPayLinkOwner_ok.mp done
    exact h.congr rfl rfl rfl
  | approvePayLink _ _ _ _ _ done =>
    obtain ⟨pl', -, rfl⟩ := Snapshot.setPayLinkApproval_ok.mp done
    exact h.congr rfl rfl rfl
  | setApprovalForAll _ _ _ _ => exact h.congr rfl rfl rfl
  | transfer _ _ _ _ done =>
    obtain ⟨s₁, hsub, rfl⟩ := Snapshot.transfer_ok.mp done
    have debit := Moves.subBalance hsub
    have hdebit := debit.balances
    exact h.moves (debit.trans (.addBalance (by omega))) (by omega) (by omega)
  | stake _ _ _ debit done =>
    have hdebit := Moves.subBalance debit
    have hb₁ := hdebit.balances
    have hs₁ := hdebit.stakes
    exact h.moves (hdebit.trans (.stake done (by omega))) (by omega) (by omega)
  | initiateUnstake _ _ _ done => exact h.moves (.initiateWithdrawal done) rfl le_rfl
  | completeUnstake kind done =>
    have hdebit := Moves.completeWithdrawal done (safe.withdrawal kind hadm)
    have hb₁ := hdebit.balances
    have hs₁ := hdebit.stakes
    exact h.moves (hdebit.trans (.addBalance (by omega))) (by omega) (by omega)
  | slash _ _ _ done =>
    exact h.moves (.slash done (by omega)) (by omega) (by omega)
  | distributeReward _ _ _ debit done =>
    have hdebit := Moves.subBalance debit
    have hb₁ := hdebit.balances
    exact h.moves ((hdebit.trans (.addBalance (by omega))).trans (.distributeReward done)) (by omega) (by omega)
  | registerVRFKey _ _ _ _ done => exact h.moves (.setVRFPublicKey done) rfl le_rfl
  | submitEvidence _ _ _ _ done =>
    have hmark : ∀ id, Conserved cp (s.markEvidenceProcessed id) := fun _ => h.congr rfl rfl rfl
    exact (hmark _).moves (.slash done ((Nat.le_add_left _ _).trans_eq (hmark _).books)) (by omega) (by omega)

theorem Conserved.step {a : TimedTx} (h : Conserved cp s) (safe : SupplySafe env cp s a) :
    Conserved cp (stepTx env cp s a) := by
  rcases stepTx_cases env cp s a with ⟨-, s₁, hs, heq⟩ | ⟨-, heq⟩
  · rw [heq]
    exact (h.effect safe ⟨hs.signed, hs.nonce⟩ hs.effect).incrementNonce
  · rw [heq]
    exact h

theorem fund_foldl (L : List GenesisBalance) : ∀ s : Snapshot,
    (L.map (·.address)).Nodup → (∀ b ∈ L, s.accounts[b.address]? = none) →
    s.totalSupply.toNat + (L.map (·.balance.toNat)).sum < 2 ^ 64 →
    balances (L.foldl Snapshot.fund s) = balances s + (L.map (·.balance.toNat)).sum ∧
    stakes (L.foldl Snapshot.fund s) = stakes s ∧
    (L.foldl Snapshot.fund s).totalSupply.toNat = s.totalSupply.toNat + (L.map (·.balance.toNat)).sum := by
  induction L with
  | nil => intro s _ _ _; simp
  | cons b L ih =>
    intro s hnd hfresh hfits
    simp only [List.map_cons, List.nodup_cons, List.sum_cons, List.foldl_cons] at hnd hfits ⊢
    obtain ⟨hb, hnd⟩ := hnd
    have hsupply : (s.totalSupply + b.balance).toNat = s.totalSupply.toNat + b.balance.toNat :=
      toNat_add_of_fits (by omega)
    have hbal : balances (s.fund b) = balances s + b.balance.toNat := by
      have hins := total_insert (fun acc : Account => acc.balance.toNat) s.accounts b.address
        { balance := b.balance, nonce := 0 }
      have h0 : share (fun acc : Account => acc.balance.toNat) s.accounts b.address = 0 := by
        simp [share, hfresh b (by simp)]
      rw [h0] at hins
      exact hins
    have hfresh' : ∀ b' ∈ L, (s.fund b).accounts[b'.address]? = none := by
      intro b' hb'
      have hne : b.address ≠ b'.address := by
        intro heq
        exact hb (List.mem_map.mpr ⟨b', hb', heq.symm⟩)
      show (s.accounts.insert b.address _)[b'.address]? = none
      rw [getElem?_insert_eq, if_neg hne]
      exact hfresh b' (by simp [hb'])
    obtain ⟨h₁, h₂, h₃⟩ := ih (s.fund b) hnd hfresh' (by
      show (s.totalSupply + b.balance).toNat + _ < _
      omega)
    refine ⟨by omega, h₂, ?_⟩
    rw [h₃]
    show (s.totalSupply + b.balance).toNat + _ = _
    omega

theorem conserved_genesis {g : GenesisConfig} (distinct : (g.initialBalances.map (·.address)).Nodup)
    (funded : (g.initialBalances.map (·.balance.toNat)).sum ≤ g.maxSupply.toNat) :
    Conserved (.ofGenesis g) (newStateDB g).live := by
  have hlt := g.maxSupply.toNat_lt
  obtain ⟨h₁, h₂, h₃⟩ := fund_foldl g.initialBalances {} distinct (by simp) (by
    show (0 : UInt64).toNat + _ < _
    rw [UInt64.toNat_zero]
    omega)
  have h0 : balances ({} : Snapshot) = 0 := rfl
  have h0' : stakes ({} : Snapshot) = 0 := rfl
  have h0'' : ({} : Snapshot).totalSupply.toNat = 0 := rfl
  refine ⟨?_, ?_⟩
  · show balances (g.initialBalances.foldl Snapshot.fund {}) +
      stakes (g.initialBalances.foldl Snapshot.fund {}) =
      (g.initialBalances.foldl Snapshot.fund {}).totalSupply.toNat
    omega
  · show (g.initialBalances.foldl Snapshot.fund {}).totalSupply ≤ g.maxSupply
    rw [UInt64.le_iff_toNat_le]
    omega

/-- **Supply conservation.** -/
theorem supply_conserved (env : Env) (eventBus : Bool) (g : GenesisConfig)
    (distinct : (g.initialBalances.map (·.address)).Nodup)
    (funded : (g.initialBalances.map (·.balance.toNat)).sum ≤ g.maxSupply.toNat)
    (calls : List BlockCall)
    (safe : ∀ e ∈ history env g calls, SupplySafe env (.ofGenesis g) e.1 e.2) :
    let s := (runBlocks env (newExecutor g eventBus) calls).db.live
    balances s + stakes s = s.totalSupply.toNat ∧ s.totalSupply ≤ g.maxSupply := by
  have h : Conserved (.ofGenesis g) (reached env g calls) :=
    run_invariant (conserved_genesis distinct funded) (fun _ _ h safe => h.step safe)
      (timedTxs calls) safe
  rw [runBlocks_live]
  exact ⟨h.books, h.cap⟩

/-- A withdrawal that nothing cuts into, and a settlement whose fee fits. -/
theorem supply_conserved_quietRun :
    let s := (runBlocks Devnet.env (newExecutor Devnet.genesis true) Devnet.quietRun).db.live
    balances s + stakes s = s.totalSupply.toNat ∧ s.totalSupply ≤ Devnet.genesis.maxSupply :=
  supply_conserved Devnet.env true Devnet.genesis (by decide) (by decide) Devnet.quietRun
    (by decide +kernel)

/-- **A slash during the cooldown breaks the books**: the withdrawal takes out what the slash had
    already taken, and the stake wraps. -/
theorem supply_not_conserved_slashedRun : (Devnet.genesis.initialBalances.map (·.address)).Nodup ∧
    (Devnet.genesis.initialBalances.map (·.balance.toNat)).sum ≤ Devnet.genesis.maxSupply.toNat ∧
    ¬ (let s := (runBlocks Devnet.env (newExecutor Devnet.genesis true) Devnet.slashedRun).db.live
      balances s + stakes s = s.totalSupply.toNat ∧ s.totalSupply ≤ Devnet.genesis.maxSupply) := by
  decide +kernel

end LinkMint.Chain

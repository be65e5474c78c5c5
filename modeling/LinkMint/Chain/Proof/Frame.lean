import LinkMint.Chain.Run

/-!
# What a fee leaves alone

Distributing a fee moves tokens and nothing else: whatever it got through before it stopped,
only account balances, the supply and the burn counter can differ afterwards.
-/

namespace LinkMint.Chain

/-! ## Mints and burns

All a fee does to the state is mint and burn, in a loop that may stop anywhere. A relation that
holds along both, and along nothing at all, therefore holds across the whole of it. -/

structure MovesTokens (cp : ChainParams) (R : Snapshot → Snapshot → Prop) : Prop where
  refl : ∀ s, R s s
  trans : ∀ {s s' s''}, R s s' → R s' s'' → R s s''
  mint : ∀ {s s' addr amount}, s.mintTokens cp addr amount = .ok s' → R s s'
  burn : ∀ s amount, R s (s.recordBurn amount)

namespace MovesTokens
variable {cp : ChainParams} {R : Snapshot → Snapshot → Prop}

theorem payVoters (h : MovesTokens cp R) (reward stake : UInt64) (L : List (Address × UInt64)) :
    ∀ (distributed : UInt64) (payouts : List ValidatorPayout) (s : Snapshot),
      R s (Chain.payVoters cp reward stake L distributed payouts s).2 := by
  induction L with
  | nil =>
    intro distributed payouts s
    exact h.refl s
  | cons e rest ih =>
    intro distributed payouts s
    simp only [Chain.payVoters]
    generalize (if rest = [] then reward - distributed else reward * e.2 / stake) = due
    split
    · cases hm : s.mintTokens cp e.1 due with
      | error err => exact h.refl s
      | ok s₁ => exact h.trans (h.mint hm) (ih _ _ s₁)
    · exact ih _ _ s

theorem distributeFees (h : MovesTokens cp R) (fee : FeeBreakdown) (voters : List Address)
    (s : Snapshot) : R s (Chain.distributeFees cp fee voters s).2 := by
  unfold Chain.distributeFees
  simp only
  split
  · exact h.refl s
  · split
    · exact h.refl s
    · split
      · exact h.refl s
      · have hpay := h.payVoters fee.validatorReward (totalVoterStake s voters)
          (voterStakes s voters).toList 0 [] s
        generalize Chain.payVoters cp fee.validatorReward (totalVoterStake s voters)
          (voterStakes s voters).toList 0 [] s = r at hpay
        obtain ⟨_ | payouts, s₁⟩ := r
        · exact hpay
        · simp only at hpay ⊢
          generalize hm : (if fee.treasuryAmount > 0 then
            s₁.mintTokens cp cp.treasuryAddress fee.treasuryAmount else .ok s₁) = m
          cases m with
          | error err => exact hpay
          | ok s₂ =>
            have hmint : R s₁ s₂ := by
              split at hm
              · exact h.mint hm
              · cases hm
                exact h.refl _
            have hburn : R s₂ (if fee.burnAmount > 0 then s₂.recordBurn fee.burnAmount
                else s₂) := by
              split
              · exact h.burn _ _
              · exact h.refl _
            exact h.trans (h.trans hpay hmint) hburn

theorem feeState (h : MovesTokens cp R) (plID : Hash) (amount : UInt64) (s : Snapshot) :
    R s (Chain.feeState cp plID amount s) := by
  have hd := h.distributeFees (cp.calculator.calculateFee amount) (s.getVoters plID) s
  unfold Chain.feeState collectAndDistributeFees
  simp only
  split
  · exact h.refl s
  · split
    · exact h.refl s
    · generalize Chain.distributeFees cp (cp.calculator.calculateFee amount) (s.getVoters plID) s = r
        at hd ⊢
      obtain ⟨_ | payouts, s₁⟩ := r
      · exact hd
      · exact hd
end MovesTokens

structure TokensOnly (s s' : Snapshot) : Prop where
  same : s' = { s with
    accounts := s'.accounts, totalSupply := s'.totalSupply, totalBurned := s'.totalBurned }

namespace TokensOnly
variable {cp : ChainParams} {s s' s'' : Snapshot}

theorem refl (s : Snapshot) : TokensOnly s s := ⟨rfl⟩

theorem trans (h : TokensOnly s s') (h' : TokensOnly s' s'') : TokensOnly s s'' := by
  obtain ⟨h⟩ := h
  obtain ⟨h'⟩ := h'
  rw [h', h]
  exact ⟨rfl⟩

theorem mint {addr : Address} {amount : UInt64} (h : s.mintTokens cp addr amount = .ok s') : TokensOnly s s' := by
  obtain ⟨-, rfl⟩ := Snapshot.mintTokens_ok.mp h
  exact ⟨rfl⟩

theorem movesTokens (cp : ChainParams) : MovesTokens cp TokensOnly where
  refl := refl
  trans := trans
  mint := mint
  burn _ _ := ⟨rfl⟩

theorem feeState (cp : ChainParams) (plID : Hash) (amount : UInt64) (s : Snapshot) :
    TokensOnly s (Chain.feeState cp plID amount s) :=
  (movesTokens cp).feeState plID amount s

theorem incrementNonce (s : Snapshot) (addr : Address) : TokensOnly s (s.incrementNonce addr) := ⟨rfl⟩

theorem genesis (g : GenesisConfig) : TokensOnly {} (newStateDB g).live := by
  have key : ∀ (L : List GenesisBalance) (s : Snapshot), TokensOnly s (L.foldl Snapshot.fund s) := by
    intro L
    induction L with
    | nil =>
      intro s
      exact refl s
    | cons b L ih =>
      intro s
      have hfund : TokensOnly s (s.fund b) := ⟨rfl⟩
      exact hfund.trans (ih (s.fund b))
  exact key g.initialBalances {}

theorem paylinks (h : TokensOnly s s') : s'.paylinks = s.paylinks := by rw [h.same]

theorem validators (h : TokensOnly s s') : s'.validators = s.validators := by rw [h.same]

theorem usedProofs (h : TokensOnly s s') : s'.usedProofs = s.usedProofs := by rw [h.same]

theorem submittedProofs (h : TokensOnly s s') : s'.submittedProofs = s.submittedProofs := by
  rw [h.same]

theorem votes (h : TokensOnly s s') : s'.votes = s.votes := by rw [h.same]

theorem vrfKeys (h : TokensOnly s s') : s'.vrfKeys = s.vrfKeys := by rw [h.same]

theorem processedEvidence (h : TokensOnly s s') : s'.processedEvidence = s.processedEvidence := by
  rw [h.same]
end TokensOnly
end LinkMint.Chain

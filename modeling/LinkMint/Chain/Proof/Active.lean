import LinkMint.Chain.Testnet
import LinkMint.Chain.Proof.Books
import LinkMint.Chain.Proof.Change

/-!
# An active validator has the minimum at stake

`Stake` sets `IsActive` when the stake reaches the minimum, `InitiateWithdrawal` clears it when
what would *remain* falls short, `Slash` when what is *left* does. Between the two readings an
active validator can end below the minimum; `ActiveSafe` excludes the steps that take it there.
-/

namespace LinkMint.Chain

open LinkMint.Lib Std

def ActiveStaked (cp : ChainParams) (validators : ExtTreeMap Address ValidatorInfo) : Prop :=
  ∀ (addr : Address) (v : ValidatorInfo), validators[addr]? = some v → v.isActive = true →
    cp.minimumStake ≤ v.stakedAmount

/-- A withdrawal that an active validator completes leaves the minimum, and no stake of one wraps. -/
structure ActiveSafe (env : Env) (cp : ChainParams) (s : Snapshot) (a : TimedTx) : Prop where
  complete : TxKind.ofCode a.1.type = some .completeUnstake → Admitted env s a.1 →
    ∀ v, s.validators[a.1.fromAddr]? = some v → v.isActive = true → v.pendingWithdrawal ≠ 0 → v.withdrawableAt ≤ a.2 →
        cp.minimumStake.toNat + v.pendingWithdrawal.toNat ≤ v.stakedAmount.toNat
  stake : TxKind.ofCode a.1.type = some .stake → Admitted env s a.1 →
    ∀ v p, s.validators[a.1.fromAddr]? = some v → v.isActive = true →
      env.decode.stake a.1.payload = .ok p → p.amount ≤ s.getBalance a.1.fromAddr →
        v.stakedAmount.toNat + p.amount.toNat < 2 ^ 64

namespace ActiveStaked
variable {env : Env} {cp : ChainParams} {s s' : Snapshot} {a : TimedTx}
  {validators : ExtTreeMap Address ValidatorInfo} {vrfKeys : ExtTreeMap Address Bytes}

theorem insert {who : Address} {v : ValidatorInfo} (h : ActiveStaked cp validators)
    (hv : v.isActive = true → cp.minimumStake ≤ v.stakedAmount) : ActiveStaked cp (validators.insert who v) := by
  intro addr w found active
  rw [getElem?_insert_eq] at found
  split at found
  · cases found
    exact hv active
  · exact h addr w found active

theorem of_staked {v : ValidatorInfo} {amount : UInt64} (active : (Snapshot.staked cp v amount).isActive = true) :
    v.isActive = true ∨ cp.minimumStake ≤ v.stakedAmount + amount := by
  unfold Snapshot.staked at active
  simp only at active
  split at active
  · next hact =>
    rw [Bool.and_eq_true, decide_eq_true_eq] at hact
    exact .inr hact.2
  · exact .inl active

theorem stake {p : StakePayload} (h : ActiveStaked cp s.validators) (safe : ActiveSafe env cp s a)
    (hadm : Admitted env s a.1) (kind : TxKind.ofCode a.1.type = some .stake)
    (payload : env.decode.stake a.1.payload = .ok p) (covered : p.amount ≤ s.getBalance a.1.fromAddr) :
    ActiveStaked cp (s.validators.insert a.1.fromAddr
      (Snapshot.staked cp (s.stakeTarget a.1.fromAddr a.2) p.amount)) := by
  refine h.insert fun active => ?_
  rw [Snapshot.stakedAmount_staked]
  rcases of_staked active with hwas | hreached
  · -- a blank record is inactive, so the target is the validator's own
    cases found : s.validators[a.1.fromAddr]? with
    | none =>
      rw [Snapshot.stakeTarget, found] at hwas
      exact absurd hwas Bool.false_ne_true
    | some v =>
      have htarget : s.stakeTarget a.1.fromAddr a.2 = v := by rw [Snapshot.stakeTarget, found]; rfl
      rw [htarget] at hwas ⊢
      have hmin := h _ v found hwas
      have hroom := safe.stake kind hadm v p found hwas payload covered
      rw [UInt64.le_iff_toNat_le] at hmin ⊢
      rw [UInt64.toNat_add, Nat.mod_eq_of_lt hroom]
      omega
  · exact hreached

theorem complete {v : ValidatorInfo} (h : ActiveStaked cp s.validators)
    (safe : ActiveSafe env cp s a) (hadm : Admitted env s a.1) (kind : TxKind.ofCode a.1.type = some .completeUnstake)
    (found : s.validators[a.1.fromAddr]? = some v) (pending : v.pendingWithdrawal ≠ 0)
    (elapsed : v.withdrawableAt ≤ a.2) : ActiveStaked cp (s.validators.insert a.1.fromAddr (Snapshot.withdrawn v)) := by
  refine h.insert fun active => ?_
  have hleft := safe.complete kind hadm v found active pending elapsed
  have hle : v.pendingWithdrawal ≤ v.stakedAmount := by
    rw [UInt64.le_iff_toNat_le]
    omega
  rw [UInt64.le_iff_toNat_le]
  show cp.minimumStake.toNat ≤ (v.stakedAmount - v.pendingWithdrawal).toNat
  rw [UInt64.toNat_sub_of_le _ _ hle]
  omega

theorem change (h : ActiveStaked cp s.validators) (safe : ActiveSafe env cp s a)
    (hadm : Admitted env s a.1) (hc : ValidatorChange env cp s a.1 a.2 validators vrfKeys) : ActiveStaked cp validators := by
  cases hc with
  | same => exact h
  | stake kind payload covered => exact h.stake safe hadm kind payload covered
  | @initiate _ v kind found _ _ =>
    have hv := h _ v found
    refine h.insert fun active => ?_
    simp only [Snapshot.withdrawing] at active
    split at active
    · cases active
    · exact hv active
  | complete kind found pending elapsed => exact h.complete safe hadm kind found pending elapsed
  | slash _ _ found _ =>
    refine h.insert fun active => ?_
    simp only [Snapshot.slashed] at active
    split at active
    · cases active
    · next hmin => exact UInt64.not_lt.mp hmin
  | @reward _ v _ _ found =>
    have hv := h _ v found
    exact h.insert hv
  | @key v _ _ found _ =>
    have hv := h _ v found
    exact h.insert hv

theorem step (h : ActiveStaked cp s.validators) (safe : ActiveSafe env cp s a) :
    ActiveStaked cp (stepTx env cp s a).validators := by
  rcases stepTx_cases env cp s a with ⟨-, s₁, hs, heq⟩ | ⟨-, heq⟩
  · rw [heq]
    exact h.change safe ⟨hs.signed, hs.nonce⟩ hs.effect.changes.validators
  · rw [heq]
    exact h
end ActiveStaked

/-- **Active validators are sufficiently staked.** -/
theorem active_staked (env : Env) (eventBus : Bool) (g : GenesisConfig) (calls : List BlockCall)
    (safe : ∀ e ∈ history env g calls, ActiveSafe env (.ofGenesis g) e.1 e.2) :
    ∀ (addr : Address) (v : ValidatorInfo),
      (runBlocks env (newExecutor g eventBus) calls).db.live.validators[addr]? = some v →
      v.isActive = true → g.minimumStake ≤ v.stakedAmount := by
  have hgenesis : ActiveStaked (.ofGenesis g) (newStateDB g).live.validators := by
    rw [(TokensOnly.genesis g).validators]
    intro addr v found
    exact absurd found (by simp)
  have h : ActiveStaked (.ofGenesis g) (reached env g calls).validators :=
    run_invariant (I := fun s : Snapshot => ActiveStaked (.ofGenesis g) s.validators) hgenesis
      (fun _ _ h safe => h.step safe) (timedTxs calls) safe
  rw [runBlocks_live]
  exact h

instance (env : Env) (cp : ChainParams) (s : Snapshot) (a : TimedTx) : Decidable (ActiveSafe env cp s a) :=
  decidable_of_iff
    ((TxKind.ofCode a.1.type = some .completeUnstake → Admitted env s a.1 →
        (s.validators[a.1.fromAddr]?).all (fun v => v.isActive = true →
          v.pendingWithdrawal ≠ 0 → v.withdrawableAt ≤ a.2 →
            cp.minimumStake.toNat + v.pendingWithdrawal.toNat ≤ v.stakedAmount.toNat) = true) ∧
      (TxKind.ofCode a.1.type = some .stake → Admitted env s a.1 →
        (s.validators[a.1.fromAddr]?).all (fun v => v.isActive = true →
          (env.decode.stake a.1.payload).toOption.all (fun p =>
            p.amount ≤ s.getBalance a.1.fromAddr →
              v.stakedAmount.toNat + p.amount.toNat < 2 ^ 64) = true) = true)) <| by
    constructor
    · intro ⟨hcomplete, hstake⟩
      refine ⟨fun hk ha v hv => ?_, fun hk ha v p hv active hp => ?_⟩
      · have h := hcomplete hk ha
        rw [hv] at h
        simpa only [Option.all_some, decide_eq_true_eq] using h
      · have h := hstake hk ha
        rw [hv] at h
        simp only [Option.all_some, decide_eq_true_eq] at h
        have h' := h active
        rw [hp] at h'
        simpa only [Except.toOption, Option.all_some, decide_eq_true_eq] using h'
    · intro ⟨hcomplete, hstake⟩
      refine ⟨fun hk ha => ?_, fun hk ha => ?_⟩
      · cases hv : s.validators[a.1.fromAddr]? with
        | none => rfl
        | some v =>
          simp only [Option.all_some, decide_eq_true_eq]
          exact hcomplete hk ha v hv
      · cases hv : s.validators[a.1.fromAddr]? with
        | none => rfl
        | some v =>
          simp only [Option.all_some, decide_eq_true_eq]
          intro active
          cases hp : env.decode.stake a.1.payload with
          | error e => rfl
          | ok p =>
            simp only [Except.toOption, Option.all_some, decide_eq_true_eq]
            exact hstake hk ha v p hv active hp

theorem active_staked_quietRun :
    (runBlocks Devnet.env (newExecutor Devnet.genesis true) (Devnet.quietRun.take 1)).db.live.validators[
      Devnet.validatorAddress]?.any (·.isActive) = true ∧
    ∀ (addr : Address) (v : ValidatorInfo),
      (runBlocks Devnet.env (newExecutor Devnet.genesis true) (Devnet.quietRun.take 1)).db.live.validators[addr]?
        = some v →
      v.isActive = true → Devnet.genesis.minimumStake ≤ v.stakedAmount :=
  ⟨by decide +kernel, active_staked Devnet.env true Devnet.genesis (Devnet.quietRun.take 1) (by decide +kernel)⟩

def toppedUpEnv : Env :=
  Testnet.env [Devnet.stakeTx, Testnet.unstakeTx, Testnet.topUpTx, Devnet.completeTx]

/-- **A top-up during the cooldown keeps a validator active on one token**: it is active again
    before the withdrawal takes the stake out. -/
theorem active_understaked_toppedUpRun : ¬ ∀ (env : Env) (eventBus : Bool) (g : GenesisConfig) (calls : List BlockCall)
      (addr : Address) (v : ValidatorInfo),
      (runBlocks env (newExecutor g eventBus) calls).db.live.validators[addr]? = some v →
        v.isActive = true → g.minimumStake ≤ v.stakedAmount := by
  intro h
  have hall := h toppedUpEnv true Devnet.genesis Testnet.toppedUpRun Devnet.validatorAddress
  have hrun : ((runBlocks toppedUpEnv (newExecutor Devnet.genesis true)
      Testnet.toppedUpRun).db.live.validators[Devnet.validatorAddress]?).any
      (fun v => v.isActive = true ∧ ¬ Devnet.genesis.minimumStake ≤ v.stakedAmount) = true := by
    decide +kernel
  obtain ⟨v, found, hv⟩ := (Option.any_eq_true _ _).mp hrun
  rw [decide_eq_true_eq] at hv
  exact hv.2 (hall v found hv.1)

end LinkMint.Chain

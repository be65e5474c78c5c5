import LinkMint.Chain.Devnet
import LinkMint.Chain.Proof.Books
import LinkMint.Chain.Proof.Change

/-!
# Where a validator's stake went

What is still there, what was slashed and what was withdrawn must add up to what was staked, and
a waiting withdrawal must never be for more than is left. `Slash` does not look at a waiting
withdrawal, so this is proved for the runs whose steps are `StakeSafe`.
-/

namespace LinkMint.Chain

open LinkMint.Lib Std

structure Holdings where
  staked : UInt64 := 0
  pending : UInt64 := 0
  slashed : UInt64 := 0

def ValidatorInfo.holdings (v : ValidatorInfo) : Holdings where
  staked := v.stakedAmount
  pending := v.pendingWithdrawal
  slashed := v.totalSlashed

def holdings (s : Snapshot) (addr : Address) : Holdings :=
  (s.validators[addr]?).elim {} ValidatorInfo.holdings

theorem holdings_of_getElem? {s : Snapshot} {addr : Address} {v : ValidatorInfo}
    (h : s.validators[addr]? = some v) : holdings s addr = v.holdings := by
  rw [holdings, h]
  rfl

theorem holdings_congr {s s' : Snapshot} (h : s'.validators = s.validators) (addr : Address) :
    holdings s' addr = holdings s addr := by
  rw [holdings, holdings, h]

theorem holdings_insert {s s' : Snapshot} {who : Address} {v : ValidatorInfo}
    (h : s'.validators = s.validators.insert who v) (addr : Address) :
    holdings s' addr = if who = addr then v.holdings else holdings s addr := by
  unfold holdings
  rw [h, getElem?_insert_eq]
  split
  · rfl
  · rfl

theorem holdings_stakeTarget (s : Snapshot) (addr : Address) (ts : Int64) :
    (s.stakeTarget addr ts).holdings = holdings s addr := by
  unfold Snapshot.stakeTarget holdings
  cases s.validators[addr]? with
  | none => rfl
  | some v => rfl

theorem holdings_staked (cp : ChainParams) (v : ValidatorInfo) (amount : UInt64) :
    (Snapshot.staked cp v amount).holdings =
      { v.holdings with staked := v.holdings.staked + amount } := by
  unfold Snapshot.staked
  simp only
  split
  · rfl
  · rfl

def stakedBy (env : Env) (v : Address) (tx : Transaction) : Nat :=
  if TxKind.ofCode tx.type = some .stake ∧ tx.fromAddr = v then
    (env.decode.stake tx.payload).toOption.elim 0 (·.amount.toNat)
  else 0

def withdrawnBy (v : Address) (s : Snapshot) (a : TimedTx) : Nat :=
  if TxKind.ofCode a.1.type = some .completeUnstake ∧ a.1.fromAddr = v then
    (s.completeWithdrawal v a.2).toOption.elim 0 (·.1.toNat)
  else 0

/-- A new stake does not wrap, and a slash leaves enough for the waiting withdrawal and does not wrap
    the total slashed. -/
structure StakeSafe (env : Env) (cp : ChainParams) (v : Address) (s : Snapshot) (a : TimedTx) : Prop where
  stake : TxKind.ofCode a.1.type = some .stake → Admitted env s a.1 → a.1.fromAddr = v →
    ∀ p, env.decode.stake a.1.payload = .ok p → p.amount ≤ s.getBalance v →
      (holdings s v).staked.toNat + p.amount.toNat < 2 ^ 64
  slash : ∀ amount, slashOf env cp s a.1 = some (v, amount) → Admitted env s a.1 → amount ≤ (holdings s v).staked →
      amount.toNat + (holdings s v).pending.toNat ≤ (holdings s v).staked.toNat ∧
      (holdings s v).slashed.toNat + amount.toNat < 2 ^ 64

section Step

variable {env : Env} {cp : ChainParams} {s s' : Snapshot} {a : TimedTx} {v : Address}

structure Accounted (env : Env) (v : Address) (s : Snapshot) (a : TimedTx) (s' : Snapshot) : Prop where
  covered : (holdings s' v).pending ≤ (holdings s' v).staked
  moved : (holdings s' v).staked.toNat + (holdings s' v).slashed.toNat + withdrawnBy v s a =
    (holdings s v).staked.toNat + (holdings s v).slashed.toNat + stakedBy env v a.1

theorem Accounted.unmoved {kind : TxKind} (covered : (holdings s v).pending ≤ (holdings s v).staked)
    (hkind : TxKind.ofCode a.1.type = some kind) (hstake : kind ≠ .stake)
    (hcomplete : kind ≠ .completeUnstake) (h : holdings s' v = holdings s v) : Accounted env v s a s' := by
  refine ⟨by rw [h]; exact covered, ?_⟩
  simp [h, withdrawnBy, stakedBy, hkind, hstake, hcomplete]

theorem Accounted.slash {who : Address} {amount : UInt64} {kind : TxKind} {r : ValidatorInfo}
    (covered : (holdings s v).pending ≤ (holdings s v).staked)
    (safe : StakeSafe env cp v s a) (hadm : Admitted env s a.1)
    (hkind : TxKind.ofCode a.1.type = some kind) (hstake : kind ≠ .stake)
    (hcomplete : kind ≠ .completeUnstake) (hslash : slashOf env cp s a.1 = some (who, amount))
    (found : s.validators[who]? = some r) (enough : amount ≤ r.stakedAmount)
    (h : s'.validators = s.validators.insert who (Snapshot.slashed cp r amount)) : Accounted env v s a s' := by
  have hins := holdings_insert h v
  by_cases hwho : who = v
  · subst hwho
    have hr := holdings_of_getElem? found
    obtain ⟨hroom, hfits⟩ := safe.slash amount hslash hadm (by rw [hr]; exact enough)
    rw [hr] at hroom hfits
    rw [if_pos rfl] at hins
    have hsub : (r.stakedAmount - amount).toNat = r.stakedAmount.toNat - amount.toNat :=
      UInt64.toNat_sub_of_le _ _ enough
    have hadd : (r.totalSlashed + amount).toNat = r.totalSlashed.toNat + amount.toNat := toNat_add_of_fits hfits
    simp only [ValidatorInfo.holdings] at hroom
    constructor
    · rw [hins]
      show r.pendingWithdrawal ≤ r.stakedAmount - amount
      rw [UInt64.le_iff_toNat_le, hsub]
      omega
    · have hw : withdrawnBy who s a = 0 := by simp [withdrawnBy, hkind, hcomplete]
      have hs : stakedBy env who a.1 = 0 := by simp [stakedBy, hkind, hstake]
      rw [hins, hw, hs, hr]
      show (r.stakedAmount - amount).toNat + (r.totalSlashed + amount).toNat + 0 =
        r.stakedAmount.toNat + r.totalSlashed.toNat + 0
      rw [hsub, hadd]
      omega
  · exact .unmoved covered hkind hstake hcomplete (hins.trans (if_neg hwho))

theorem Accounted.stake {p : StakePayload} {s₁ : Snapshot} (covered : (holdings s v).pending ≤ (holdings s v).staked)
    (safe : StakeSafe env cp v s a) (hadm : Admitted env s a.1) (kind : TxKind.ofCode a.1.type = some .stake)
    (payload : env.decode.stake a.1.payload = .ok p) (debit : s.subBalance a.1.fromAddr p.amount = .ok s₁)
    (done : s₁.stake cp a.1.fromAddr p.amount a.2 = .ok s') : Accounted env v s a s' := by
  obtain ⟨acc, hacc, hle, hs₁⟩ := Snapshot.subBalance_ok.mp debit
  -- the debit and the validator list are elsewhere in the state
  have hval : s'.validators = s.validators.insert a.1.fromAddr
      (Snapshot.staked cp (s.stakeTarget a.1.fromAddr a.2) p.amount) := by
    obtain ⟨-, rfl⟩ := Snapshot.stake_ok.mp done
    rw [hs₁]
    rfl
  have hins := holdings_insert hval v
  have hw : withdrawnBy v s a = 0 := by simp [withdrawnBy, kind]
  by_cases hwho : a.1.fromAddr = v
  · rw [if_pos hwho, holdings_staked, holdings_stakeTarget, hwho] at hins
    have hs : stakedBy env v a.1 = p.amount.toNat := by
      simp [stakedBy, kind, hwho, payload, Except.toOption]
    have hbal : p.amount ≤ s.getBalance v := by
      rw [hwho] at hacc
      rw [Snapshot.getBalance, hacc]
      exact hle
    have hadd : ((holdings s v).staked + p.amount).toNat = (holdings s v).staked.toNat + p.amount.toNat :=
      toNat_add_of_fits (safe.stake kind hadm hwho p payload hbal)
    constructor
    · rw [hins]
      rw [UInt64.le_iff_toNat_le] at covered ⊢
      simp only [hadd]
      omega
    · rw [hw, hs, hins]
      simp only [hadd]
      omega
  · rw [if_neg hwho] at hins
    have hs : stakedBy env v a.1 = 0 := by simp [stakedBy, hwho]
    constructor
    · rw [hins]
      exact covered
    · rw [hw, hs, hins]

theorem Accounted.initiate {p : InitiateUnstakePayload} (covered : (holdings s v).pending ≤ (holdings s v).staked)
    (kind : TxKind.ofCode a.1.type = some .initiateUnstake)
    (done : s.initiateWithdrawal cp a.1.fromAddr p.amount a.2 = .ok s') : Accounted env v s a s' := by
  obtain ⟨r, found, -, enough, -, rfl⟩ := Snapshot.initiateWithdrawal_ok.mp done
  have hval : (s.putValidator a.1.fromAddr (Snapshot.withdrawing cp r p.amount a.2)).validators =
      s.validators.insert a.1.fromAddr (Snapshot.withdrawing cp r p.amount a.2) := rfl
  have hins := holdings_insert hval v
  by_cases hwho : a.1.fromAddr = v
  · rw [if_pos hwho] at hins
    rw [hwho] at found
    constructor
    · rw [hins]
      exact enough
    · have hw : withdrawnBy v s a = 0 := by simp [withdrawnBy, kind]
      have hs : stakedBy env v a.1 = 0 := by simp [stakedBy, kind]
      rw [hins, hw, hs, holdings_of_getElem? found]
      rfl
  · exact .unmoved covered kind (by simp) (by simp) (hins.trans (if_neg hwho))

theorem Accounted.complete {amount : UInt64} {s₁ : Snapshot} (covered : (holdings s v).pending ≤ (holdings s v).staked)
    (kind : TxKind.ofCode a.1.type = some .completeUnstake)
    (done : s.completeWithdrawal a.1.fromAddr a.2 = .ok (amount, s₁)) :
    Accounted env v s a (s₁.addBalance a.1.fromAddr amount) := by
  obtain ⟨r, found, -, -, hamount, rfl⟩ := Snapshot.completeWithdrawal_ok.mp done
  have hval : ((s.putValidator a.1.fromAddr (Snapshot.withdrawn r)).addBalance a.1.fromAddr
      amount).validators = s.validators.insert a.1.fromAddr (Snapshot.withdrawn r) := rfl
  have hins := holdings_insert hval v
  have hs : stakedBy env v a.1 = 0 := by simp [stakedBy, kind]
  by_cases hwho : a.1.fromAddr = v
  · have hw : withdrawnBy v s a = r.pendingWithdrawal.toNat := by
      rw [hwho] at done
      simp [withdrawnBy, kind, hwho, done, Except.toOption, hamount]
    rw [if_pos hwho] at hins
    rw [hwho] at found
    rw [holdings_of_getElem? found] at covered
    have hsub : (r.stakedAmount - r.pendingWithdrawal).toNat =
        r.stakedAmount.toNat - r.pendingWithdrawal.toNat := UInt64.toNat_sub_of_le _ _ covered
    rw [UInt64.le_iff_toNat_le] at covered
    simp only [ValidatorInfo.holdings] at covered
    constructor
    · rw [hins]
      exact UInt64.zero_le
    · rw [hins, hw, hs, holdings_of_getElem? found]
      show (r.stakedAmount - r.pendingWithdrawal).toNat + r.totalSlashed.toNat +
        r.pendingWithdrawal.toNat = r.stakedAmount.toNat + r.totalSlashed.toNat + 0
      omega
  · have hw : withdrawnBy v s a = 0 := by simp [withdrawnBy, hwho]
    rw [if_neg hwho] at hins
    constructor
    · rw [hins]
      exact covered
    · rw [hins, hw, hs]

theorem Effect.accounted (he : Effect env cp s a.1 a.2 s') (hadm : Admitted env s a.1)
    (safe : StakeSafe env cp v s a) (covered : (holdings s v).pending ≤ (holdings s v).staked) : Accounted env v s a s' := by
  cases he with
  | createPayLink kind _ _ _ _ _ done =>
    obtain ⟨-, rfl⟩ := Snapshot.createPayLink_ok.mp done
    exact .unmoved covered kind (by simp) (by simp) (holdings_congr rfl v)
  | vote kind _ _ => exact .unmoved covered kind (by simp) (by simp) (holdings_congr rfl v)
  | settle kind _ _ _ done =>
    obtain ⟨_, -, rfl⟩ := Snapshot.setPayLinkStatus_ok.mp done
    exact .unmoved covered kind (by simp) (by simp) (holdings_congr (TokensOnly.feeState _ _ _ _).validators v)
  | cancelPayLink kind _ _ _ _ _ done =>
    obtain ⟨_, -, rfl⟩ := Snapshot.setPayLinkStatus_ok.mp done
    exact .unmoved covered kind (by simp) (by simp) (holdings_congr rfl v)
  | failPayLink kind _ _ _ done =>
    obtain ⟨_, -, rfl⟩ := Snapshot.setPayLinkStatus_ok.mp done
    exact .unmoved covered kind (by simp) (by simp) (holdings_congr rfl v)
  | transferPayLink kind _ _ _ _ _ _ _ done =>
    obtain ⟨_, -, rfl⟩ := Snapshot.setPayLinkOwner_ok.mp done
    exact .unmoved covered kind (by simp) (by simp) (holdings_congr rfl v)
  | approvePayLink kind _ _ _ _ done =>
    obtain ⟨_, -, rfl⟩ := Snapshot.setPayLinkApproval_ok.mp done
    exact .unmoved covered kind (by simp) (by simp) (holdings_congr rfl v)
  | setApprovalForAll kind _ _ _ =>
    exact .unmoved covered kind (by simp) (by simp) (holdings_congr rfl v)
  | transfer kind _ _ _ done =>
    obtain ⟨_, debit, rfl⟩ := Snapshot.transfer_ok.mp done
    obtain ⟨_, -, -, rfl⟩ := Snapshot.subBalance_ok.mp debit
    exact .unmoved covered kind (by simp) (by simp) (holdings_congr rfl v)
  | stake kind payload _ debit done => exact .stake covered safe hadm kind payload debit done
  | initiateUnstake kind _ _ done => exact .initiate covered kind done
  | completeUnstake kind done => exact .complete covered kind done
  | @slash p _ kind admin payload done =>
    obtain ⟨r, found, enough, rfl⟩ := Snapshot.slash_ok.mp done
    have hslash : slashOf env cp s a.1 = some (p.validator, p.amount) := by
      simp [slashOf, kind, admin, payload, Except.toOption]
    exact .slash covered safe hadm kind (by simp) (by simp) hslash found enough rfl
  | distributeReward kind _ _ debit done =>
    obtain ⟨_, -, -, rfl⟩ := Snapshot.subBalance_ok.mp debit
    obtain ⟨r, found, -, rfl⟩ := Snapshot.distributeReward_ok.mp done
    refine .unmoved covered kind (by simp) (by simp) ?_
    rw [holdings_insert (s := s) rfl v]
    split
    · next hwho => rw [← hwho, holdings_of_getElem? (s := s) found]; rfl
    · rfl
  | registerVRFKey kind _ _ _ done =>
    obtain ⟨r, found, -, rfl⟩ := Snapshot.setVRFPublicKey_ok.mp done
    refine .unmoved covered kind (by simp) (by simp) ?_
    rw [holdings_insert (s := s) rfl v]
    split
    · next hwho => rw [← hwho, holdings_of_getElem? found]; rfl
    · rfl
  | @submitEvidence _ action _ kind payload evidence fresh done =>
    obtain ⟨r, found, enough, rfl⟩ := Snapshot.slash_ok.mp done
    have hslash : slashOf env cp s a.1 = some (action.validator, action.amount) := by
      simp [slashOf, kind, payload, evidence, fresh]
    exact .slash covered safe hadm kind (by simp) (by simp) hslash found enough rfl
end Step

def stakedIn (env : Env) (cp : ChainParams) (v : Address) (e : Snapshot × TimedTx) : Nat :=
  if succeeded env cp e then stakedBy env v e.2.1 else 0

def withdrawnIn (env : Env) (cp : ChainParams) (v : Address) (e : Snapshot × TimedTx) : Nat :=
  if succeeded env cp e then withdrawnBy v e.1 e.2 else 0

structure StakeAccount (env : Env) (cp : ChainParams) (v : Address)
    (tr : List (Snapshot × TimedTx)) (s : Snapshot) : Prop where
  covered : (holdings s v).pending ≤ (holdings s v).staked
  balanced : (tr.map (stakedIn env cp v)).sum = (holdings s v).staked.toNat + (holdings s v).slashed.toNat
      + (tr.map (withdrawnIn env cp v)).sum

theorem StakeAccount.step {env : Env} {cp : ChainParams} {v : Address}
    {tr : List (Snapshot × TimedTx)} {s : Snapshot} {a : TimedTx}
    (h : StakeAccount env cp v tr s) (safe : StakeSafe env cp v s a) :
    StakeAccount env cp v (tr ++ [(s, a)]) (stepTx env cp s a) := by
  obtain ⟨covered, balanced⟩ := h
  rcases stepTx_cases env cp s a with ⟨hsucc, s₁, hs, heq⟩ | ⟨hfail, heq⟩
  · obtain ⟨hcov, hmoved⟩ := hs.effect.accounted ⟨hs.signed, hs.nonce⟩ safe covered
    have hsame : holdings (stepTx env cp s a) v = holdings s₁ v := by
      rw [heq]
      exact holdings_congr rfl v
    refine ⟨by rw [hsame]; exact hcov, ?_⟩
    rw [hsame]
    simp only [List.map_append, List.sum_append, List.map_cons, List.map_nil, List.sum_cons,
      List.sum_nil, stakedIn, withdrawnIn, hsucc, if_true]
    omega
  · rw [heq]
    refine ⟨covered, ?_⟩
    simp only [List.map_append, List.sum_append, List.map_cons, List.map_nil, List.sum_cons,
      List.sum_nil, stakedIn, withdrawnIn, hfail]
    simpa using balanced

/-- **No stake is lost and none escapes.** -/
theorem stake_accounted (env : Env) (eventBus : Bool) (g : GenesisConfig) (calls : List BlockCall)
    (v : Address) (safe : ∀ e ∈ history env g calls, StakeSafe env (.ofGenesis g) v e.1 e.2) :
    let s := (runBlocks env (newExecutor g eventBus) calls).db.live
    (holdings s v).pending ≤ (holdings s v).staked ∧
    ((history env g calls).map (stakedIn env (.ofGenesis g) v)).sum =
      (holdings s v).staked.toNat + (holdings s v).slashed.toNat
        + ((history env g calls).map (withdrawnIn env (.ofGenesis g) v)).sum := by
  have hempty : holdings (newStateDB g).live v = {} := by
    rw [holdings_congr (TokensOnly.genesis g).validators v]
    rfl
  have h : StakeAccount env (.ofGenesis g) v (history env g calls) (reached env g calls) := by
    refine trace_induction ⟨?_, ?_⟩ (fun _ _ _ h safe => h.step safe) (timedTxs calls) safe
    · rw [hempty]
      exact UInt64.le_refl 0
    · rw [hempty]
      rfl
  rw [runBlocks_live]
  exact ⟨h.covered, h.balanced⟩

instance (env : Env) (cp : ChainParams) (v : Address) (s : Snapshot) (a : TimedTx) :
    Decidable (StakeSafe env cp v s a) :=
  decidable_of_iff
    ((TxKind.ofCode a.1.type = some .stake → Admitted env s a.1 → a.1.fromAddr = v →
        (env.decode.stake a.1.payload).toOption.all (fun p => p.amount ≤ s.getBalance v →
          (holdings s v).staked.toNat + p.amount.toNat < 2 ^ 64) = true) ∧
      ((slashOf env cp s a.1).all (fun w => w.1 = v → Admitted env s a.1 → w.2 ≤ (holdings s v).staked →
          w.2.toNat + (holdings s v).pending.toNat ≤ (holdings s v).staked.toNat ∧
          (holdings s v).slashed.toNat + w.2.toNat < 2 ^ 64) = true)) <| by
    constructor
    · intro ⟨hstake, hslash⟩
      refine ⟨fun hk ha hv p hp => ?_, fun amount hw => ?_⟩
      · have h := hstake hk ha hv
        rw [hp] at h
        simpa only [Except.toOption, Option.all_some, decide_eq_true_eq] using h
      · rw [hw] at hslash
        simp only [Option.all_some, decide_eq_true_eq] at hslash
        exact hslash trivial
    · intro ⟨hstake, hslash⟩
      refine ⟨fun hk ha hv => ?_, ?_⟩
      · cases hp : env.decode.stake a.1.payload with
        | error e => rfl
        | ok p =>
          simp only [Except.toOption, Option.all_some, decide_eq_true_eq]
          exact hstake hk ha hv p hp
      · cases hw : slashOf env cp s a.1 with
        | none => rfl
        | some w =>
          simp only [Option.all_some, decide_eq_true_eq]
          intro hv
          exact hslash w.2 (by rw [hw, ← hv])

theorem stake_accounted_quietRun :
    let s := (runBlocks Devnet.env (newExecutor Devnet.genesis true) Devnet.quietRun).db.live
    let v := Devnet.validatorAddress
    (holdings s v).pending ≤ (holdings s v).staked ∧
    ((history Devnet.env Devnet.genesis Devnet.quietRun).map
        (stakedIn Devnet.env (.ofGenesis Devnet.genesis) v)).sum =
      (holdings s v).staked.toNat + (holdings s v).slashed.toNat
        + ((history Devnet.env Devnet.genesis Devnet.quietRun).map
          (withdrawnIn Devnet.env (.ofGenesis Devnet.genesis) v)).sum :=
  stake_accounted Devnet.env true Devnet.genesis Devnet.quietRun Devnet.validatorAddress
    (by decide +kernel)

/-- **A slash during the cooldown uncovers the withdrawal**: 100 tokens are promised and 50 are left. -/
theorem pending_exceeds_stake :
    ¬ ∀ (env : Env) (eventBus : Bool) (g : GenesisConfig) (calls : List BlockCall) (v : Address),
      let s := (runBlocks env (newExecutor g eventBus) calls).db.live
      (holdings s v).pending ≤ (holdings s v).staked ∧
      ((history env g calls).map (stakedIn env (.ofGenesis g) v)).sum =
        (holdings s v).staked.toNat + (holdings s v).slashed.toNat
          + ((history env g calls).map (withdrawnIn env (.ofGenesis g) v)).sum := by
  intro h
  have hcovered := (h Devnet.env true Devnet.genesis Devnet.cooldownRun Devnet.validatorAddress).1
  revert hcovered
  decide +kernel

end LinkMint.Chain

import LinkMint.Lib.Word
import LinkMint.Chain.Effect

/-!
# The books

`balances` and `stakes` add up the tokens over the natural numbers; `Moves s s' account stake
supply` says what an operation does to them and to the supply counter, as integers.
-/

namespace LinkMint.Chain

open LinkMint.Lib Std

def balances (s : Snapshot) : Nat := total (fun acc : Account => acc.balance.toNat) s.accounts

def stakes (s : Snapshot) : Nat :=
  total (fun v : ValidatorInfo => v.stakedAmount.toNat) s.validators

def stakeOf (s : Snapshot) (addr : Address) : Nat :=
  share (fun v : ValidatorInfo => v.stakedAmount.toNat) s.validators addr

namespace Snapshot
variable {cp : ChainParams} {s s' : Snapshot} {addr : Address} {amount : UInt64} {ts : Int64}

theorem share_balance (s : Snapshot) (addr : Address) :
    share (fun acc : Account => acc.balance.toNat) s.accounts addr = (s.getBalance addr).toNat := by
  unfold share getBalance
  cases s.accounts[addr]? <;> rfl

theorem getBalance_le (s : Snapshot) (addr : Address) : (s.getBalance addr).toNat ≤ balances s := by
  rw [← share_balance]
  exact share_le_total _ _ _

theorem getD_balance (s : Snapshot) (addr : Address) : ((s.accounts[addr]?).getD {}).balance = s.getBalance addr := by
  unfold getBalance
  cases s.accounts[addr]? <;> rfl

theorem balances_updateAccount (s : Snapshot) (addr : Address) (f : Account → Account) :
    balances (s.updateAccount addr f) + (s.getBalance addr).toNat =
      balances s + (f ((s.accounts[addr]?).getD {})).balance.toNat := by
  rw [← share_balance]
  exact total_insert _ _ _ _

@[simp] theorem balances_incrementNonce (s : Snapshot) (addr : Address) : balances (s.incrementNonce addr) = balances s := by
  have h := balances_updateAccount s addr fun acc => { acc with nonce := acc.nonce + 1 }
  simp only [getD_balance] at h
  unfold incrementNonce
  omega

theorem balances_addBalance (addr : Address) (fits : balances s + amount.toNat < 2 ^ 64) :
    balances (s.addBalance addr amount) = balances s + amount.toNat := by
  have h := balances_updateAccount s addr fun acc => { acc with balance := acc.balance + amount }
  have hle := getBalance_le s addr
  simp only [getD_balance] at h
  rw [toNat_add_of_fits (by omega)] at h
  unfold addBalance
  omega

theorem balances_subBalance (h : s.subBalance addr amount = .ok s') : balances s' + amount.toNat = balances s := by
  obtain ⟨acc, hacc, hle, rfl⟩ := subBalance_ok.mp h
  have hb : s.getBalance addr = acc.balance := by simp [getBalance, hacc]
  have hu := balances_updateAccount s addr fun acc => { acc with balance := acc.balance - amount }
  simp only [getD_balance, hb] at hu
  rw [UInt64.toNat_sub_of_le _ _ hle] at hu
  have := UInt64.le_iff_toNat_le.mp hle
  omega

theorem stakeOf_of_some {v : ValidatorInfo} (h : s.validators[addr]? = some v) : stakeOf s addr = v.stakedAmount.toNat := by
  simp [stakeOf, share, h]

theorem stakes_putValidator (s : Snapshot) (addr : Address) (v : ValidatorInfo) :
    stakes (s.putValidator addr v) + stakeOf s addr = stakes s + v.stakedAmount.toNat :=
  total_insert _ _ _ _

theorem stakes_putValidator_same {v v' : ValidatorInfo} (h : s.validators[addr]? = some v)
    (hv : v'.stakedAmount = v.stakedAmount) : stakes (s.putValidator addr v') = stakes s := by
  have hp := stakes_putValidator s addr v'
  rw [stakeOf_of_some h, hv] at hp
  omega

theorem stakedAmount_staked (v : ValidatorInfo) (amount : UInt64) :
    (staked cp v amount).stakedAmount = v.stakedAmount + amount := by
  unfold staked
  dsimp only
  split <;> rfl

theorem stakeTarget_stakedAmount (s : Snapshot) (addr : Address) (ts : Int64) :
    (s.stakeTarget addr ts).stakedAmount.toNat = stakeOf s addr := by
  unfold stakeTarget stakeOf share
  cases s.validators[addr]? <;> rfl

theorem stakes_stake (h : s.stake cp addr amount ts = .ok s')
    (fits : stakes s + amount.toNat < 2 ^ 64) : stakes s' = stakes s + amount.toNat := by
  obtain ⟨-, rfl⟩ := stake_ok.mp h
  have hp := stakes_putValidator s addr (staked cp (s.stakeTarget addr ts) amount)
  have hle : stakeOf s addr ≤ stakes s := share_le_total _ _ _
  rw [stakedAmount_staked, toNat_add_of_fits (by rw [stakeTarget_stakedAmount]; omega), stakeTarget_stakedAmount] at hp
  show stakes (s.putValidator addr _) = _
  omega

theorem stakes_slash (h : s.slash cp addr amount = .ok s') : stakes s' + amount.toNat = stakes s := by
  obtain ⟨v, hv, hle, rfl⟩ := slash_ok.mp h
  have hp := stakes_putValidator s addr (slashed cp v amount)
  have hs : (slashed cp v amount).stakedAmount.toNat = v.stakedAmount.toNat - amount.toNat :=
    UInt64.toNat_sub_of_le _ _ hle
  have hle' := UInt64.le_iff_toNat_le.mp hle
  rw [hs, stakeOf_of_some hv] at hp
  show stakes (s.putValidator addr _) + _ = _
  omega

theorem stakes_completeWithdrawal (h : s.completeWithdrawal addr ts = .ok (amount, s'))
    (there : ∀ v, s.validators[addr]? = some v → v.withdrawableAt ≤ ts → v.pendingWithdrawal ≤ v.stakedAmount) :
    stakes s' + amount.toNat = stakes s := by
  obtain ⟨v, hv, -, hts, rfl, rfl⟩ := completeWithdrawal_ok.mp h
  have hle := there v hv hts
  have hp := stakes_putValidator s addr (withdrawn v)
  have hs : (withdrawn v).stakedAmount.toNat =
      v.stakedAmount.toNat - v.pendingWithdrawal.toNat := UInt64.toNat_sub_of_le _ _ hle
  have hle' := UInt64.le_iff_toNat_le.mp hle
  rw [hs, stakeOf_of_some hv] at hp
  omega
end Snapshot

structure Moves (s s' : Snapshot) (account stake supply : ℤ) : Prop where
  balances : (balances s' : ℤ) = balances s + account
  stakes : (stakes s' : ℤ) = stakes s + stake
  supply : (s'.totalSupply.toNat : ℤ) = s.totalSupply.toNat + supply

namespace Moves
variable {cp : ChainParams} {s s₁ s' : Snapshot} {addr : Address} {amount : UInt64} {ts : Int64}
  {a a' b b' c c' : ℤ}

theorem trans (h : Moves s s₁ a b c) (h' : Moves s₁ s' a' b' c') : Moves s s' (a + a') (b + b') (c + c') := by
  obtain ⟨h₁, h₂, h₃⟩ := h
  obtain ⟨k₁, k₂, k₃⟩ := h'
  exact ⟨by omega, by omega, by omega⟩

theorem none (ha : s'.accounts = s.accounts) (hv : s'.validators = s.validators)
    (ht : s'.totalSupply = s.totalSupply) : Moves s s' 0 0 0 := by
  refine ⟨?_, ?_, by rw [ht]; omega⟩
  · unfold Chain.balances
    rw [ha]
    omega
  · unfold Chain.stakes
    rw [hv]
    omega

theorem addBalance (fits : Chain.balances s + amount.toNat < 2 ^ 64) :
    Moves s (s.addBalance addr amount) amount.toNat 0 0 := by
  refine ⟨?_, (add_zero _).symm, (add_zero _).symm⟩
  rw [Snapshot.balances_addBalance addr fits]
  push_cast
  rfl

theorem subBalance (h : s.subBalance addr amount = .ok s') : Moves s s' (-amount.toNat) 0 0 := by
  have hb := Snapshot.balances_subBalance h
  obtain ⟨acc, -, -, rfl⟩ := Snapshot.subBalance_ok.mp h
  exact ⟨by omega, (add_zero _).symm, (add_zero _).symm⟩

theorem putValidator {v v' : ValidatorInfo} (h : s.validators[addr]? = some v)
    (hv : v'.stakedAmount = v.stakedAmount) : Moves s (s.putValidator addr v') 0 0 0 := by
  refine ⟨(add_zero _).symm, ?_, (add_zero _).symm⟩
  rw [Snapshot.stakes_putValidator_same h hv]
  omega

theorem stake (h : s.stake cp addr amount ts = .ok s')
    (fits : Chain.stakes s + amount.toNat < 2 ^ 64) : Moves s s' 0 amount.toNat 0 := by
  have hs := Snapshot.stakes_stake h fits
  obtain ⟨-, rfl⟩ := Snapshot.stake_ok.mp h
  exact ⟨(add_zero _).symm, by omega, (add_zero _).symm⟩

theorem initiateWithdrawal (h : s.initiateWithdrawal cp addr amount ts = .ok s') : Moves s s' 0 0 0 := by
  obtain ⟨v, hv, -, -, -, rfl⟩ := Snapshot.initiateWithdrawal_ok.mp h
  exact putValidator hv rfl

theorem completeWithdrawal (h : s.completeWithdrawal addr ts = .ok (amount, s'))
    (there : ∀ v, s.validators[addr]? = some v → v.withdrawableAt ≤ ts →
      v.pendingWithdrawal ≤ v.stakedAmount) : Moves s s' 0 (-amount.toNat) 0 := by
  have hs := Snapshot.stakes_completeWithdrawal h there
  obtain ⟨v, -, -, -, -, rfl⟩ := Snapshot.completeWithdrawal_ok.mp h
  exact ⟨(add_zero _).symm, by omega, (add_zero _).symm⟩

theorem slash (h : s.slash cp addr amount = .ok s') (there : Chain.stakes s ≤ s.totalSupply.toNat) :
    Moves s s' 0 (-amount.toNat) (-amount.toNat) := by
  have hs := Snapshot.stakes_slash h
  obtain ⟨v, -, -, rfl⟩ := Snapshot.slash_ok.mp h
  have hle : amount ≤ s.totalSupply := UInt64.le_iff_toNat_le.mpr (by omega)
  have hsub := UInt64.toNat_sub_of_le _ _ hle
  have hle' := UInt64.le_iff_toNat_le.mp hle
  refine ⟨(add_zero _).symm, by omega, ?_⟩
  show (((if s.totalSupply < amount then 0 else s.totalSupply - amount) : UInt64).toNat : ℤ) = _
  rw [if_neg (UInt64.not_lt.mpr hle)]
  omega

theorem distributeReward (h : s.distributeReward addr amount = .ok s') : Moves s s' 0 0 0 := by
  obtain ⟨v, hv, -, rfl⟩ := Snapshot.distributeReward_ok.mp h
  exact putValidator hv rfl

theorem setVRFPublicKey {key : Bytes} (h : s.setVRFPublicKey addr key = .ok s') : Moves s s' 0 0 0 := by
  obtain ⟨v, hv, -, rfl⟩ := Snapshot.setVRFPublicKey_ok.mp h
  have hput : Moves s (s.putValidator addr { v with vrfPublicKey := key }) 0 0 0 := putValidator hv rfl
  exact ⟨hput.balances, hput.stakes, hput.supply⟩
end Moves
end LinkMint.Chain

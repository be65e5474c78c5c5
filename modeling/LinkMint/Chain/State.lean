import LinkMint.Chain.Tx

/-!
# `StateDB`

The in-memory chain state of `internal/state`, in three groups: the sixteen fields that a snapshot copies
(`Snapshot`), the chain parameters that genesis fixes (`ChainParams`), and the snapshot stack.
-/

namespace LinkMint.Chain

open Std

/-- The live state: exactly the fields `StateDB.Snapshot` copies and `Revert` restores. -/
structure Snapshot where
  accounts : ExtTreeMap Address Account := ∅
  paylinks : ExtTreeMap Hash PayLink := ∅
  validators : ExtTreeMap Address ValidatorInfo := ∅
  usedProofs : ExtTreeSet Hash := ∅
  submittedProofs : ExtTreeMap Hash Hash := ∅
  votes : ExtTreeSet VoteKey := ∅
  processedEvidence : ExtTreeSet Hash := ∅
  paylinksByCreator : ExtTreeMap Address (List Hash) := ∅
  paylinksByReceiver : ExtTreeMap Address (List Hash) := ∅
  paylinksByStatus : ExtTreeMap Status (List Hash) := ∅
  paylinksByOwner : ExtTreeMap Address (List Hash) := ∅
  operatorApprovals : ExtTreeSet OperatorKey := ∅
  validatorList : List Address := []
  vrfKeys : ExtTreeMap Address Bytes := ∅
  totalSupply : UInt64 := 0
  totalBurned : UInt64 := 0

structure ChainParams where
  maxSupply : UInt64
  minimumStake : UInt64
  withdrawalCooldown : Int64
  requiredValidations : UInt64
  adminAddress : Address
  treasuryAddress : Address
  feeRateBasisPoints : UInt64
  validatorRewardShare : UInt64
  treasuryShare : UInt64
  burnShare : UInt64

structure StateDB where
  params : ChainParams
  live : Snapshot
  snapshots : List Snapshot := []

/-! ## Genesis -/

def orDefault (x default : UInt64) : UInt64 := if x = 0 then default else x

def ChainParams.ofGenesis (g : GenesisConfig) : ChainParams where
  maxSupply := g.maxSupply
  minimumStake := g.minimumStake
  withdrawalCooldown := g.withdrawalCooldown
  requiredValidations := g.requiredValidations
  adminAddress := g.adminAddress
  treasuryAddress := g.treasuryAddress
  feeRateBasisPoints := orDefault g.feeRateBasisPoints 50
  validatorRewardShare := orDefault g.validatorRewardShare 70
  treasuryShare := orDefault g.treasuryShare 20
  burnShare := orDefault g.burnShare 10

def Snapshot.fund (s : Snapshot) (b : GenesisBalance) : Snapshot :=
  { s with
    accounts := s.accounts.insert b.address { balance := b.balance, nonce := 0 }
    totalSupply := s.totalSupply + b.balance }

def newStateDB (g : GenesisConfig) : StateDB where
  params := .ofGenesis g
  live := g.initialBalances.foldl Snapshot.fund {}

/-! ## Snapshots -/

namespace StateDB
def snapshot (db : StateDB) : StateDB × Nat :=
  ({ db with snapshots := db.snapshots ++ [db.live] }, db.snapshots.length)

/-- Restores snapshot `snapID` and drops it and every later one. -/
def revert (db : StateDB) (snapID : Nat) : StateDB :=
  match db.snapshots[snapID]? with
  | none => db
  | some snap => { db with live := snap, snapshots := db.snapshots.take snapID }

/-- Drops snapshot `snapID` and every later one, keeping the live state. -/
def discardSnapshot (db : StateDB) (snapID : Nat) : StateDB :=
  if db.snapshots.length ≤ snapID then db
  else { db with snapshots := db.snapshots.take snapID }

theorem revert_snapshot (db : StateDB) (s : Snapshot) :
    ({ db.snapshot.1 with live := s }).revert db.snapshot.2 = db := by
  simp [snapshot, revert]

theorem discardSnapshot_snapshot (db : StateDB) (s : Snapshot) :
    ({ db.snapshot.1 with live := s }).discardSnapshot db.snapshot.2 = { db with live := s } := by
  simp [snapshot, discardSnapshot]
end StateDB

namespace Snapshot
/-! ## Accounts -/

def getNonce (s : Snapshot) (addr : Address) : Nat := (s.accounts[addr]?).elim 0 (·.nonce)

def getBalance (s : Snapshot) (addr : Address) : UInt64 := (s.accounts[addr]?).elim 0 (·.balance)

/-- `acc, ok := accounts[addr]; if !ok { acc = &Account{} … }` and then a write through `acc`. -/
def updateAccount (s : Snapshot) (addr : Address) (f : Account → Account) : Snapshot :=
  { s with accounts := s.accounts.insert addr (f ((s.accounts[addr]?).getD {})) }

def incrementNonce (s : Snapshot) (addr : Address) : Snapshot :=
  s.updateAccount addr fun acc => { acc with nonce := acc.nonce + 1 }

def addBalance (s : Snapshot) (addr : Address) (amount : UInt64) : Snapshot :=
  s.updateAccount addr fun acc => { acc with balance := acc.balance + amount }

def insufficientBalance (s : Snapshot) (addr : Address) (amount : UInt64) : String :=
  s!"insufficient balance: have {s.getBalance addr}, need {amount}"

def subBalance (s : Snapshot) (addr : Address) (amount : UInt64) : Except String Snapshot :=
  match s.accounts[addr]? with
  | none => .error (s.insufficientBalance addr amount)
  | some acc =>
    if acc.balance < amount then .error (s.insufficientBalance addr amount)
    else .ok (s.updateAccount addr fun acc => { acc with balance := acc.balance - amount })

/-- The debit lands before the credit is read, so a transfer to oneself changes nothing. -/
def transfer (s : Snapshot) (fromAddr toAddr : Address) (amount : UInt64) : Except String Snapshot :=
  match s.accounts[fromAddr]? with
  | none => .error (s.insufficientBalance fromAddr amount)
  | some acc =>
    if acc.balance < amount then .error (s.insufficientBalance fromAddr amount)
    else .ok ((s.updateAccount fromAddr fun acc => { acc with balance := acc.balance - amount })
      |>.addBalance toAddr amount)

def mintTokens (cp : ChainParams) (s : Snapshot) (toAddr : Address) (amount : UInt64) : Except String Snapshot :=
  if s.totalSupply + amount > cp.maxSupply then
    .error s!"mint would exceed max supply: current {s.totalSupply} + {amount} > {cp.maxSupply}"
  else .ok { s.addBalance toAddr amount with totalSupply := s.totalSupply + amount }

theorem subBalance_ok {s s' : Snapshot} {addr : Address} {amount : UInt64} :
    s.subBalance addr amount = .ok s' ↔ ∃ acc, s.accounts[addr]? = some acc ∧ amount ≤ acc.balance ∧
      s' = s.updateAccount addr fun acc => { acc with balance := acc.balance - amount } := by
  unfold subBalance
  cases h : s.accounts[addr]? with
  | none => simp
  | some acc =>
    by_cases hlt : acc.balance < amount
    · simp [hlt, UInt64.not_le.mpr hlt]
    · simp [hlt, UInt64.not_lt.mp hlt, eq_comm]

theorem transfer_ok {s s' : Snapshot} {fromAddr toAddr : Address} {amount : UInt64} :
    s.transfer fromAddr toAddr amount = .ok s' ↔ ∃ s₁,
      s.subBalance fromAddr amount = .ok s₁ ∧ s' = s₁.addBalance toAddr amount := by
  unfold transfer subBalance
  cases h : s.accounts[fromAddr]? with
  | none => simp
  | some acc =>
    by_cases hlt : acc.balance < amount
    · simp [hlt]
    · simp [hlt, eq_comm]

theorem mintTokens_ok {cp : ChainParams} {s s' : Snapshot} {toAddr : Address} {amount : UInt64} :
    s.mintTokens cp toAddr amount = .ok s' ↔ s.totalSupply + amount ≤ cp.maxSupply ∧
      s' = { s.addBalance toAddr amount with totalSupply := s.totalSupply + amount } := by
  unfold mintTokens
  by_cases h : s.totalSupply + amount > cp.maxSupply
  · simp [h, UInt64.not_le.mpr h]
  · simp [h, UInt64.not_lt.mp h, eq_comm]

def recordBurn (s : Snapshot) (amount : UInt64) : Snapshot :=
  { s with totalBurned := s.totalBurned + amount }
end Snapshot
end LinkMint.Chain

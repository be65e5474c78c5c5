import LinkMint.Chain.Handlers

/-!
# `ExecuteBlock`

The loop of `internal/chain/executor.go`.
-/

namespace LinkMint.Chain

/-- The executor: its state, whether a bus is wired (`nil` = no events), and the two buffers. -/
structure Executor where
  db : StateDB
  eventBus : Bool
  pendingEvt : List Event := []
  blockEvt : List Event := []

namespace Executor
variable (env : Env)

/-- `ExecuteTx`: a failing handler leaves the state it had reached. -/
def executeTx (ex : Executor) (tx : Transaction) (blockTimestamp : Int64) : TxReceipt × Executor :=
  let leave (t : TxState) : Executor :=
    { ex with
      db := { ex.db with live := t.state }
      pendingEvt := if ex.eventBus then t.pending else ex.pendingEvt }
  match (Chain.executeTx env ex.db.params tx blockTimestamp).run
      { state := ex.db.live, pending := ex.pendingEvt } with
  | .ok _ t => ({ txHash := tx.hash, success := true }, leave t)
  | .error e t => ({ txHash := tx.hash, error := e }, leave t)

def discardTxEvents (ex : Executor) : Executor := { ex with pendingEvt := [] }

def commitTxEvents (ex : Executor) : Executor :=
  { ex with blockEvt := ex.blockEvt ++ ex.pendingEvt, pendingEvt := [] }

def discardEvents (ex : Executor) : Executor := { ex with pendingEvt := [], blockEvt := [] }

def flushEvents (ex : Executor) (blockHeight : Nat) : List Event × Executor :=
  (if ex.eventBus then ex.blockEvt.map fun evt => { evt with blockHeight := blockHeight } else [],
    { ex with blockEvt := [] })

def executeOne (ex : Executor) (tx : Transaction) (blockTimestamp : Int64) : TxReceipt × Executor :=
  match verifyTx env tx with
  | .error e => ({ txHash := tx.hash, error := s!"invalid signature: {e}" }, ex)
  | .ok () =>
    let (db, snapID) := ex.db.snapshot
    let (receipt, ex) := (discardTxEvents { ex with db := db }).executeTx env tx blockTimestamp
    if receipt.success = false then
      (receipt, discardTxEvents { ex with db := ex.db.revert snapID })
    else
      (receipt, commitTxEvents { ex with db := ex.db.discardSnapshot snapID })

/-- `ExecuteBlock`. -/
def executeBlock (ex : Executor) (blockTimestamp : Int64) : List Transaction → List TxReceipt × Executor
  | [] => ([], ex)
  | tx :: txs =>
    let (receipt, ex) := ex.executeOne env tx blockTimestamp
    let (receipts, ex) := executeBlock ex blockTimestamp txs
    (receipt :: receipts, ex)
end Executor

/-! ## What a block's transactions do, one at a time

The loop's snapshots cancel out: a transaction either takes effect as a whole or not at all, and
`applyTx` is that effect on the live state. `executeBlock_spec` below is the statement; everything
proved about runs is proved about `applyTx`. -/

variable (env : Env) (cp : ChainParams)

/-- What running the transaction comes to: the state and events it leaves, or the text it fails with. -/
def outcome (s : Snapshot) (tx : Transaction) (blockTimestamp : Int64) : Except String TxState :=
  match verifyTx env tx with
  | .error e => .error s!"invalid signature: {e}"
  | .ok () =>
    match (executeTx env cp tx blockTimestamp).run { state := s } with
    | .ok _ t => .ok t
    | .error e _ => .error e

def applyTx (s : Snapshot) (tx : Transaction) (blockTimestamp : Int64) : Snapshot :=
  match outcome env cp s tx blockTimestamp with
  | .ok t => t.state
  | .error _ => s

def receiptOf (tx : Transaction) : Except String TxState → TxReceipt
  | .ok _ => { txHash := tx.hash, success := true }
  | .error e => { txHash := tx.hash, error := e }

def eventsOf : Except String TxState → List Event
  | .ok t => t.pending
  | .error _ => []

/-- The outcomes of a list of transactions, each in the state the ones before it left. -/
def outcomes (blockTimestamp : Int64) : Snapshot → List Transaction → List (Except String TxState)
  | _, [] => []
  | s, tx :: txs =>
    outcome env cp s tx blockTimestamp ::
      outcomes blockTimestamp (applyTx env cp s tx blockTimestamp) txs

def applyTxs (blockTimestamp : Int64) (s : Snapshot) (txs : List Transaction) : Snapshot :=
  txs.foldl (fun s tx => applyTx env cp s tx blockTimestamp) s

variable {env} {cp}

/-- One iteration of the loop: the receipt of the transaction's outcome, its effect on the live
    state, its events on the block's buffer if there is a bus. -/
theorem executeOne_spec (env : Env) (ex : Executor) (tx : Transaction) (ts : Int64) : let o := outcome env ex.db.params ex.db.live tx ts
    let r := ex.executeOne env tx ts
    r.1 = receiptOf tx o ∧
    r.2.db = { ex.db with live := applyTx env ex.db.params ex.db.live tx ts } ∧
    r.2.eventBus = ex.eventBus ∧
    r.2.blockEvt = ex.blockEvt ++ (if ex.eventBus then eventsOf o else []) := by
  -- both results are named before anything is unfolded: the loop body tests them
  cases hr : (executeTx env ex.db.params tx ts).run { state := ex.db.live } with
  | ok a t =>
    cases hv : verifyTx env tx with
    | error e => simp [Executor.executeOne, applyTx, outcome, hv, receiptOf, eventsOf]
    | ok u =>
      simp only [Executor.executeOne, applyTx, outcome, hv, Executor.executeTx,
        Executor.discardTxEvents, StateDB.snapshot, hr]
      refine ⟨rfl, StateDB.discardSnapshot_snapshot ex.db t.state, rfl, ?_⟩
      cases ex.eventBus <;> simp [Executor.commitTxEvents, eventsOf]
  | error e t =>
    cases hv : verifyTx env tx with
    | error e => simp [Executor.executeOne, applyTx, outcome, hv, receiptOf, eventsOf]
    | ok u =>
      simp only [Executor.executeOne, applyTx, outcome, hv, Executor.executeTx,
        Executor.discardTxEvents, StateDB.snapshot, hr]
      exact ⟨rfl, StateDB.revert_snapshot ex.db t.state, rfl, by simp [eventsOf]⟩

/-- **The block loop is its transactions' effects, one after the other.** Snapshots leave no
    trace, failed transactions leave none either, and the stack comes back as it was. -/
theorem executeBlock_spec (env : Env) (ex : Executor) (ts : Int64) (txs : List Transaction) : let os := outcomes env ex.db.params ts ex.db.live txs
    let r := ex.executeBlock env ts txs
    r.1 = List.zipWith receiptOf txs os ∧
    r.2.db = { ex.db with live := applyTxs env ex.db.params ts ex.db.live txs } ∧
    r.2.eventBus = ex.eventBus ∧
    r.2.blockEvt = ex.blockEvt ++ (if ex.eventBus then os.flatMap eventsOf else []) := by
  induction txs generalizing ex with
  | nil => simp [outcomes, Executor.executeBlock, applyTxs]
  | cons tx txs ih =>
    obtain ⟨h₁, h₂, h₃, h₄⟩ := executeOne_spec env ex tx ts
    obtain ⟨k₁, k₂, k₃, k₄⟩ := ih (ex.executeOne env tx ts).2
    rw [h₂] at k₁ k₂ k₄
    rw [h₃] at k₃ k₄
    refine ⟨?_, k₂, k₃, ?_⟩
    · simp only [Executor.executeBlock, outcomes, List.zipWith_cons_cons, h₁, k₁]
    · simp only [Executor.executeBlock, outcomes, k₄, h₄]
      cases ex.eventBus <;> simp

end LinkMint.Chain

import LinkMint.Chain.Blockchain
import LinkMint.Chain.Mempool
import LinkMint.Chain.Run

/-!
# A node

What `cmd/paylinkd/main.go` wires together: chain, executor, mempool, `BlockProcessor`, `BlockProducer` and
`Replay`.
-/

namespace LinkMint.Chain

open LinkMint.Lib

def Executor.Idle (ex : Executor) : Prop := ex.pendingEvt = [] ∧ ex.blockEvt = []

structure NodeState where
  genesis : GenesisConfig
  chain : Blockchain
  exec : Executor
  mempool : Mempool
  published : List Event := []
  /-- The canonical proposer, if there is a `PoV`. -/
  pov : Option Address
  proposer : Address
  signingKey : Option Bytes
  producerBus : Bool

structure Node extends NodeState where
  idle : exec.Idle

variable (env : Env)

/-! ## The follower -/

/-- The transactions of a block from number `i` on, each authenticated. -/
def verifyTxs (height : Nat) : Nat → List Transaction → Except String Unit
  | _, [] => .ok ()
  | i, tx :: txs =>
    match verifyTx env tx with
    | .error e => .error s!"block {height}: tx {i}: {e}"
    | .ok () => verifyTxs height (i + 1) txs

/-- The end of `validate`: the header's roots and the transactions. -/
def validateBody (block : Block) : Except String Unit :=
  let h := block.header
  if computeTxRoot env block.transactions ≠ h.txRoot then
    .error s!"block {h.height}: tx root mismatch"
  else verifyTxs env h.height 0 block.transactions

/-- The middle of `validate`: who proposed and signed. -/
def validateCommit (g : GenesisConfig) (block : Block) : Except String Unit :=
  let h := block.header
  let c := block.commit
  if h.proposerAddr ≠ g.adminAddress then
    .error s!"block {h.height}: proposer {hex h.proposerAddr} is not the canonical proposer"
  else if c.proposerAddr ≠ h.proposerAddr then
    .error s!"block {h.height}: commit proposer {hex c.proposerAddr} != header proposer {hex h.proposerAddr}"
  else if c.publicKey.length = 0 then .error s!"block {h.height}: missing proposer public key"
  else match unmarshalPublicKey env c.publicKey with
    | .error e => .error s!"block {h.height}: invalid proposer public key: {e}"
    | .ok pub =>
      if pubkeyToAddress env pub ≠ c.proposerAddr then
        .error s!"block {h.height}: proposer public key does not derive {hex c.proposerAddr}"
      else if verify env block.hash c.signature pub = false then
        .error s!"block {h.height}: invalid proposer signature"
      else .ok ()

/-- `validate`: every check that does not need the state. -/
def validate (g : GenesisConfig) (block : Block) (tip : Option Block) : Except String Unit :=
  let h := block.header
  if tip.any fun tip => h.previousHash ≠ tip.hash then
    .error s!"block {h.height}: previous hash mismatch"
  else if tip.any fun tip => h.height ≠ tip.header.height + 1 then
    .error s!"block {h.height}: height gap (tip {tip.elim 0 (·.header.height)})"
  else if block.hash ≠ headerHash env h then .error s!"block {h.height}: hash mismatch"
  else match validateCommit env g block with
    | .error e => .error e
    | .ok () => validateBody env block

def tagReceipts (height : Nat) (receipts : List TxReceipt) : List TxReceipt :=
  receipts.mapIdx fun i r => { r with blockHeight := height, txIndex := i }

namespace NodeState
/-- `ProcessBlock`, on the result of the store's `Flush`. -/
def processBlock (node : NodeState) (block : Block) (flush : Except String Unit) : Except String Unit × NodeState :=
  let height := block.header.height
  if node.chain.tip.any fun tip => height ≤ tip.header.height then (.ok (), node)
  else match validate env node.genesis block node.chain.tip with
    | .error e => (.error e, node)
    | .ok () =>
      let (db, snapID) := node.exec.db.snapshot
      let (receipts, exec) :=
        ({ node.exec with db := db } : Executor).executeBlock env block.header.timestamp
          block.transactions
      let reverted : NodeState :=
        { node with exec := ({ exec with db := exec.db.revert snapID } : Executor).discardEvents }
      match receipts.find? fun r => r.success = false with
      | some r => (.error s!"block {height}: tx {hex r.txHash} failed: {r.error}", reverted)
      | none =>
        let got := computeStateRoot env exec.db.live
        if got ≠ block.header.stateRoot then
          (.error s!"block {height}: state root mismatch: computed {hex got}, header {hex block.header.stateRoot}",
            reverted)
        else match node.chain.commitBlock env block (tagReceipts height receipts) flush with
          | .error e => (.error s!"commit block {height}: {e}", reverted)
          | .ok chain =>
            let (events, exec) :=
              ({ exec with db := exec.db.discardSnapshot snapID } : Executor).flushEvents height
            (.ok (),
              { node with chain := chain, exec := exec, published := node.published ++ events })
end NodeState

/-! ## The producer -/

/-- What happens around one call of `produceBlock`: the clock, the randomness of the signature, the
    results of the writes, and the transactions that are added to the mempool meanwhile. -/
structure BlockIO where
  now : Int64
  rand : Bytes
  flush : Except String Unit
  set : Nat → Except String Unit
  arrivals : List Transaction := []

def maxTxsPerBlock : Nat := 500

def successTxs (txs : List Transaction) (receipts : List TxReceipt) : List Transaction :=
  ((txs.zip receipts).filter (·.2.success)).map (·.1)

/-- The producer's tags: every receipt gets the height, and the successes are numbered. -/
def tagProduced (height : Nat) : Nat → List TxReceipt → List TxReceipt
  | _, [] => []
  | txIdx, r :: rs =>
    if r.success then
      { r with blockHeight := height, txIndex := txIdx } :: tagProduced height (txIdx + 1) rs
    else { r with blockHeight := height } :: tagProduced height txIdx rs

def nextHeight (tip : Option Block) : Nat := tip.elim 0 (·.header.height + 1)

namespace NodeState
def unsignedBlock (node : NodeState) (now : Int64) (s : Snapshot) (txs : List Transaction) : Block :=
  let tip := node.chain.tip
  let header : BlockHeader :=
    { height := nextHeight tip
      timestamp := now
      previousHash := tip.elim 0 (·.hash)
      stateRoot := computeStateRoot env s
      txRoot := computeTxRoot env txs
      proposerAddr := node.proposer }
  { header := header, transactions := txs, hash := headerHash env header }

def signBlock (node : NodeState) (rand : Bytes) (block : Block) : Except String Block :=
  match node.signingKey with
  | none => .error "block producer has no signing key"
  | some signingKey =>
    match unmarshalPrivateKey env signingKey with
    | .error e => .error e
    | .ok key =>
      match sign env rand block.hash key with
      | .error e => .error e
      | .ok sig => .ok
          { block with commit :=
              { proposerAddr := node.proposer
                publicKey := marshalPublicKey env key.publicKey
                signature := sig } }

def blockProduced (block : Block) : Event :=
  { kind := .blockProduced, entityType := .block, entityID := hex block.hash
    blockHeight := block.header.height
    data := some (.blockProduced (hex block.hash) block.header.height block.transactions.length
      (hex block.header.proposerAddr) (hex block.header.stateRoot) (hex block.header.previousHash)) }

/-- `produceBlock`. -/
def produceBlock (srt : NonceSort) (node : NodeState) (io : BlockIO) : Option Block × NodeState :=
  if node.pov.any fun proposer => node.proposer ≠ proposer then (none, node)
  else
    let (txs, drained) := node.mempool.drainForBlock maxTxsPerBlock
    let mempool := drained.reinsertAll srt io.arrivals
    if txs.length = 0 then (none, { node with mempool := mempool })
    else
      let (db, snapID) := node.exec.db.snapshot
      let (receipts, exec) :=
        ({ node.exec with db := db } : Executor).executeBlock env io.now txs
      let succeeded := successTxs txs receipts
      let receipts := tagProduced (nextHeight node.chain.tip) 0 receipts
      if succeeded.length = 0 then
        (none,
          { node with
            mempool := mempool
            exec := ({ exec with db := exec.db.discardSnapshot snapID } : Executor).discardEvents
            chain := (node.chain.storeReceipts env io.set receipts).2 })
      else
        let reverted : NodeState :=
          { node with
            mempool := mempool.reinsertAll srt succeeded
            exec := ({ exec with db := exec.db.revert snapID } : Executor).discardEvents }
        match node.signBlock env io.rand (node.unsignedBlock env io.now exec.db.live succeeded) with
        | .error _ => (none, reverted)
        | .ok block =>
          match node.chain.commitBlock env block receipts io.flush with
          | .error _ => (none, reverted)
          | .ok chain =>
            let (events, exec) :=
              ({ exec with db := exec.db.discardSnapshot snapID } : Executor).flushEvents
                (nextHeight node.chain.tip)
            (some block,
              { node with
                mempool := mempool
                chain := chain
                exec := exec
                published := node.published ++ events ++ if node.producerBus then [blockProduced block] else [] })
end NodeState

/-! ## Restarting -/

/-- The loop of `Replay`, `n` blocks from height `h` on. -/
def replayFrom (bc : Blockchain) : (n h : Nat) → Executor → Except String Unit × Executor
  | 0, _, ex => (.ok (), ex)
  | n + 1, h, ex =>
    match bc.getBlockByHeight env h with
    | .error e => (.error s!"replay: load block {h}: {e}", ex)
    | .ok none => (.error s!"replay: block {h} missing from store", ex)
    | .ok (some block) =>
      let (receipts, ex) := ex.executeBlock env block.header.timestamp block.transactions
      match receipts.find? fun r => r.success = false with
      | some r => (.error s!"replay: block {h} tx {hex r.txHash} failed: {r.error}", ex)
      | none => replayFrom bc n (h + 1) ex.discardEvents

def replay (bc : Blockchain) (ex : Executor) : Except String Unit × Executor :=
  match bc.tip with
  | none => (.ok (), ex)
  | some tip =>
    if tip.header.height = 0 then (.ok (), ex)
    else match replayFrom env bc tip.header.height 1 ex with
      | (.error e, ex) => (.error e, ex)
      | (.ok (), ex) =>
        let root := computeStateRoot env ex.db.live
        if root ≠ tip.header.stateRoot then
          (.error s!"replay: state root mismatch at height {tip.header.height}: computed {hex root}, header {hex tip.header.stateRoot}", ex)
        else (.ok (), ex)

/-! ## At rest

Every step ends with both buffers empty: the transactions' buffer is emptied by the loop, the block's
by `FlushEvents` or `DiscardEvents`. -/

variable {env}

namespace Executor
theorem executeOne_pendingEvt {ex : Executor} {tx : Transaction} {ts : Int64}
    (h : ex.pendingEvt = []) : (ex.executeOne env tx ts).2.pendingEvt = [] := by
  unfold executeOne
  cases verifyTx env tx with
  | error e => exact h
  | ok u =>
    simp only
    split
    · rfl
    · rfl

theorem executeBlock_pendingEvt {ex : Executor} {ts : Int64} {txs : List Transaction}
    (h : ex.pendingEvt = []) : (ex.executeBlock env ts txs).2.pendingEvt = [] := by
  induction txs generalizing ex with
  | nil => exact h
  | cons tx txs ih => exact ih (executeOne_pendingEvt h)

theorem discardEvents_idle (ex : Executor) : ex.discardEvents.Idle := ⟨rfl, rfl⟩

theorem flushEvents_idle {ex : Executor} (height : Nat) (h : ex.pendingEvt = []) : (ex.flushEvents height).2.Idle := ⟨h, rfl⟩
end Executor

theorem NodeState.processBlock_idle {node : NodeState} {block : Block} {flush : Except String Unit}
    (h : node.exec.Idle) : (node.processBlock env block flush).2.exec.Idle := by
  unfold processBlock
  simp only
  split
  · exact h
  · split
    · exact h
    · split
      · exact Executor.discardEvents_idle _
      · split
        · exact Executor.discardEvents_idle _
        · split
          · exact Executor.discardEvents_idle _
          · exact Executor.flushEvents_idle block.header.height (Executor.executeBlock_pendingEvt h.1)

theorem NodeState.produceBlock_idle {srt : NonceSort} {node : NodeState} {io : BlockIO}
    (h : node.exec.Idle) : (node.produceBlock env srt io).2.exec.Idle := by
  unfold produceBlock
  simp only
  split
  · exact h
  · split
    · exact h
    · split
      · exact Executor.discardEvents_idle _
      · split
        · exact Executor.discardEvents_idle _
        · split
          · exact Executor.discardEvents_idle _
          · exact Executor.flushEvents_idle (nextHeight node.chain.tip) (Executor.executeBlock_pendingEvt h.1)

def NodeState.setup (node : NodeState) : GenesisConfig × Option Address × Address × Option Bytes × Bool :=
  (node.genesis, node.pov, node.proposer, node.signingKey, node.producerBus)

theorem NodeState.processBlock_setup (node : NodeState) (block : Block)
    (flush : Except String Unit) : (node.processBlock env block flush).2.setup = node.setup := by
  unfold processBlock
  simp only
  split
  · rfl
  · split
    · rfl
    · split
      · rfl
      · split
        · rfl
        · split
          · rfl
          · rfl

theorem NodeState.produceBlock_setup (srt : NonceSort) (node : NodeState) (io : BlockIO) :
    (node.produceBlock env srt io).2.setup = node.setup := by
  unfold produceBlock
  simp only
  split
  · rfl
  · split
    · rfl
    · split
      · rfl
      · split
        · rfl
        · split
          · rfl
          · rfl

namespace Node
variable (env)

def processBlock (node : Node) (block : Block) (flush : Except String Unit) : Except String Unit × Node :=
  let r := node.toNodeState.processBlock env block flush
  (r.1, { r.2 with idle := NodeState.processBlock_idle node.idle })

def produceBlock (srt : NonceSort) (node : Node) (io : BlockIO) : Option Block × Node :=
  let r := node.toNodeState.produceBlock env srt io
  (r.1, { r.2 with idle := NodeState.produceBlock_idle node.idle })

theorem produceBlock_fst (srt : NonceSort) (node : Node) (io : BlockIO) :
    (node.produceBlock env srt io).1 = (node.toNodeState.produceBlock env srt io).1 := rfl

theorem produceBlock_snd (srt : NonceSort) (node : Node) (io : BlockIO) :
    (node.produceBlock env srt io).2.toNodeState = (node.toNodeState.produceBlock env srt io).2 :=
  rfl
end Node

/-! ## `paylinkd` -/

/-- A node as `main` sets it up: the canonical proposer is the genesis admin, and the node proposes
    under the address of its own key. -/
structure Paylinkd (env : Env) extends Node where
  canonical : pov = some genesis.adminAddress
  keyed : ∀ data key, signingKey = some data → unmarshalPrivateKey env data = .ok key →
    proposer = pubkeyToAddress env key.publicKey

namespace Paylinkd
def ofSetup (node : Paylinkd env) (next : Node) (h : next.setup = node.setup) : Paylinkd env :=
  { next with
    canonical := by
      simp only [NodeState.setup, Prod.mk.injEq] at h
      obtain ⟨hgenesis, hpov, -⟩ := h
      rw [hgenesis, hpov]
      exact node.canonical
    keyed := by
      simp only [NodeState.setup, Prod.mk.injEq] at h
      obtain ⟨-, -, hproposer, hkey, -⟩ := h
      rw [hproposer, hkey]
      exact node.keyed }

/-- `main`, up to the point where the node serves: the state is rebuilt from the store by an executor without a
    bus. -/
def start (env : Env) (g : GenesisConfig) (privKey : Bytes) (store : Store)
    (flush : Except String Unit) : Except String (Paylinkd env) :=
  match hkey : unmarshalPrivateKey env privKey with
  | .error e => .error s!"Invalid private key: {e}"
  | .ok key =>
    let stateDB := newStateDB g
    let bc : Blockchain := { store := store }
    match bc.init env (createGenesisBlock env g stateDB.live) flush with
    | .error e => .error s!"Failed to init blockchain: {e}"
    | .ok bc =>
      match replay env bc { db := stateDB, eventBus := false } with
      | (.error e, _) => .error s!"Failed to rebuild state from chain data: {e}"
      | (.ok (), replayed) => .ok
          { genesis := g
            chain := bc
            exec := { db := replayed.db, eventBus := true }
            mempool := .new 10000
            pov := some g.adminAddress
            proposer := pubkeyToAddress env key.publicKey
            signingKey := some privKey
            producerBus := true
            idle := ⟨rfl, rfl⟩
            canonical := rfl
            keyed := by
              rintro _ key' ⟨⟩ hkey'
              rw [hkey] at hkey'
              cases hkey'
              rfl }

inductive Op where
  | add (tx : Transaction)
  | produce (io : BlockIO)
  | process (block : Block) (flush : Except String Unit)

def step (srt : NonceSort) (node : Paylinkd env) : Op → Paylinkd env
  | .add tx => { node with mempool := ((node.mempool.add srt tx).toOption).getD node.mempool }
  | .produce io =>
    node.ofSetup (node.toNode.produceBlock env srt io).2 (NodeState.produceBlock_setup ..)
  | .process block flush =>
    node.ofSetup (node.toNode.processBlock env block flush).2 (NodeState.processBlock_setup ..)

/-! ### Starting -/

structure Started (env : Env) (g : GenesisConfig) (store : Store) (flush : Except String Unit)
    (node : Paylinkd env) : Prop where
  chain : ({ store := store } : Blockchain).init env (createGenesisBlock env g (newStateDB g).live)
    flush = .ok node.chain
  replayed : ∃ ex, replay env node.chain { db := newStateDB g, eventBus := false } = (.ok (), ex) ∧
    node.exec = { db := ex.db, eventBus := true }
  genesis : node.genesis = g

theorem started_of_start {g : GenesisConfig} {privKey : Bytes} {store : Store}
    {flush : Except String Unit} {node : Paylinkd env}
    (h : start env g privKey store flush = .ok node) : Started env g store flush node := by
  unfold start at h
  split at h
  · cases h
  · simp only at h
    split at h
    · cases h
    · next bc hinit =>
      split at h
      · cases h
      · next ex hreplay =>
        cases h
        exact ⟨hinit, ⟨ex, hreplay, rfl⟩, rfl⟩

theorem Started.fresh {g : GenesisConfig} {flush : Except String Unit} {node : Paylinkd env}
    (h : Started env g {} flush node) :
    Blockchain.Stored env {} (createGenesisBlock env g (newStateDB g).live) [] node.chain ∧
      node.exec.db = newStateDB g := by
  have hchain : ({} : Blockchain).storeBlock env (createGenesisBlock env g (newStateDB g).live) []
      flush = .ok node.chain := h.chain
  obtain ⟨-, hstored⟩ := Blockchain.storeBlock_ok hchain
  refine ⟨hstored, ?_⟩
  obtain ⟨ex, hreplay, hexec⟩ := h.replayed
  unfold replay at hreplay
  rw [hstored.tip] at hreplay
  cases hreplay
  rw [hexec]
end Paylinkd
end LinkMint.Chain

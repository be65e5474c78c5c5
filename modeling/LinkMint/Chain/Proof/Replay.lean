import LinkMint.Chain.Proof.Agreement
import LinkMint.Chain.Proof.RootExec

/-!
# Replay rebuilds the state

The store keeps blocks and no state. A restarted node executes the blocks again, without the
failed transactions and with payloads of other white space; this loses nothing.
-/

namespace LinkMint.Chain

open LinkMint.Lib Std

variable {env : Env}

inductive Grows (env : Env) (node node' : NodeState) : Prop where
  | same (tip : node'.chain.tip = node.chain.tip) (height : node'.chain.height = node.chain.height)
      (storeHeight : node'.chain.store.height = node.chain.store.height)
      (blocks : node'.chain.store.blocks = node.chain.store.blocks) (exec : node'.exec = node.exec)
  | block (block : Block) (receipts : List TxReceipt)
      (extends_ : Blockchain.Extends env node.chain block)
      (stored : Blockchain.Stored env node.chain block receipts node'.chain)
      (succeed : ∀ o ∈ node.exec.outcomes env block.header.timestamp block.transactions, o.isOk = true)
      (root : block.header.stateRoot =
        computeStateRoot env (node.exec.after env block.header.timestamp block.transactions))
      (exec : node'.exec = node.exec.withLive (node.exec.after env block.header.timestamp block.transactions))

theorem SameView.refl (node : NodeState) : SameView node node := ⟨rfl, rfl, rfl, rfl, rfl⟩

theorem Grows.of_produceBlock (srt : NonceSort) (node : Node) (io : BlockIO) :
    Grows env node.toNodeState (node.toNodeState.produceBlock env srt io).2 := by
  have hcases := produceBlock_cases env srt node io
  generalize node.toNodeState.produceBlock env srt io = p at hcases
  cases hcases with
  | notProposer _ => exact .same rfl rfl rfl rfl rfl
  | empty _ _ => exact .same rfl rfl rfl rfl rfl
  | aborted _ _ _ _ => exact .same rfl rfl rfl rfl rfl
  | allFailed _ _ =>
    obtain ⟨_, _, entries, -, -, hchain⟩ := Blockchain.storeReceiptsFrom_spec env io.set 0
      node.chain (node.receipts env io)
    have hchain' : (node.chain.storeReceipts env io.set (node.receipts env io)).2 =
        node.chain.withReceipts entries := hchain
    simp only [hchain']
    exact .same rfl rfl rfl rfl rfl
  | committed _ _ block chain hok =>
    obtain ⟨hsign, hcommit⟩ := NodeState.attempt_ok.mp hok
    obtain ⟨-, hextends, hstored⟩ := Blockchain.commitBlock_ok hcommit
    have hblock := SignedBlock.of_signBlock hsign
    -- executing the block alone is executing the drain
    obtain ⟨hafter, hsucceed, -⟩ := executed_alike (SameView.refl node.toNodeState) hblock
    refine .block block _ hextends hstored hsucceed ?_ ?_
    · rw [hafter, hblock.stateRoot]
    · rw [hafter]
      rfl

theorem Grows.of_processBlock (node : Node) (block : Block) (flush : Except String Unit) :
    Grows env node.toNodeState (node.toNodeState.processBlock env block flush).2 := by
  rcases processBlock_cases env node block flush with ⟨-, heq⟩ | ⟨e, heq⟩ | ⟨chain, h, heq⟩
  · rw [heq]
    exact .same rfl rfl rfl rfl rfl
  · rw [heq]
    exact .same rfl rfl rfl rfl rfl
  · rw [heq]
    obtain ⟨-, hextends, hstored⟩ := Blockchain.commitBlock_ok h.committed
    exact .block block _ hextends hstored h.succeed h.root.symm rfl

theorem Paylinkd.step_grows (srt : NonceSort) (node : Paylinkd env) (op : Paylinkd.Op) :
    Grows env node.toNodeState (node.step srt op).toNodeState := by
  cases op with
  | add tx => exact .same rfl rfl rfl rfl rfl
  | produce io => exact Grows.of_produceBlock srt node.toNode io
  | process block flush => exact Grows.of_processBlock node.toNode block flush

inductive History (env : Env) (g : GenesisConfig) (store : Store) : Nat → Snapshot → Prop where
  | genesis : History env g store 0 (newStateDB g).live
  | next {h : Nat} {s : Snapshot} (block : Block) (data : Bytes) (before : History env g store h s)
      (stored : store.blocks[h + 1]? = some data) (encoded : env.encode.block block = .ok data)
      (succeed : ∀ o ∈ outcomes env (newStateDB g).params block.header.timestamp s
        block.transactions, o.isOk = true) :
      History env g store (h + 1)
        (applyTxs env (newStateDB g).params block.header.timestamp s block.transactions)

theorem History.mono {g : GenesisConfig} {store store' : Store} {h : Nat} {s : Snapshot}
    (hist : History env g store h s) (hsame : ∀ k ≤ h, store'.blocks[k]? = store.blocks[k]?) : History env g store' h s := by
  induction hist with
  | genesis => exact .genesis
  | @next h s block data before stored encoded succeed ih =>
    refine .next block data (ih fun k hk => hsame k (Nat.le_succ_of_le hk)) ?_ encoded succeed
    rw [hsame (h + 1) (Nat.le_refl _)]
    exact stored

structure Persisted (env : Env) (g : GenesisConfig) (node : NodeState) (tip : Block) : Prop where
  atTip : node.chain.tip = some tip
  height : node.chain.height = tip.header.height
  storeHeight : node.chain.store.height = some tip.header.height
  stored : ∃ data, node.chain.store.blocks[tip.header.height]? = some data ∧ env.encode.block tip = .ok data
  root : tip.header.stateRoot = computeStateRoot env node.exec.db.live
  params : node.exec.db.params = (newStateDB g).params
  history : History env g node.chain.store tip.header.height node.exec.db.live

theorem Persisted.started {g : GenesisConfig} {flush : Except String Unit} {node : Paylinkd env}
    (h : Paylinkd.Started env g {} flush node) :
    Persisted env g node.toNodeState (createGenesisBlock env g (newStateDB g).live) := by
  obtain ⟨hstored, hdb⟩ := h.fresh
  obtain ⟨data, hdata, hblocks⟩ := hstored.blocks
  refine ⟨hstored.tip, hstored.height, hstored.storeHeight, ⟨data, ?_, hdata⟩, ?_, ?_, ?_⟩
  · rw [hblocks, getElem?_insert_eq, if_pos rfl]
  · rw [hdb]
    rfl
  · rw [hdb]
  · rw [hdb]
    exact .genesis

theorem Persisted.grows {g : GenesisConfig} {node node' : NodeState} {tip : Block}
    (h : Persisted env g node tip) (hgrows : Grows env node node') : ∃ tip', Persisted env g node' tip' := by
  cases hgrows with
  | same htip hheight hstoreHeight hblocks hexec =>
    refine ⟨tip, htip.trans h.atTip, hheight.trans h.height, hstoreHeight.trans h.storeHeight, ?_, ?_, ?_, ?_⟩
    · rw [hblocks]
      exact h.stored
    · rw [hexec]
      exact h.root
    · rw [hexec]
      exact h.params
    · rw [hexec]
      refine h.history.mono fun k _ => ?_
      rw [hblocks]
  | block block receipts hextends hstored hsucceed hroot hexec =>
    obtain ⟨data, hdata, hblocks⟩ := hstored.blocks
    have hheight : block.header.height = tip.header.height + 1 := by
      rw [hextends.height, h.atTip, h.height]
      rfl
    refine ⟨block, hstored.tip, hstored.height, hstored.storeHeight, ⟨data, ?_, hdata⟩, ?_, ?_, ?_⟩
    · rw [hblocks, getElem?_insert_eq, if_pos rfl]
    · rw [hexec]
      exact hroot
    · rw [hexec]
      exact h.params
    · rw [hexec, hheight]
      unfold Executor.outcomes at hsucceed
      rw [h.params] at hsucceed
      show History env g node'.chain.store (tip.header.height + 1)
        (applyTxs env node.exec.db.params block.header.timestamp node.exec.db.live
          block.transactions)
      rw [h.params]
      refine .next block data (h.history.mono fun k hk => ?_) ?_ hdata hsucceed
      · rw [hblocks, getElem?_insert_eq, if_neg]
        omega
      · rw [hblocks, hheight, getElem?_insert_eq, if_pos rfl]

theorem persisted_run {g : GenesisConfig} {flush : Except String Unit} {node₀ : Paylinkd env}
    (srt : NonceSort) (h : Paylinkd.Started env g {} flush node₀) (ops : List Paylinkd.Op) :
    ∃ tip, Persisted env g (ops.foldl (Paylinkd.step srt) node₀).toNodeState tip := by
  refine history_induction
    (I := fun _ (node : Paylinkd env) => ∃ tip, Persisted env g node.toNodeState tip) ⟨_, .started h⟩ ?_ ops
  rintro _ node op ⟨tip, hnode⟩
  exact hnode.grows (node.step_grows srt op)

section Replay

variable {compact : Bytes → Bytes} {g : GenesisConfig}

variable (compact) in
structure BlockLike (block block' : Block) : Prop where
  header : block'.header = block.header
  commit : block'.commit = block.commit
  hash : block'.hash = block.hash
  transactions : List.Forall₂ (Recoded compact) block.transactions block'.transactions

variable (compact) in
def StoreLaw (env : Env) : Prop :=
  ∀ block data, env.encode.block block = .ok data →
    ∃ block', env.decode.block data = .ok block' ∧ BlockLike compact block block'

theorem AgreeOn.of_twin {cp : ChainParams} {tx : Transaction} {ts : Int64} {s s' : Snapshot}
    (h : Twin compact True s s') : AgreeOn env cp tx ts s s' := by
  intro _ _ p pl _ _ _ _ _ _
  have hunhashed := h.unhashed trivial
  exact .of_eq (congrArg Unhashed.votes hunhashed).symm
    (congrArg Unhashed.submittedProofs hunhashed).symm (h.supply trivial).symm

theorem Twin.outcome {cp : ChainParams} {ts : Int64} {tx tx' : Transaction} {s s' : Snapshot}
    (laws : JsonLaws compact env) (h : Twin compact True s s') (htx : Recoded compact tx tx')
    (hok : (outcome env cp s tx ts).isOk = true) : (outcome env cp s' tx' ts).isOk = true ∧
      Twin compact True (Chain.applyTx env cp s tx ts) (Chain.applyTx env cp s' tx' ts) := by
  cases ho : Chain.outcome env cp s tx ts with
  | error e =>
    rw [ho] at hok
    cases hok
  | ok t =>
    obtain ⟨s₁, hstep, -⟩ := outcome_ok_iff.mp ⟨t, ho, rfl⟩
    obtain ⟨s₁', hstep', htwin⟩ := hstep.twin laws h htx (.of_twin h)
    obtain ⟨t', ho', -⟩ := outcome_ok_iff.mpr ⟨s₁', hstep', rfl⟩
    have hfrom : tx'.fromAddr = tx.fromAddr := by
      obtain ⟨payload, rfl, -⟩ := htx
      rfl
    refine ⟨by rw [ho']; rfl, ?_⟩
    rw [applyTx_of_step hstep, applyTx_of_step hstep', hfrom]
    exact htwin.incrementNonce tx.fromAddr

theorem Twin.applyTxs {cp : ChainParams} {ts : Int64} {txs txs' : List Transaction}
    {s s' : Snapshot} (laws : JsonLaws compact env) (h : Twin compact True s s')
    (htxs : List.Forall₂ (Recoded compact) txs txs') (hok : ∀ o ∈ outcomes env cp ts s txs, o.isOk = true) :
    (∀ o ∈ outcomes env cp ts s' txs', o.isOk = true) ∧
      Twin compact True (Chain.applyTxs env cp ts s txs) (Chain.applyTxs env cp ts s' txs') := by
  induction htxs generalizing s s' with
  | nil => exact ⟨by simp [outcomes], h⟩
  | cons htx _ ih =>
    rw [outcomes, List.forall_mem_cons] at hok
    obtain ⟨hok', htwin⟩ := Twin.outcome laws h htx hok.1
    obtain ⟨hrest, hend⟩ := ih htwin hok.2
    rw [outcomes, List.forall_mem_cons]
    exact ⟨⟨hok', hrest⟩, hend⟩

theorem replayFrom_add {bc : Blockchain} {n m h : Nat} {ex ex₁ : Executor}
    (hfront : replayFrom env bc n h ex = (.ok (), ex₁)) :
    replayFrom env bc (n + m) h ex = replayFrom env bc m (h + n) ex₁ := by
  induction n generalizing h ex with
  | zero =>
    cases hfront
    rw [Nat.zero_add, Nat.add_zero]
  | succ n ih =>
    have hrest : ∀ ex, replayFrom env bc n (h + 1) ex = (.ok (), ex₁) →
        replayFrom env bc (n + m) (h + 1) ex = replayFrom env bc m (h + (n + 1)) ex₁ := by
      intro ex hex
      rw [ih hex, Nat.add_assoc, Nat.add_comm 1 n]
    generalize replayFrom env bc m (h + (n + 1)) ex₁ = result at hrest ⊢
    rw [Nat.succ_add]
    unfold replayFrom at hfront ⊢
    cases hblock : bc.getBlockByHeight env h with
    | error e => simp [hblock] at hfront
    | ok found =>
      cases found with
      | none => simp [hblock] at hfront
      | some block =>
        simp only [hblock] at hfront ⊢
        cases hfind : (ex.executeBlock env block.header.timestamp block.transactions).1.find?
            fun r => r.success = false with
        | some r =>
          simp only [hfind] at hfront
          cases hfront
        | none =>
          simp only [hfind] at hfront ⊢
          exact hrest _ hfront

theorem replayFrom_one {bc : Blockchain} {h : Nat} {ex : Executor} {block : Block}
    (hblock : bc.getBlockByHeight env h = .ok (some block))
    (hok : ∀ o ∈ ex.outcomes env block.header.timestamp block.transactions, o.isOk = true) :
    ∃ ex', replayFrom env bc 1 h ex = (.ok (), ex') ∧
      ex'.db = { ex.db with live := ex.after env block.header.timestamp block.transactions } := by
  obtain ⟨hreceipts, hdb, -, -⟩ := executeBlock_spec env ex block.header.timestamp block.transactions
  have hfind := (find_failed (length_outcomes ex.db.params block.header.timestamp ex.db.live
    block.transactions)).mpr hok
  refine ⟨(ex.executeBlock env block.header.timestamp block.transactions).2.discardEvents, ?_, hdb⟩
  unfold replayFrom
  simp only [hblock, hreceipts, hfind]
  rfl

theorem History.replay (laws : JsonLaws compact env) (store : StoreLaw compact env)
    (bc : Blockchain) {h : Nat} {s : Snapshot} (hist : History env g bc.store h s) (ex : Executor)
    (hex : ex.db = newStateDB g) :
    ∃ ex', replayFrom env bc h 1 ex = (.ok (), ex') ∧ ex'.db.params = (newStateDB g).params ∧
      Twin compact True s ex'.db.live := by
  induction hist with
  | genesis =>
    refine ⟨ex, rfl, by rw [hex], ?_⟩
    rw [hex]
    exact .refl _
  | @next h s block data before stored encoded succeed ih =>
    obtain ⟨ex₁, hfront, hparams, htwin⟩ := ih
    obtain ⟨block', hdecode, hlike⟩ := store block data encoded
    have hload : bc.getBlockByHeight env (1 + h) = .ok (some block') := by
      rw [Blockchain.getBlockByHeight, Nat.add_comm, stored]
      simp only [hdecode]
      rfl
    obtain ⟨hok, hend⟩ := htwin.applyTxs laws hlike.transactions succeed
    have hok' : ∀ o ∈ ex₁.outcomes env block'.header.timestamp block'.transactions, o.isOk = true := by
      rw [Executor.outcomes, hparams, hlike.header]
      exact hok
    obtain ⟨ex₂, hone, hdb⟩ := replayFrom_one hload hok'
    refine ⟨ex₂, (replayFrom_add hfront).trans hone, ?_, ?_⟩
    · rw [hdb]
      exact hparams
    · rw [hdb]
      show Twin compact True _ (ex₁.after env block'.header.timestamp block'.transactions)
      rw [Executor.after, hparams, hlike.header]
      exact hend

variable (compact) in
structure Rebuilt (s s' : Snapshot) : Prop where
  same : s' = { s with paylinks := s'.paylinks }
  paylinks : PayLinksLike compact s.paylinks s'.paylinks

theorem Rebuilt.of_twin {s s' : Snapshot} (h : Twin compact True s s') : Rebuilt compact s s' := by
  refine ⟨?_, h.paylinks⟩
  have hsame := h.same
  rw [h.unhashed trivial, h.supply trivial] at hsame
  exact hsame

/-- **Replay is faithful.** -/
theorem replay_faithful (env : Env) (compact : Bytes → Bytes) (laws : JsonLaws compact env)
    (store : StoreLaw compact env) (srt : NonceSort) (g : GenesisConfig) (privKey : Bytes)
    (flush flush' : Except String Unit) (node₀ : Paylinkd env)
    (hstart : Paylinkd.start env g privKey {} flush = .ok node₀) (ops : List Paylinkd.Op) :
    let node := ops.foldl (Paylinkd.step srt) node₀
    ∃ bc ex, ({ store := node.chain.store } : Blockchain).init env
        (createGenesisBlock env g (newStateDB g).live) flush' = .ok bc ∧
      bc.height = node.chain.height ∧
      replay env bc (newExecutor g false) = (.ok (), ex) ∧
      Rebuilt compact node.exec.db.live ex.db.live := by
  intro node
  obtain ⟨tip, h⟩ := persisted_run srt (Paylinkd.started_of_start hstart) ops
  obtain ⟨data, hdata, hencode⟩ := h.stored
  obtain ⟨tip', hdecode, hlike⟩ := store tip data hencode
  let bc : Blockchain :=
    { store := node.chain.store, tip := some tip', height := tip.header.height }
  have hinit : ({ store := node.chain.store } : Blockchain).init env
      (createGenesisBlock env g (newStateDB g).live) flush' = .ok bc := by
    have hload : ({ store := node.chain.store } : Blockchain).getBlockByHeight env
        tip.header.height = .ok (some tip') := by
      rw [Blockchain.getBlockByHeight, hdata]
      simp only [hdecode]
      rfl
    unfold Blockchain.init
    rw [h.storeHeight]
    simp only [hload]
    rfl
  obtain ⟨ex, hloop, -, htwin⟩ := History.replay laws store bc h.history (newExecutor g false)
    rfl
  have hroot : computeStateRoot env ex.db.live = tip'.header.stateRoot := by
    rw [htwin.root_eq laws, hlike.header, h.root]
  by_cases hzero : tip.header.height = 0
  · -- a chain of its genesis block only: nothing is replayed, and nothing was executed
    refine ⟨bc, newExecutor g false, hinit, h.height.symm, ?_, ?_⟩
    · show (if tip'.header.height = 0 then _ else _) = _
      rw [hlike.header, if_pos hzero]
    · rw [hzero] at hloop
      cases hloop
      exact .of_twin htwin
  · refine ⟨bc, ex, hinit, h.height.symm, ?_, .of_twin htwin⟩
    show (if tip'.header.height = 0 then _ else _) = _
    rw [hlike.header, if_neg hzero, hloop]
    simp only [hroot, hlike.header, ne_eq, not_true_eq_false, if_false]
end Replay

section Localnet

open Localnet

theorem storeLaw_localnet : StoreLaw Testnet.compactJSON Localnet.env := by
  intro block data h
  have hdecode : ∀ b ∈ blocks, Localnet.env.decode.block (blockJSON b) = .ok b := by
    decide +kernel
  have h' : encodesOne blockJSON blocks block = .ok data := h
  unfold encodesOne at h'
  split at h'
  · next hmem =>
    cases h'
    refine ⟨block, hdecode block hmem, rfl, rfl, rfl, ?_⟩
    exact List.forall₂_same.mpr fun tx _ => .refl tx
  · cases h'

/-- The first block is produced beside a failed vote, and replayed without it. -/
theorem replay_faithful_firstBlock :
    let node := (filled ++ [Paylinkd.Op.produce (quiet 1700000100)]).foldl (Paylinkd.step srt) adminNode
    node.chain.height = 1 ∧
    ∃ bc ex, ({ store := node.chain.store } : Blockchain).init Localnet.env
        (createGenesisBlock Localnet.env Devnet.genesis (newStateDB Devnet.genesis).live)
        (.ok ()) = .ok bc ∧
      bc.height = node.chain.height ∧
      replay Localnet.env bc (newExecutor Devnet.genesis false) = (.ok (), ex) ∧
      Rebuilt Testnet.compactJSON node.exec.db.live ex.db.live := by
  refine ⟨by decide +kernel, ?_⟩
  exact replay_faithful Localnet.env Testnet.compactJSON (Testnet.jsonLaws _ _ _)
    storeLaw_localnet srt Devnet.genesis adminKey (.ok ()) (.ok ()) adminNode adminNode_start _
end Localnet
end LinkMint.Chain

import LinkMint.Chain.Localnet
import LinkMint.Chain.Proof.Follower

/-!
# Producing a block

`produceBlock_cases` lists the exits of `produceBlock`. `produceBlock_accounts`: no drained
transaction is lost if and only if `Spared` holds; it fails where a block with some failed
transactions is aborted, where an aborted block's transactions find the mempool full, and where the
receipts of a block that failed as a whole are not all written. `produceBlock_loses_failed` is such
a call. The results of signing and of the store are inputs.
-/

namespace LinkMint.Chain

open LinkMint.Lib Std

variable {env : Env}

theorem successTxs_cons (tx : Transaction) (txs : List Transaction) (o : Except String TxState)
    (os : List (Except String TxState)) : successTxs (tx :: txs) (List.zipWith receiptOf (tx :: txs) (o :: os)) =
      if o.isOk then tx :: successTxs txs (List.zipWith receiptOf txs os)
      else successTxs txs (List.zipWith receiptOf txs os) := by
  unfold successTxs
  rw [List.zipWith_cons_cons, List.zip_cons_cons, List.filter_cons]
  simp only [success_receiptOf]
  split <;> rfl

theorem applyTxs_successTxs (env : Env) (cp : ChainParams) (ts : Int64) (s : Snapshot) (txs : List Transaction) :
    let keep := successTxs txs (List.zipWith receiptOf txs (outcomes env cp ts s txs))
    applyTxs env cp ts s keep = applyTxs env cp ts s txs ∧
    outcomes env cp ts s keep = (outcomes env cp ts s txs).filter (·.isOk) := by
  induction txs generalizing s with
  | nil => exact ⟨rfl, rfl⟩
  | cons tx txs ih =>
    obtain ⟨hstate, hoks⟩ := ih (applyTx env cp s tx ts)
    simp only [outcomes, successTxs_cons]
    cases ho : outcome env cp s tx ts with
    | ok t =>
      have hok : (Except.ok t : Except String TxState).isOk = true := rfl
      rw [if_pos hok, List.filter_cons_of_pos hok]
      refine ⟨hstate, ?_⟩
      rw [outcomes, ho, hoks]
    | error e =>
      have hsame : applyTx env cp s tx ts = s := by rw [applyTx, ho]
      have hfailed : ¬ (Except.error e : Except String TxState).isOk = true := Bool.false_ne_true
      rw [hsame] at hstate hoks ⊢
      rw [if_neg hfailed, List.filter_cons_of_neg hfailed]
      refine ⟨?_, hoks⟩
      rw [hstate]
      show _ = applyTxs env cp ts (applyTx env cp s tx ts) txs
      rw [hsame]

theorem receipts_successTxs {txs : List Transaction} {os : List (Except String TxState)} :
    List.zipWith receiptOf (successTxs txs (List.zipWith receiptOf txs os)) (os.filter (·.isOk)) =
      (List.zipWith receiptOf txs os).filter (·.success) := by
  induction txs generalizing os with
  | nil => rfl
  | cons tx txs ih =>
    cases os with
    | nil => simp [successTxs]
    | cons o os =>
      rw [successTxs_cons, List.zipWith_cons_cons, List.filter_cons, List.filter_cons, success_receiptOf]
      split
      · rw [List.zipWith_cons_cons, ih]
      · exact ih

theorem tagProduced_successes (height i : Nat) (receipts : List TxReceipt) :
    (tagProduced height i receipts).filter (·.success) = (receipts.filter (·.success)).mapIdx fun j r =>
        { r with blockHeight := height, txIndex := i + j } := by
  induction receipts generalizing i with
  | nil => rfl
  | cons r receipts ih =>
    unfold tagProduced
    split
    · next hsuccess =>
      simp only [List.filter_cons, hsuccess, if_true, List.mapIdx_cons, ih, Nat.add_zero]
      simp only [Nat.add_comm, Nat.add_left_comm]
    · next hfailed => simp only [List.filter_cons, hfailed, ih, if_false, Bool.false_eq_true]

theorem tagReceipts_successes (height : Nat) (receipts : List TxReceipt) :
    tagReceipts height (receipts.filter (·.success)) = (tagProduced height 0 receipts).filter (·.success) := by
  rw [tagProduced_successes, tagReceipts]
  simp only [Nat.zero_add]

theorem tagProduced_txHash (height i : Nat) (receipts : List TxReceipt) :
    (tagProduced height i receipts).map (·.txHash) = receipts.map (·.txHash) := by
  induction receipts generalizing i with
  | nil => rfl
  | cons r receipts ih =>
    unfold tagProduced
    split
    · rw [List.map_cons, List.map_cons, ih]
    · rw [List.map_cons, List.map_cons, ih]

theorem tagProduced_blockHeight {height i : Nat} {receipts : List TxReceipt} {r : TxReceipt}
    (h : r ∈ tagProduced height i receipts) : r.blockHeight = height := by
  induction receipts generalizing i with
  | nil => cases h
  | cons r' receipts ih =>
    unfold tagProduced at h
    split at h
    · rcases List.mem_cons.mp h with rfl | h
      · rfl
      · exact ih h
    · rcases List.mem_cons.mp h with rfl | h
      · rfl
      · exact ih h

theorem txHash_receipts {txs : List Transaction} {os : List (Except String TxState)} (hlen : os.length = txs.length) :
    (List.zipWith receiptOf txs os).map (·.txHash) = txs.map (·.hash) := by
  induction txs generalizing os with
  | nil => rfl
  | cons tx txs ih =>
    cases os with
    | nil => cases hlen
    | cons o os =>
      rw [List.zipWith_cons_cons, List.map_cons, List.map_cons, ih (Nat.succ.inj hlen)]
      cases o <;> rfl

namespace NodeState
def mayProduce (node : NodeState) : Bool :=
  !node.pov.any fun proposer => node.proposer ≠ proposer

def drain (node : NodeState) : List Transaction :=
  if node.mayProduce then node.mempool.drained maxTxsPerBlock else []

def poolLeft (srt : NonceSort) (node : NodeState) (io : BlockIO) : Mempool :=
  (node.mempool.drainForBlock maxTxsPerBlock).2.reinsertAll srt io.arrivals

variable (env) (node : NodeState) (io : BlockIO)

def rawReceipts : List TxReceipt :=
  List.zipWith receiptOf node.drain (node.exec.outcomes env io.now node.drain)

def kept : List Transaction := successTxs node.drain (node.rawReceipts env io)

def receipts : List TxReceipt :=
  tagProduced (nextHeight node.chain.tip) 0 (node.rawReceipts env io)

def attempt : Except String (Block × Blockchain) :=
  match node.signBlock env io.rand
      (node.unsignedBlock env io.now (node.exec.after env io.now node.drain) (node.kept env io)) with
  | .error e => .error e
  | .ok block =>
    match node.chain.commitBlock env block (node.receipts env io) io.flush with
    | .error e => .error e
    | .ok chain => .ok (block, chain)

section
variable {env node io}

theorem attempt_unsigned {e : String}
    (h : node.signBlock env io.rand (node.unsignedBlock env io.now
      (node.exec.after env io.now node.drain) (node.kept env io)) = .error e) :
    node.attempt env io = .error e := by
  rw [attempt, h]

theorem attempt_uncommitted {block : Block} {e : String}
    (hsign : node.signBlock env io.rand (node.unsignedBlock env io.now
      (node.exec.after env io.now node.drain) (node.kept env io)) = .ok block)
    (hcommit : node.chain.commitBlock env block (node.receipts env io) io.flush = .error e) :
    node.attempt env io = .error e := by
  simp only [attempt, hsign, hcommit]

theorem attempt_ok {block : Block} {chain : Blockchain} : node.attempt env io = .ok (block, chain) ↔
      node.signBlock env io.rand (node.unsignedBlock env io.now
        (node.exec.after env io.now node.drain) (node.kept env io)) = .ok block ∧
      node.chain.commitBlock env block (node.receipts env io) io.flush = .ok chain := by
  unfold attempt
  split
  · next hsign => simp [hsign]
  · next block' hsign =>
    split
    · next hcommit =>
      simp only [reduceCtorEq, false_iff, hsign, Except.ok.injEq, not_and]
      rintro rfl
      simp [hcommit]
    · next chain' hcommit =>
      simp only [hsign, Except.ok.injEq, Prod.mk.injEq]
      constructor
      · rintro ⟨rfl, rfl⟩
        exact ⟨rfl, hcommit⟩
      · rintro ⟨rfl, hcommit'⟩
        rw [hcommit] at hcommit'
        cases hcommit'
        exact ⟨rfl, rfl⟩
end

def produced (srt : NonceSort) (block : Block) (chain : Blockchain) : NodeState :=
  { node with
    mempool := node.poolLeft srt io
    chain := chain
    exec := node.exec.withLive (node.exec.after env io.now node.drain)
    published := node.published ++ (node.exec.events env io.now node.drain).map
        (fun evt => { evt with blockHeight := nextHeight node.chain.tip }) ++
      if node.producerBus then [blockProduced block] else [] }
end NodeState

inductive Production (env : Env) (srt : NonceSort) (node : NodeState) (io : BlockIO) :
    Option Block × NodeState → Prop where
  | notProposer (h : node.mayProduce = false) : Production env srt node io (none, node)
  | empty (may : node.mayProduce = true) (h : node.drain = []) :
      Production env srt node io (none, { node with mempool := node.poolLeft srt io })
  | allFailed (may : node.mayProduce = true) (h : node.kept env io = []) : Production env srt node io
        (none,
          { node with
            mempool := node.poolLeft srt io
            chain := (node.chain.storeReceipts env io.set (node.receipts env io)).2 })
  | aborted (may : node.mayProduce = true) (some : node.kept env io ≠ []) (e : String)
      (h : node.attempt env io = .error e) :
      Production env srt node io
        (none,
          { node with mempool := (node.poolLeft srt io).reinsertAll srt (node.kept env io) })
  | committed (may : node.mayProduce = true) (some : node.kept env io ≠ []) (block : Block)
      (chain : Blockchain) (h : node.attempt env io = .ok (block, chain)) :
      Production env srt node io (.some block, node.produced env io srt block chain)

theorem after_of_kept_nil {node : NodeState} {io : BlockIO} (h : node.kept env io = []) :
    node.exec.after env io.now node.drain = node.exec.db.live := by
  have hstate := (applyTxs_successTxs env node.exec.db.params io.now node.exec.db.live node.drain).1
  rw [Executor.after, ← hstate]
  unfold NodeState.kept NodeState.rawReceipts Executor.outcomes at h
  rw [h]
  rfl

theorem discarded_eq {ex : Executor} (h : ex.Idle) (s : Snapshot) (events : List Event) : ({ ex with
        db := ({ ex.db.snapshot.1 with live := s } : StateDB).discardSnapshot ex.db.snapshot.2
        blockEvt := events } : Executor).discardEvents = ex.withLive s := by
  rw [StateDB.discardSnapshot_snapshot]
  obtain ⟨db, eventBus, pendingEvt, blockEvt⟩ := ex
  obtain ⟨rfl, rfl⟩ : pendingEvt = [] ∧ blockEvt = [] := h
  rfl

theorem produceBlock_cases (env : Env) (srt : NonceSort) (node : Node) (io : BlockIO) :
    Production env srt node.toNodeState io (node.toNodeState.produceBlock env srt io) := by
  unfold NodeState.produceBlock
  split
  · next hpov =>
    refine .notProposer ?_
    rw [NodeState.mayProduce, hpov]
    rfl
  · next hpov =>
    have may : node.mayProduce = true := by
      rw [NodeState.mayProduce, Bool.not_eq_true _ |>.mp hpov]
      rfl
    have hdrain : node.mempool.drainForBlock maxTxsPerBlock =
        (node.drain, (node.mempool.drainForBlock maxTxsPerBlock).2) := by
      rw [NodeState.drain, if_pos may]
      rfl
    rw [hdrain]
    simp only [executeBlock_snapshot node.idle, reverted_eq node.idle,
      kept_eq node.idle, discarded_eq node.idle, events_of_bus]
    split
    · next hnone => exact .empty may (List.length_eq_zero_iff.mp hnone)
    · split
      · next hnone =>
        have hkept : node.kept env io = [] := List.length_eq_zero_iff.mp hnone
        rw [after_of_kept_nil hkept]
        exact .allFailed may hkept
      · next hsome =>
        have hkept : node.kept env io ≠ [] := fun h => hsome (List.length_eq_zero_iff.mpr h)
        split
        · next e hsign => exact .aborted may hkept e (NodeState.attempt_unsigned hsign)
        · next block hsign =>
          split
          · next e hcommit =>
            exact .aborted may hkept e (NodeState.attempt_uncommitted hsign hcommit)
          · next chain hcommit =>
            exact .committed may hkept block chain (NodeState.attempt_ok.mpr ⟨hsign, hcommit⟩)

theorem produceBlock_committed {srt : NonceSort} {node : Node} {io : BlockIO} {block : Block}
    (h : (node.produceBlock env srt io).1 = some block) :
    ∃ chain, node.mayProduce = true ∧ node.attempt env io = .ok (block, chain) ∧
      (node.produceBlock env srt io).2.toNodeState = node.toNodeState.produced env io srt block chain := by
  have hcases := produceBlock_cases env srt node io
  rw [Node.produceBlock_fst] at h
  rw [Node.produceBlock_snd]
  generalize node.toNodeState.produceBlock env srt io = p at hcases h ⊢
  cases hcases with
  | notProposer _ => cases h
  | empty _ _ => cases h
  | allFailed _ _ => cases h
  | aborted _ _ _ _ => cases h
  | committed may _ block' chain hok =>
    cases h
    exact ⟨chain, may, hok, rfl⟩

theorem receipts_txHash (env : Env) (node : NodeState) (io : BlockIO) :
    (node.receipts env io).map (·.txHash) = node.drain.map (·.hash) := by
  rw [NodeState.receipts, tagProduced_txHash, NodeState.rawReceipts, txHash_receipts]
  exact length_outcomes ..

theorem nodup_drain (node : NodeState) : (node.drain.map (·.hash)).Nodup := by
  unfold NodeState.drain
  split
  · exact node.mempool.nodup_drained maxTxsPerBlock
  · exact List.nodup_nil

/-- The store has a receipt of the block under production for this hash. -/
def HasReceipt (env : Env) (node : NodeState) (chain : Blockchain) (hash : Hash) : Prop :=
  ∃ receipt data, env.encode.receipt receipt = .ok data ∧ chain.store.receipts[hash]? = some data ∧
    receipt.txHash = hash ∧ receipt.blockHeight = nextHeight node.chain.tip

/-- In the committed block, or with a receipt of this height, or back in the mempool. -/
inductive AccountedFor (env : Env) (node : NodeState) (r : Option Block × Node) (tx : Transaction) :
    Prop where
  | inBlock (block : Block) (committed : r.1 = some block) (mem : tx ∈ block.transactions)
  | receipted (h : HasReceipt env node r.2.chain tx.hash)
  | pending (has : r.2.mempool.has tx.hash = true)

theorem accounted_of_receipts {node : NodeState} {io : BlockIO} {r : Option Block × Node}
    {entries : List (Hash × Bytes)} (old : ExtTreeMap Hash Bytes)
    (hentries : marshalAll env.encode.receipt (·.txHash) (node.receipts env io) = .ok entries)
    (hstored : r.2.chain.store.receipts = putAll old entries) {tx : Transaction}
    (htx : tx ∈ node.drain) : AccountedFor env node r tx := by
  have hkeys : entries.map (·.1) = node.drain.map (·.hash) :=
    (marshalAll_keys hentries).trans (receipts_txHash env node io)
  have hnodup : (entries.map (·.1)).Nodup := hkeys ▸ nodup_drain node
  have hhash : tx.hash ∈ (node.receipts env io).map (·.txHash) := by
    rw [receipts_txHash]
    exact List.mem_map_of_mem htx
  obtain ⟨receipt, hreceipt, heq⟩ := List.mem_map.mp hhash
  obtain ⟨data, hdata, hentry⟩ := entry_of_mem hentries hreceipt
  refine .receipted ⟨receipt, data, hdata, ?_, heq, tagProduced_blockHeight hreceipt⟩
  rw [hstored, ← heq]
  exact putAll_of_mem hnodup hentry

/-- When no drained transaction is lost. If the block is aborted, each is back, because it arrived
    anew or succeeded and finds room, or has a receipt of an earlier try; and if all fail, the loop
    over the receipts gets as far as its own, or again one of these holds. -/
structure Spared (env : Env) (srt : NonceSort) (node : NodeState) (io : BlockIO) : Prop where
  aborted : node.kept env io ≠ [] → (∃ e, node.attempt env io = .error e) → ∀ tx ∈ node.drain,
    HasReceipt env node node.chain tx.hash ∨ (node.poolLeft srt io).has tx.hash = true ∨
      ∃ before tx' after, node.kept env io = before ++ tx' :: after ∧ tx'.hash = tx.hash ∧
        (node.poolLeft srt io).pending.size +
            before.countP (fun tx => (node.poolLeft srt io).has tx.hash = false) <
          (node.poolLeft srt io).maxSize
  allFailed : node.kept env io = [] → ∀ before receipt after,
    node.receipts env io = before ++ receipt :: after →
      HasReceipt env node node.chain receipt.txHash ∨
        (node.poolLeft srt io).has receipt.txHash = true ∨
        Blockchain.Written env io.set 0 before receipt

theorem nodup_kept (env : Env) (node : NodeState) (io : BlockIO) :
    ((node.kept env io).map (·.hash)).Nodup := by
  have hsub : (node.kept env io).Sublist node.drain := by
    have hmap : node.kept env io = ((node.drain.zip (node.rawReceipts env io)).filter
        (·.2.success)).map (·.1) := rfl
    rw [hmap]
    have hfst : (node.drain.zip (node.rawReceipts env io)).map (·.1) = node.drain := by
      refine List.map_fst_zip ?_
      have hlen := congrArg List.length (receipts_txHash env node io)
      rw [NodeState.receipts, tagProduced_txHash, List.length_map, List.length_map] at hlen
      exact hlen.ge
    refine (List.filter_sublist.map _).trans ?_
    rw [hfst]
  exact (nodup_drain node).sublist (hsub.map _)

section
variable {srt : NonceSort} {node : Node} {io : BlockIO} {r : Option Block × Node}

/-- An aborted block leaves everything but the mempool. -/
theorem accounted_aborted {tx : Transaction} (hnone : r.1 = none) (hchain : r.2.chain = node.chain)
    (hpool : r.2.mempool = (node.poolLeft srt io).reinsertAll srt (node.kept env io)) :
    AccountedFor env node.toNodeState r tx ↔ HasReceipt env node.toNodeState node.chain tx.hash ∨
      (node.poolLeft srt io).has tx.hash = true ∨
      ∃ before tx' after, node.kept env io = before ++ tx' :: after ∧ tx'.hash = tx.hash ∧
        (node.poolLeft srt io).pending.size +
            before.countP (fun tx => (node.poolLeft srt io).has tx.hash = false) <
          (node.poolLeft srt io).maxSize := by
  have hback := Mempool.has_reinsertAll_iff srt (node.poolLeft srt io)
    (nodup_kept env node.toNodeState io) tx.hash
  rw [← hpool] at hback
  constructor
  · rintro (⟨block, committed, -⟩ | hreceipted | hpending)
    · rw [hnone] at committed
      cases committed
    · rw [hchain] at hreceipted
      exact .inl hreceipted
    · exact .inr (hback.mp hpending)
  · rintro (hreceipted | hpending)
    · exact .receipted (by rw [hchain]; exact hreceipted)
    · exact .pending (hback.mpr hpending)

theorem accounted_allFailed {before after : List TxReceipt} {receipt : TxReceipt} {tx : Transaction}
    (hnone : r.1 = none)
    (hchain : r.2.chain = (node.chain.storeReceipts env io.set (node.receipts env io)).2)
    (hpool : r.2.mempool = node.poolLeft srt io)
    (hsplit : node.receipts env io = before ++ receipt :: after) (hhash : receipt.txHash = tx.hash) :
    AccountedFor env node.toNodeState r tx ↔
      HasReceipt env node.toNodeState node.chain receipt.txHash ∨
        (node.poolLeft srt io).has receipt.txHash = true ∨
        Blockchain.Written env io.set 0 before receipt := by
  have hnodup : ((before ++ receipt :: after).map (·.txHash)).Nodup := by
    rw [← hsplit, receipts_txHash]
    exact nodup_drain node.toNodeState
  obtain ⟨hwritten, hkept⟩ := Blockchain.storeReceiptsFrom_get env io.set 0 node.chain hnodup
  rw [← hsplit] at hwritten hkept
  rw [hhash] at hwritten hkept ⊢
  constructor
  · rintro (⟨block, committed, -⟩ | ⟨receipt', data, hdata, hstored, hrest⟩ | hpending)
    · rw [hnone] at committed
      cases committed
    · by_cases hw : Blockchain.Written env io.set 0 before receipt
      · exact .inr (.inr hw)
      · rw [hchain] at hstored
        exact .inl ⟨receipt', data, hdata, (hkept hw).symm.trans hstored, hrest⟩
    · exact .inr (.inl (hpool ▸ hpending))
  · intro h
    by_cases hw : Blockchain.Written env io.set 0 before receipt
    · obtain ⟨data, hdata⟩ := hw.2 receipt (by simp)
      refine .receipted ⟨receipt, data, hdata, ?_, hhash,
        tagProduced_blockHeight (hsplit ▸ by simp : receipt ∈ node.receipts env io)⟩
      rw [hchain]
      exact hwritten hw data hdata
    · rcases h with ⟨receipt', data, hdata, hstored, hrest⟩ | hpending | hw'
      · refine .receipted ⟨receipt', data, hdata, ?_, hrest⟩
        rw [hchain]
        exact (hkept hw).trans hstored
      · exact .pending (by rw [hpool]; exact hpending)
      · exact absurd hw' hw
end

/-- **When no transaction is lost by block production**; and an aborted block leaves executor, chain
    and events as they were, without any condition. -/
theorem produceBlock_accounts (env : Env) (srt : NonceSort) (node : Node) (io : BlockIO) :
    let r := node.produceBlock env srt io
    ((∀ tx ∈ node.drain, AccountedFor env node.toNodeState r tx) ↔
      Spared env srt node.toNodeState io) ∧
    (r.1 = none → node.kept env io ≠ [] →
      r.2.exec = node.exec ∧ r.2.chain = node.chain ∧ r.2.published = node.published) := by
  intro r
  have hcases := produceBlock_cases env srt node io
  have hblock := Node.produceBlock_fst env srt node io
  have hnode := Node.produceBlock_snd env srt node io
  have hkept_nil : node.drain = [] → node.kept env io = [] := by
    intro hdrain
    rw [NodeState.kept, hdrain]
    rfl
  -- with nothing drained there is nothing to account for
  have hempty : node.drain = [] → ((∀ tx ∈ node.drain, AccountedFor env node.toNodeState r tx) ↔
      Spared env srt node.toNodeState io) := by
    intro hdrain
    refine iff_of_true (by simp [hdrain]) ⟨fun hkept => absurd (hkept_nil hdrain) hkept,
      fun _ before receipt after hsplit => ?_⟩
    have hmap := receipts_txHash env node.toNodeState io
    rw [hsplit, hdrain] at hmap
    simp at hmap
  generalize node.toNodeState.produceBlock env srt io = p at hcases hblock hnode
  cases hcases with
  | notProposer hno =>
    have hdrain : node.drain = [] := by rw [NodeState.drain, hno, if_neg Bool.false_ne_true]
    exact ⟨hempty hdrain, fun _ hkept => absurd (hkept_nil hdrain) hkept⟩
  | empty may hdrain => exact ⟨hempty hdrain, fun _ hkept => absurd (hkept_nil hdrain) hkept⟩
  | allFailed may hkept =>
    have hchain : r.2.chain = (node.chain.storeReceipts env io.set (node.receipts env io)).2 :=
      congrArg NodeState.chain hnode
    have hpool : r.2.mempool = node.poolLeft srt io := congrArg NodeState.mempool hnode
    refine ⟨⟨fun h => ⟨fun hsome => absurd hkept hsome, fun _ before receipt after hsplit => ?_⟩,
      fun h tx htx => ?_⟩, fun _ hsome => absurd hkept hsome⟩
    · have hmem : receipt.txHash ∈ node.drain.map (·.hash) := by
        rw [← receipts_txHash env node.toNodeState io, hsplit]
        simp
      obtain ⟨tx, htx, hhash⟩ := List.mem_map.mp hmem
      exact (accounted_allFailed hblock hchain hpool hsplit hhash.symm).mp (h tx htx)
    · have hmem : tx.hash ∈ (node.receipts env io).map (·.txHash) := by
        rw [receipts_txHash]
        exact List.mem_map_of_mem htx
      obtain ⟨receipt, hreceipt, hhash⟩ := List.mem_map.mp hmem
      obtain ⟨before, after, hsplit⟩ := List.append_of_mem hreceipt
      exact (accounted_allFailed hblock hchain hpool hsplit hhash).mpr
        (h.allFailed hkept before receipt after hsplit)
  | aborted may hkept e hfail =>
    have hexec := congrArg NodeState.exec hnode
    have hchain := congrArg NodeState.chain hnode
    have hpool := congrArg NodeState.mempool hnode
    have hpublished := congrArg NodeState.published hnode
    refine ⟨⟨fun h => ⟨fun _ _ tx htx => (accounted_aborted hblock hchain hpool).mp (h tx htx),
      fun hnone => absurd hnone hkept⟩, fun h tx htx => ?_⟩, fun _ _ => ?_⟩
    · exact (accounted_aborted hblock hchain hpool).mpr (h.aborted hkept ⟨e, hfail⟩ tx htx)
    · exact ⟨hexec, hchain, hpublished⟩
  | committed may hkept block chain hok =>
    refine ⟨iff_of_true (fun tx htx => ?_) ⟨fun _ hfail => ?_, fun hnone => absurd hnone hkept⟩,
      fun hnone => ?_⟩
    · obtain ⟨-, hcommit⟩ := NodeState.attempt_ok.mp hok
      obtain ⟨-, -, hstored⟩ := Blockchain.commitBlock_ok hcommit
      obtain ⟨entries, hentries, hput⟩ := hstored.receipts
      have hchain : r.2.chain = chain := congrArg NodeState.chain hnode
      exact accounted_of_receipts node.chain.store.receipts hentries (by rw [hchain, hput]) htx
    · obtain ⟨e, he⟩ := hfail
      rw [hok] at he
      cases he
    · rw [hblock] at hnone
      cases hnone

section Localnet

open Localnet

def diskFull : BlockIO := { quiet 1700000100 with flush := .error "no space left on device" }

/-- The block is aborted. -/
theorem produceBlock_loses_failed : ¬ ∀ (env : Env) (srt : NonceSort) (node : Node) (io : BlockIO),
      let r := node.produceBlock env srt io
      ∀ tx ∈ node.drain, AccountedFor env node.toNodeState r tx := by
  intro h
  obtain ⟨hdrain, hblock, hreceipt, hpool⟩ : Devnet.voteTx ∈ loaded.drain ∧
      (loaded.toNode.produceBlock Localnet.env srt diskFull).1 = none ∧
      (loaded.toNode.produceBlock Localnet.env srt diskFull).2.chain.store.receipts[
        Devnet.voteTx.hash]? = none ∧
      (loaded.toNode.produceBlock Localnet.env srt diskFull).2.mempool.has
        Devnet.voteTx.hash = false := by
    decide +kernel
  cases h Localnet.env srt loaded.toNode diskFull Devnet.voteTx hdrain with
  | inBlock block committed _ =>
    rw [hblock] at committed
    cases committed
  | receipted hstored =>
    obtain ⟨_, data, -, stored, -⟩ := hstored
    rw [hreceipt] at stored
    cases stored
  | pending has =>
    rw [hpool] at has
    cases has
end Localnet
end LinkMint.Chain

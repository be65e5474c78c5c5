import LinkMint.Chain.Proof.Agreement

/-!
# Receipts

A receipt is kept under its transaction's hash, and neither of the two paths that write one asks
whether there is one already. So it is permanent only if no committed transaction is drained
again.
-/

namespace LinkMint.Chain

open LinkMint.Lib Std

variable {env : Env}

structure Writes (bc bc' : Blockchain) (touched : List Hash) : Prop where
  receipts : ∀ h : Hash, h ∉ touched → bc'.store.receipts[h]? = bc.store.receipts[h]?
  txs : ∀ h : Hash, (bc.store.txs[h]?).isSome = true → (bc'.store.txs[h]?).isSome = true

theorem Writes.refl (bc : Blockchain) (touched : List Hash) : Writes bc bc touched := ⟨fun _ _ => rfl, fun _ h => h⟩

theorem isSome_putAll {m : ExtTreeMap Hash Bytes} (entries : List (Hash × Bytes)) {h : Hash}
    (hsome : (m[h]?).isSome = true) : ((putAll m entries)[h]?).isSome = true := by
  induction entries generalizing m with
  | nil => exact hsome
  | cons e entries ih =>
    refine ih ?_
    rw [getElem?_insert_eq]
    split
    · rfl
    · exact hsome

theorem isSome_putAll_of_mem {m : ExtTreeMap Hash Bytes} {entries : List (Hash × Bytes)} {h : Hash}
    (hmem : h ∈ entries.map (·.1)) : ((putAll m entries)[h]?).isSome = true := by
  induction entries generalizing m with
  | nil => cases hmem
  | cons e entries ih =>
    rcases List.mem_cons.mp hmem with rfl | hmem
    · refine isSome_putAll entries ?_
      rw [getElem?_insert_eq, if_pos rfl]
      rfl
    · exact ih hmem

theorem Writes.of_stored {bc bc' : Blockchain} {block : Block} {receipts : List TxReceipt}
    (h : Blockchain.Stored env bc block receipts bc') : Writes bc bc' (receipts.map (·.txHash)) := by
  obtain ⟨rEntries, hreceipts, hr⟩ := h.receipts
  obtain ⟨txEntries, -, ht⟩ := h.txs
  constructor
  · intro hash hnot
    rw [hr]
    refine putAll_of_not_mem ?_
    rwa [marshalAll_keys hreceipts]
  · intro hash hsome
    rw [ht]
    exact isSome_putAll txEntries hsome

theorem Writes.of_storeReceipts (bc : Blockchain) (set : Nat → Except String Unit) (receipts : List TxReceipt) :
    Writes bc (bc.storeReceipts env set receipts).2 (receipts.map (·.txHash)) := by
  obtain ⟨done, rest, entries, rfl, hentries, hchain⟩ := Blockchain.storeReceiptsFrom_spec env set 0 bc receipts
  rw [Blockchain.storeReceipts, hchain]
  constructor
  · intro hash hnot
    refine putAll_of_not_mem ?_
    rw [marshalAll_keys hentries]
    rw [List.map_append, List.mem_append, not_or] at hnot
    exact hnot.1
  · intro hash hsome
    exact hsome

theorem tagReceipts_txHash (height : Nat) (receipts : List TxReceipt) :
    (tagReceipts height receipts).map (·.txHash) = receipts.map (·.txHash) := by
  refine List.ext_getElem? fun i => ?_
  rw [tagReceipts, List.getElem?_map, List.getElem?_map, List.getElem?_mapIdx, Option.map_map]
  rfl

def Paylinkd.touched (node : Paylinkd env) : Paylinkd.Op → List Hash
  | .add _ => []
  | .produce _ => node.drain.map (·.hash)
  | .process block _ => block.transactions.map (·.hash)

theorem Paylinkd.step_writes (srt : NonceSort) (node : Paylinkd env) (op : Paylinkd.Op) :
    Writes node.chain (node.step srt op).chain (node.touched op) := by
  cases op with
  | add tx => exact .refl ..
  | produce io =>
    show Writes node.chain (node.toNodeState.produceBlock env srt io).2.chain
      (node.drain.map (·.hash))
    have hkeys := receipts_txHash env node.toNodeState io
    have hcases := produceBlock_cases env srt node.toNode io
    generalize node.toNodeState.produceBlock env srt io = p at hcases
    cases hcases with
    | notProposer _ => exact .refl ..
    | empty _ _ => exact .refl ..
    | aborted _ _ _ _ => exact .refl ..
    | allFailed _ _ => exact hkeys ▸ Writes.of_storeReceipts node.chain io.set _
    | committed _ _ block chain hok =>
      obtain ⟨-, hcommit⟩ := NodeState.attempt_ok.mp hok
      exact hkeys ▸ Writes.of_stored (Blockchain.commitBlock_ok hcommit).2.2
  | process block flush =>
    show Writes node.chain (node.toNodeState.processBlock env block flush).2.chain
      (block.transactions.map (·.hash))
    rcases processBlock_cases env node.toNode block flush with ⟨-, heq⟩ | ⟨e, heq⟩ | ⟨chain, h, heq⟩
    · rw [heq]
      exact .refl ..
    · rw [heq]
      exact .refl ..
    · rw [heq]
      have hwrites := Writes.of_stored (Blockchain.commitBlock_ok h.committed).2.2
      have hlen : (node.exec.outcomes env block.header.timestamp block.transactions).length =
          block.transactions.length := length_outcomes ..
      rwa [tagReceipts_txHash, txHash_receipts hlen] at hwrites

def committedReceipt (tx : Transaction) (height i : Nat) : TxReceipt where
  txHash := tx.hash
  success := true
  blockHeight := height
  txIndex := i

structure Receipted (env : Env) (bc : Blockchain) (tx : Transaction) (receipt : TxReceipt) : Prop where
  indexed : (bc.store.txs[tx.hash]?).isSome = true
  stored : ∃ data, bc.store.receipts[tx.hash]? = some data ∧ env.encode.receipt receipt = .ok data

theorem mem_receipts {node : NodeState} {io : BlockIO} {tx : Transaction} {i : Nat}
    (h : (node.kept env io)[i]? = some tx) : committedReceipt tx (nextHeight node.chain.tip) i ∈ node.receipts env io := by
  have hsuccesses : (node.receipts env io).filter (·.success) =
      tagReceipts (nextHeight node.chain.tip) ((node.rawReceipts env io).filter (·.success)) :=
    (tagReceipts_successes ..).symm
  have hraw : (node.rawReceipts env io).filter (·.success) = List.zipWith receiptOf (node.kept env io)
        ((node.exec.outcomes env io.now node.drain).filter (·.isOk)) :=
    receipts_successTxs.symm
  refine (List.mem_filter.mp (?_ : _ ∈ (node.receipts env io).filter (·.success))).1
  -- the kept transactions and the successful outcomes are in step
  have hoks := (applyTxs_successTxs env node.exec.db.params io.now node.exec.db.live node.drain).2
  have hlen : (node.kept env io).length = ((node.exec.outcomes env io.now node.drain).filter (·.isOk)).length := by
    rw [Executor.outcomes, ← hoks, length_outcomes]
    rfl
  obtain ⟨hi, -⟩ := List.getElem?_eq_some_iff.mp h
  obtain ⟨o, ho⟩ : ∃ o, ((node.exec.outcomes env io.now node.drain).filter (·.isOk))[i]? =
      some o := ⟨_, List.getElem?_eq_getElem (hlen ▸ hi)⟩
  have hok : o.isOk = true := (List.mem_filter.mp (List.mem_of_getElem? ho)).2
  have hreceipt : receiptOf tx o = { txHash := tx.hash, success := true } := by
    cases o with
    | error e => cases hok
    | ok t => rfl
  refine List.mem_of_getElem? (i := i) ?_
  rw [hsuccesses, hraw, tagReceipts, List.getElem?_mapIdx, List.getElem?_zipWith, h, ho]
  simp only [Option.map_some, hreceipt]
  rfl

theorem receipted_of_committed {srt : NonceSort} {node : Paylinkd env} {io : BlockIO}
    {block : Block} (h : (node.toNode.produceBlock env srt io).1 = some block) {tx : Transaction}
    {i : Nat} (htx : block.transactions[i]? = some tx) : Receipted env (node.step srt (.produce io)).chain tx
      (committedReceipt tx block.header.height i) := by
  obtain ⟨chain, -, hok, hnode⟩ := produceBlock_committed h
  obtain ⟨hsign, hcommit⟩ := NodeState.attempt_ok.mp hok
  have hchain : (node.step srt (.produce io)).chain = chain := congrArg NodeState.chain hnode
  obtain ⟨-, -, hstored⟩ := Blockchain.commitBlock_ok hcommit
  obtain ⟨entries, hentries, hr⟩ := hstored.receipts
  obtain ⟨txEntries, htxEntries, ht⟩ := hstored.txs
  have hblock := SignedBlock.of_signBlock hsign
  rw [hblock.transactions] at htx htxEntries
  rw [hchain]
  constructor
  · rw [ht]
    refine isSome_putAll_of_mem ?_
    rw [marshalAll_keys htxEntries]
    exact List.mem_map_of_mem (List.mem_of_getElem? htx)
  · have hnodup : (entries.map (·.1)).Nodup := by
      rw [marshalAll_keys hentries, receipts_txHash]
      exact nodup_drain node.toNodeState
    obtain ⟨data, hdata, hmem⟩ := entry_of_mem hentries (mem_receipts htx)
    refine ⟨data, ?_, ?_⟩
    · rw [hr]
      exact putAll_of_mem hnodup hmem
    · rw [hblock.height]
      exact hdata

def Paylinkd.Op.Producing : Paylinkd.Op → Prop
  | .process _ _ => False
  | _ => True

def Paylinkd.Unseen (node : Paylinkd env) : Paylinkd.Op → Prop
  | .produce _ => ∀ tx ∈ node.drain, node.chain.store.txs[tx.hash]? = none
  | _ => True

theorem Receipted.step {srt : NonceSort} {node : Paylinkd env} {op : Paylinkd.Op}
    {tx : Transaction} {receipt : TxReceipt} (h : Receipted env node.chain tx receipt)
    (hproducing : op.Producing) (hunseen : node.Unseen op) : Receipted env (node.step srt op).chain tx receipt := by
  have hwrites := node.step_writes srt op
  obtain ⟨data, hdata, hencode⟩ := h.stored
  have hindexed := h.indexed
  refine ⟨hwrites.txs tx.hash hindexed, data, ?_, hencode⟩
  rw [hwrites.receipts tx.hash, hdata]
  cases op with
  | add _ => exact List.not_mem_nil
  | process _ _ => exact hproducing.elim
  | produce io =>
    intro hmem
    obtain ⟨tx', htx', heq⟩ := List.mem_map.mp hmem
    rw [← heq, hunseen tx' htx'] at hindexed
    cases hindexed

def ReceiptLaw (env : Env) : Prop :=
  ∀ receipt data, env.encode.receipt receipt = .ok data → env.decode.receipt data = .ok receipt

/-- **Receipts are permanent**, in every run in which no committed transaction is drained again. -/
theorem receipt_permanent (env : Env) (law : ReceiptLaw env) (srt : NonceSort)
    (node₀ : Paylinkd env) (before later : List Paylinkd.Op) (io : BlockIO) (block : Block)
    (committed : ((before.foldl (Paylinkd.step srt) node₀).toNode.produceBlock env srt io).1 = some block)
    (producing : ∀ op ∈ before ++ .produce io :: later, op.Producing)
    (unseen : ∀ e ∈ trace (Paylinkd.step srt) node₀ (before ++ .produce io :: later), e.1.Unseen e.2)
    (i : Nat) (tx : Transaction) (htx : block.transactions[i]? = some tx) :
    ((before ++ .produce io :: later).foldl (Paylinkd.step srt) node₀).chain.getReceipt env tx.hash =
      .ok (some (committedReceipt tx block.header.height i)) := by
  have hfirst := receipted_of_committed committed htx
  have hlast : Receipted env ((before ++ .produce io :: later).foldl (Paylinkd.step srt) node₀).chain
      tx (committedReceipt tx block.header.height i) := by
    rw [List.foldl_append, List.foldl_cons]
    have next : ∀ (node : Paylinkd env) (op : Paylinkd.Op),
        Receipted env node.chain tx (committedReceipt tx block.header.height i) →
        op.Producing ∧ node.Unseen op →
        Receipted env (node.step srt op).chain tx (committedReceipt tx block.header.height i) :=
      fun _ _ h hguard => h.step hguard.1 hguard.2
    refine run_invariant (I := fun node : Paylinkd env => Receipted env node.chain tx
      (committedReceipt tx block.header.height i)) hfirst next later ?_
    intro e he
    have hmem : e ∈ trace (Paylinkd.step srt) node₀ (before ++ .produce io :: later) := by
      rw [trace_append]
      exact List.mem_append_right _ (List.mem_cons_of_mem _ he)
    exact ⟨producing e.2 (action_of_trace hmem), unseen e hmem⟩
  obtain ⟨data, hdata, hencode⟩ := hlast.stored
  rw [Blockchain.getReceipt, hdata]
  simp only [law _ data hencode]
  rfl

section Localnet

open Localnet

theorem receiptLaw_localnet : ReceiptLaw Localnet.env := by
  intro receipt data h
  have hdecode : (receipts.all fun r =>
      (Localnet.env.decode.receipt (receiptJSON r)).toOption = some r) = true := by
    decide +kernel
  have h' : encodesOne receiptJSON receipts receipt = .ok data := h
  unfold encodesOne at h'
  split at h'
  · next hmem =>
    cases h'
    have hfound := of_decide_eq_true (List.all_eq_true.mp hdecode receipt hmem)
    cases hread : Localnet.env.decode.receipt (receiptJSON receipt) with
    | error e =>
      rw [hread] at hfound
      cases hfound
    | ok r =>
      rw [hread] at hfound
      cases hfound
      rfl
  · cases h'

theorem unseen_firstBlock : ∀ e ∈ trace (Paylinkd.step srt) adminNode
    (filled ++ .produce (quiet 1700000100) :: [.produce (quiet 1700000200)]), e.1.Unseen e.2 := by
  obtain ⟨hfirst, hsecond⟩ : (loaded.drain.all fun tx => (loaded.chain.store.txs[tx.hash]?).isNone) = true ∧
      (loaded.step srt (.produce (quiet 1700000100))).drain.length = 0 := by
    decide +kernel
  have hproduce : loaded.Unseen (.produce (quiet 1700000100)) := by
    intro tx htx
    exact Option.isNone_iff_eq_none.mp (List.all_eq_true.mp hfirst tx htx)
  have hagain : (loaded.step srt (.produce (quiet 1700000100))).Unseen
      (.produce (quiet 1700000200)) := by
    intro tx htx
    rw [List.length_eq_zero_iff.mp hsecond] at htx
    cases htx
  unfold loaded at hproduce hagain
  generalize adminNode = node at hproduce hagain ⊢
  intro e he
  rw [trace_append, List.mem_append] at he
  simp only [filled, trace, List.mem_cons, List.not_mem_nil, or_false] at he
  rcases he with (rfl | rfl) | rfl | rfl
  · trivial
  · trivial
  · exact hproduce
  · exact hagain

/-- The stake's receipt stays while blocks are attempted. -/
theorem receipt_permanent_firstBlock :
    ((filled ++ .produce (quiet 1700000100) :: [Paylinkd.Op.produce (quiet 1700000200)]).foldl
      (Paylinkd.step srt) adminNode).chain.getReceipt Localnet.env Devnet.stakeTx.hash =
        .ok (some (committedReceipt Devnet.stakeTx 1 0)) :=
  receipt_permanent Localnet.env receiptLaw_localnet srt adminNode filled
    [.produce (quiet 1700000200)] (quiet 1700000100) firstBlock loaded_produces
    (by simp [filled, Paylinkd.Op.Producing]) unseen_firstBlock 0 Devnet.stakeTx rfl

/-- **A receipt is overwritten.** The stake is committed and submitted once more. -/
theorem receipt_overwritten :
    ¬ ∀ (env : Env) (_ : ReceiptLaw env) (srt : NonceSort) (g : GenesisConfig) (privKey : Bytes)
      (flush : Except String Unit) (node₀ : Paylinkd env)
      (_ : Paylinkd.start env g privKey {} flush = .ok node₀) (before later : List Paylinkd.Op)
      (io : BlockIO) (block : Block)
      (_ : ((before.foldl (Paylinkd.step srt) node₀).toNode.produceBlock env srt io).1 =
        some block) (_ : ∀ op ∈ before ++ .produce io :: later, op.Producing) (i : Nat)
      (tx : Transaction) (_ : block.transactions[i]? = some tx),
      ((before ++ .produce io :: later).foldl (Paylinkd.step srt) node₀).chain.getReceipt env
        tx.hash = .ok (some (committedReceipt tx block.header.height i)) := by
  intro h
  have hkept := h Localnet.env receiptLaw_localnet srt Devnet.genesis adminKey (.ok ()) adminNode
    adminNode_start filled [.add Devnet.stakeTx, .produce (quiet 1700000200)] (quiet 1700000100)
    firstBlock loaded_produces (by simp [filled, Paylinkd.Op.Producing]) 0 Devnet.stakeTx rfl
  have hfailed : (((filled ++ Paylinkd.Op.produce (quiet 1700000100) ::
      [.add Devnet.stakeTx, .produce (quiet 1700000200)]).foldl (Paylinkd.step srt)
      adminNode).chain.getReceipt Localnet.env Devnet.stakeTx.hash).toOption.any
        (fun r => r.any fun r => r.success = false) = true := by
    decide +kernel
  rw [hkept] at hfailed
  cases hfailed
end Localnet
end LinkMint.Chain

import LinkMint.Chain.Proof.Producer

/-!
# Producer and follower agree

Since failed transactions leave no trace, a producer and a follower reach one state, and every
check of `ProcessBlock` passes on every block `produceBlock` commits. `SigningLaws` is P-256's
part.
-/

namespace LinkMint.Chain

open LinkMint.Lib

variable {env : Env}

structure SigningLaws (env : Env) : Prop where
  verifies : ∀ data key rand hash r s, unmarshalPrivateKey env data = .ok key →
    env.ecdsaSign rand key hash = .ok (r, s) → env.ecdsaVerify key.publicKey hash r s = true
  halves : ∀ data key rand hash r s, unmarshalPrivateKey env data = .ok key →
    env.ecdsaSign rand key hash = .ok (r, s) → r < 256 ^ 32 ∧ s < 256 ^ 32
  point : ∀ data key rand hash r s, unmarshalPrivateKey env data = .ok key → env.ecdsaSign rand key hash = .ok (r, s) →
    env.marshalPoint key.publicKey ≠ [] ∧ env.unmarshalPoint (env.marshalPoint key.publicKey) = some key.publicKey

theorem executeBlock_successTxs (env : Env) (ex : Executor) (ts : Int64) (txs : List Transaction) : let r := ex.executeBlock env ts txs
    let r' := ex.executeBlock env ts (successTxs txs r.1)
    (∀ receipt ∈ r'.1, receipt.success = true) ∧ r'.2.db = r.2.db := by
  intro r r'
  obtain ⟨hreceipts, hdb, -, -⟩ := executeBlock_spec env ex ts txs
  obtain ⟨hreceipts', hdb', -, -⟩ := executeBlock_spec env ex ts (successTxs txs r.1)
  obtain ⟨hstate, hoks⟩ := applyTxs_successTxs env ex.db.params ts ex.db.live txs
  constructor
  · show ∀ receipt ∈ (ex.executeBlock env ts (successTxs txs r.1)).1, receipt.success = true
    rw [hreceipts', show r.1 = _ from hreceipts, hoks, receipts_successTxs]
    intro receipt hreceipt
    exact (List.mem_filter.mp hreceipt).2
  · show (ex.executeBlock env ts (successTxs txs r.1)).2.db = (ex.executeBlock env ts txs).2.db
    rw [hdb', hdb, show r.1 = _ from hreceipts, hstate]

theorem verifyTx_of_outcomes {cp : ChainParams} {ts : Int64} {s : Snapshot}
    {txs : List Transaction} (h : ∀ o ∈ outcomes env cp ts s txs, o.isOk = true) : ∀ tx ∈ txs, verifyTx env tx = .ok () := by
  induction txs generalizing s with
  | nil => simp
  | cons tx txs ih =>
    rw [outcomes, List.forall_mem_cons] at h
    rw [List.forall_mem_cons]
    refine ⟨?_, ih h.2⟩
    cases ho : outcome env cp s tx ts with
    | error e =>
      rw [ho] at h
      cases h.1
    | ok t =>
      obtain ⟨s₁, hstep, -⟩ := outcome_ok_iff.mp ⟨t, ho, rfl⟩
      exact hstep.signed

theorem verifyTxs_ok {txs : List Transaction} (height i : Nat)
    (h : ∀ tx ∈ txs, verifyTx env tx = .ok ()) : verifyTxs env height i txs = .ok () := by
  induction txs generalizing i with
  | nil => rfl
  | cons tx txs ih =>
    rw [List.forall_mem_cons] at h
    rw [verifyTxs, h.1]
    exact ih (i + 1) h.2

variable {block : Block}

theorem signBlock_ok {node : NodeState} {rand : Bytes} {signed : Block} (h : node.signBlock env rand block = .ok signed) :
    ∃ data key r s, node.signingKey = some data ∧ unmarshalPrivateKey env data = .ok key ∧
      env.ecdsaSign rand key block.hash = .ok (r, s) ∧
      signed =
        { block with commit :=
            { proposerAddr := node.proposer
              publicKey := env.marshalPoint key.publicKey
              signature := beBytes 32 r ++ beBytes 32 s } } := by
  unfold NodeState.signBlock at h
  split at h
  · cases h
  · next data hdata =>
    split at h
    · cases h
    · next key hkey =>
      unfold sign at h
      cases hsign : env.ecdsaSign rand key block.hash with
      | error e =>
        rw [hsign] at h
        cases h
      | ok rs =>
        rw [hsign] at h
        cases h
        exact ⟨data, key, rs.1, rs.2, hdata, hkey, hsign, rfl⟩

theorem verify_signature {hash : Hash} {pub : PublicKey} {r s : Nat} (hr : r < 256 ^ 32) (hs : s < 256 ^ 32) :
    verify env hash (beBytes 32 r ++ beBytes 32 s) pub = env.ecdsaVerify pub hash r s := by
  have htake : (beBytes 32 r ++ beBytes 32 s).take 32 = beBytes 32 r := List.take_left' (length_beBytes 32 r)
  have hdrop : (beBytes 32 r ++ beBytes 32 s).drop 32 = beBytes 32 s := List.drop_left' (length_beBytes 32 r)
  have hall : (beBytes 32 s).take 32 = beBytes 32 s := List.take_of_length_le (Nat.le_of_eq (length_beBytes 32 s))
  unfold verify
  rw [if_neg (by simp), htake, hdrop, hall, beNat_beBytes hr, beNat_beBytes hs]

theorem validateCommit_signed (laws : SigningLaws env) {node : Paylinkd env} {rand : Bytes} {signed : Block}
    (hsign : node.signBlock env rand block = .ok signed) (hadmin : node.proposer = node.genesis.adminAddress)
    (hproposer : block.header.proposerAddr = node.proposer) : validateCommit env node.genesis signed = .ok () := by
  obtain ⟨data, key, r, s, hdata, hkey, hsig, rfl⟩ := signBlock_ok hsign
  obtain ⟨hr, hs⟩ := laws.halves data key rand block.hash r s hkey hsig
  obtain ⟨hnonempty, hpoint⟩ := laws.point data key rand block.hash r s hkey hsig
  have hverifies := laws.verifies data key rand block.hash r s hkey hsig
  have haddr : pubkeyToAddress env key.publicKey = node.proposer := (node.keyed data key hdata hkey).symm
  have hlength : ¬ (env.marshalPoint key.publicKey).length = 0 := by
    rwa [List.length_eq_zero_iff]
  unfold validateCommit
  simp only [hproposer, hadmin.symm, ne_eq, not_true_eq_false, if_false, hlength,
    unmarshalPublicKey, hpoint, haddr, verify_signature hr hs, hverifies, Bool.true_eq_false]

structure SameView (producer follower : NodeState) : Prop where
  genesis : follower.genesis = producer.genesis
  tip : follower.chain.tip = producer.chain.tip
  height : follower.chain.height = producer.chain.height
  params : follower.exec.db.params = producer.exec.db.params
  live : follower.exec.db.live = producer.exec.db.live

structure SignedBlock (env : Env) (node : NodeState) (io : BlockIO) (block : Block) : Prop where
  height : block.header.height = nextHeight node.chain.tip
  timestamp : block.header.timestamp = io.now
  previousHash : block.header.previousHash = node.chain.tip.elim 0 (·.hash)
  stateRoot : block.header.stateRoot = computeStateRoot env (node.exec.after env io.now node.drain)
  txRoot : block.header.txRoot = computeTxRoot env (node.kept env io)
  transactions : block.transactions = node.kept env io
  hash : block.hash = headerHash env block.header

theorem SignedBlock.of_signBlock {node : NodeState} {io : BlockIO}
    (h : node.signBlock env io.rand (node.unsignedBlock env io.now
      (node.exec.after env io.now node.drain) (node.kept env io)) = .ok block) :
    SignedBlock env node io block := by
  obtain ⟨data, key, r, s, -, -, -, rfl⟩ := signBlock_ok h
  exact ⟨rfl, rfl, rfl, rfl, rfl, rfl, rfl⟩

theorem executed_alike {producer follower : NodeState} {io : BlockIO} (hview : SameView producer follower)
    (hblock : SignedBlock env producer io block) :
    follower.exec.after env block.header.timestamp block.transactions = producer.exec.after env io.now producer.drain ∧
    (∀ o ∈ follower.exec.outcomes env block.header.timestamp block.transactions, o.isOk = true) ∧
    tagReceipts block.header.height (List.zipWith receiptOf block.transactions
        (follower.exec.outcomes env block.header.timestamp block.transactions)) =
      (producer.receipts env io).filter (·.success) := by
  obtain ⟨hstate, hoks⟩ := applyTxs_successTxs env producer.exec.db.params io.now producer.exec.db.live producer.drain
  have houtcomes : follower.exec.outcomes env block.header.timestamp block.transactions =
      (producer.exec.outcomes env io.now producer.drain).filter (·.isOk) := by
    rw [Executor.outcomes, hview.params, hview.live, hblock.timestamp, hblock.transactions]
    exact hoks
  refine ⟨?_, ?_, ?_⟩
  · rw [Executor.after, hview.params, hview.live, hblock.timestamp, hblock.transactions]
    exact hstate
  · rw [houtcomes]
    intro o ho
    exact (List.mem_filter.mp ho).2
  · rw [houtcomes, hblock.transactions, hblock.height]
    unfold NodeState.receipts NodeState.kept NodeState.rawReceipts
    rw [receipts_successTxs, tagReceipts_successes]

theorem validate_signed (laws : SigningLaws env) {node : Paylinkd env} {io : BlockIO}
    (hadmin : node.proposer = node.genesis.adminAddress)
    (hsign : node.signBlock env io.rand (node.unsignedBlock env io.now
      (node.exec.after env io.now node.drain) (node.kept env io)) = .ok block)
    (hauthentic : ∀ tx ∈ block.transactions, verifyTx env tx = .ok ()) :
    validate env node.genesis block node.chain.tip = .ok () := by
  have hblock := SignedBlock.of_signBlock hsign
  have hprev : (node.chain.tip.any fun tip => block.header.previousHash ≠ tip.hash) = false := by
    rw [hblock.previousHash]
    cases node.chain.tip <;> simp
  have hheight : (node.chain.tip.any fun tip =>
      block.header.height ≠ tip.header.height + 1) = false := by
    rw [hblock.height]
    cases node.chain.tip <;> simp [nextHeight]
  have hroot : computeTxRoot env block.transactions = block.header.txRoot := by
    rw [hblock.txRoot, hblock.transactions]
  unfold validate
  simp only [hprev, hheight, Bool.false_eq_true, if_false, hblock.hash, ne_eq, not_true_eq_false,
    validateCommit_signed laws hsign hadmin rfl, validateBody, hroot]
  exact verifyTxs_ok block.header.height 0 hauthentic

theorem accepts_produced (laws : SigningLaws env) {producer : Paylinkd env} {follower : Node} {io : BlockIO}
    {chain : Blockchain} (hview : SameView producer.toNodeState follower.toNodeState) (may : producer.mayProduce = true)
    (hok : producer.attempt env io = .ok (block, chain)) :
    ∃ chain', Accepts env follower.toNodeState block (.ok ()) chain' := by
  obtain ⟨hsign, hcommit⟩ := NodeState.attempt_ok.mp hok
  obtain ⟨-, hextends, hstored⟩ := Blockchain.commitBlock_ok hcommit
  have hblock := SignedBlock.of_signBlock hsign
  obtain ⟨hafter, hsucceed, hreceipts⟩ := executed_alike hview hblock
  have hadmin : producer.proposer = producer.genesis.adminAddress := by
    rw [NodeState.mayProduce, producer.canonical] at may
    simpa using may
  -- the follower's receipts are among the producer's, so they can be marshalled as well
  obtain ⟨blockData, hblockData, -⟩ := hstored.blocks
  obtain ⟨txData, htxData, -⟩ := hstored.txs
  obtain ⟨rData, hrData, -⟩ := hstored.receipts
  obtain ⟨rData', hrData'⟩ : ∃ entries, marshalAll env.encode.receipt (·.txHash)
      ((producer.receipts env io).filter (·.success)) = .ok entries := by
    refine marshalAll_of_forall TxReceipt.txHash fun receipt hreceipt => ?_
    obtain ⟨data, hdata, -⟩ := entry_of_mem hrData (List.mem_filter.mp hreceipt).1
    exact ⟨data, hdata⟩
  have hextends' : Blockchain.Extends env follower.chain block := by
    constructor
    · exact hextends.hash
    · rw [hview.tip, hview.height]
      exact hextends.height
    · rw [hview.tip]
      exact hextends.previous
  rw [← hreceipts] at hrData'
  obtain ⟨chain', hcommit'⟩ := Blockchain.commitBlock_of hextends' hblockData htxData hrData'
  refine ⟨chain', ?_, ?_, hsucceed, ?_, hcommit'⟩
  · intro tip htip
    rw [hview.tip] at htip
    rw [hblock.height, htip]
    exact Nat.lt_succ_self _
  · rw [hview.genesis, hview.tip]
    exact validate_signed laws hadmin hsign (verifyTx_of_outcomes hsucceed)
  · rw [hafter, hblock.stateRoot]

/-- **Producer and follower agree.** -/
theorem follower_agrees (env : Env) (laws : SigningLaws env) : (∀ (ex : Executor) (ts : Int64) (txs : List Transaction),
      let r := ex.executeBlock env ts txs
      let r' := ex.executeBlock env ts (successTxs txs r.1)
      (∀ receipt ∈ r'.1, receipt.success = true) ∧ r'.2.db = r.2.db ∧
      computeStateRoot env r'.2.db.live = computeStateRoot env r.2.db.live) ∧
    ∀ (srt : NonceSort) (producer : Paylinkd env) (follower : Node) (io : BlockIO) (block : Block),
      SameView producer.toNodeState follower.toNodeState →
      (producer.toNode.produceBlock env srt io).1 = some block →
      let r := follower.processBlock env block (.ok ())
      r.1 = .ok () ∧ r.2.chain.tip = some block ∧
      r.2.exec.db.live = (producer.toNode.produceBlock env srt io).2.exec.db.live := by
  refine ⟨fun ex ts txs => ?_, fun srt producer follower io block hview hcommitted => ?_⟩
  · obtain ⟨hsuccess, hdb⟩ := executeBlock_successTxs env ex ts txs
    refine ⟨hsuccess, hdb, ?_⟩
    rw [hdb]
  · intro r
    obtain ⟨chain, may, hok, hproduced⟩ := produceBlock_committed hcommitted
    obtain ⟨chain', haccepts⟩ := accepts_produced laws hview may hok
    have hr := processBlock_accepts haccepts
    have hnode : r.2.toNodeState = follower.toNodeState.advanced env block chain' :=
      congrArg Prod.snd hr
    have hafter := (executed_alike hview
      (SignedBlock.of_signBlock (NodeState.attempt_ok.mp hok).1)).1
    obtain ⟨-, -, hstored⟩ := Blockchain.commitBlock_ok haccepts.committed
    refine ⟨congrArg Prod.fst hr, ?_, ?_⟩
    · rw [hnode]
      exact hstored.tip
    · rw [hnode, hproduced]
      exact hafter

section Localnet

open Localnet

theorem signingLaws_localnet : SigningLaws Localnet.env := by
  have hsigned : ∀ (key : PrivateKey) (rand : Bytes) (hash : Hash) (r s : Nat),
      Localnet.env.ecdsaSign rand key hash = .ok (r, s) →
        key.publicKey = Devnet.admin ∧ hash = firstBlock.hash ∧ firstSignature = (r, s) := by
    intro key rand hash r s h
    have h' : (if key.publicKey = Devnet.admin ∧ hash = firstBlock.hash then
        Except.ok firstSignature else Except.error "no entropy") = Except.ok (r, s) := h
    split at h'
    · next hkey =>
      cases h'
      exact ⟨hkey.1, hkey.2, rfl⟩
    · cases h'
  constructor
  · intro data key rand hash r s _ h
    obtain ⟨hpub, rfl, hrs⟩ := hsigned key rand hash r s h
    cases hrs
    rw [hpub]
    decide +kernel
  · intro data key rand hash r s _ h
    obtain ⟨-, -, hrs⟩ := hsigned key rand hash r s h
    cases hrs
    decide
  · intro data key rand hash r s _ h
    obtain ⟨hpub, -, -⟩ := hsigned key rand hash r s h
    rw [hpub]
    decide +kernel

theorem sameView_localnet : SameView loaded.toNodeState validatorNode.toNodeState := by
  obtain ⟨hgenesis, hchain, hexec⟩ := loaded_frame
  obtain ⟨hstored, hdb⟩ := adminNode_started.fresh
  obtain ⟨hstored', hdb'⟩ := validatorNode_started.fresh
  constructor
  · rw [hgenesis, validatorNode_started.genesis, adminNode_started.genesis]
  · rw [hchain, hstored'.tip, hstored.tip]
  · rw [hchain, hstored'.height, hstored.height]
  · rw [hexec, hdb, hdb']
  · rw [hexec, hdb, hdb']

/-- The validator's node takes in the block of the administrator's. -/
theorem follower_agrees_firstBlock : (validatorNode.toNode.processBlock Localnet.env firstBlock (.ok ())).1 = .ok () ∧
    (validatorNode.toNode.processBlock Localnet.env firstBlock (.ok ())).2.chain.tip = some firstBlock := by
  obtain ⟨hok, htip, -⟩ := (follower_agrees Localnet.env signingLaws_localnet).2 srt loaded
    validatorNode.toNode (quiet 1700000100) firstBlock sameView_localnet loaded_produces
  exact ⟨hok, htip⟩
end Localnet
end LinkMint.Chain

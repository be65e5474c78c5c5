import LinkMint.Chain.Node

/-!
# The follower is atomic

`ProcessBlock` either takes a block in full or leaves the node as it was.
-/

namespace LinkMint.Chain

open LinkMint.Lib

variable {env : Env}

def Executor.after (env : Env) (ex : Executor) (ts : Int64) (txs : List Transaction) : Snapshot :=
  applyTxs env ex.db.params ts ex.db.live txs

def Executor.outcomes (env : Env) (ex : Executor) (ts : Int64) (txs : List Transaction) :
    List (Except String TxState) :=
  Chain.outcomes env ex.db.params ts ex.db.live txs

def Executor.withLive (ex : Executor) (s : Snapshot) : Executor :=
  { ex with db := { ex.db with live := s } }

def Executor.events (env : Env) (ex : Executor) (ts : Int64) (txs : List Transaction) : List Event :=
  if ex.eventBus then (ex.outcomes env ts txs).flatMap eventsOf else []

theorem events_of_bus (ex : Executor) (ts : Int64) (txs : List Transaction) (f : Event → Event) :
    (if ex.eventBus then (ex.events env ts txs).map f else []) = (ex.events env ts txs).map f := by
  unfold Executor.events
  split <;> rfl

theorem executeBlock_snapshot {ex : Executor} (h : ex.Idle) (ts : Int64) (txs : List Transaction) :
    ({ ex with db := ex.db.snapshot.1 } : Executor).executeBlock env ts txs =
      (List.zipWith receiptOf txs (ex.outcomes env ts txs),
        { ex with
          db := { ex.db.snapshot.1 with live := ex.after env ts txs }
          blockEvt := ex.events env ts txs }) := by
  obtain ⟨hreceipts, hdb, hbus, hevents⟩ := executeBlock_spec env ({ ex with db := ex.db.snapshot.1 } : Executor) ts txs
  have hpending : (({ ex with db := ex.db.snapshot.1 } : Executor).executeBlock env ts
      txs).2.pendingEvt = [] := Executor.executeBlock_pendingEvt h.1
  refine Prod.ext hreceipts ?_
  generalize (({ ex with db := ex.db.snapshot.1 } : Executor).executeBlock env ts txs).2 = r at *
  obtain ⟨db, eventBus, pendingEvt, blockEvt⟩ := r
  simp only at hdb hbus hevents hpending
  rw [hdb, hbus, hevents, hpending, h.1, h.2, List.nil_append]
  rfl

theorem reverted_eq {ex : Executor} (h : ex.Idle) (s : Snapshot) (events : List Event) : ({ ex with
        db := ({ ex.db.snapshot.1 with live := s } : StateDB).revert ex.db.snapshot.2
        blockEvt := events } : Executor).discardEvents = ex := by
  rw [StateDB.revert_snapshot]
  obtain ⟨db, eventBus, pendingEvt, blockEvt⟩ := ex
  obtain ⟨rfl, rfl⟩ : pendingEvt = [] ∧ blockEvt = [] := h
  rfl

theorem kept_eq {ex : Executor} (h : ex.Idle) (s : Snapshot) (events : List Event) (height : Nat) : ({ ex with
        db := ({ ex.db.snapshot.1 with live := s } : StateDB).discardSnapshot ex.db.snapshot.2
        blockEvt := events } : Executor).flushEvents height =
      (if ex.eventBus then events.map fun evt => { evt with blockHeight := height } else [], ex.withLive s) := by
  rw [StateDB.discardSnapshot_snapshot]
  obtain ⟨db, eventBus, pendingEvt, blockEvt⟩ := ex
  obtain ⟨rfl, rfl⟩ : pendingEvt = [] ∧ blockEvt = [] := h
  rfl

structure Accepts (env : Env) (node : NodeState) (block : Block) (flush : Except String Unit)
    (chain : Blockchain) : Prop where
  above : ∀ tip, node.chain.tip = some tip → tip.header.height < block.header.height
  valid : validate env node.genesis block node.chain.tip = .ok ()
  succeed : ∀ o ∈ node.exec.outcomes env block.header.timestamp block.transactions, o.isOk = true
  root : computeStateRoot env (node.exec.after env block.header.timestamp block.transactions) = block.header.stateRoot
  committed : node.chain.commitBlock env block
    (tagReceipts block.header.height (List.zipWith receiptOf block.transactions
      (node.exec.outcomes env block.header.timestamp block.transactions))) flush = .ok chain

def NodeState.advanced (env : Env) (node : NodeState) (block : Block) (chain : Blockchain) : NodeState :=
  { node with
    chain := chain
    exec := node.exec.withLive (node.exec.after env block.header.timestamp block.transactions)
    published := node.published ++ (node.exec.events env block.header.timestamp block.transactions).map fun evt =>
        { evt with blockHeight := block.header.height } }

@[simp] theorem success_receiptOf (tx : Transaction) (o : Except String TxState) : (receiptOf tx o).success = o.isOk := by
  cases o <;> rfl

theorem length_outcomes (cp : ChainParams) (ts : Int64) (s : Snapshot) (txs : List Transaction) :
    (outcomes env cp ts s txs).length = txs.length := by
  induction txs generalizing s with
  | nil => rfl
  | cons tx txs ih => simp [outcomes, ih]

theorem find_failed {txs : List Transaction} {os : List (Except String TxState)} (hlen : os.length = txs.length) :
    (List.zipWith receiptOf txs os).find? (fun r => r.success = false) = none ↔ ∀ o ∈ os, o.isOk = true := by
  induction txs generalizing os with
  | nil =>
    rw [List.length_nil, List.length_eq_zero_iff] at hlen
    simp [hlen]
  | cons tx txs ih =>
    cases os with
    | nil => cases hlen
    | cons o os =>
      have hrest := ih (Nat.succ.inj hlen)
      simp only [List.find?_eq_none, List.zipWith_cons_cons, List.forall_mem_cons] at hrest ⊢
      rw [hrest]
      simp

theorem processBlock_eq (node : Node) (block : Block) (flush : Except String Unit) :
    node.toNodeState.processBlock env block flush =
      if node.chain.tip.any fun tip => block.header.height ≤ tip.header.height then (.ok (), node.toNodeState)
      else match validate env node.genesis block node.chain.tip with
        | .error e => (.error e, node.toNodeState)
        | .ok () =>
          let os := node.exec.outcomes env block.header.timestamp block.transactions
          let receipts := List.zipWith receiptOf block.transactions os
          match receipts.find? fun r => r.success = false with
          | some r =>
            (.error s!"block {block.header.height}: tx {hex r.txHash} failed: {r.error}", node.toNodeState)
          | none =>
            let got := computeStateRoot env
              (node.exec.after env block.header.timestamp block.transactions)
            if got ≠ block.header.stateRoot then
              (.error s!"block {block.header.height}: state root mismatch: computed {hex got}, header {hex block.header.stateRoot}",
                node.toNodeState)
            else match node.chain.commitBlock env block
                (tagReceipts block.header.height receipts) flush with
              | .error e => (.error s!"commit block {block.header.height}: {e}", node.toNodeState)
              | .ok chain => (.ok (), node.toNodeState.advanced env block chain) := by
  unfold NodeState.processBlock
  simp only [executeBlock_snapshot node.idle, reverted_eq node.idle, kept_eq node.idle, events_of_bus]
  rfl

theorem processBlock_accepts {node : Node} {block : Block} {flush : Except String Unit}
    {chain : Blockchain} (h : Accepts env node.toNodeState block flush chain) :
    node.toNodeState.processBlock env block flush = (.ok (), node.toNodeState.advanced env block chain) := by
  have hfind := (find_failed (length_outcomes node.exec.db.params block.header.timestamp
    node.exec.db.live block.transactions)).mpr h.succeed
  have habove : ¬ (node.chain.tip.any fun tip => block.header.height ≤ tip.header.height) = true := by
    rw [Option.any_eq_true]
    rintro ⟨tip, htip, hle⟩
    exact absurd (of_decide_eq_true hle) (Nat.not_le.mpr (h.above tip htip))
  rw [processBlock_eq, if_neg habove, h.valid]
  simp only [Executor.outcomes, hfind, h.root, ne_eq, not_true_eq_false, if_false]
  have hcommit := h.committed
  unfold Executor.outcomes at hcommit
  rw [hcommit]

theorem processBlock_cases (env : Env) (node : Node) (block : Block) (flush : Except String Unit) :
    ((∃ tip, node.chain.tip = some tip ∧ block.header.height ≤ tip.header.height) ∧
        node.toNodeState.processBlock env block flush = (.ok (), node.toNodeState)) ∨
    (∃ e, node.toNodeState.processBlock env block flush = (.error e, node.toNodeState)) ∨
    ∃ chain, Accepts env node.toNodeState block flush chain ∧ node.toNodeState.processBlock env block flush =
        (.ok (), node.toNodeState.advanced env block chain) := by
  rw [processBlock_eq]
  split
  · next hknown =>
    obtain ⟨tip, htip, hle⟩ := (Option.any_eq_true ..).mp hknown
    exact .inl ⟨⟨tip, htip, of_decide_eq_true hle⟩, rfl⟩
  · next hnew =>
    have above : ∀ tip, node.chain.tip = some tip → tip.header.height < block.header.height := by
      intro tip htip
      rw [Option.any_eq_true] at hnew
      exact Nat.not_le.mp fun hle => hnew ⟨tip, htip, decide_eq_true hle⟩
    split
    · next e _ => exact .inr (.inl ⟨e, rfl⟩)
    · next valid =>
      simp only
      split
      · exact .inr (.inl ⟨_, rfl⟩)
      · next hfind =>
        split
        · exact .inr (.inl ⟨_, rfl⟩)
        · next hroot =>
          split
          · exact .inr (.inl ⟨_, rfl⟩)
          · next chain committed =>
            refine .inr (.inr ⟨chain, ⟨above, valid, ?_, not_not.mp hroot, committed⟩, rfl⟩)
            exact (find_failed (length_outcomes ..)).mp hfind

theorem validate_links {g : GenesisConfig} {block : Block} {tip : Option Block}
    (h : validate env g block tip = .ok ()) :
    ∀ t, tip = some t → block.header.previousHash = t.hash ∧ block.header.height = t.header.height + 1 := by
  rintro t rfl
  unfold validate at h
  simp only [Option.any_some, decide_eq_true_eq] at h
  split at h
  · cases h
  · next hprev =>
    split at h
    · cases h
    · next hheight => exact ⟨not_not.mp hprev, not_not.mp hheight⟩

theorem Node.ext_state {node node' : Node} (h : node.toNodeState = node'.toNodeState) : node = node' := by
  cases node
  cases node'
  simp only at h
  subst h
  rfl

structure Advanced (env : Env) (node : Node) (block : Block) (node' : Node) : Prop where
  tip : node'.chain.tip = some block
  height : node'.chain.height = block.header.height
  links : ∀ tip, node.chain.tip = some tip → block.header.previousHash = tip.hash ∧
    block.header.height = tip.header.height + 1
  first : node.chain.tip = none → block.header.height = 0
  root : block.header.stateRoot = computeStateRoot env node'.exec.db.live
  succeed : ∀ o ∈ node.exec.outcomes env block.header.timestamp block.transactions, o.isOk = true
  exec : node'.exec = node.exec.withLive (node.exec.after env block.header.timestamp block.transactions)
  published : node'.published = node.published ++
    (node.exec.events env block.header.timestamp block.transactions).map fun evt =>
      { evt with blockHeight := block.header.height }
  mempool : node'.mempool = node.mempool

/-- **`ProcessBlock` takes a block in full or not at all.** -/
theorem processBlock_atomic (env : Env) (node : Node) (block : Block)
    (flush : Except String Unit) :
    let r := node.processBlock env block flush
    (((∃ e, r.1 = .error e) ∨ (r.1 = .ok () ∧ ∃ tip, node.chain.tip = some tip ∧
          block.header.height ≤ tip.header.height)) ∧ r.2 = node) ∨
    (r.1 = .ok () ∧ Advanced env node block r.2) := by
  intro r
  have hsame : ∀ a : Except String Unit, node.toNodeState.processBlock env block flush =
      (a, node.toNodeState) → r.1 = a ∧ r.2 = node := by
    intro a ha
    exact ⟨congrArg Prod.fst ha, Node.ext_state (congrArg Prod.snd ha)⟩
  rcases processBlock_cases env node block flush with ⟨htip, heq⟩ | ⟨e, heq⟩ | ⟨chain, h, heq⟩
  · obtain ⟨hr, hnode⟩ := hsame _ heq
    exact .inl ⟨.inr ⟨hr, htip⟩, hnode⟩
  · obtain ⟨hr, hnode⟩ := hsame _ heq
    exact .inl ⟨.inl ⟨e, hr⟩, hnode⟩
  · refine .inr ⟨congrArg Prod.fst heq, ?_⟩
    have hr : r.2.toNodeState = node.toNodeState.advanced env block chain := congrArg Prod.snd heq
    obtain ⟨-, hextends, hstored⟩ := Blockchain.commitBlock_ok h.committed
    have hchain : r.2.chain = chain := congrArg NodeState.chain hr
    have hexec := congrArg NodeState.exec hr
    constructor
    · rw [hchain]
      exact hstored.tip
    · rw [hchain]
      exact hstored.height
    · exact validate_links h.valid
    · intro hnone
      have hheight := hextends.height
      rw [hnone] at hheight
      exact hheight
    · rw [hexec]
      exact h.root.symm
    · exact h.succeed
    · exact hexec
    · exact congrArg NodeState.published hr
    · have hpool := congrArg NodeState.mempool hr
      exact hpool

end LinkMint.Chain

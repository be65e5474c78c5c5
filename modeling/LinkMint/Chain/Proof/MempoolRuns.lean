import LinkMint.Chain.Mempool

/-!
# The mempool over whole runs

`Pool` carries the agreement of `pending` and `byNonce`; that no sender is left with an empty
list is kept by every call.
-/

namespace LinkMint.Chain.Mempool

open LinkMint.Lib Std

inductive Op where
  | add (tx : Transaction)
  | remove (hash : Hash)
  | drainForBlock (maxTxs : Nat)
  | reinsertAll (txs : List Transaction)

def step (srt : NonceSort) (m : Mempool) : Op → Mempool
  | .add tx => ((m.add srt tx).toOption).getD m
  | .remove hash => m.remove hash
  | .drainForBlock maxTxs => (m.drainForBlock maxTxs).2
  | .reinsertAll txs => m.reinsertAll srt txs

structure WellKept (m : Mempool) : Prop where
  same : ∀ hash tx, m.pending[hash]? = some tx ↔ tx.hash = hash ∧ tx ∈ m.byNonce tx.fromAddr
  own : ∀ sender, ∀ tx ∈ m.byNonce sender, tx.fromAddr = sender
  once : ∀ sender, ((m.byNonce sender).map (·.hash)).Nodup
  sorted : ∀ sender, (m.byNonce sender).Pairwise (·.nonce ≤ ·.nonce)
  nonempty : m.pool.NoEmptyQueue
  bounded : m.count ≤ m.maxSize

structure DrainsFront (m : Mempool) (maxTxs : Nat) : Prop where
  length : (m.drainForBlock maxTxs).1.length = min maxTxs m.count
  distinct : ((m.drainForBlock maxTxs).1.map (·.hash)).Nodup
  pending : ∀ tx ∈ (m.drainForBlock maxTxs).1, m.pending[tx.hash]? = some tx
  left : ∀ hash, (m.drainForBlock maxTxs).2.pending[hash]? =
    if hash ∈ (m.drainForBlock maxTxs).1.map (·.hash) then none else m.pending[hash]?
  ascending : ((m.drainForBlock maxTxs).1.map (·.fromAddr)).Pairwise (· ≤ ·)
  front : ∀ sender, (m.drainForBlock maxTxs).1.filter (·.fromAddr = sender) <+: m.byNonce sender

variable {srt : NonceSort} {m : Mempool}

theorem noEmptyQueue_add (h : m.pool.NoEmptyQueue) (tx : Transaction) :
    (((m.add srt tx).toOption).getD m).pool.NoEmptyQueue := by
  unfold add
  split
  · exact h
  · next fresh =>
    split
    · exact h
    · exact h.insert srt tx fresh

theorem noEmptyQueue_step (h : m.pool.NoEmptyQueue) (op : Op) : (m.step srt op).pool.NoEmptyQueue := by
  cases op with
  | add tx => exact noEmptyQueue_add h tx
  | remove hash => exact h.remove hash
  | drainForBlock maxTxs => exact h.removeAll (m.drained maxTxs)
  | reinsertAll txs =>
    induction txs generalizing m with
    | nil => exact h
    | cons tx txs ih => exact ih (noEmptyQueue_add h tx)

theorem noEmptyQueue_run (h : m.pool.NoEmptyQueue) (ops : List Op) : (ops.foldl (step srt) m).pool.NoEmptyQueue := by
  induction ops generalizing m with
  | nil => exact h
  | cons op ops ih => exact ih (noEmptyQueue_step h op)

theorem wellKept (h : m.pool.NoEmptyQueue) : WellKept m where
  same hash tx := by
    constructor
    · exact m.pool.filed hash tx
    · rintro ⟨rfl, hqueue⟩
      exact (m.pool.held tx.fromAddr tx hqueue).2
  own sender tx hqueue := (m.pool.held sender tx hqueue).1
  once := m.pool.distinct
  sorted := m.pool.ordered
  nonempty := h
  bounded := m.bounded

theorem drainsFront (m : Mempool) (maxTxs : Nat) : DrainsFront m maxTxs where
  length := by
    show (m.drained maxTxs).length = _
    rw [drained_eq, List.length_take, m.pool.length_inOrder]
    rfl
  distinct := m.nodup_drained maxTxs
  pending _ := m.pending_of_drained maxTxs
  left := m.pending_drainForBlock maxTxs
  ascending := by
    show ((m.drained maxTxs).map (·.fromAddr)).Pairwise (· ≤ ·)
    rw [drained_eq, List.map_take]
    refine (m.pool.sorted_inOrder.sublist (List.take_sublist ..)).imp ?_
    rintro a b (rfl | hlt)
    · exact BitVec.le_refl a
    · exact BitVec.le_of_lt (compareOfLessAndEq_eq_lt.mp hlt)
  front := m.drained_sender maxTxs

/-- **The mempool keeps its two structures in step**, and drains them from the front, after every sequence of calls. -/
theorem mempool_consistent (srt : NonceSort) (maxSize : Int) (ops : List Op) :
    WellKept (ops.foldl (step srt) (new maxSize)) ∧ ∀ maxTxs, DrainsFront (ops.foldl (step srt) (new maxSize)) maxTxs :=
  ⟨wellKept (noEmptyQueue_run Pool.noEmptyQueue_empty ops), drainsFront _⟩

end LinkMint.Chain.Mempool

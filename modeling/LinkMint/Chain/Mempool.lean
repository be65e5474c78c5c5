import LinkMint.Lib.Pool
import LinkMint.Chain.Tx

/-!
# The mempool

`internal/txpool/mempool.go`: pending transactions by hash (`pending`) and, per sender, sorted by
nonce (`byNonce`). The two maps are the two views of a `Pool`. `sort.Slice` is not stable, so the
order of two transactions of one sender with one nonce is up to it, and the sort is a parameter.

`Pending` has no caller in the node and is left out.
-/

namespace LinkMint.Chain

open LinkMint.Lib Std

abbrev NonceSort := RankSort Transaction.nonce

structure Mempool where
  pool : Pool Transaction.hash Transaction.fromAddr Transaction.nonce
  maxSize : Nat
  bounded : pool.items.size ≤ maxSize

namespace Mempool
def pending (m : Mempool) : ExtTreeMap Hash Transaction := m.pool.items

def byNonce (m : Mempool) (sender : Address) : List Transaction := m.pool.queue sender

def new (maxSize : Int) : Mempool where
  pool := .empty
  maxSize := if maxSize ≤ 0 then 10000 else maxSize.toNat
  bounded := by
    show (∅ : ExtTreeMap Hash Transaction).size ≤ _
    simp

def has (m : Mempool) (hash : Hash) : Bool := (m.pending[hash]?).isSome

def add (srt : NonceSort) (m : Mempool) (tx : Transaction) : Except String Mempool :=
  match fresh : m.pool.items[tx.hash]? with
  | some _ => .error s!"transaction already in mempool: {hex tx.hash}"
  | none =>
    if full : m.maxSize ≤ m.pool.items.size then .error s!"mempool full: {m.maxSize} transactions"
    else .ok
      { m with
        pool := m.pool.insert srt tx fresh
        bounded := by
          show (m.pool.items.insert tx.hash tx).size ≤ m.maxSize
          rw [ExtTreeMap.size_insert]
          split <;> omega }

def remove (m : Mempool) (hash : Hash) : Mempool :=
  { m with
    pool := m.pool.remove hash
    bounded := (m.pool.size_remove_le hash).trans m.bounded }

def count (m : Mempool) : Nat := m.pending.size

/-- `ReinsertAll`: refusals are ignored. -/
def reinsertAll (srt : NonceSort) (m : Mempool) (txs : List Transaction) : Mempool :=
  txs.foldl (fun m tx => ((m.add srt tx).toOption).getD m) m

/-- The inner loop of `DrainForBlock`, over one sender's transactions. -/
def collectFrom (maxTxs : Nat) : (result txs : List Transaction) → List Transaction
  | result, [] => result
  | result, tx :: txs =>
    if maxTxs ≤ result.length then result else collectFrom maxTxs (result ++ [tx]) txs

def collect (maxTxs : Nat) : (result : List Transaction) → List (Address × List Transaction) → List Transaction
  | result, [] => result
  | result, (_, txs) :: senders =>
    let result := collectFrom maxTxs result txs
    if maxTxs ≤ result.length then result else collect maxTxs result senders

theorem collectFrom_eq (maxTxs : Nat) (result txs : List Transaction) :
    collectFrom maxTxs result txs = result ++ txs.take (maxTxs - result.length) := by
  induction txs generalizing result with
  | nil => simp [collectFrom]
  | cons tx txs ih =>
    unfold collectFrom
    split
    · next hfull =>
      rw [Nat.sub_eq_zero_of_le hfull]
      simp
    · next hroom =>
      obtain ⟨k, hk⟩ : ∃ k, maxTxs - result.length = k + 1 := Nat.exists_eq_add_one.mpr (by omega)
      have hnext : maxTxs - (result ++ [tx]).length = k := by
        rw [List.length_append, List.length_singleton]
        omega
      rw [ih, hnext, hk, List.take_succ_cons, List.append_assoc, List.singleton_append]

theorem collect_eq (maxTxs : Nat) (result : List Transaction) (senders : List (Address × List Transaction)) :
    collect maxTxs result senders = result ++ (senders.flatMap (·.2)).take (maxTxs - result.length) := by
  induction senders generalizing result with
  | nil => simp [collect]
  | cons e senders ih =>
    obtain ⟨sender, txs⟩ := e
    simp only [collect, collectFrom_eq, List.flatMap_cons, List.take_append]
    split
    · next hfull =>
      rw [List.length_append, List.length_take] at hfull
      have hnone : maxTxs - result.length - txs.length = 0 := by omega
      rw [hnone, List.take_zero, List.append_nil]
    · next hroom =>
      rw [List.length_append, List.length_take] at hroom
      rw [ih, List.append_assoc]
      congr 3
      rw [List.length_append, List.length_take]
      omega

def drained (m : Mempool) (maxTxs : Nat) : List Transaction :=
  collect maxTxs [] m.pool.queues.toList

variable (m : Mempool) (maxTxs : Nat)

theorem drained_eq : m.drained maxTxs = m.pool.inOrder.take maxTxs := by
  rw [drained, collect_eq]
  rfl

theorem pending_of_drained {tx : Transaction} (h : tx ∈ m.drained maxTxs) : m.pending[tx.hash]? = some tx := by
  rw [drained_eq] at h
  exact m.pool.mem_inOrder (List.mem_of_mem_take h)

theorem nodup_drained : ((m.drained maxTxs).map (·.hash)).Nodup := by
  rw [drained_eq, List.map_take]
  exact m.pool.nodup_inOrder.sublist (List.take_sublist ..)

theorem drained_sender (sender : Address) :
    (m.drained maxTxs).filter (fun tx => tx.fromAddr = sender) <+: m.byNonce sender := by
  rw [drained_eq, byNonce, ← m.pool.filter_inOrder]
  exact (List.take_prefix ..).filter _

theorem size_removeAll_drained : (m.pool.removeAll (m.drained maxTxs)).items.size + (m.drained maxTxs).length =
      m.pending.size :=
  m.pool.size_removeAll (fun _ => m.pending_of_drained maxTxs) (m.nodup_drained maxTxs)

def drainForBlock : List Transaction × Mempool :=
  (m.drained maxTxs,
    { m with
      pool := m.pool.removeAll (m.drained maxTxs)
      bounded := by
        have hsize := m.size_removeAll_drained maxTxs
        have hbounded := m.bounded
        unfold pending at hsize
        omega })

variable {m} {srt : NonceSort}

structure Added (m : Mempool) (tx : Transaction) (m' : Mempool) : Prop where
  fresh : m.has tx.hash = false
  room : m.pending.size < m.maxSize
  pending : ∀ h, m'.pending[h]? = if tx.hash = h then some tx else m.pending[h]?
  queued : ∀ sender b, b ∈ m'.byNonce sender ↔ b ∈ m.byNonce sender ∨ (b = tx ∧ tx.fromAddr = sender)
  size : m'.pending.size = m.pending.size + 1
  maxSize : m'.maxSize = m.maxSize

/-- **What `Add` can do**: refuse a transaction that is there, refuse when full, or take it in. -/
theorem add_cases (srt : NonceSort) (m : Mempool) (tx : Transaction) : (m.has tx.hash = true ∧
      m.add srt tx = .error s!"transaction already in mempool: {hex tx.hash}") ∨
    (m.has tx.hash = false ∧ m.maxSize ≤ m.pending.size ∧
      m.add srt tx = .error s!"mempool full: {m.maxSize} transactions") ∨
    ∃ m', m.add srt tx = .ok m' ∧ Added m tx m' := by
  unfold add
  split
  · next tx' found =>
    refine .inl ⟨?_, rfl⟩
    rw [has, pending, found]
    rfl
  · next fresh =>
    have hhas : m.has tx.hash = false := by
      rw [has, pending, fresh]
      rfl
    split
    · next full => exact .inr (.inl ⟨hhas, full, rfl⟩)
    · next room =>
      refine .inr (.inr ⟨_, rfl, hhas, Nat.not_le.mp room, ?_, ?_, ?_, rfl⟩)
      · exact m.pool.items_insert srt tx fresh
      · intro sender b
        exact m.pool.mem_queue_insert srt tx fresh
      · exact m.pool.size_insert srt tx fresh

theorem reinsertAll_cons (srt : NonceSort) (m : Mempool) (tx : Transaction) (txs : List Transaction) :
    m.reinsertAll srt (tx :: txs) = (((m.add srt tx).toOption).getD m).reinsertAll srt txs := rfl

theorem reinsertAll_induction {I : Mempool → Prop} (txs : List Transaction) (h : I m)
    (next : ∀ m tx m', tx ∈ txs → I m → Added m tx m' → I m') : I (m.reinsertAll srt txs) := by
  induction txs generalizing m with
  | nil => exact h
  | cons tx txs ih =>
    rw [reinsertAll_cons]
    refine ih ?_ fun m b m' hb => next m b m' (List.mem_cons_of_mem tx hb)
    rcases add_cases srt m tx with ⟨-, heq⟩ | ⟨-, -, heq⟩ | ⟨m', heq, hadded⟩
    · rw [heq]
      exact h
    · rw [heq]
      exact h
    · rw [heq]
      exact next m tx m' List.mem_cons_self h hadded

theorem Added.has_iff {tx : Transaction} {m' : Mempool} (h : Added m tx m') (hash : Hash) :
    m'.has hash = true ↔ tx.hash = hash ∨ m.has hash = true := by
  rw [has, h.pending, has]
  split
  · next heq => simp [heq]
  · next hne => simp [hne]

/-- What is in the mempool after `ReinsertAll` of transactions with distinct hashes: what was there,
    and each of them that found room after those before it. -/
theorem has_reinsertAll_iff (srt : NonceSort) (m : Mempool) {txs : List Transaction}
    (hnodup : (txs.map (·.hash)).Nodup) (hash : Hash) :
    (m.reinsertAll srt txs).has hash = true ↔ m.has hash = true ∨
      ∃ before tx after, txs = before ++ tx :: after ∧ tx.hash = hash ∧
        m.pending.size + before.countP (fun tx => m.has tx.hash = false) < m.maxSize := by
  induction txs generalizing m with
  | nil => simp [reinsertAll]
  | cons tx txs ih =>
    rw [List.map_cons, List.nodup_cons] at hnodup
    -- the splits of the longer list: at its head, or behind it
    have hsplit : ∀ P : List Transaction → Prop,
        (∃ before b after, tx :: txs = before ++ b :: after ∧ b.hash = hash ∧ P before) ↔
          (tx.hash = hash ∧ P []) ∨
            ∃ before b after, txs = before ++ b :: after ∧ b.hash = hash ∧ P (tx :: before) := by
      intro P
      constructor
      · rintro ⟨before, b, after, heq, hhash, hP⟩
        cases before with
        | nil =>
          cases heq
          exact .inl ⟨hhash, hP⟩
        | cons b' before =>
          cases heq
          exact .inr ⟨before, b, after, rfl, hhash, hP⟩
      · rintro (⟨hhash, hP⟩ | ⟨before, b, after, rfl, hhash, hP⟩)
        · exact ⟨[], tx, txs, rfl, hhash, hP⟩
        · exact ⟨tx :: before, b, after, rfl, hhash, hP⟩
    rw [reinsertAll_cons, hsplit]
    rcases add_cases srt m tx with ⟨hhas, heq⟩ | ⟨hhas, hfull, heq⟩ | ⟨m', heq, hadded⟩
    · rw [heq]
      show (m.reinsertAll srt txs).has hash = true ↔ _
      rw [ih _ hnodup.2]
      simp only [List.countP_cons, hhas, Bool.true_eq_false, decide_false, Bool.false_eq_true,
        if_false, Nat.add_zero]
      constructor
      · rintro (h | h)
        · exact .inl h
        · exact .inr (.inr h)
      · rintro (h | ⟨rfl, -⟩ | h)
        · exact .inl h
        · exact .inl hhas
        · exact .inr h
    · -- full, and it stays so
      rw [heq]
      show (m.reinsertAll srt txs).has hash = true ↔ _
      rw [ih _ hnodup.2]
      refine or_congr_right (iff_of_false ?_ ?_)
      · rintro ⟨_, _, _, -, -, hlt⟩
        omega
      · rintro (⟨-, hlt⟩ | ⟨_, _, _, -, -, hlt⟩)
        · simp only [List.countP_nil] at hlt
          omega
        · omega
    · rw [heq]
      show (m'.reinsertAll srt txs).has hash = true ↔ _
      have hroom := hadded.room
      rw [ih _ hnodup.2, hadded.has_iff, hadded.size, hadded.maxSize]
      have hcount : ∀ before b after, txs = before ++ b :: after →
          before.countP (fun tx => m'.has tx.hash = false) =
            before.countP (fun tx => m.has tx.hash = false) := by
        rintro before b after rfl
        refine List.countP_congr fun b' hb' => ?_
        have hne : tx.hash ≠ b'.hash := fun h =>
          hnodup.1 (h ▸ List.mem_map_of_mem (List.mem_append_left _ hb'))
        have := hadded.has_iff b'.hash
        simp only [hne, false_or] at this
        simp only [decide_eq_true_eq, Bool.eq_false_iff, ne_eq, this]
      simp only [List.countP_nil, List.countP_cons, hadded.fresh, decide_true, if_true, Nat.add_zero,
        hroom, and_true]
      constructor
      · rintro ((h | h) | ⟨before, b, after, hs, hhash, hlt⟩)
        · exact .inr (.inl h)
        · exact .inl h
        · rw [hcount before b after hs] at hlt
          exact .inr (.inr ⟨before, b, after, hs, hhash, by omega⟩)
      · rintro (h | h | ⟨before, b, after, hs, hhash, hlt⟩)
        · exact .inl (.inr h)
        · exact .inl (.inl h)
        · refine .inr ⟨before, b, after, hs, hhash, ?_⟩
          rw [hcount before b after hs]
          omega

theorem pending_drainForBlock (m : Mempool) (maxTxs : Nat) (hash : Hash) : (m.drainForBlock maxTxs).2.pending[hash]? =
      if hash ∈ (m.drained maxTxs).map (·.hash) then none else m.pending[hash]? :=
  m.pool.items_removeAll (m.drained maxTxs) hash

theorem byNonce_drainForBlock (m : Mempool) (maxTxs : Nat) (sender : Address) :
    (m.drainForBlock maxTxs).2.byNonce sender =
      (m.byNonce sender).filter fun tx => tx.hash ∉ (m.drained maxTxs).map (·.hash) :=
  m.pool.queue_removeAll (m.drained maxTxs) sender
end Mempool
end LinkMint.Chain

import LinkMint.Chain.Submission
import LinkMint.Chain.Proof.Nonces

/-!
# Gaps in a signer's nonces

The nonce manager's counter moves when a transaction is accepted, the account's when it
succeeds. As long as nothing disturbs the signer's transactions, every nonce between them is
that of one waiting in the mempool (`Covered`); a transaction that fails at its turn leaves a
gap.
-/

namespace LinkMint.Chain

open LinkMint.Lib Std

variable {env : Env} {cp : ChainParams}

def Passes (env : Env) (cp : ChainParams) (ts : Int64) (signer : Address) (s : Snapshot)
    (txs : List Transaction) : Prop :=
  ∀ e ∈ trace (fun s tx => applyTx env cp s tx ts) s txs,
    e.2.fromAddr = signer → Admitted env e.1 e.2 → ∃ s', Effect env cp e.1 e.2 ts s'

variable {signer : Address}

theorem lt_getNonce_applyTxs {ts : Int64} {s : Snapshot} {txs : List Transaction} {k : Nat}
    (sorted : (sentBy signer txs).Pairwise fun a b => a.nonce ≤ b.nonce) (passes : Passes env cp ts signer s txs)
    (covered : ∀ k', s.getNonce signer ≤ k' → k' ≤ k →
      ∃ tx ∈ txs, tx.fromAddr = signer ∧ tx.nonce = k' ∧ verifyTx env tx = .ok ()) :
    k < (applyTxs env cp ts s txs).getNonce signer := by
  induction txs generalizing s with
  | nil =>
    by_contra hle
    obtain ⟨tx, htx, -⟩ := covered k (Nat.not_lt.mp hle) (Nat.le_refl k)
    cases htx
  | cons tx txs ih =>
    have hpasses : Passes env cp ts signer (applyTx env cp s tx ts) txs :=
      fun e he => passes e (List.mem_cons_of_mem _ he)
    have hsorted : (sentBy signer txs).Pairwise fun a b => a.nonce ≤ b.nonce :=
      sorted.sublist ((List.sublist_cons_self tx txs).filter _)
    refine ih hsorted hpasses ?_
    intro k' (hlow : (applyTx env cp s tx ts).getNonce signer ≤ k') hhigh
    have hstep := getNonce_applyTx env cp s tx ts signer
    -- what covers `k'` is not the head: either it is another sender's, or it is behind
    obtain ⟨tx', hmem, hfrom, hnonce, hsigned⟩ := covered k' (by rw [hstep] at hlow; omega) hhigh
    rcases List.mem_cons.mp hmem with rfl | htail
    · exfalso
      by_cases hturn : s.getNonce signer = k'
      · have hadmitted : Admitted env s tx' := ⟨hsigned, by rw [hnonce, hfrom, hturn]⟩
        obtain ⟨s₁, heffect⟩ := passes (s, tx') List.mem_cons_self hfrom hadmitted
        obtain ⟨t, hok, -⟩ := outcome_ok_iff.mpr ⟨s₁, ⟨hsigned, hadmitted.2, heffect⟩, rfl⟩
        have hsuccess : (outcome env cp s tx' ts).isOk = true := by
          rw [hok]
          rfl
        rw [if_pos ⟨hsuccess, hfrom⟩] at hstep
        omega
      · -- the head is too far on: what covers the account's nonce would come before it
        rw [hstep] at hlow
        obtain ⟨first, hfirst, hfirstFrom, hfirstNonce, -⟩ := covered (s.getNonce signer) (Nat.le_refl _) (by omega)
        rcases List.mem_cons.mp hfirst with rfl | hfirst
        · exact hturn (hfirstNonce.symm.trans hnonce)
        · have hsent : sentBy signer (tx' :: txs) = tx' :: sentBy signer txs :=
            List.filter_cons_of_pos (by simpa using hfrom)
          rw [hsent, List.pairwise_cons] at sorted
          have hle := sorted.1 first (List.mem_filter.mpr ⟨hfirst, by simpa using hfirstFrom⟩)
          omega
    · exact ⟨tx', htail, hfrom, hnonce, hsigned⟩

def Covered (env : Env) (m : Mempool) (signer : Address) (k : Nat) : Prop :=
  ∃ tx ∈ m.byNonce signer, tx.nonce = k ∧ verifyTx env tx = .ok ()

theorem fromAddr_of_queued {m : Mempool} {tx : Transaction} (h : tx ∈ m.byNonce signer) : tx.fromAddr = signer := (m.pool.held signer tx h).1

theorem Covered.added {m m' : Mempool} {tx : Transaction} {k : Nat} (h : Covered env m signer k)
    (hadded : Mempool.Added m tx m') : Covered env m' signer k := by
  obtain ⟨tx', hqueued, hnonce, hsigned⟩ := h
  exact ⟨tx', (hadded.queued signer tx').mpr (.inl hqueued), hnonce, hsigned⟩

theorem Covered.reinsertAll {m : Mempool} {k : Nat} (srt : NonceSort) (txs : List Transaction)
    (h : Covered env m signer k) : Covered env (m.reinsertAll srt txs) signer k :=
  Mempool.reinsertAll_induction (I := fun m => Covered env m signer k) txs h
    fun _ _ _ _ hm hadded => hm.added hadded

theorem queued_drainForBlock {m : Mempool} {maxTxs : Nat} {tx : Transaction} (h : tx ∈ m.byNonce signer)
    (hnot : tx ∉ m.drained maxTxs) : tx ∈ (m.drainForBlock maxTxs).2.byNonce signer := by
  rw [Mempool.byNonce_drainForBlock, List.mem_filter]
  refine ⟨h, decide_eq_true fun hhash => hnot ?_⟩
  obtain ⟨tx', hdrained, heq⟩ := List.mem_map.mp hhash
  have hpending := m.pending_of_drained maxTxs hdrained
  have hheld := (m.pool.held signer tx h).2
  rw [heq] at hpending
  cases hpending.symm.trans hheld
  exact hdrained

theorem Covered.drain {m : Mempool} {maxTxs : Nat} {ts : Int64} {s : Snapshot} {bound : Nat}
    (covered : ∀ k, s.getNonce signer ≤ k → k < bound → Covered env m signer k)
    (passes : Passes env cp ts signer s (m.drained maxTxs)) {k : Nat}
    (hlow : (applyTxs env cp ts s (m.drained maxTxs)).getNonce signer ≤ k) (hhigh : k < bound) :
    Covered env (m.drainForBlock maxTxs).2 signer k := by
  have hle := getNonce_le_applyTxs env cp ts s (m.drained maxTxs) signer
  obtain ⟨tx, hqueued, hnonce, hsigned⟩ := covered k (Nat.le_trans hle hlow) hhigh
  refine ⟨tx, queued_drainForBlock hqueued fun hdrained => ?_, hnonce, hsigned⟩
  -- had it been drained, so had all before it, and the account would be past it
  have hfront := m.drained_sender maxTxs signer
  have hsorted := m.pool.ordered signer
  refine absurd (lt_getNonce_applyTxs (hsorted.sublist hfront.sublist) passes ?_) (Nat.not_lt.mpr hlow)
  intro k' hlow' hhigh'
  rcases Nat.lt_or_eq_of_le hhigh' with hlt | rfl
  · obtain ⟨tx', hqueued', hnonce', hsigned'⟩ := covered k' hlow' (Nat.lt_trans hlt hhigh)
    have hmem := mem_front_of_rank_lt hsorted hfront
      (List.mem_filter.mpr ⟨hdrained, by simpa using fromAddr_of_queued hqueued⟩) hqueued'
      (by rw [hnonce, hnonce']; exact hlt)
    exact ⟨tx', (List.mem_filter.mp hmem).1, fromAddr_of_queued hqueued', hnonce', hsigned'⟩
  · exact ⟨tx, hdrained, fromAddr_of_queued hqueued, hnonce, hsigned⟩

def Completes (env : Env) (node : NodeState) (io : BlockIO) : Prop :=
  node.mayProduce = true → node.kept env io ≠ [] → (node.attempt env io).isOk = true

theorem drain_of_mayProduce {node : NodeState} (h : node.mayProduce = true) :
    node.drain = node.mempool.drained maxTxsPerBlock := if_pos h

theorem Covered.produce {srt : NonceSort} (node : Node) {io : BlockIO} {bound : Nat}
    (completes : Completes env node.toNodeState io)
    (passes : Passes env node.exec.db.params io.now signer node.exec.db.live node.drain)
    (covered : ∀ k, node.exec.db.live.getNonce signer ≤ k → k < bound → Covered env node.mempool signer k) : let node' := (node.toNodeState.produceBlock env srt io).2
    ∀ k, node'.exec.db.live.getNonce signer ≤ k → k < bound → Covered env node'.mempool signer k := by
  have hcases := produceBlock_cases env srt node io
  -- the ways out in which the drain was executed end in the state it leads to
  have hdrained : node.mayProduce = true → ∀ k,
      (node.exec.after env io.now node.drain).getNonce signer ≤ k → k < bound →
        Covered env (node.poolLeft srt io) signer k := by
    intro may k hlow hhigh
    unfold Executor.after at hlow
    rw [drain_of_mayProduce may] at hlow passes
    exact (Covered.drain covered passes hlow hhigh).reinsertAll srt io.arrivals
  generalize node.toNodeState.produceBlock env srt io = p at hcases
  cases hcases with
  | notProposer _ => exact covered
  | empty may hempty =>
    rw [hempty] at hdrained
    exact hdrained may
  | allFailed may hkept =>
    rw [after_of_kept_nil hkept] at hdrained
    exact hdrained may
  | aborted may hkept e hattempt =>
    have hok := completes may hkept
    rw [hattempt] at hok
    cases hok
  | committed may _ block chain _ => exact hdrained may

theorem Covered.process (node : Node) {block : Block} {flush : Except String Unit} {bound : Nat}
    (covered : ∀ k, node.exec.db.live.getNonce signer ≤ k → k < bound → Covered env node.mempool signer k) : let node' := (node.toNodeState.processBlock env block flush).2
    ∀ k, node'.exec.db.live.getNonce signer ≤ k → k < bound → Covered env node'.mempool signer k := by
  rcases processBlock_cases env node block flush with ⟨-, heq⟩ | ⟨e, heq⟩ | ⟨chain, -, heq⟩
  · rw [heq]
    exact covered
  · rw [heq]
    exact covered
  · rw [heq]
    intro _ k hlow hhigh
    have hle := getNonce_le_applyTxs env node.exec.db.params block.header.timestamp
      node.exec.db.live block.transactions signer
    exact covered k (Nat.le_trans hle hlow) hhigh

theorem Grows.getNonce_le {node node' : NodeState} (h : Grows env node node') (addr : Address) :
    node.exec.db.live.getNonce addr ≤ node'.exec.db.live.getNonce addr := by
  cases h with
  | same _ _ _ _ hexec => rw [hexec]
  | block block _ _ _ _ _ hexec =>
    rw [hexec]
    exact getNonce_le_applyTxs env _ _ _ _ addr

namespace NonceManager
def Undisturbed (m : NonceManager env) : Op → Prop
  | .chain (.produce io) => Completes env m.node.toNodeState io
  | _ => True

def NoneFails (m : NonceManager env) : Op → Prop
  | .chain (.produce io) =>
    Passes env m.node.exec.db.params io.now m.signer m.node.exec.db.live m.node.drain
  | _ => True

def taken (m : NonceManager env) : Nat :=
  match m.current with
  | .sent nonce true => max m.next (nonce + 1)
  | _ => m.next

def inHand (m : NonceManager env) : Option Nat :=
  match m.current with
  | .none => none
  | .reserved nonce => some nonce
  | .sent nonce _ => some nonce

structure Gapless (m : NonceManager env) : Prop where
  covered : ∀ k, m.chainNonce ≤ k → k < m.taken → Covered env m.node.mempool m.signer k
  inHand : ∀ nonce, m.inHand = some nonce → nonce ≤ m.nextReserved

theorem Gapless.start (node : Paylinkd env) (signer : Address) : (start node signer).Gapless := by
  constructor
  · intro k _ hk
    exact absurd hk (Nat.not_lt_zero k)
  · intro nonce hnonce
    cases hnonce

variable {m : NonceManager env}

theorem Gapless.withNode {node : Paylinkd env} (h : m.Gapless) (hgrows : Grows env m.node.toNodeState node.toNodeState)
    (hcovered : ∀ k, node.exec.db.live.getNonce m.signer ≤ k → k < m.taken →
      Covered env node.mempool m.signer k) : ({ m with node := node } : NonceManager env).Gapless := by
  refine ⟨hcovered, fun nonce hnonce => ?_⟩
  have hle : m.chainNonce ≤ ({ m with node := node } : NonceManager env).chainNonce := hgrows.getNonce_le m.signer
  exact Nat.le_trans (h.inHand nonce hnonce) (max_le_max hle (Nat.le_refl _))

theorem Gapless.send (srt : NonceSort) (tx : Transaction) (h : m.Gapless) : (m.send srt tx).Gapless := by
  unfold NonceManager.send
  split
  · next nonce hcurrent =>
    split
    · next hown =>
      have hhand : nonce ≤ m.nextReserved := h.inHand nonce (by rw [NonceManager.inHand, hcurrent])
      have htaken : m.taken = m.next := by rw [taken, hcurrent]
      simp only
      rcases sendTransaction_cases srt m.node tx with ⟨e, heq⟩ | ⟨hash, mempool, heq, hsigned, hadded⟩
      · rw [heq]
        refine ⟨fun k hlow hhigh => h.covered k hlow ?_, ?_⟩
        · rw [htaken]
          exact hhigh
        · rintro _ ⟨⟩
          exact hhand
      · rw [heq]
        refine ⟨fun k hlow hhigh => ?_, ?_⟩
        · -- the nonces below the one that was sent were taken before
          have hlow' : m.chainNonce ≤ k := hlow
          have hhigh' : k < max m.next (nonce + 1) := hhigh
          unfold nextReserved at hhand
          rcases Nat.lt_or_ge k m.next with hlt | hge
          · exact (h.covered k hlow' (by rw [htaken]; exact hlt)).added hadded
          · have hk : nonce = k := by omega
            refine ⟨_, (hadded.queued m.signer _).mpr (.inr ⟨rfl, hown.1⟩), ?_, hsigned⟩
            exact hown.2.trans hk
        · rintro _ ⟨⟩
          exact hhand
    · exact h
  · exact h

theorem Gapless.of_le {m' : NonceManager env} (h : m.Gapless) (hnode : m'.node = m.node)
    (hsigner : m'.signer = m.signer) (htaken : m'.taken ≤ m.taken)
    (hhand : ∀ nonce, m'.inHand = some nonce → nonce ≤ m'.nextReserved) : m'.Gapless := by
  refine ⟨fun k hlow hhigh => ?_, hhand⟩
  unfold chainNonce at hlow
  rw [hnode, hsigner] at hlow ⊢
  exact h.covered k hlow (Nat.lt_of_lt_of_le hhigh htaken)

theorem Gapless.reserve (h : m.Gapless) : m.reserve.Gapless := by
  unfold NonceManager.reserve
  split
  · next hcurrent =>
    refine h.of_le rfl rfl ?_ ?_
    · rw [taken, taken, hcurrent]
    · rintro _ ⟨⟩
      exact Nat.le_refl _
  · exact h

theorem Gapless.release (h : m.Gapless) : m.release.Gapless := by
  unfold NonceManager.release
  split
  · next nonce hcurrent =>
    refine h.of_le rfl rfl ?_ ?_
    · rw [taken, taken, hcurrent]
    · rintro _ ⟨⟩
  · exact h

theorem Gapless.commit (replied : Bool) (h : m.Gapless) : (m.commit replied).Gapless := by
  unfold NonceManager.commit
  split
  · next nonce accepted hcurrent =>
    refine h.of_le rfl rfl ?_ ?_
    · rw [taken, taken, hcurrent]
      show (if accepted && replied then nonce + 1 else m.next) ≤ _
      cases accepted with
      | false => exact Nat.le_refl _
      | true =>
        show (if true && replied then nonce + 1 else m.next) ≤ max m.next (nonce + 1)
        split
        · exact Nat.le_max_right ..
        · exact Nat.le_max_left ..
    · rintro _ ⟨⟩
  · exact h

theorem Gapless.step (srt : NonceSort) (op : Op) (h : m.Gapless) (undisturbed : m.Undisturbed op)
    (noneFails : m.NoneFails op) : (m.step srt op).Gapless := by
  cases op with
  | reserve => exact h.reserve
  | release => exact h.release
  | send tx => exact h.send srt tx
  | commit replied => exact h.commit replied
  | chain op =>
    refine h.withNode (m.node.step_grows srt op) ?_
    cases op with
    | add tx =>
      intro k hlow hhigh
      have hcovered := h.covered k hlow hhigh
      rcases Mempool.add_cases srt m.node.mempool tx with ⟨-, hadd⟩ | ⟨-, -, hadd⟩ | ⟨mempool, hadd, hadded⟩
      · simpa [Paylinkd.step, hadd, Except.toOption] using hcovered
      · simpa [Paylinkd.step, hadd, Except.toOption] using hcovered
      · simpa [Paylinkd.step, hadd, Except.toOption] using hcovered.added hadded
    | produce io => exact Covered.produce m.node.toNode undisturbed noneFails h.covered
    | process block flush => exact Covered.process m.node.toNode h.covered

theorem step_signer (m : NonceManager env) (srt : NonceSort) (op : Op) : (m.step srt op).signer = m.signer := by
  cases op with
  | reserve =>
    show m.reserve.signer = _
    unfold NonceManager.reserve
    split <;> rfl
  | release =>
    show m.release.signer = _
    unfold NonceManager.release
    split <;> rfl
  | send tx =>
    show (m.send srt tx).signer = _
    unfold NonceManager.send
    split
    · split <;> rfl
    · rfl
  | commit replied =>
    show (m.commit replied).signer = _
    unfold NonceManager.commit
    split <;> rfl
  | chain op => rfl

/-- **No nonce gap, if none of the signer's transactions fails at its turn.** Whenever none of them is
    left in the mempool, the nonce that `Reserve` hands out next is the account's. -/
theorem no_nonce_gap (env : Env) (srt : NonceSort) (node : Paylinkd env) (signer : Address)
    (ops : List Op)
    (undisturbed : ∀ e ∈ trace (step srt) (start node signer) ops, Undisturbed e.1 e.2)
    (noneFails : ∀ e ∈ trace (step srt) (start node signer) ops, NoneFails e.1 e.2) :
    let m := ops.foldl (step srt) (start node signer)
    m.node.mempool.byNonce signer = [] → m.nextReserved = m.node.exec.db.live.getNonce signer := by
  intro m hempty
  have next : ∀ (m : NonceManager env) op, m.Gapless ∧ m.signer = signer → Undisturbed m op ∧ NoneFails m op →
        (m.step srt op).Gapless ∧ (m.step srt op).signer = signer := by
    rintro m op ⟨hm, hsigner⟩ ⟨hundisturbed, hnone⟩
    exact ⟨hm.step srt op hundisturbed hnone, (m.step_signer srt op).trans hsigner⟩
  obtain ⟨hgapless, hsigner⟩ : m.Gapless ∧ m.signer = signer := run_invariant
    (I := fun m : NonceManager env => m.Gapless ∧ m.signer = signer) ⟨.start node signer, rfl⟩ next
    ops fun e he => ⟨undisturbed e he, noneFails e he⟩
  have htaken : m.next ≤ m.taken := by
    unfold taken
    split
    · exact Nat.le_max_left ..
    · exact Nat.le_refl _
  -- a nonce that is taken and not used would be waiting
  have hnext : m.next ≤ m.chainNonce := by
    by_contra hlt
    obtain ⟨tx, hqueued, -⟩ := hgapless.covered m.chainNonce (Nat.le_refl _) (by omega)
    rw [hsigner, hempty] at hqueued
    cases hqueued
  rw [nextReserved, Nat.max_eq_left hnext, chainNonce, hsigner]
end NonceManager

namespace Localnet
open Devnet NonceManager

def allPass (env : Env) (cp : ChainParams) (ts : Int64) (s : Snapshot) (txs : List Transaction) : Bool :=
  (trace (fun s tx => applyTx env cp s tx ts) s txs).all fun e => (outcome env cp e.1 e.2 ts).isOk

theorem passes_of_allPass {env : Env} {cp : ChainParams} {ts : Int64} {signer : Address}
    {s : Snapshot} {txs : List Transaction} (h : allPass env cp ts s txs = true) : Passes env cp ts signer s txs := by
  intro e he _ _
  have hok := List.all_eq_true.mp h e he
  cases ho : outcome env cp e.1 e.2 ts with
  | error err =>
    rw [ho] at hok
    cases hok
  | ok t =>
    obtain ⟨s₁, hstep, -⟩ := outcome_ok_iff.mp ⟨t, ho, rfl⟩
    exact ⟨s₁, hstep.effect⟩

def submission (tx : Transaction) : List NonceManager.Op := [.reserve, .send tx, .commit true]

def submitted (tx : Transaction) (io : BlockIO) : List NonceManager.Op :=
  submission tx ++ [.chain (.produce io)]

theorem met_submitted {env : Env} (srt : NonceSort) (m₀ : NonceManager env) (tx : Transaction)
    (io : BlockIO) {P : NonceManager env → NonceManager.Op → Prop} (own : ∀ m op, op ∈ submission tx → P m op)
    (last : P ((submission tx).foldl (step srt) m₀) (.chain (.produce io))) :
    ∀ e ∈ trace (step srt) m₀ (submitted tx io), P e.1 e.2 := by
  intro e he
  rw [submitted, trace_append] at he
  rcases List.mem_append.mp he with he | he
  · exact own e.1 e.2 (action_of_trace he)
  · rw [List.mem_singleton.mp he]
    exact last

theorem undisturbed_submission {env : Env} {tx : Transaction} (m : NonceManager env)
    (op : NonceManager.Op) (h : op ∈ submission tx) : Undisturbed m op ∧ NoneFails m op := by
  simp only [submission, List.mem_cons, List.not_mem_nil, or_false] at h
  rcases h with rfl | rfl | rfl
  · exact ⟨trivial, trivial⟩
  · exact ⟨trivial, trivial⟩
  · exact ⟨trivial, trivial⟩

def staked : NonceManager Localnet.env :=
  (submitted stakeTx (quiet 1700000100)).foldl (step srt) (start adminNode validatorAddress)

theorem no_nonce_gap_staked : staked.nextReserved = staked.node.exec.db.live.getNonce validatorAddress := by
  have hrun : let m := (submission stakeTx).foldl (step srt) (start adminNode validatorAddress)
      (m.node.attempt Localnet.env (quiet 1700000100)).isOk = true ∧
      allPass Localnet.env m.node.exec.db.params 1700000100 m.node.exec.db.live m.node.drain = true ∧
      (staked.node.mempool.byNonce validatorAddress).length = 0 := by decide +kernel
  obtain ⟨hattempt, hpass, hempty⟩ := hrun
  unfold staked at hempty ⊢
  generalize adminNode = node at hattempt hpass hempty ⊢
  have hmet := met_submitted srt (start node validatorAddress) stakeTx (quiet 1700000100)
    (P := fun m op => Undisturbed m op ∧ NoneFails m op) undisturbed_submission
    ⟨fun _ _ => hattempt, passes_of_allPass hpass⟩
  exact no_nonce_gap _ srt node validatorAddress _ (fun e he => (hmet e he).1)
    (fun e he => (hmet e he).2) (List.length_eq_zero_iff.mp hempty)

def openEnv : Env :=
  { Localnet.env with
    sha256 := fun data =>
      if data = signableJSON createTx.type createTx.fromAddr createTx.nonce createTx.payload then
        createTx.hash
      else Localnet.env.sha256 data
    ecdsaVerify := fun pub hash r s =>
      Localnet.env.ecdsaVerify pub hash r s ||
        (pub = admin ∧ hash = createTx.hash ∧ createTx.signature = beBytes 32 r ++ beBytes 32 s) }

def openNode : Paylinkd openEnv :=
  (Paylinkd.start openEnv Devnet.genesis adminKey {} (.ok ())).toOption.get (by decide +kernel)

def expired : NonceManager openEnv :=
  (submitted createTx (quiet 1700086400)).foldl (step srt) (start openNode adminAddress)

/-- **A transaction that fails leaves a gap.** The creation is dropped, the account's nonce is 0, and
    the next nonce that is reserved is 1. -/
theorem nonce_gap : ¬ ∀ (env : Env) (srt : NonceSort) (node : Paylinkd env) (signer : Address)
      (ops : List NonceManager.Op),
      (∀ e ∈ trace (step srt) (start node signer) ops, Undisturbed e.1 e.2) →
      let m := ops.foldl (step srt) (start node signer)
      m.node.mempool.byNonce signer = [] → m.nextReserved = m.node.exec.db.live.getNonce signer := by
  intro hall
  have hrun : (((submission createTx).foldl (step srt) (start openNode adminAddress)).node.kept
        openEnv (quiet 1700086400)).length = 0 ∧
      (expired.node.mempool.byNonce adminAddress).length = 0 ∧ expired.nextReserved = 1 ∧
      expired.node.exec.db.live.getNonce adminAddress = 0 := by decide +kernel
  obtain ⟨hkept, hempty, hnext, hnonce⟩ := hrun
  unfold expired at hempty hnext hnonce
  generalize openNode = node at hkept hempty hnext hnonce
  have hmet := met_submitted srt (start node adminAddress) createTx (quiet 1700086400)
    (P := Undisturbed) (fun m op h => (undisturbed_submission m op h).1)
    (fun _ hsome => absurd (List.length_eq_zero_iff.mp hkept) hsome)
  have hgap := hall openEnv srt node adminAddress _ hmet (List.length_eq_zero_iff.mp hempty)
  rw [hnext, hnonce] at hgap
  cases hgap
end Localnet
end LinkMint.Chain

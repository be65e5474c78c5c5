import LinkMint.Chain.Proof.Replay
import LinkMint.Chain.Proof.Suppression

/-!
# Nonces

A successful transaction raises its sender's nonce by one and no other account's. `Account.nonce` is
a `Nat` in this model, where Go counts modulo 2^64: what follows here is about accounts with fewer
transactions than that.
-/

namespace LinkMint.Chain

open LinkMint.Lib Std

variable {env : Env} {cp : ChainParams}

theorem getNonce_applyTx (env : Env) (cp : ChainParams) (s : Snapshot) (tx : Transaction)
    (ts : Int64) (addr : Address) : (applyTx env cp s tx ts).getNonce addr = s.getNonce addr +
      if (outcome env cp s tx ts).isOk ∧ tx.fromAddr = addr then 1 else 0 := by
  rcases applyTx_cases env cp s tx ts with ⟨s₁, hstep, heq⟩ | ⟨⟨e, hfail⟩, heq⟩
  · obtain ⟨t, hok, -⟩ := outcome_ok_iff.mpr ⟨s₁, hstep, rfl⟩
    have hsuccess : (outcome env cp s tx ts).isOk = true := by
      rw [hok]
      rfl
    rw [heq, getNonce_incrementNonce, hstep.effect.changes.nonces addr, hsuccess]
    by_cases hfrom : tx.fromAddr = addr
    · simp [hfrom]
    · simp [hfrom]
  · have hfailed : ¬ ((outcome env cp s tx ts).isOk = true ∧ tx.fromAddr = addr) := by
      rw [hfail]
      rintro ⟨h, -⟩
      cases h
    rw [heq, if_neg hfailed, Nat.add_zero]

def sentBy (sender : Address) (txs : List Transaction) : List Transaction :=
  txs.filter fun tx => tx.fromAddr = sender

theorem getNonce_le_applyTxs (env : Env) (cp : ChainParams) (ts : Int64) (s : Snapshot)
    (txs : List Transaction) (addr : Address) : s.getNonce addr ≤ (applyTxs env cp ts s txs).getNonce addr := by
  induction txs generalizing s with
  | nil => exact Nat.le_refl _
  | cons tx txs ih =>
    calc s.getNonce addr ≤ (applyTx env cp s tx ts).getNonce addr := by
          rw [getNonce_applyTx]
          exact Nat.le_add_right ..
      _ ≤ (applyTxs env cp ts s (tx :: txs)).getNonce addr := ih (applyTx env cp s tx ts)

namespace Paylinkd
def newBlock (srt : NonceSort) (e : Paylinkd env × Op) : Option Block :=
  let tip := (e.1.step srt e.2).chain.tip
  if tip = e.1.chain.tip then none else tip

theorem newBlock_cases {g : GenesisConfig} (srt : NonceSort) (node : Paylinkd env) (op : Op)
    {tip : Block} (h : Persisted env g node.toNodeState tip) :
    (newBlock srt (node, op) = none ∧ (node.step srt op).exec = node.exec) ∨
    ∃ block, newBlock srt (node, op) = some block ∧
      (∀ o ∈ node.exec.outcomes env block.header.timestamp block.transactions, o.isOk = true) ∧
      (node.step srt op).exec.db.live = node.exec.after env block.header.timestamp block.transactions := by
  cases node.step_grows srt op with
  | same htip _ _ _ hexec => exact .inl ⟨if_pos htip, hexec⟩
  | block block receipts hextends hstored hsucceed _ hexec =>
    refine .inr ⟨block, ?_, hsucceed, by rw [hexec]; rfl⟩
    -- the new tip is higher than the old one
    have hheight : block.header.height = tip.header.height + 1 := by
      rw [hextends.height, h.atTip, h.height]
      rfl
    have hne : (node.step srt op).chain.tip ≠ node.chain.tip := by
      rw [hstored.tip, h.atTip]
      intro heq
      cases heq
      omega
    exact (if_neg hne).trans hstored.tip
end Paylinkd

namespace Localnet
def firstOps : List Paylinkd.Op := filled ++ [.produce (quiet 1700000100)]

end Localnet
end LinkMint.Chain

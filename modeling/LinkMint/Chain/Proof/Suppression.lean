import LinkMint.Chain.Gossip
import LinkMint.Chain.Localnet
import LinkMint.Chain.Proof.Follower

/-!
# Junk gossip

The host marks a message as seen before anyone has looked at it, under a hash that covers the
header of a block only, or the signed part of a transaction.
-/

namespace LinkMint.Chain

open LinkMint.Lib

variable {env : Env}

structure WouldAccept (env : Env) (node : Node) (block : Block) (flush : Except String Unit) : Prop where
  ok : (node.processBlock env block flush).1 = .ok ()
  above : ∀ tip, node.chain.tip = some tip → tip.header.height < block.header.height

theorem WouldAccept.advances {node : Node} {block : Block} {flush : Except String Unit}
    (h : WouldAccept env node block flush) :
    block.hash = headerHash env block.header ∧ (node.processBlock env block flush).2.chain.tip = some block := by
  rcases processBlock_cases env node block flush with ⟨⟨tip, htip, hle⟩, -⟩ | ⟨e, heq⟩ | ⟨chain, haccepts, heq⟩
  · exact absurd hle (Nat.not_le.mpr (h.above tip htip))
  · have herror : (node.processBlock env block flush).1 = .error e := congrArg Prod.fst heq
    rw [h.ok] at herror
    cases herror
  · obtain ⟨-, hextends, hstored⟩ := Blockchain.commitBlock_ok haccepts.committed
    have hnode : (node.processBlock env block flush).2.toNodeState =
        node.toNodeState.advanced env block chain := congrArg Prod.snd heq
    refine ⟨hextends.hash, ?_⟩
    rw [hnode]
    exact hstored.tip

theorem hash_of_verifyTx {tx : Transaction} (h : verifyTx env tx = .ok ()) : tx.hash = env.sha256 (signableBytes env tx) := by
  unfold verifyTx at h
  split at h
  · cases h
  · split at h
    · cases h
    · split at h
      · cases h
      · simp only at h
        split at h
        · cases h
        · next hhash => exact not_not.mp hhash

namespace LibP2PHost
variable {wire : Wire} {srt : NonceSort} {host : LibP2PHost env} {msg : Message}

theorem handleBlocks_unseen {block : Block} (flush : Except String Unit)
    (hfrom : msg.receivedFrom ≠ host.id) (hcarries : blockOf wire msg = some block)
    (hhash : block.hash = headerHash env block.header) (hunseen : host.hasSeen (headerHash env block.header) = false) :
    (host.handleBlocks wire srt msg flush).node = host.node.step srt (.process block flush) := by
  have hsame : { block with hash := headerHash env block.header } = block := by rw [← hhash]
  unfold handleBlocks
  rw [if_neg hfrom, hcarries]
  simp only [hsame, hunseen, Bool.false_eq_true, if_false]
  rfl

theorem handleTxs_unseen {tx : Transaction} (hfrom : msg.receivedFrom ≠ host.id)
    (hcarries : txOf wire msg = some tx) (hvalid : verifyTx env tx = .ok ())
    (hsize : tx.payload.length ≤ maxTxPayloadBytes)
    (hunseen : host.hasSeen (env.sha256 (signableBytes env tx)) = false) :
    (host.handleTxs wire srt msg).node = host.node.step srt (.add tx) := by
  have hsame : { tx with hash := env.sha256 (signableBytes env tx) } = tx := by
    rw [← hash_of_verifyTx hvalid]
  unfold handleTxs
  rw [if_neg hfrom, hcarries]
  simp only [hsame, hunseen, Bool.false_eq_true, if_false, onTx, hvalid, if_neg (Nat.not_lt.mpr hsize)]
  rfl
end LibP2PHost

/-- **What is not marked is handed on.** -/
theorem gossip_handed_on (env : Env) (wire : Wire) (srt : NonceSort) (host₀ : LibP2PHost env)
    (ops : List LibP2PHost.Op) :
    let host := ops.foldl (LibP2PHost.step wire srt) host₀
    (∀ msg flush block, msg.receivedFrom ≠ host.id → LibP2PHost.blockOf wire msg = some block →
      WouldAccept env host.node.toNode block flush →
      host.hasSeen (headerHash env block.header) = false →
      (host.step wire srt (.block msg flush)).node.toNode = (host.node.toNode.processBlock env block flush).2 ∧
        (host.step wire srt (.block msg flush)).node.chain.tip = some block) ∧
    (∀ msg tx, msg.receivedFrom ≠ host.id → LibP2PHost.txOf wire msg = some tx →
      verifyTx env tx = .ok () → tx.payload.length ≤ maxTxPayloadBytes →
      host.node.mempool.has tx.hash = false →
      host.node.mempool.pending.size < host.node.mempool.maxSize →
      host.hasSeen (env.sha256 (signableBytes env tx)) = false →
      (host.step wire srt (.tx msg)).node.mempool.pending[tx.hash]? = some tx) := by
  intro host
  constructor
  · intro msg flush block hfrom hcarries haccept hunseen
    obtain ⟨hhash, htip⟩ := haccept.advances
    have hnode : (host.step wire srt (.block msg flush)).node = host.node.step srt (.process block flush) :=
      LibP2PHost.handleBlocks_unseen flush hfrom hcarries hhash hunseen
    rw [hnode]
    exact ⟨rfl, htip⟩
  · intro msg tx hfrom hcarries hvalid hsize hfresh hroom hunseen
    have hnode : (host.step wire srt (.tx msg)).node = host.node.step srt (.add tx) :=
      LibP2PHost.handleTxs_unseen hfrom hcarries hvalid hsize hunseen
    rw [hnode]
    show (((host.node.mempool.add srt tx).toOption).getD host.node.mempool).pending[tx.hash]? = _
    rcases Mempool.add_cases srt host.node.mempool tx with ⟨hhas, -⟩ | ⟨-, hfull, -⟩ |
      ⟨m, hadd, hadded⟩
    · rw [hfresh] at hhas
      cases hhas
    · exact absurd hroom (Nat.not_lt.mpr hfull)
    · rw [hadd]
      show m.pending[tx.hash]? = some tx
      rw [hadded.pending, if_pos rfl]

section Localnet

open Localnet Devnet

def envelopeJSON (type : String) (data : Bytes) : Bytes :=
  jsonObject [("type", jsonString (jsonText type)), ("data", data)]

def blockMessageJSON (block : Block) : Bytes := jsonObject [("block", blockJSON block)]

def txMessageJSON (tx : Transaction) : Bytes := jsonObject [("transaction", transactionJSON tx)]

def junkBlock : Block := { firstBlock with transactions := [] }

def junkTx : Transaction := { stakeTx with signature := voteTx.signature }

def localWire : Wire where
  envelope := Testnet.decodesOne
    ([junkBlock, firstBlock].map (fun block =>
        (envelopeJSON "block" (blockMessageJSON block), ⟨.block, blockMessageJSON block⟩)) ++
      [junkTx, stakeTx].map (fun tx =>
        (envelopeJSON "tx" (txMessageJSON tx), ⟨.tx, txMessageJSON tx⟩)))
  blockMessage := Testnet.decodesOne
    ([junkBlock, firstBlock].map fun block => (blockMessageJSON block, some block))
  txMessage := Testnet.decodesOne ([junkTx, stakeTx].map fun tx => (txMessageJSON tx, some tx))
  encodeBlock := fun block => .ok (envelopeJSON "block" (blockMessageJSON block))

def peerBlock (block : Block) : Message := ⟨"peer", envelopeJSON "block" (blockMessageJSON block)⟩

def peerTx (tx : Transaction) : Message := ⟨"peer", envelopeJSON "tx" (txMessageJSON tx)⟩

def localHost : LibP2PHost Localnet.env := { node := validatorNode, id := "validator" }

theorem ok_of_isSome {x : Except String Unit} (h : x.toOption.isSome = true) : x = .ok () := by
  cases x with
  | error e => cases h
  | ok u => rfl

theorem wouldAccept_of_eval {node : Node} {block : Block} {flush : Except String Unit}
    (hok : (node.processBlock env block flush).1.toOption.isSome = true)
    (habove : (node.chain.tip.all fun tip => tip.header.height < block.header.height) = true) :
    WouldAccept env node block flush := by
  refine ⟨ok_of_isSome hok, fun tip htip => ?_⟩
  rw [htip] at habove
  exact of_decide_eq_true habove

/-- The first block arrives and is taken in. -/
theorem gossip_handed_on_firstBlock :
    (localHost.step localWire srt (.block (peerBlock firstBlock) (.ok ()))).node.chain.tip = some firstBlock := by
  obtain ⟨hcarries, hok, habove, hunseen⟩ : LibP2PHost.blockOf localWire (peerBlock firstBlock) = some firstBlock ∧
      (localHost.node.toNode.processBlock Localnet.env firstBlock (.ok ())).1.toOption.isSome = true ∧
      (localHost.node.chain.tip.all fun tip => tip.header.height < firstBlock.header.height) = true ∧
      localHost.hasSeen (headerHash Localnet.env firstBlock.header) = false := by
    decide +kernel
  have hrun := (gossip_handed_on Localnet.env localWire srt localHost []).1
  rw [List.foldl_nil] at hrun
  exact (hrun (peerBlock firstBlock) (.ok ()) firstBlock (by decide +kernel) hcarries
    (wouldAccept_of_eval hok habove) hunseen).2

/-- **Junk suppresses the real thing**, a block and a transaction alike. -/
theorem gossip_suppressed : (¬ ∀ (env : Env) (wire : Wire) (srt : NonceSort) (host₀ : LibP2PHost env)
      (_ : host₀.seenMsgs = ∅) (ops : List LibP2PHost.Op),
      let host := ops.foldl (LibP2PHost.step wire srt) host₀
      ∀ msg flush block, msg.receivedFrom ≠ host.id → LibP2PHost.blockOf wire msg = some block →
        WouldAccept env host.node.toNode block flush →
        (host.step wire srt (.block msg flush)).node.chain.tip = some block) ∧
    (¬ ∀ (env : Env) (wire : Wire) (srt : NonceSort) (host₀ : LibP2PHost env)
      (_ : host₀.seenMsgs = ∅) (ops : List LibP2PHost.Op),
      let host := ops.foldl (LibP2PHost.step wire srt) host₀
      ∀ msg tx, msg.receivedFrom ≠ host.id → LibP2PHost.txOf wire msg = some tx →
        verifyTx env tx = .ok () → tx.payload.length ≤ maxTxPayloadBytes →
        (∀ e ∈ trace (LibP2PHost.step wire srt) host₀ ops, e.1.node.mempool.has tx.hash = false) →
        host.node.mempool.has tx.hash = false →
        host.node.mempool.pending.size < host.node.mempool.maxSize →
        (host.step wire srt (.tx msg)).node.mempool.has tx.hash = true) := by
  constructor
  · intro h
    obtain ⟨hcarries, hok, habove, htip⟩ : LibP2PHost.blockOf localWire (peerBlock firstBlock) = some firstBlock ∧
        ((localHost.step localWire srt (.block (peerBlock junkBlock) (.ok ()))).node.toNode.processBlock
          Localnet.env firstBlock (.ok ())).1.toOption.isSome = true ∧
        ((localHost.step localWire srt (.block (peerBlock junkBlock) (.ok ()))).node.chain.tip.all
          fun tip => tip.header.height < firstBlock.header.height) = true ∧
        ((localHost.step localWire srt (.block (peerBlock junkBlock) (.ok ()))).step localWire srt
          (.block (peerBlock firstBlock) (.ok ()))).node.chain.tip = some genesisBlock := by
      decide +kernel
    have hrun := h Localnet.env localWire srt localHost rfl [.block (peerBlock junkBlock) (.ok ())]
    simp only [List.foldl_cons, List.foldl_nil] at hrun
    have hlast := hrun (peerBlock firstBlock) (.ok ()) firstBlock (by decide +kernel) hcarries
      (wouldAccept_of_eval hok habove)
    exact absurd (htip.symm.trans hlast) (by decide +kernel)
  · intro h
    obtain ⟨hfrom, hcarries, hvalid, hsize, hbefore, hfresh, hroom, hlast⟩ : (peerTx stakeTx).receivedFrom ≠
          (localHost.step localWire srt (.tx (peerTx junkTx))).id ∧
        LibP2PHost.txOf localWire (peerTx stakeTx) = some stakeTx ∧
        verifyTx Localnet.env stakeTx = .ok () ∧ stakeTx.payload.length ≤ maxTxPayloadBytes ∧
        localHost.node.mempool.has stakeTx.hash = false ∧
        (localHost.step localWire srt (.tx (peerTx junkTx))).node.mempool.has stakeTx.hash = false ∧
        (localHost.step localWire srt (.tx (peerTx junkTx))).node.mempool.pending.size <
          (localHost.step localWire srt (.tx (peerTx junkTx))).node.mempool.maxSize ∧
        ((localHost.step localWire srt (.tx (peerTx junkTx))).step localWire srt
          (.tx (peerTx stakeTx))).node.mempool.has stakeTx.hash = false := by
      decide +kernel
    have hrun := h Localnet.env localWire srt localHost rfl [.tx (peerTx junkTx)]
    simp only [List.foldl_cons, List.foldl_nil, trace, List.mem_singleton, forall_eq] at hrun
    have hadded := hrun (peerTx stakeTx) stakeTx hfrom hcarries hvalid hsize hbefore hfresh hroom
    exact absurd (hlast.symm.trans hadded) Bool.false_ne_true
end Localnet
end LinkMint.Chain

import LinkMint.Chain.Node
import LinkMint.Chain.Testnet

/-!
# A network of nodes

The keys and transactions of `Devnet`, and the first block a node of that network produces from them: its header, its
roots and its hash are the real ones, and the administrator's key has really signed it.
-/

namespace LinkMint.Chain.Localnet

open Devnet Testnet LinkMint.Lib

def transactionJSON (tx : Transaction) : Bytes :=
  jsonObject ([("type", jsonNat tx.type.toNat), ("from", jsonHex tx.fromAddr),
    ("nonce", jsonNat tx.nonce), ("payload", tx.payload)]
    ++ (if tx.pubKey = [] then [] else [("pubKey", jsonBytes tx.pubKey)])
    ++ [("signature", jsonBytes tx.signature), ("hash", jsonHex tx.hash)])

def commitJSON (c : BlockCommit) : Bytes :=
  jsonObject ([("proposer", jsonHex c.proposerAddr)]
    ++ (if c.publicKey = [] then [] else [("pubKey", jsonBytes c.publicKey)])
    ++ [("signature", jsonBytes c.signature)])

def transactionsJSON (txs : List Transaction) : Bytes :=
  if txs = [] then jsonNull
  else jsonText "[" ++ List.intercalate (jsonText ",") (txs.map transactionJSON) ++ jsonText "]"

def blockJSON (block : Block) : Bytes :=
  jsonObject [("header", headerJSON block.header),
    ("transactions", transactionsJSON block.transactions), ("commit", commitJSON block.commit),
    ("hash", jsonHex block.hash)]

def receiptJSON (r : TxReceipt) : Bytes :=
  jsonObject ([("txHash", jsonHex r.txHash), ("success", jsonText (toString r.success))]
    ++ (if r.error = "" then [] else [("error", jsonString (jsonText r.error))])
    ++ (if r.blockHeight = 0 then [] else [("blockHeight", jsonNat r.blockHeight)])
    ++ [("txIndex", jsonNat r.txIndex)])

def genesisHeader : BlockHeader where
  height := 0
  timestamp := 1700000000
  previousHash := 0
  stateRoot := 0xad192fad340cac4a720f07aea8fdb40ac74d8b4e0a28f5164c361b1a1fd846f3
  txRoot := 0
  proposerAddr := adminAddress

def genesisBlock : Block where
  header := genesisHeader
  transactions := []
  hash := 0x3319fde91248d2f0aade91106226af61410009a1378b09a97b1293958b53a5d0

def firstHeader : BlockHeader where
  height := 1
  timestamp := 1700000100
  previousHash := genesisBlock.hash
  stateRoot := 0xe6acf7ffe3f9ddac5deae03602d2ec16583a67a834f8200bb1ca6a48f161a8bb
  txRoot := 0xa85e501021c7d5af81acd727ed273d81b2a50d2e8b7e00a792028c690cfdba5f
  proposerAddr := adminAddress

def firstSignature : Nat × Nat :=
  (0xbae715a9ae06bb96eb29a398ae4f77348447e33511d27712ef0ee2a1840e0df7,
    0xfe4face071a5f09cc8961a40b7693d125009ed7dbca422b4f0b34710a286f2ec)

def firstBlock : Block where
  header := firstHeader
  transactions := [stakeTx]
  commit :=
    { proposerAddr := adminAddress
      publicKey := marshalPoint admin
      signature := beBytes 32 firstSignature.1 ++ beBytes 32 firstSignature.2 }
  hash := 0x55cbf26510a696678da74359d31621e196a1c5884ff00366efba6876bdff8a40

/-- What is hashed for the two state roots, the transaction root and the two headers. -/
def digests : List (Bytes × Hash) :=
  let admin : Hash := 0xd5fe54f62aae2c0a449265f64446eaa970a446c20b9bfb22f2f8ca983bb560ae
  let validator : Hash := 0x0b888d0b9128f596e10612340f4d5f6fd74bbac2dd17233c42194ad0bc427091
  let staked : Hash := 0x04575ab7c0f5d8d3c01f38d4554694dc0015489f3459b43988aae2e790f5f50b
  let accounts : Hash := 0x91bb3518c4631001ac31664ddcaf2f3b9b4e9b52ad0f8eac199dcfc137d67b81
  let stakedAccounts : Hash := 0x64724c0d71e4f256d099152d21b7a45846c6a543e08d611ce60a2e8aa781ffa7
  [(accountJSON adminAddress ⟨500000, 0⟩, admin), (accountJSON validatorAddress ⟨1000, 0⟩, validator),
    (accountJSON validatorAddress ⟨900, 1⟩, staked), (validatorJSON (stakedInfo validatorAddress), validatorDigest),
    (hashList [0x3c811fbcb135517c21d3f92081728d065fe7760903a4d69f7dec70d25b1f6da5],
      0xa85e501021c7d5af81acd727ed273d81b2a50d2e8b7e00a792028c690cfdba5f),
    (hashList [admin, validator], accounts), (hashList [admin, staked], stakedAccounts),
    (hashList [accounts, 0, 0, 0, 0, 0], 0xad192fad340cac4a720f07aea8fdb40ac74d8b4e0a28f5164c361b1a1fd846f3),
    (hashList [stakedAccounts, 0, validatorDigest, 0, 0, 0],
      0xe6acf7ffe3f9ddac5deae03602d2ec16583a67a834f8200bb1ca6a48f161a8bb),
    (headerJSON genesisHeader, genesisBlock.hash), (headerJSON firstHeader, firstBlock.hash)]

def adminKey : Bytes :=
  beBytes 32 0xfdbe12ffb9e6e50cf1e0cb348ed19695b3e5f9fc3725ba819fed34ab1be9b89e

def validatorKey : Bytes :=
  beBytes 32 0x9bed2c2eb69b4e13667d1a7873da674a716635d020c9256f6d2491bfd58f78eb

def blocks : List Block := [genesisBlock, firstBlock]

/-- The receipts of the first block's transactions: the stake, the vote that came with it and found
    no PayLink, and the stake once more. -/
def receipts : List TxReceipt :=
  [{ txHash := stakeTx.hash, success := true, blockHeight := 1 },
    { txHash := voteTx.hash, error := s!"paylink not found: {hex payLinkID}", blockHeight := 1 },
    { txHash := stakeTx.hash, error := "invalid nonce: expected 1, got 0", blockHeight := 2 }]

def encodesOne {α : Type} [DecidableEq α] (json : α → Bytes) (table : List α) (a : α) : Except String Bytes :=
  if a ∈ table then .ok (json a) else .error "json: unsupported value"

def plain : Env :=
  let base := withDigests (Testnet.env [stakeTx, voteTx]) digests
  { base with
    encode :=
      { base.encode with
        block := encodesOne blockJSON blocks
        transaction := encodesOne transactionJSON [stakeTx, voteTx]
        receipt := encodesOne receiptJSON receipts }
    scalarBaseMult := fun data =>
      if data = adminKey then some admin else if data = validatorKey then some validator else none
    ecdsaSign := fun _ key hash =>
      if key.publicKey = admin ∧ hash = firstBlock.hash then .ok firstSignature
      else .error "no entropy"
    ecdsaVerify := fun pub hash r s =>
      base.ecdsaVerify pub hash r s || (pub = admin ∧ hash = firstBlock.hash ∧ (r, s) = firstSignature) }

def env : Env :=
  spaced plain (decodesOne (blocks.map fun block => (blockJSON block, block)))
    (decodesOne (receipts.map fun r => (receiptJSON r, r)))

def srt : NonceSort := .insertion Transaction.nonce

def adminNode : Paylinkd env :=
  (Paylinkd.start env Devnet.genesis adminKey {} (.ok ())).toOption.get (by decide +kernel)

def validatorNode : Paylinkd env :=
  (Paylinkd.start env Devnet.genesis validatorKey {} (.ok ())).toOption.get (by decide +kernel)

theorem eq_ok_of_get {α : Type} {x : Except String α} (h : x.toOption.isSome = true) : x = .ok (x.toOption.get h) := by
  cases x with
  | error e => cases h
  | ok a => rfl

theorem adminNode_start : Paylinkd.start env Devnet.genesis adminKey {} (.ok ()) = .ok adminNode := eq_ok_of_get _

theorem adminNode_started : Paylinkd.Started env Devnet.genesis {} (.ok ()) adminNode :=
  Paylinkd.started_of_start adminNode_start

theorem validatorNode_started : Paylinkd.Started env Devnet.genesis {} (.ok ()) validatorNode :=
  Paylinkd.started_of_start (eq_ok_of_get _)

def quiet (now : Int64) : BlockIO where
  now := now
  rand := []
  flush := .ok ()
  set := fun _ => .ok ()

def filled : List Paylinkd.Op := [.add stakeTx, .add voteTx]

def loaded : Paylinkd env := filled.foldl (Paylinkd.step srt) adminNode

theorem loaded_frame : loaded.genesis = adminNode.genesis ∧ loaded.chain = adminNode.chain ∧
    loaded.exec = adminNode.exec := by
  simp only [loaded, filled, List.foldl_cons, List.foldl_nil]
  generalize adminNode = node
  exact ⟨rfl, rfl, rfl⟩

theorem loaded_produces : (loaded.toNode.produceBlock env srt (quiet 1700000100)).1 = some firstBlock := by
  decide +kernel

end LinkMint.Chain.Localnet

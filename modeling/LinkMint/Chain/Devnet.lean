import LinkMint.Chain.Run

/-!
# A development network

Two P-256 keys, a genesis, and six transactions that were really signed with those keys.
-/

namespace LinkMint.Chain.Devnet

def p256Prime : Nat := 2 ^ 256 - 2 ^ 224 + 2 ^ 192 + 2 ^ 96 - 1

def p256B : Nat := 0x5ac635d8aa3a93e7b3ebbd55769886bc651d06b0cc53b0f63bce3c3e27d2604b

/-- `y² = x³ - 3x + b`, with both coordinates reduced. -/
def onCurve (pub : PublicKey) : Bool :=
  pub.x < p256Prime && pub.y < p256Prime &&
    (pub.y * pub.y + 3 * pub.x) % p256Prime == (pub.x * pub.x * pub.x + p256B) % p256Prime

def marshalPoint (pub : PublicKey) : Bytes := 4 :: (beBytes 32 pub.x ++ beBytes 32 pub.y)

def unmarshalPoint (data : Bytes) : Option PublicKey :=
  let pub := { x := beNat ((data.drop 1).take 32), y := beNat (data.drop 33) : PublicKey }
  if data.length = 65 ∧ data.head? = some 4 ∧ onCurve pub then some pub else none

def admin : PublicKey where
  x := 0x897e44066242e6c4cf6b81ffbf299942417a629782896bad7f4119ff707f3254
  y := 0x8a55b3de41a6c8d1ad7d9c3838c403b7ab441bf4eccf02ead7c074a7c61c4704

def adminAddress : Address := 0x149cd79ab023313fe92881ab5c47956347bda52a

def validator : PublicKey where
  x := 0x12268fbf7f7d13c3fb663a82fd676cf754a21e3ac58e58b3bd503fdc44a8b212
  y := 0x55b4498caaa613f50f1542c31782a6752a5d72868fe171da33d5dfb93b75533e

def validatorAddress : Address := 0x7eff00e7d2925d51d36e77720755a2fbabc35c3f

def keccak256 (data : Bytes) : Hash :=
  if data = (marshalPoint admin).drop 1 then
    0x5b2f0dca0a131b342f662e91149cd79ab023313fe92881ab5c47956347bda52a
  else if data = (marshalPoint validator).drop 1 then
    0x0dc6fcbc8f0478a96433fac87eff00e7d2925d51d36e77720755a2fbabc35c3f
  else 0

def genesis : GenesisConfig where
  adminAddress := adminAddress
  maxSupply := 1000000
  minimumStake := 100
  withdrawalCooldown := 604800
  requiredValidations := 1
  genesisTimestamp := 1700000000
  initialBalances := [⟨adminAddress, 500000⟩, ⟨validatorAddress, 1000⟩]
  treasuryAddress := adminAddress

def jsonText (s : String) : Bytes := s.toUTF8.data.toList

def jsonHex {w : Nat} (b : BitVec w) : Bytes :=
  jsonText "\"0x" ++ (hexDigits (beBytes (w / 8) b.toNat)).map (UInt8.ofNat ·.toNat) ++ jsonText "\""

/-- `json.Marshal` of the signed fields, for a payload that is compact already. -/
def signableJSON (type : UInt8) (fromAddr : Address) (nonce : Nat) (payload : Bytes) : Bytes :=
  jsonText "\x7b\"type\":" ++ jsonText (toString type.toNat) ++ jsonText ",\"from\":" ++ jsonHex fromAddr
    ++ jsonText ",\"nonce\":" ++ jsonText (toString nonce) ++ jsonText ",\"payload\":" ++ payload
    ++ jsonText "\x7d"

def signedBy (pub : PublicKey) (fromAddr : Address) (type : UInt8) (nonce : Nat) (payload : Bytes)
    (hash : Hash) (r s : Nat) : Transaction where
  type := type
  fromAddr := fromAddr
  nonce := nonce
  payload := payload
  pubKey := marshalPoint pub
  signature := beBytes 32 r ++ beBytes 32 s
  hash := hash

def payLinkID : Hash := 0x1d6aeb209256b7d4a455b3c8caadd9087b8933451fe6dc6cd24dc36cb61a0d63

def proofHash : Hash := 0xeda2be42e79f5ac523bf0c5201f58c4d7d84cc087c3c2cfdb8c82d9aec8226cc

def metadataHash : Hash := 0xf42af29d97e1f22472d0fc8418d1aa0a1b7ffe04716c33887ae8631b70aeb94f

def hundredJSON : Bytes := jsonText "\x7b\"amount\":100\x7d"

def createJSON : Bytes :=
  jsonText "\x7b\"paylinkId\":" ++ jsonHex payLinkID ++ jsonText ",\"receiver\":" ++ jsonHex adminAddress
    ++ jsonText ",\"amount\":10000,\"expiry\":1700086400,\"metadataHash\":" ++ jsonHex metadataHash
    ++ jsonText "\x7d"

def voteJSON : Bytes :=
  jsonText "\x7b\"paylinkId\":" ++ jsonHex payLinkID ++ jsonText ",\"proofHash\":" ++ jsonHex proofHash
    ++ jsonText "\x7d"

def slashJSON : Bytes :=
  jsonText "\x7b\"validator\":" ++ jsonHex validatorAddress
    ++ jsonText ",\"amount\":50,\"reason\":\"downtime\"\x7d"

def stakeTx : Transaction := signedBy validator validatorAddress 6 0 hundredJSON
  0x3c811fbcb135517c21d3f92081728d065fe7760903a4d69f7dec70d25b1f6da5
  0x10a837945b6312e11cf706000c7ff34a2eb2ae5e9c8976f15e7b192461f4c356
  0xd319bbdd7ba74cd289a5fa28288cbecebcc142f92ee481aff21b9b0e08a98311

def createTx : Transaction := signedBy admin adminAddress 1 0 createJSON
  0xaa56fca8c90789837494989e68794af511aaa065f41f22c4d8aa655c0455ea0e
  0xb7f8258420409632128c9e758f43a7b1b54e2edacc19514593be96ee8395536e
  0xe2a35338e0e60c58a65de60e1ac1ad3b2f96ec3cf0b5591dca23e7ee5e02bf3d

def voteTx : Transaction := signedBy validator validatorAddress 2 1 voteJSON
  0x01ed4a37a9bb7a0a6ac34738f00ad964a99fdad000b3633287283ba83cb401a4
  0xc55d6e69e12fe4c5bd89846cf4c36bd1b1f75147b31e7068165b921bc2d930a8
  0xd6b8542c4f1115b4373c66e75a3bbf0897bbc7c51c362187445fe47d1f59e5bb

def initiateTx : Transaction := signedBy validator validatorAddress 7 2 hundredJSON
  0x5010b62d80b7a155214338080636ac9f6db305e689a86dd1982983d86afd1b1e
  0x9155719998e5991071d6faa438ba562c416a0070232dbe063a1f787efbb3404c
  0x6455bdfcd6a0838723916ef4c3116f557f883add8b999ef4bc559741addb3dd9

def slashTx : Transaction := signedBy admin adminAddress 9 1 slashJSON
  0x5fe3431822475270e47adc0a64773f2e8c5c352945e69fa5fc8126e6057f78f2
  0x59f170f26383d9dd97d92e765818320418fb31a8b57f96bc533ba5ef98dee38f
  0x2a24673d7c10c0e5553e21789313f67f84621ac9f6907008515e2037313e5cfd

def completeTx : Transaction := signedBy validator validatorAddress 8 3 (jsonText "\x7b\x7d")
  0x1a9bdb288adbbbfae33a93547a2d57c3891682d87ed3b38399d594dada1513fa
  0x9c253a856ad07066a3dc92bf089c1bb1536b5cd6a3d147b01faba9661ecfb4c1
  0x1fa0a0011b1d24670a88b9eaab99461d7c00f3215f1183bbf3dae6f4e9b5103f

def signedTxs : List Transaction := [stakeTx, createTx, voteTx, initiateTx, slashTx, completeTx]

def decodes {α : Type} (text : Bytes) (value : α) (data : Bytes) : Except String α :=
  if data = text then .ok value else .error "unexpected end of JSON input"

def undecoded {α : Type} (_ : Bytes) : Except String α := .error "unexpected end of JSON input"

def decoders : Decoders where
  createPayLink := decodes createJSON
    { payLinkID := payLinkID, receiver := adminAddress, amount := 10000, expiry := 1700086400
      metadataHash := metadataHash, rules := [] }
  submitValidation := decodes voteJSON { payLinkID := payLinkID, proofHash := proofHash }
  cancelPayLink := undecoded
  failPayLink := undecoded
  transfer := undecoded
  stake := decodes hundredJSON { amount := 100 }
  initiateUnstake := decodes hundredJSON { amount := 100 }
  slash := decodes slashJSON { validator := validatorAddress, amount := 50, reason := "downtime" }
  distributeReward := undecoded
  registerVRFKey := undecoded
  submitEvidence := undecoded
  transferPayLink := undecoded
  approvePayLink := undecoded
  setApprovalForAll := undecoded
  doubleSign := undecoded
  equivocation := undecoded
  rules := undecoded
  timeLock := undecoded
  multiApproval := undecoded
  amountThreshold := undecoded
  addressWhitelist := undecoded
  receiverWhitelist := undecoded
  maxTransfers := undecoded
  block := undecoded
  receipt := undecoded

def env : Env where
  decode := decoders
  encode :=
    { signable := signableJSON
      account := fun _ _ => []
      payLink := fun _ => []
      validator := fun _ => []
      operator := fun _ => []
      header := fun _ => []
      block := fun _ => .error "json: unsupported type"
      transaction := fun _ => .error "json: unsupported type"
      receipt := fun _ => .error "json: unsupported type" }
  sha256 := fun data =>
    (signedTxs.find? fun tx => signableJSON tx.type tx.fromAddr tx.nonce tx.payload = data).elim 0
      (·.hash)
  keccak256 := keccak256
  unmarshalPoint := unmarshalPoint
  marshalPoint := marshalPoint
  scalarBaseMult := fun _ => none
  ecdsaSign := fun _ _ _ => .error "no private key"
  ecdsaVerify := fun pub hash r s => signedTxs.any fun tx =>
    tx.hash = hash ∧ tx.pubKey = marshalPoint pub ∧ tx.signature = beBytes 32 r ++ beBytes 32 s
  ed25519Verify := fun _ _ _ => false

def quietRun : List BlockCall :=
  [⟨1700000100, [stakeTx, createTx]⟩, ⟨1700000200, [voteTx, initiateTx]⟩, ⟨1700700000, [completeTx]⟩]

def cooldownRun : List BlockCall :=
  [⟨1700000100, [stakeTx, createTx]⟩, ⟨1700000200, [voteTx, initiateTx]⟩, ⟨1700000300, [slashTx]⟩]

def slashedRun : List BlockCall := cooldownRun ++ [⟨1700700000, [completeTx]⟩]

def settledPayLink : PayLink where
  id := payLinkID
  creator := adminAddress
  receiver := adminAddress
  owner := adminAddress
  amount := 10000
  expiry := 1700086400
  status := .verified
  metadataHash := metadataHash
  createdAt := 1700000100
  voteCount := 1
  rules := []

end LinkMint.Chain.Devnet

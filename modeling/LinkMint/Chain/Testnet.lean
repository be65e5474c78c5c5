import LinkMint.Lib.Text
import LinkMint.Chain.Devnet
import LinkMint.Chain.Json

/-!
# A development network with three validators

The two keys of `Devnet` and two more, and transactions signed with them for the situations the proofs below ask
about.
-/

namespace LinkMint.Chain.Testnet

open Devnet LinkMint.Lib

def second : PublicKey where
  x := 0x4cd0c11d66751c8108dc009269e041bfe6ac10dfb7c6c14f353caf6965503bd1
  y := 0xe4cae7033cd177d01b7b0f1c26b52b94f999ba975b654832d7b7b37074c1589a

def secondAddress : Address := 0x7fdadc49096295cc48291ce835a5dedc7f3dedad

def third : PublicKey where
  x := 0xed07f81daf44ea35c96faba7cb182e1f6f7ea459c5fd9c51aa9776a4ea9b8014
  y := 0xb3df80de14589225ef00488c9675eed5242248f1b6f454af02e639be5bbb9e59

def thirdAddress : Address := 0x514f8d0c0b126d5c185e74f078bd2bb62de76c28

def keccak256 (data : Bytes) : Hash :=
  if data = (marshalPoint second).drop 1 then
    0x7e547443706e827dc4417c3a7fdadc49096295cc48291ce835a5dedc7f3dedad
  else if data = (marshalPoint third).drop 1 then
    0xb1404e9ec91caf57549dab62514f8d0c0b126d5c185e74f078bd2bb62de76c28
  else Devnet.keccak256 data

def genesis : GenesisConfig where
  adminAddress := adminAddress
  maxSupply := 1000000
  minimumStake := 100
  withdrawalCooldown := 604800
  requiredValidations := 2
  genesisTimestamp := 1700000000
  initialBalances := [⟨adminAddress, 500000⟩, ⟨validatorAddress, 1000⟩, ⟨secondAddress, 1000⟩, ⟨thirdAddress, 1000⟩]
  treasuryAddress := adminAddress

def oneJSON : Bytes := jsonText "\x7b\"amount\":1\x7d"

def failJSON : Bytes :=
  jsonText "\x7b\"paylinkId\":" ++ jsonHex payLinkID ++ jsonText "\x7d"

def approvalJSON : Bytes :=
  jsonText "\x7b\"required\":2,\"approvers\":[" ++ jsonHex secondAddress ++ jsonText ","
    ++ jsonHex thirdAddress ++ jsonText "]\x7d"

def rulesJSON : Bytes :=
  jsonText "[\x7b\"type\":\"MultiApproval\",\"params\":" ++ approvalJSON ++ jsonText "\x7d]"

def ruledJSON : Bytes :=
  jsonText "\x7b\"paylinkId\":" ++ jsonHex payLinkID ++ jsonText ",\"receiver\":" ++ jsonHex adminAddress
    ++ jsonText ",\"amount\":10000,\"expiry\":1700086400,\"metadataHash\":" ++ jsonHex metadataHash
    ++ jsonText ",\"rules\":" ++ rulesJSON ++ jsonText "\x7d"

def toJSON (toAddr : Address) : Bytes :=
  jsonText "\x7b\"to\":" ++ jsonHex toAddr ++ jsonText ",\"amount\":1\x7d"

def unstakeTx : Transaction := signedBy validator validatorAddress 7 1 hundredJSON
  0x8b609f1057bffb1552ab2a41bc2de0013200fc0001a68faea8ae61a4a2aead90
  0xb3106c553bb0f6ea2eb7e9de0dfa348de7e1ff64c3bf5758423a69a25b00f81f
  0xb63e3ae11eb27e10172b64feabe3bb3269230b14a8cad448ec817c25ea3835dc

def topUpTx : Transaction := signedBy validator validatorAddress 6 2 oneJSON
  0x3fca4a0b0847731dbbe721fa46de9aa981fc373d6292e13eaaec6d711e8cfc75
  0x8d0c7ed05af18dba728af4fef03b8d362ce8b7ab8ed556ee3f44682d8772de92
  0x62e96feb5d0435528e746cb4bfb1f1a325a0194a3dd4eda44fb7fbbc3444ad31

def failTx : Transaction := signedBy admin adminAddress 4 1 failJSON
  0xbdaa175e8c9e7412f1831dc3271b7db32c9cb3e16faae45630a0b35d766d70b3
  0xd51594030dc12bd19856fbc0e08fb51cc838502cdbfb29ddbf718fc39102c174
  0xa2ee2f25c6dd76c870a3a37bdbcca1e60fddccbea9fb03ccbc2203c9aa3620e2

def stake2Tx : Transaction := signedBy second secondAddress 6 0 hundredJSON
  0xf1679dff691c6b8c45b457def9efef5b2e659fb9792d1d674e948a1cabe3fbcc
  0xa4c346f8d8378ecf995a79423640546191f0dc90b84133eb0d5f90c1126dae16
  0xfd39f7e39c810d78726449dc1ef4de99cd7d06252d9f1baf2a454e350451e481

def stake3Tx : Transaction := signedBy third thirdAddress 6 0 hundredJSON
  0xbb75237e884317adb0d4c8bd3327cb4d9f4cc4b5e363e269ccbc80e67be41dd1
  0x3b87fe897e6c4b1587174896ef6fdbe99d8f418cd2a7444aff6ab7c46d836f0d
  0x7877bec185cca859631eee247559fea62cc76c34147762673020c7c279a47296

def ruledTx : Transaction := signedBy admin adminAddress 1 0 ruledJSON
  0x228775d14551d6ea8b71871cd8fdb4c829ef871c488fe9fbf5e5ee18c57287a3
  0x3f5ef2a0575bd9a03837c95c621c1008775f5260b24a2ad8801bd985ffbc85a8
  0xdc9724a7d84f30a31e321368f099c35fe46b3fe6295d9aedec9a2029aa03bdb5

def vote2Tx : Transaction := signedBy second secondAddress 2 1 voteJSON
  0xb8ef8c07f1645b96024e560aee5ceffec56f55a84b36071d4de45474f27403de
  0xc890b1722a8be151eb7b976ba11cb9d15237c19e8b2b0afe830d82fbe94e72b2
  0xc2d71af35cb8984cb4493c7ab17de7d562e8b9e95b2f69a87efcc54788354c10

def vote3Tx : Transaction := signedBy third thirdAddress 2 1 voteJSON
  0x9656adf5f7cba1c3f75888cdd04240e3ec4d1c4db03ce42335940f6b4eb17805
  0x4f0e516bdec6b114783bf87b634df6601837fa1cae403e4706a947993e3fcf5b
  0x7fa61269de1796dc578815973a84b036cc8bac1e47b1bd804cc249f09edb706a

def idleTx : Transaction := signedBy validator validatorAddress 5 1 (toJSON validatorAddress)
  0xb418a42a8137c8492ffce538e9d75b8e37779cef403e372b1419ab60b67ffe4e
  0xe66425c7d9bc2a905d16d19664a8a2b74c1aa3879692c3aa906d18b2b4b41fde
  0xbb24f1eeaa7ab7a6ddd3e9c1cef9e8bbf1384780863e40b45bd30248aee65090

def idle2Tx : Transaction := signedBy second secondAddress 5 1 (toJSON secondAddress)
  0x506904a9d14eca7b94b6b6453cf9ff3ffd71a2fd75233b082f75c12a7ac3d677
  0xc2b153043b59f96d856a04a27f11810b0017f9a7740a39277a9cb6c2d6903d7d
  0x1f64c4585f1084e955796c14bd71123d467ce3e673454c9d055dd6889b102b73

def voteLateTx : Transaction := signedBy validator validatorAddress 2 2 voteJSON
  0xd92b6f2b21dbafb79191791388e915113f61d36fcdb0c3fc614454ea3f47f174
  0xf89c8af9e343a5feb469bd864f6ac969f190369e92554319361b7b2e13b11fe4
  0xf8c4213486d3669412301009961a8be9f8e099318b864598c84cd5f301355ade

def voteLate2Tx : Transaction := signedBy second secondAddress 2 2 voteJSON
  0x41d7b426d8e65a985088aa24449b85eec25b20a2235e9d2765c940de4cceca1b
  0x111ba667a038fd25e782ccbb1d5b4636c7157aeeffd1ec8a64c787d292214c1a
  0x79cf9fa17e9040e016ea8f7ef56fdc267a6b0d937a47ae353e67e33d7efdcb46

structure Seal where
  hash : Hash
  signature : Bytes

def blockA : Seal where
  hash := 0xbf3c9506082447007b64d915cadab0711df3406f019249a89bea80e5db4736a8
  signature := beBytes 32 0xdc9661e556d64c3b2f91973d7338335b82d261d3bb5dbd9bc6a3a2f6fe3d90b1
    ++ beBytes 32 0x26c7c998364f30cbfe5d228aff654f8bbcba2f4d62bed1d8c9139839f9ae8e95

def blockB : Seal where
  hash := 0x225931677ee91a892dd4661cc85cba1543bbb56284f6805c550119e8db1f130c
  signature := beBytes 32 0xbc1f01be09b80a486a6c5fb42b68166ebaaf8fef2a0a135be0315f9c37367c72
    ++ beBytes 32 0x5144ed729d32f4ef5f41e9ad1ca636cedf3300b9a1c8d85cb12aca47324caf63

def sealOf (tx : Transaction) : Seal where
  hash := tx.hash
  signature := tx.signature

def evidenceJSON (height : Nat) (a b : Seal) (sigA sigB : String) : Bytes :=
  jsonText "\x7b\"height\":" ++ jsonText (toString height) ++ jsonText ",\"blockHash1\":" ++ jsonHex a.hash
    ++ jsonText ",\"blockHash2\":" ++ jsonHex b.hash ++ jsonText ",\"signature1\":\"" ++ jsonText sigA
    ++ jsonText "\",\"signature2\":\"" ++ jsonText sigB ++ jsonText "\",\"publicKey\":\""
    ++ jsonText "BBImj79/fRPD+2Y6gv1nbPdUoh46xY5Ys71QP9xEqLISVbRJjKqmE/UPFULDF4KmdSpdcoaP4XHaM9XfuTt1Uz4="
    ++ jsonText "\"\x7d"

def reportJSON (data : Bytes) : Bytes :=
  jsonText "\x7b\"evidenceType\":\"double_sign\",\"validator\":" ++ jsonHex validatorAddress
    ++ jsonText ",\"data\":" ++ data ++ jsonText "\x7d"

def base64A : String :=
  "3JZh5VbWTDsvkZc9czgzW4LSYdO7Xb2bxqOi9v49kLEmx8mYNk8wy/5dIor/ZU+LvLovTWK+0djJE5g5+a6OlQ=="

def base64B : String :=
  "vB8Bvgm4CkhqbF+0K2gWbrqvj+8qChNb4DFfnDc2fHJRRO1ynTL0719B6a0cpjbO3zMAuaHI2FyxKspHMkyvYw=="

def offence42 : Bytes := evidenceJSON 42 blockA blockB base64A base64B

def swapped42 : Bytes := evidenceJSON 42 blockB blockA base64B base64A

def shifted43 : Bytes := evidenceJSON 43 blockA blockB base64A base64B

def framed7 : Bytes := evidenceJSON 7 (sealOf stakeTx) (sealOf voteTx)
  "EKg3lFtjEuEc9wYADH/zSi6yrl6ciXbxXnsZJGH0w1bTGbvde6dM0oml+igojL7OvMFC+S7kga/yG5sOCKmDEQ=="
  "xV1uaeEv5MW9iYRs9MNr0bH3UUezHnBoFluSG8LZMKjWuFQsTxEVtDc8ZudaO78Il7vHxRw2IYdEX+R9H1nluw=="

def offenceTx : Transaction := signedBy admin adminAddress 12 1 (reportJSON offence42)
  0x92957d6af79a3c9249427e15483c82a77caae640b2e7cfb12f1687520a3fe91c
  0xfc68c1447469afb08991009d1ba0c57deb49fd6c8dfcc497609d97d77283978c
  0x2866df65c4323947d49237f26171c34e0b6cd57be1e1eeda6d52bd6448329960

def reportedTx : Transaction := signedBy admin adminAddress 12 2 (reportJSON swapped42)
  0xca4570b892c2a960a75455529517dcc7e6c752a1b60546f89cb72ec617a56672
  0xc7535efebbd1733f5ddea04571e804d23648f95d0d55cb66c8e818971981c097
  0xc164ce193687bfa641c37242d41e3850a46bee88c85d82025f7fa130ab28784a

def shiftedTx : Transaction := signedBy admin adminAddress 12 2 (reportJSON shifted43)
  0xdf92694b97413754a547116fd9b886fb630a7b72b926b2e0dbd89021327785da
  0x9bd4eb73751e306e07e4c7e8e270be6d1d5e611c38886c10b19a0f00ef0ec294
  0xf03527838f622af4fafa1c1489c2f845739099e4efdd6ac5ff6c6c1e54583136

def framedTx : Transaction := signedBy admin adminAddress 12 1 (reportJSON framed7)
  0x527a1d996e824178ad6e7aa39e6fb58a0e7e68a7e34778d98738b188383acb84
  0x4f37cae972fca00cc54837f2e94eb4be594b607a321c6f05a0543c3eece637c4
  0x4ba3fa14eefc2aec364f3171e8c90c67b837c96efe03d63ef58ce9156f043cf0

def offencePreimage (height : Nat) : Bytes :=
  jsonText "ds" ++ addressBytes validatorAddress ++ beBytes 8 height

def offenceIDs : List (Bytes × Hash) :=
  [(offencePreimage 42, 0x922b2e7e44fa9bfdbdd5d58ccd68fc768d6f9370c20dc181dbf7dea07b70d386),
    (offencePreimage 43, 0x8df8ee21ccf5cc238e182995faf0d498ae55f8606fa0f6f2dbc35d6679ae5e49),
    (offencePreimage 7, 0x74911919193f1b0cc06a0c006930734731bf8bafca5716a8da7cea0758bc5c41)]

def evidenceOf (height : UInt64) (a b : Seal) : DoubleSignEvidence where
  height := height
  blockHash1 := a.hash
  blockHash2 := b.hash
  signature1 := a.signature
  signature2 := b.signature
  publicKey := marshalPoint validator

def reportOf (data : Bytes) : SubmitEvidencePayload where
  evidenceType := .doubleSign
  validator := validatorAddress
  data := data

def base64Digit (n : Nat) : UInt8 :=
  if n < 26 then UInt8.ofNat (65 + n)
  else if n < 52 then UInt8.ofNat (71 + n)
  else if n < 62 then UInt8.ofNat (n - 4)
  else if n = 62 then 43 else 47

def base64Encode : Bytes → Bytes
  | a :: b :: c :: rest =>
    base64Digit (a.toNat / 4) :: base64Digit (a.toNat % 4 * 16 + b.toNat / 16)
      :: base64Digit (b.toNat % 16 * 4 + c.toNat / 64) :: base64Digit (c.toNat % 64)
      :: base64Encode rest
  | [a, b] => [base64Digit (a.toNat / 4), base64Digit (a.toNat % 4 * 16 + b.toNat / 16),
      base64Digit (b.toNat % 16 * 4), 61]
  | [a] => [base64Digit (a.toNat / 4), base64Digit (a.toNat % 4 * 16), 61, 61]
  | [] => []

/-- A `[]byte` field; a nil slice is `null`. -/
def jsonBytes (bs : Bytes) : Bytes := if bs = [] then jsonNull else jsonString (base64Encode bs)

def accountJSON (addr : Address) (acc : Account) : Bytes :=
  jsonObject [("a", jsonHex addr),
    ("v", jsonObject [("balance", jsonNat acc.balance.toNat), ("nonce", jsonNat acc.nonce)])]

/-- `vrfPublicKey` is left out when empty. -/
def validatorJSON (v : ValidatorInfo) : Bytes :=
  jsonObject ([("address", jsonHex v.address), ("stakedAmount", jsonNat v.stakedAmount.toNat),
    ("pendingWithdrawal", jsonNat v.pendingWithdrawal.toNat),
    ("withdrawableAt", jsonInt v.withdrawableAt.toInt),
    ("totalSlashed", jsonNat v.totalSlashed.toNat), ("totalRewards", jsonNat v.totalRewards.toNat),
    ("isActive", jsonText (toString v.isActive)), ("joinedAt", jsonInt v.joinedAt.toInt)]
    ++ if v.vrfPublicKey = [] then [] else [("vrfPublicKey", jsonBytes v.vrfPublicKey)])

def operatorJSON (k : OperatorKey) : Bytes :=
  jsonObject [("owner", jsonHex k.owner), ("operator", jsonHex k.operator)]

def compact (data : Bytes) : Bytes := data.filter (· ≠ 32)

/-- `rules` is left out when empty, and written compact. -/
def payLinkJSON (pl : PayLink) : Bytes :=
  jsonObject ([("id", jsonHex pl.id), ("creator", jsonHex pl.creator),
    ("receiver", jsonHex pl.receiver), ("owner", jsonHex pl.owner),
    ("approved", jsonHex pl.approved), ("amount", jsonNat pl.amount.toNat),
    ("expiry", jsonInt pl.expiry.toInt), ("status", jsonNat pl.status.code),
    ("metadataHash", jsonHex pl.metadataHash), ("createdAt", jsonInt pl.createdAt.toInt),
    ("voteCount", jsonNat pl.voteCount.toNat), ("transferCount", jsonNat pl.transferCount.toNat)]
    ++ if pl.rules = [] then [] else [("rules", compact pl.rules)])

def headerJSON (h : BlockHeader) : Bytes :=
  jsonObject [("height", jsonNat h.height), ("timestamp", jsonInt h.timestamp.toInt),
    ("previousHash", jsonHex h.previousHash), ("stateRoot", jsonHex h.stateRoot),
    ("txRoot", jsonHex h.txRoot), ("proposer", jsonHex h.proposerAddr)]

def decodesOne {α : Type} (table : List (Bytes × α)) (data : Bytes) : Except String α :=
  match table.find? (·.1 = data) with
  | some entry => .ok entry.2
  | none => .error "unexpected end of JSON input"

def createPayload (rules : Bytes) : CreatePayLinkPayload where
  payLinkID := payLinkID
  receiver := adminAddress
  amount := 10000
  expiry := 1700086400
  metadataHash := metadataHash
  rules := rules

def decoders : Decoders :=
  { Devnet.decoders with
    createPayLink := decodesOne [(createJSON, createPayload []), (ruledJSON, createPayload rulesJSON)]
    failPayLink := decodes failJSON { payLinkID := payLinkID }
    transfer := decodesOne [(toJSON validatorAddress, { toAddr := validatorAddress, amount := 1 }),
      (toJSON secondAddress, { toAddr := secondAddress, amount := 1 })]
    stake := decodesOne [(hundredJSON, { amount := 100 }), (oneJSON, { amount := 1 })]
    rules := decodes rulesJSON [{ type := .multiApproval, params := approvalJSON }]
    multiApproval := decodes approvalJSON
      { required := 2, approvers := [secondAddress, thirdAddress] }
    submitEvidence := decodesOne
      ([offence42, swapped42, shifted43, framed7].map fun data => (reportJSON data, reportOf data))
    doubleSign := decodesOne
      [(offence42, evidenceOf 42 blockA blockB), (swapped42, evidenceOf 42 blockB blockA),
        (shifted43, evidenceOf 43 blockA blockB),
        (framed7, evidenceOf 7 (sealOf stakeTx) (sealOf voteTx))] }

/-- The network in which the transactions `txs` were signed, and the validator signed `blocks`. -/
def env (txs : List Transaction) (blocks : List Seal := []) : Env :=
  { Devnet.env with
    decode := decoders
    encode :=
      { Devnet.env.encode with
        signable := fun type fromAddr nonce payload =>
          signableJSON type fromAddr nonce (compact payload)
        account := accountJSON
        payLink := payLinkJSON
        validator := validatorJSON
        operator := operatorJSON
        header := headerJSON }
    keccak256 := keccak256
    sha256 := fun data =>
      (txs.find? fun tx => signableJSON tx.type tx.fromAddr tx.nonce tx.payload = data).elim
        ((offenceIDs.find? (·.1 = data)).elim 0 (·.2)) (·.hash)
    ecdsaVerify := fun pub hash r s =>
      (txs.any fun tx =>
        tx.hash = hash ∧ tx.pubKey = marshalPoint pub ∧ tx.signature = beBytes 32 r ++ beBytes 32 s)
      || (pub = validator ∧ blocks.any fun sl =>
        sl.hash = hash ∧ sl.signature = beBytes 32 r ++ beBytes 32 s) }

def withDigests (env : Env) (digests : List (Bytes × Hash)) : Env :=
  { env with
    sha256 := fun data => (digests.find? (·.1 = data)).elim (env.sha256 data) (·.2) }

def hashList (hashes : List Hash) : Bytes := hashes.flatMap hashBytes

def stakedInfo (addr : Address) : ValidatorInfo :=
  { address := addr, stakedAmount := 100, isActive := true, joinedAt := 1700000100 }

def validatorDigest : Hash := 0xbb5f4527fad7ebad64a2a1b2cdca8b82fb0c3875bf07c5e06c43f43273575be1

def secondDigest : Hash := 0xa12fd00cddee6d75dd1a6a199a09980e342c06afe43c0b37a3602a291ed0aded

def validatorsRoot : Hash := 0x9113a63bfe3fab81695139408ff34496d6f557f147149b63524f98b4ab0fe094

def validatorDigests : List (Bytes × Hash) := [
    (validatorJSON (stakedInfo validatorAddress), validatorDigest), (validatorJSON (stakedInfo secondAddress), secondDigest),
    (hashList [validatorDigest, secondDigest], validatorsRoot)]

/-- What the state root hashes when the first two validators have staked: four accounts and two
    validators, the inner nodes above them, and the six roots. -/
def stakedDigests : List (Bytes × Hash) :=
  let admin : Hash := 0xd5fe54f62aae2c0a449265f64446eaa970a446c20b9bfb22f2f8ca983bb560ae
  let third : Hash := 0xa0cb6225f037f0a268e46229958614376c61e4e4b1609d3c219149d9a5bcd064
  let validator : Hash := 0x04575ab7c0f5d8d3c01f38d4554694dc0015489f3459b43988aae2e790f5f50b
  let second : Hash := 0x71c334c461e5b7cb95d6a5a28243a1c94764a2dbba5e6c9962aa1b81be328a20
  let left : Hash := 0x51c96d14b8ff0ccd75e6d1b9bc9102df4b7ecf63d60d0fbcba8df9a6cd348adc
  let right : Hash := 0xed60ee1995468fd8d26c913378f20c0351bec80809d50ac1697abb60567c8582
  let accounts : Hash := 0x8b2409e2ec858c431784b51ae5877e00e31f7597029713733a107eea888fe13b
  [(accountJSON adminAddress ⟨500000, 0⟩, admin), (accountJSON thirdAddress ⟨1000, 0⟩, third),
    (accountJSON validatorAddress ⟨900, 1⟩, validator), (accountJSON secondAddress ⟨900, 1⟩, second)] ++ validatorDigests ++
  [(hashList [admin, third], left), (hashList [validator, second], right), (hashList [left, right], accounts),
    (hashList [accounts, 0, validatorsRoot, 0, 0, 0],
      0xcf0787a0fc641d5e849101fde82a536eb26cf5582a0e3bab6a9ea99536a853b4)]

/-- What it hashes when one of the two has voted on the PayLink, and the other moved a token to
    itself: the same, whichever it was. -/
def votedDigests : List (Bytes × Hash) :=
  let admin : Hash := 0x08133f2d39cad4d0ffb991096ba90563a9f7b961bd4a16c306802a1bb22867c3
  let third : Hash := 0xa0cb6225f037f0a268e46229958614376c61e4e4b1609d3c219149d9a5bcd064
  let validator : Hash := 0x72ff367df2fbe73e619eac94f2ddf3f479790ad043b37af728674ff2e581388f
  let second : Hash := 0x01e8b5606971f86980b3cc0425c02b59979bb8c49152793bb2083050f803a05e
  let payLink : Hash := 0x631a1838236862b0f6d29d7e4def1b6505c7780c0b8ab41eaad2226cfe142ff3
  let left : Hash := 0x28bede3df45c9152c6102b8fe9dd59b918129f689275d39ea9c46ed82566cb67
  let right : Hash := 0x062b0895832b273d20e988a416d2d13bcf2e13fbe0e1a682c4265f6f123c04a1
  let accounts : Hash := 0x0860a6e8cb9c9c636c12b28f5a9277f188ce3d86c513d91f46cb36cbb20e8aa2
  [(accountJSON adminAddress ⟨500000, 1⟩, admin), (accountJSON thirdAddress ⟨1000, 0⟩, third),
    (accountJSON validatorAddress ⟨900, 2⟩, validator), (accountJSON secondAddress ⟨900, 2⟩, second),
    (payLinkJSON { settledPayLink with status := .created }, payLink)] ++ validatorDigests ++
  [(hashList [admin, third], left), (hashList [validator, second], right), (hashList [left, right], accounts),
    (hashList [accounts, payLink, validatorsRoot, 0, 0, 0],
      0x85b2cc33f43b3998ec7ec7984c6b7ea1bce69e065cc7fa9313ee4ebf9589ab2d)]

def toppedUpRun : List BlockCall :=
  [⟨1700000100, [stakeTx]⟩, ⟨1700000200, [unstakeTx]⟩, ⟨1700000300, [topUpTx]⟩, ⟨1700700000, [completeTx]⟩]

def failedLateRun : List BlockCall :=
  [⟨1700000100, [stakeTx, createTx]⟩, ⟨1700000200, [voteTx]⟩, ⟨1700000300, [failTx]⟩]

def failedEarlyRun : List BlockCall :=
  [⟨1700000100, [stakeTx, createTx]⟩, ⟨1700000200, [failTx]⟩, ⟨1700000300, [voteTx]⟩]

def reportedTwiceRun : List BlockCall :=
  [⟨1700000100, [stakeTx, createTx]⟩, ⟨1700000200, [offenceTx]⟩, ⟨1700000300, [reportedTx]⟩]

def twoHeightsRun : List BlockCall :=
  [⟨1700000100, [stakeTx, createTx]⟩, ⟨1700000200, [offenceTx]⟩, ⟨1700000300, [shiftedTx]⟩]

def framedRun : List BlockCall :=
  [⟨1700000100, [stakeTx, createTx]⟩, ⟨1700000200, [framedTx]⟩]

def slanderRun : List BlockCall :=
  [⟨1700000100, [stakeTx, createTx]⟩, ⟨1700000200, [offenceTx]⟩]

def stakedRun : List BlockCall := [⟨1700000100, [stakeTx, stake2Tx]⟩]

def stakedBackRun : List BlockCall := [⟨1700000100, [stake2Tx, stakeTx]⟩]

def votedRun : List BlockCall :=
  [⟨1700000100, [stakeTx, stake2Tx, createTx]⟩, ⟨1700000200, [voteTx, idle2Tx]⟩]

def votedBackRun : List BlockCall :=
  [⟨1700000100, [stakeTx, stake2Tx, createTx]⟩, ⟨1700000200, [vote2Tx, idleTx]⟩]

def votedSwappedRun : List BlockCall :=
  [⟨1700000100, [stake2Tx, stakeTx, createTx]⟩, ⟨1700000200, [voteTx, idle2Tx]⟩]

def compactJSON (data : Bytes) : Bytes :=
  if data.all (· == 32) then data else data.filter (· != 32)

def spaceBlind (block : Bytes → Except String Block) (receipt : Bytes → Except String TxReceipt) : Decoders where
  createPayLink data := decoders.createPayLink (compactJSON data)
  submitValidation data := decoders.submitValidation (compactJSON data)
  cancelPayLink data := decoders.cancelPayLink (compactJSON data)
  failPayLink data := decoders.failPayLink (compactJSON data)
  transfer data := decoders.transfer (compactJSON data)
  stake data := decoders.stake (compactJSON data)
  initiateUnstake data := decoders.initiateUnstake (compactJSON data)
  slash data := decoders.slash (compactJSON data)
  distributeReward data := decoders.distributeReward (compactJSON data)
  registerVRFKey data := decoders.registerVRFKey (compactJSON data)
  submitEvidence data := decoders.submitEvidence (compactJSON data)
  transferPayLink data := decoders.transferPayLink (compactJSON data)
  approvePayLink data := decoders.approvePayLink (compactJSON data)
  setApprovalForAll data := decoders.setApprovalForAll (compactJSON data)
  doubleSign data := decoders.doubleSign (compactJSON data)
  equivocation data := decoders.equivocation (compactJSON data)
  rules data := if compactJSON data = jsonNull then .ok [] else decoders.rules (compactJSON data)
  timeLock data := decoders.timeLock (compactJSON data)
  multiApproval data := decoders.multiApproval (compactJSON data)
  amountThreshold data := decoders.amountThreshold (compactJSON data)
  addressWhitelist data := decoders.addressWhitelist (compactJSON data)
  receiverWhitelist data := decoders.receiverWhitelist (compactJSON data)
  maxTransfers data := decoders.maxTransfers (compactJSON data)
  block := block
  receipt := receipt

def spaced (env : Env) (block : Bytes → Except String Block := undecoded)
    (receipt : Bytes → Except String TxReceipt := undecoded) : Env :=
  { env with
    decode := spaceBlind block receipt
    encode :=
      { env.encode with
        signable := fun type fromAddr nonce payload =>
          signableJSON type fromAddr nonce
            (if compactJSON payload = [] then jsonNull else compactJSON payload)
        payLink := fun pl => payLinkJSON { pl with rules := compactJSON pl.rules } } }

section Laws

theorem compactJSON_idempotent (data : Bytes) : compactJSON (compactJSON data) = compactJSON data := by
  unfold compactJSON
  by_cases hall : data.all (· == 32) = true
  · simp only [hall, if_true]
  · simp only [hall, if_false, Bool.false_eq_true]
    split
    · rfl
    · simp [List.filter_filter]

theorem compactJSON_eq_nil {data : Bytes} (h : compactJSON data = []) : data = [] := by
  unfold compactJSON at h
  split at h
  · exact h
  · next hall =>
    rw [List.filter_eq_nil_iff] at h
    refine absurd (List.all_eq_true.mpr fun b hb => ?_) hall
    simpa using h b hb

theorem respects_compactJSON {α : Type} (decode : Bytes → Except String α) {Like : α → α → Prop} (hlike : ∀ a, Like a a)
    (hempty : (decode (compactJSON [])).isOk = false := by decide +kernel) :
    Respects compactJSON (fun data => decode (compactJSON data)) Like where
  congr r r' a hr ha := by
    rw [hr] at ha
    exact ⟨a, ha, hlike a⟩
  empty a ha := by
    rw [ha] at hempty
    cases hempty

theorem respects_plain {α : Type} (decode : Bytes → Except String α)
    (hempty : (decode (compactJSON [])).isOk = false := by decide +kernel) :
    Respects compactJSON (fun data => decode (compactJSON data)) (· = ·) :=
  respects_compactJSON decode (fun _ => rfl) hempty

theorem jsonLaws (env : Env) (block : Bytes → Except String Block) (receipt : Bytes → Except String TxReceipt) :
    JsonLaws compactJSON (spaced env block receipt) where
  idempotent := compactJSON_idempotent
  nil := rfl
  createPayLink := respects_compactJSON decoders.createPayLink (fun p => ⟨p.rules, rfl, rfl⟩)
  submitValidation := respects_plain decoders.submitValidation
  cancelPayLink := respects_plain decoders.cancelPayLink
  failPayLink := respects_plain decoders.failPayLink
  transfer := respects_plain decoders.transfer
  stake := respects_plain decoders.stake
  initiateUnstake := respects_plain decoders.initiateUnstake
  slash := respects_plain decoders.slash
  distributeReward := respects_plain decoders.distributeReward
  registerVRFKey := respects_plain decoders.registerVRFKey
  submitEvidence := respects_compactJSON decoders.submitEvidence (fun p => ⟨p.data, rfl, rfl⟩)
  transferPayLink := respects_plain decoders.transferPayLink
  approvePayLink := respects_plain decoders.approvePayLink
  setApprovalForAll := respects_plain decoders.setApprovalForAll
  doubleSign := respects_plain decoders.doubleSign
  equivocation := respects_plain decoders.equivocation
  rules := by
    refine respects_compactJSON (fun data =>
      if data = jsonNull then .ok [] else decoders.rules data) (fun rules => ?_)
    exact List.forall₂_same.mpr fun _ _ => ⟨rfl, rfl⟩
  timeLock := respects_plain decoders.timeLock
  multiApproval := respects_plain decoders.multiApproval
  amountThreshold := respects_plain decoders.amountThreshold
  addressWhitelist := respects_plain decoders.addressWhitelist
  receiverWhitelist := respects_plain decoders.receiverWhitelist
  maxTransfers := respects_plain decoders.maxTransfers
  noRules r r' hr hno := by
    rcases Bool.or_eq_true_iff.mp hno with hnil | hnull
    · obtain rfl : r = [] := by simpa using hnil
      have hr' : r' = [] := compactJSON_eq_nil hr.symm
      exact .inl (by rw [hr']; rfl)
    · obtain rfl : r = jsonNull := by simpa using hnull
      refine .inr ?_
      have hr' : compactJSON r' = jsonNull := hr.symm
      show (if compactJSON r' = jsonNull then _ else _) = _
      rw [if_pos hr']
  signable type fromAddr nonce r r' hr := by
    show signableJSON _ _ _ (if compactJSON r = [] then _ else _) = _
    rw [hr]
    rfl
  signable_nil type fromAddr nonce := rfl
  payLink pl pl' hpl := congrArg payLinkJSON hpl
end Laws
end LinkMint.Chain.Testnet

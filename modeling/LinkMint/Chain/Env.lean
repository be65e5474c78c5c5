import LinkMint.Chain.Tx

/-!
# The libraries behind the chain, and transaction authentication

`Env` collects what the chain calls and the repository does not contain: `encoding/json`, SHA-256, Keccak-256, P-256
ECDSA and Ed25519.
-/

namespace LinkMint.Chain

structure PublicKey where
  x : Nat
  y : Nat
deriving DecidableEq, Repr

structure PrivateKey where
  d : Nat
  publicKey : PublicKey
deriving DecidableEq, Repr

structure Decoders where
  createPayLink : Bytes → Except String CreatePayLinkPayload
  submitValidation : Bytes → Except String SubmitValidationPayload
  cancelPayLink : Bytes → Except String CancelPayLinkPayload
  failPayLink : Bytes → Except String FailPayLinkPayload
  transfer : Bytes → Except String TransferPayload
  stake : Bytes → Except String StakePayload
  initiateUnstake : Bytes → Except String InitiateUnstakePayload
  slash : Bytes → Except String SlashPayload
  distributeReward : Bytes → Except String DistributeRewardPayload
  registerVRFKey : Bytes → Except String RegisterVRFKeyPayload
  submitEvidence : Bytes → Except String SubmitEvidencePayload
  transferPayLink : Bytes → Except String TransferPayLinkPayload
  approvePayLink : Bytes → Except String ApprovePayLinkPayload
  setApprovalForAll : Bytes → Except String SetApprovalForAllPayload
  doubleSign : Bytes → Except String DoubleSignEvidence
  equivocation : Bytes → Except String EquivocationEvidence
  rules : Bytes → Except String (List Rule)
  timeLock : Bytes → Except String TimeLockParams
  multiApproval : Bytes → Except String MultiApprovalParams
  amountThreshold : Bytes → Except String AmountThresholdParams
  addressWhitelist : Bytes → Except String AddressWhitelistParams
  receiverWhitelist : Bytes → Except String ReceiverWhitelistParams
  maxTransfers : Bytes → Except String MaxTransfersParams
  block : Bytes → Except String Block
  receipt : Bytes → Except String TxReceipt

structure Encoders where
  /-- The struct of `SignableBytes`: type, sender, nonce, payload. -/
  signable : UInt8 → Address → Nat → Bytes → Bytes
  account : Address → Account → Bytes
  payLink : PayLink → Bytes
  validator : ValidatorInfo → Bytes
  operator : OperatorKey → Bytes
  header : BlockHeader → Bytes
  block : Block → Except String Bytes
  transaction : Transaction → Except String Bytes
  receipt : TxReceipt → Except String Bytes

structure Env where
  decode : Decoders
  encode : Encoders
  sha256 : Bytes → Hash
  keccak256 : Bytes → Hash
  unmarshalPoint : Bytes → Option PublicKey
  marshalPoint : PublicKey → Bytes
  scalarBaseMult : Bytes → Option PublicKey
  /-- `ecdsa.Sign` reading the given randomness. -/
  ecdsaSign : Bytes → PrivateKey → Hash → Except String (Nat × Nat)
  ecdsaVerify : PublicKey → Hash → Nat → Nat → Bool
  ed25519Verify : (publicKey message signature : Bytes) → Bool

variable (env : Env)

def unmarshalPublicKey (data : Bytes) : Except String PublicKey :=
  match env.unmarshalPoint data with
  | none => .error "invalid public key"
  | some pub => .ok pub

def marshalPublicKey (pub : PublicKey) : Bytes := env.marshalPoint pub

def unmarshalPrivateKey (data : Bytes) : Except String PrivateKey :=
  match env.scalarBaseMult data with
  | none => .error "invalid private key"
  | some pub => .ok { d := beNat data, publicKey := pub }

/-- The last 20 bytes of `Keccak256(X || Y)`. -/
def pubkeyToAddress (pub : PublicKey) : Address :=
  (env.keccak256 ((env.marshalPoint pub).drop 1)).setWidth 160

/-- The first of the two 32-byte halves is `r`, the second `s`. -/
def sign (rand : Bytes) (hash : Hash) (key : PrivateKey) : Except String Bytes :=
  match env.ecdsaSign rand key hash with
  | .error e => .error s!"sign failed: {e}"
  | .ok (r, s) => .ok (beBytes 32 r ++ beBytes 32 s)

def verify (hash : Hash) (sig : Bytes) (pub : PublicKey) : Bool :=
  if sig.length ≠ 64 then false
  else env.ecdsaVerify pub hash (beNat (sig.take 32)) (beNat ((sig.drop 32).take 32))

def signableBytes (tx : Transaction) : Bytes :=
  env.encode.signable tx.type tx.fromAddr tx.nonce tx.payload

/-- Authenticates a transaction end to end: the key derives the sender, the declared hash is
    the hash of what was signed, the signature is the key's over that hash. -/
def verifyTx (tx : Transaction) : Except String Unit :=
  if tx.pubKey = [] then .error "missing public key"
  else match unmarshalPublicKey env tx.pubKey with
    | .error e => .error s!"invalid public key: {e}"
    | .ok pub =>
      if pubkeyToAddress env pub ≠ tx.fromAddr then
        .error s!"public key does not match from address {hex tx.fromAddr}"
      else
        let h := env.sha256 (signableBytes env tx)
        if tx.hash ≠ h then
          .error s!"hash mismatch: declared {hex tx.hash}, computed {hex h}"
        else if verify env h tx.signature pub = false then
          .error s!"invalid signature for {hex tx.fromAddr}"
        else .ok ()

/-- `"LinkMint-VRF-v1:"` in front of the input. -/
def vrfTagInput (input : Bytes) : Bytes := "LinkMint-VRF-v1:".toUTF8.toList ++ input

/-- A proof is a 32-byte key and a 64-byte signature; the output is the signature's hash. -/
def verifyVRFProof (input : Bytes) (output : Hash) (proof : Bytes) : Bool :=
  if proof.length ≠ 96 then false
  else if env.ed25519Verify (proof.take 32) (vrfTagInput input) (proof.drop 32) = false then false
  else output == env.sha256 (proof.drop 32)

def vrfProofPublicKey (proof : Bytes) : Except String Bytes :=
  if proof.length ≠ 96 then
    .error s!"invalid proof length: got {proof.length}, want 96"
  else .ok (proof.take 32)

def combineHashes (hashes : List Hash) : Hash := env.sha256 (hashes.flatMap hashBytes)

/-! ## What is assumed of SHA-256

A function into 256 bits has collisions; the assumption is that no two of the strings a result is about
are one. -/

structure CollisionFree (env : Env) (inputs : List Bytes) : Prop where
  injective : Set.InjOn env.sha256 {data | data ∈ inputs}
  nonzero : ∀ data ∈ inputs, env.sha256 data ≠ 0

theorem CollisionFree.mono {env : Env} {inputs inputs' : List Bytes}
    (h : CollisionFree env inputs) (hsub : ∀ data ∈ inputs', data ∈ inputs) : CollisionFree env inputs' where
  injective := h.injective.mono hsub
  nonzero data hmem := h.nonzero data (hsub data hmem)

end LinkMint.Chain

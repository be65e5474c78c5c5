import LinkMint.Settle.Adapter
import LinkMint.Chain.Devnet

/-!
# An installation

A validator that trusts one adapter key, three proofs that were really signed with that key, and the callback behind
them.
-/

namespace LinkMint.Settle.Devnet

open LinkMint.Lib LinkMint.Chain

def adapterKey : PublicKey where
  x := 0x17d8b9386aae95b5365190a8a925bfccb809039515fe7dfd58200f3ba69f182b
  y := 0xe51ec030c107542cc14c8034a77d91e46677bc6709756a2242e2b387436d08bb

def payLinkID : String := "0x1d6aeb209256b7d4a455b3c8caadd9087b8933451fe6dc6cd24dc36cb61a0d63"

def otherPayLinkID : String := "0x2f15fa306bf79a6afc5e7e9c920158979be2ab4271771e7c1b673ab90bd36adb"

def callback : Adapter.CallbackResult where
  checkoutRequestID := "ws_CO_191220191020363925"
  resultCode := 0
  amount := 10000
  mpesaReceiptNumber := "SFF6XYZ123"
  phoneNumber := "254708374149"

def correlation : Correlation where
  payLinkID := payLinkID
  amount := 10000
  receiver := "600000"
  payerPhone := "254708374149"

/-- A proof of the callback's rail transaction, with its P-256 digest and signature. -/
structure Signed where
  proof : Proof
  digest : Hash
  r : Nat
  s : Nat
  fingerprint : Hash

def signedProof (plID : String) (timestamp : Int64) (signature : String) (digest : Hash) (r s : Nat)
    (fingerprint : Hash) : Signed where
  proof :=
    { payLinkID := plID, rail := "mpesa", txID := "SFF6XYZ123", amount := 10000
      timestamp := timestamp, sender := "254708374149", receiver := "600000", signature := signature }
  digest := digest
  r := r
  s := s
  fingerprint := fingerprint

def first : Signed := signedProof payLinkID 1700000100
  "FLC+Ioq5YQlVCYIbC9jSu/ztAbbAf8uIcPB90rtsn2DS/wwkiPo5zmqS26+vURdMZGYLgue2ZMlgC/9Ygx//xw=="
  0x4903d306c54bab8bc7976ca8a28255396b54840dae2005b844a5c1fdc1ba4cae
  0x14b0be228ab961095509821b0bd8d2bbfced01b6c07fcb8870f07dd2bb6c9f60
  0xd2ff0c2488fa39ce6a92dbafaf51174c64660b82e7b664c9600bff58831fffc7
  0x3f5e17fe66daaaec9a4efb9cc5e4877edb341fc2b5d75326ccf2a5d0a46285dc

def second : Signed := signedProof payLinkID 1700000160
  "rRpd+7nmlkCGfT7zweGQ7w7qAVAUmPZojq+f4LmKqsofMoMTiOwj9x123aMRQsv8/ikHoNH8HXdG7bwsW2QJpQ=="
  0x337107a69d08e22f45b472e48e167470b2995ed687dfa98e7aa59b34b9d62be1
  0xad1a5dfbb9e69640867d3ef3c1e190ef0eea01501498f6688eaf9fe0b98aaaca
  0x1f32831388ec23f71d76dda31142cbfcfe2907a0d1fc1d7746edbc2c5b6409a5
  0x5fc69526099952bddb64109eb7cedcc614c5f6ea5b6cfa40962d2246794f493b

def other : Signed := signedProof otherPayLinkID 1700000220
  "iIZ7glCPVTruYdHvXfpkmUELEGU3jqXUI2gVC6cIQ1FtbGVT2+H+yuDCQp50U00u1OVbxrt1Y2D8pLvXmcucqg=="
  0xedd5f7c3c1bb2831a6a4270b598acd4953a0df6850ea2ccc57a298401fcbf16c
  0x88867b82508f553aee61d1ef5dfa6499410b1065378ea5d42368150ba7084351
  0x6d6c6553dbe1fecae0c2429e74534d2ed4e55bc6bb756360fca4bbd799cb9caa
  0x8128bf27eb7819f2a5c286ff1d9ce2ed4a3b15a9dd736cb41d964f63d74f0cb9

def signedProofs : List Signed := [first, second, other]

def identityJSON (plID : String) : Bytes :=
  bytesOf "\x7b\"paylinkId\":\"" ++ bytesOf plID ++ bytesOf "\",\"txId\":\"SFF6XYZ123\",\"amount\":10000\x7d"

def digests : List (Bytes × Hash) :=
  signedProofs.map (fun p => (canonicalBytes p.proof, p.digest)) ++
    signedProofs.map (fun p => (marshalWire p.proof, p.fingerprint)) ++
    [(identityJSON payLinkID, 0xc4dd24a11eff729b955667b4d6ac7cbe0d89c8b6b1202343193083e17439f582),
      (identityJSON otherPayLinkID, 0xa1793427ef5c06c7cc0379b71d3b6d657d3197b39e3014ed70d2083731219a7c)]

def env : Env :=
  { Chain.Devnet.env with
    sha256 := fun data => (digests.find? (·.1 = data)).elim 0 (·.2)
    ecdsaVerify := fun pub hash r s => signedProofs.any fun p =>
      pub = adapterKey ∧ p.digest = hash ∧ p.r = r ∧ p.s = s }

def deployment : Deployment where
  env := env
  decodeProof := fun raw =>
    (signedProofs.find? fun p => marshalWire p.proof = raw).elim (.error "unexpected EOF")
      fun p => .ok (p.proof, false)
  trusted := [adapterKey]
  signer := Chain.Devnet.validatorAddress

theorem decodesWire : DecodesWire deployment := by
  intro p q more h
  cases hfind : signedProofs.find? fun p' => marshalWire p'.proof = marshalWire p with
  | none =>
    simp only [deployment, hfind] at h
    cases h
  | some p' =>
    simp only [deployment, hfind] at h
    obtain ⟨rfl, -⟩ := Prod.mk.inj (Except.ok.inj h)
    have hwire : marshalWire p'.proof = marshalWire p := by
      simpa using List.find?_some hfind
    exact marshalWire_injective hwire

def openPayLink : PayLinkState where
  status := "CREATED"
  amount := 10000
  expiry := 1700086400

def deliver (n : Nat) (choices : List Choice) : List (Move Request Choice Drift) :=
  .start (.callback callback) :: choices.map (.run n)

def upToCrossCheck (p : Signed) : List Choice :=
  [.ok, .time p.proof.timestamp, .text p.proof.signature, .ok, .ok, .used (.result false),
    .payLink (.result openPayLink), .time p.proof.timestamp]

def correlate : Move Request Choice Drift :=
  .drift (.correlate callback.checkoutRequestID correlation)

def outageRun : List (Move Request Choice Drift) :=
  correlate ::
    (deliver 0 (upToCrossCheck first ++ [.ok, .ok, .nonce (.result 1), .ok, .ok,
        .sent (.transport "chain rpc unreachable: connection refused") false, .ok, .ok,
        .delivered .whole])
      ++ deliver 1 (upToCrossCheck second ++ [.ok, .ok, .ok, .delivered .whole]))

def retryRun : List (Move Request Choice Drift) :=
  correlate ::
    (deliver 0 [.ok, .time first.proof.timestamp, .text first.proof.signature, .failed "connection refused"]
      ++ deliver 1 (upToCrossCheck second ++ [.ok, .ok, .nonce (.result 1), .ok, .ok,
        .sent (.result "0x01ed4a37") true, .ok, .ok, .ok, .delivered .whole]))

def submit (n : Nat) (p : Signed) (nonce : Nat) : List (Move Proof Choice Drift) :=
  .start p.proof ::
    [.used (.result false), .payLink (.result openPayLink), .time p.proof.timestamp, .ok, .ok,
      .nonce (.result nonce), .ok, .ok, .sent (.result "0x01ed4a37") true, .ok, .ok].map (.run n)

def twoPayLinksRun : List (Move Proof Choice Drift) := submit 0 first 1 ++ submit 1 other 1

def firstSettlement : SettlementTx where
  fromAddr := Chain.Devnet.validatorAddress
  nonce := 1
  payLinkID := hexToHash payLinkID
  proofHash := 0xc4dd24a11eff729b955667b4d6ac7cbe0d89c8b6b1202343193083e17439f582

def otherSettlement : SettlementTx where
  fromAddr := Chain.Devnet.validatorAddress
  nonce := 2
  payLinkID := hexToHash otherPayLinkID
  proofHash := 0xa1793427ef5c06c7cc0379b71d3b6d657d3197b39e3014ed70d2083731219a7c

end LinkMint.Settle.Devnet

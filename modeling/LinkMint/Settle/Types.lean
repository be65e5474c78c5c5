import LinkMint.Lib.Text
import LinkMint.Chain.Env

/-!
# Payment proofs

What an adapter and the proof-validator exchange: the normalized proof, its canonical bytes, its shape and signature
checks, the on-chain identity of a proof (`lvm.ProofHash`), and the error envelope both services answer with.
-/

namespace LinkMint.Settle

open LinkMint.Lib LinkMint.Chain

inductive ErrorCode where
  | invalidPayload
  | invalidProofShape
  | invalidProofSignature
  | payLinkNotFound
  | payLinkNotPayable
  | payLinkExpired
  | proofAmountMismatch
  | proofExists
  | proofNotFound
  | idempotentConflict
  | chainUnavailable
  | serviceNotReady
  | internalError
deriving DecidableEq, Repr

namespace ErrorCode
def text : ErrorCode → String
  | .invalidPayload => "INVALID_PAYLOAD"
  | .invalidProofShape => "INVALID_PROOF_SHAPE"
  | .invalidProofSignature => "INVALID_PROOF_SIGNATURE"
  | .payLinkNotFound => "PAYLINK_NOT_FOUND"
  | .payLinkNotPayable => "PAYLINK_NOT_PAYABLE"
  | .payLinkExpired => "PAYLINK_EXPIRED"
  | .proofAmountMismatch => "PROOF_AMOUNT_MISMATCH"
  | .proofExists => "PROOF_EXISTS"
  | .proofNotFound => "PROOF_NOT_FOUND"
  | .idempotentConflict => "IDEMPOTENT_CONFLICT"
  | .chainUnavailable => "CHAIN_UNAVAILABLE"
  | .serviceNotReady => "SERVICE_NOT_READY"
  | .internalError => "INTERNAL_ERROR"

def statusFor : ErrorCode → Nat
  | .invalidPayload | .invalidProofShape => 400
  | .invalidProofSignature => 401
  | .payLinkNotFound | .proofNotFound => 404
  | .payLinkNotPayable | .payLinkExpired | .proofAmountMismatch | .proofExists
  | .idempotentConflict => 409
  | .chainUnavailable => 502
  | .serviceNotReady => 503
  | .internalError => 500
end ErrorCode

inductive Detail where
  | text (s : String)
  | uint (n : UInt64)
  | int (n : Int64)
  | code (n : Nat)
deriving DecidableEq, Repr

/-- `httpx.AppError`, over a service's codes. -/
structure AppError (κ : Type) where
  code : κ
  message : String
  details : List (String × Detail) := []
deriving DecidableEq, Repr

/-- A Go `error` in the proof-validator: one of its own, or an opaque one from a library. -/
inductive GoError where
  | app (e : AppError ErrorCode)
  | plain (message : String)
deriving DecidableEq, Repr

def GoError.asAppError : GoError → AppError ErrorCode
  | .app e => e
  | .plain _ => { code := .internalError, message := "internal error" }

structure Proof where
  payLinkID : String
  rail : String
  txID : String
  amount : UInt64
  timestamp : Int64
  sender : String
  receiver : String
  signature : String := ""
deriving DecidableEq, Repr

def textField (s : String) : Bytes := jsonString (bytesOf s)

/-- The fields both `CanonicalBytes` and `MarshalWire` write, in order. -/
def Proof.fields (p : Proof) : List (String × Bytes) :=
  [("pl_id", textField p.payLinkID), ("rail", textField p.rail), ("tx_id", textField p.txID),
    ("amount", jsonInt p.amount.toNat), ("timestamp", jsonInt p.timestamp.toInt),
    ("sender", textField p.sender), ("receiver", textField p.receiver)]

def canonicalBytes (p : Proof) : Bytes := jsonObject p.fields

/-- The body of `POST /v1/proofs`. -/
def marshalWire (p : Proof) : Bytes :=
  jsonObject (p.fields ++ [("proof_signature", textField p.signature)])

theorem textField_injective : Function.Injective textField := jsonString_injective.comp bytesOf_injective

theorem delimited_fields (p q : Proof) : List.Forall₂ (fun f g => f.1 = g.1 ∧ Delimited f.2 g.2) p.fields q.fields := by
  have htext : ∀ s t : String, Delimited (textField s) (textField t) := fun s t => delimited_jsonString _ _
  simp only [Proof.fields, List.forall₂_cons, true_and, List.Forall₂.nil, and_true]
  exact ⟨htext _ _, htext _ _, htext _ _, delimited_jsonInt _ _, delimited_jsonInt _ _, htext _ _, htext _ _⟩

theorem fields_inj {p q : Proof} (h : p.fields = q.fields) :
    { p with signature := "" } = { q with signature := "" } := by
  obtain ⟨plID, rail, txID, amount, timestamp, sender, receiver, signature⟩ := p
  obtain ⟨plID', rail', txID', amount', timestamp', sender', receiver', signature'⟩ := q
  simp only [Proof.fields, List.cons.injEq, Prod.mk.injEq, true_and, and_true,
    textField_injective.eq_iff, jsonInt_injective.eq_iff, Int.natCast_inj] at h
  obtain ⟨rfl, rfl, rfl, hamount, htimestamp, rfl, rfl⟩ := h
  obtain rfl := UInt64.toNat_inj.mp hamount
  obtain rfl := Int64.toInt_inj.mp htimestamp
  rfl

theorem canonicalBytes_inj {p q : Proof} (h : canonicalBytes p = canonicalBytes q) :
    { p with signature := "" } = { q with signature := "" } :=
  fields_inj (jsonMembers_inj (delimited_fields p q) (List.cons.inj h).2)

theorem marshalWire_injective : Function.Injective marshalWire := by
  intro p q h
  have hsig : List.Forall₂ (fun f g => f.1 = g.1 ∧ Delimited f.2 g.2)
      [("proof_signature", textField p.signature)] [("proof_signature", textField q.signature)] :=
    .cons ⟨rfl, delimited_jsonString _ _⟩ .nil
  have hfields := jsonMembers_inj (List.rel_append (delimited_fields p q) hsig) (List.cons.inj h).2
  obtain ⟨hrest, hlast⟩ := List.append_inj hfields rfl
  have hsignature : p.signature = q.signature := by
    simpa [textField_injective.eq_iff] using hlast
  have hbody := fields_inj hrest
  obtain ⟨_, _, _, _, _, _, _, _⟩ := p
  obtain ⟨_, _, _, _, _, _, _, _⟩ := q
  simp_all

def isHash (s : String) : Bool :=
  (bytesOf s).length == 66 && (bytesOf s).take 2 == bytesOf "0x" &&
    (hexDecode? ((bytesOf s).drop 2)).any (·.length == 32)

/-- `lvm.HexToHash`: lenient, what does not decode counts as nothing. -/
def hexToHash (s : String) : Hash :=
  let digits := if (bytesOf s).take 2 = bytesOf "0x" then (bytesOf s).drop 2 else bytesOf s
  BitVec.ofNat 256 (beNat (hexDecodeLenient digits))

/-- `lvm.ProofHash`: the identity of a proof on the chain. -/
def proofHash (env : Env) (plID : Hash) (txID : String) (amount : UInt64) : Hash :=
  env.sha256 (jsonObject
    [("paylinkId", bytesOf "\"0x" ++ (hashBytes plID).flatMap hexPair ++ bytesOf "\""),
      ("txId", textField txID), ("amount", jsonInt amount.toNat)])

def Proof.hash (env : Env) (p : Proof) : Hash := proofHash env (hexToHash p.payLinkID) p.txID p.amount

/-- `base64.StdEncoding.DecodeString` of the signature, when it gives 64 bytes. -/
def Proof.signatureBytes? (p : Proof) : Option Bytes :=
  (base64Decode? (bytesOf p.signature)).filter (·.length == 64)

def shapeErr (message : String) (details : List (String × Detail) := []) : Except (AppError ErrorCode) Unit :=
  .error { code := .invalidProofShape, message := message, details := details }

def rails : List String := ["mpesa", "card", "bank", "crypto"]

def validateShape (p : Proof) : Except (AppError ErrorCode) Unit :=
  if isHash p.payLinkID = false then
    shapeErr "pl_id must be a 0x-prefixed 32-byte hex hash" [("pl_id", .text p.payLinkID)]
  else if p.rail ∉ rails then
    shapeErr "rail must be one of mpesa|card|bank|crypto" [("rail", .text p.rail)]
  else if p.txID = "" then shapeErr "tx_id is required"
  else if p.amount = 0 then shapeErr "amount must be greater than zero"
  else if p.timestamp ≤ 0 then shapeErr "timestamp must be a positive unix time"
  else if p.sender = "" then shapeErr "sender is required"
  else if p.receiver = "" then shapeErr "receiver is required"
  else if p.signatureBytes? = none then
    shapeErr "proof_signature must be base64 of a 64-byte r||s signature"
  else .ok ()

/-- `Verifier.Verify`: the signature is some trusted key's over the canonical bytes. -/
def verifyProof (env : Env) (trusted : List PublicKey) (p : Proof) : Except (AppError ErrorCode) Unit :=
  match p.signatureBytes? with
  | none =>
    .error { code := .invalidProofSignature, message := "proof_signature is not a valid 64-byte signature" }
  | some sig =>
    let digest := env.sha256 (canonicalBytes p)
    if trusted.any fun key => verify env digest sig key then .ok ()
    else .error { code := .invalidProofSignature, message := "proof_signature did not verify against any trusted key" }

/-- A proof both gates let through: of the normalized shape, and signed by a trusted key. -/
def CorrectlySigned (env : Env) (trusted : List PublicKey) (p : Proof) : Prop :=
  validateShape p = .ok () ∧ verifyProof env trusted p = .ok ()

instance (env : Env) (trusted : List PublicKey) (p : Proof) : Decidable (CorrectlySigned env trusted p) :=
  inferInstanceAs (Decidable (_ ∧ _))

inductive ProofStatus where
  | received
  | broadcast
  | alreadySettled
  | settled
deriving DecidableEq, Repr

/-- A row of `proof_validator.proofs`, its two timestamps left out. -/
structure ProofRecord where
  proofHash : Hash
  payLinkID : String
  rail : String
  txID : String
  amount : UInt64
  status : ProofStatus
  txHash : String := ""
deriving DecidableEq, Repr

/-- `submitView`, and the `Result` of `SubmitProof` and of `Broadcast`: all three have these fields. -/
structure SubmitView where
  proofHash : Hash
  txHash : String := ""
  status : ProofStatus
deriving DecidableEq, Repr

/-- A response of `POST /v1/proofs`: a result, or the error envelope. -/
inductive Response where
  | view (v : SubmitView)
  | envelope (e : AppError ErrorCode)
deriving DecidableEq, Repr

def writeError (e : GoError) : Response := .envelope e.asAppError

end LinkMint.Settle

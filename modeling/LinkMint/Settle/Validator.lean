import LinkMint.Settle.World

/-!
# The proof-validator

`Service` is `internal/domain`: verify a proof, then build, sign and broadcast a settlement for it.
-/

namespace LinkMint.Settle

open LinkMint.Lib LinkMint.Chain

structure Deployment where
  env : Env
  /-- The first `Decode` of `proof.Parse`, and whether anything follows the object it read. -/
  decodeProof : Bytes → Except String (Proof × Bool)
  trusted : List PublicKey
  crossCheck : Bool := true
  signer : Address

variable (D : Deployment)

/-! ## The chain client -/

/-- `chainErr`: the node's errors and the transport's both become `CHAIN_UNAVAILABLE`. -/
def chainErr {α : Type} : Rpc α → Except GoError α
  | .result a => .ok a
  | .rpcError m | .transport m => .error (.app { code := .chainUnavailable, message := m })

def lowerByte (b : UInt8) : UInt8 := if 65 ≤ b ∧ b ≤ 90 then b + 32 else b

def isNotFound (message : String) : Bool :=
  decide (bytesOf "not found" <:+: (bytesOf message).map lowerByte)

/-- `GetPayLink`: an unknown PayLink is no error. -/
def foundPayLink : Rpc PayLinkState → Except GoError (Option PayLinkState)
  | .result pl => .ok (some pl)
  | .rpcError m => if isNotFound m then .ok none else (chainErr (.rpcError m))
  | .transport m => chainErr (.transport m)

/-! ## `NonceManager` -/

/-- `Reserve`: on success the lock stays held until `commit`. -/
def reserve (a : Address) : Proc (Except GoError Nat) := do
  Call.lockNonce
  match chainErr (← Call.getNonce a) with
  | .error e =>
    Call.commitNonce a none
    return .error e
  | .ok chainNonce =>
    let localNext ← Call.localNonce a
    return .ok (max chainNonce localNext)

/-! ## `internal/domain` -/

namespace Service
def reject (code : ErrorCode) (message : String) (details : List (String × Detail) := []) : Except GoError Unit :=
  .error (.app { code := code, message := message, details := details })

def crossCheckPayLink (p : Proof) : Proc (Except GoError Unit) := do
  match foundPayLink (← Call.getPayLink p.payLinkID) with
  | .error e => return .error e
  | .ok none =>
    return reject .payLinkNotFound "no PayLink with that id" [("paylink_id", .text p.payLinkID)]
  | .ok (some pl) =>
    if pl.status ≠ "CREATED" then
      return reject .payLinkNotPayable s!"PayLink is {pl.status} and cannot be settled"
        [("paylink_id", .text p.payLinkID), ("status", .text pl.status)]
    else if pl.amount ≠ p.amount then
      return reject .proofAmountMismatch "proof amount does not match the PayLink amount"
        [("proof_amount", .uint p.amount), ("paylink_amount", .uint pl.amount)]
    else if pl.expiry = 0 then return .ok ()
    else
      let now ← Call.now
      if pl.expiry < now then
        return reject .payLinkExpired "PayLink has expired"
          [("paylink_id", .text p.payLinkID), ("expiry", .int pl.expiry)]
      else return .ok ()

/-- Reserves a nonce, signs the `TxSubmitValidation` and broadcasts it. -/
def broadcastSettlement (plID h : Hash) : Proc (Except GoError String) := do
  match ← reserve D.signer with
  | .error e => return .error e
  | .ok nonce =>
    let tx : SettlementTx := { fromAddr := D.signer, nonce := nonce, payLinkID := plID, proofHash := h }
    match ← Call.signTx tx with
    | .error m =>
      Call.commitNonce D.signer none
      return .error (.app { code := .internalError, message := s!"sign settlement tx: {m}" })
    | .ok () =>
      let sent := chainErr (← Call.sendTransaction tx)
      -- the counter moves only when the send succeeded
      Call.commitNonce D.signer (if sent.isOk then some (nonce + 1) else none)
      return sent

def proofRecord (p : Proof) (h : Hash) (status : ProofStatus) : ProofRecord where
  proofHash := h
  payLinkID := p.payLinkID
  rail := p.rail
  txID := p.txID
  amount := p.amount
  status := status

def recordAlreadySettled (p : Proof) (h : Hash) : Proc Unit := do
  let _ ← Call.insertProof (proofRecord p h .alreadySettled)
  return ()

def resultForExisting (h : Hash) : Proc (Except GoError SubmitView) := do
  match ← Call.getByProofHash h with
  | .error m => return .error (unreadable m)
  | .ok none => return .error (unreadable "proof not found")
  | .ok (some rec) => return .ok { proofHash := h, txHash := rec.txHash, status := rec.status }
where
  unreadable (m : String) : GoError :=
    .app { code := .internalError, message := s!"proof already recorded but could not be read: {m}",
           details := [("proof_hash", .text (hex h))] }

/-- From the insert on: a recorded proof is broadcast once, by the submission that recorded it. -/
def persistAndBroadcast (p : Proof) (h : Hash) : Proc (Except GoError SubmitView) := do
  match ← Call.insertProof (proofRecord p h .received) with
  | .proofExists => resultForExisting h
  | .failed m => return .error (.plain m)
  | .ok =>
    match ← broadcastSettlement D (hexToHash p.payLinkID) h with
    -- nothing was broadcast; the record stays received
    | .error e => return .error e
    | .ok txHash =>
      -- the transaction is in the mempool: a failed bookkeeping write is only logged
      let _ ← Call.markBroadcast h txHash .broadcast
      return .ok { proofHash := h, txHash := txHash, status := .broadcast }

/-- `SubmitProof`: shape, signature, the chain's own record, cross-check, persist, broadcast. -/
def submitProof (p : Proof) : Proc (Except GoError SubmitView) := do
  match validateShape p with
  | .error e => return .error (.app e)
  | .ok () =>
    match verifyProof D.env D.trusted p with
    | .error e => return .error (.app e)
    | .ok () =>
      let h := p.hash D.env
      match chainErr (← Call.isProofUsed h) with
      | .error e => return .error e
      | .ok true =>
        recordAlreadySettled p h
        return .ok { proofHash := h, status := .alreadySettled }
      | .ok false =>
        match ← (if D.crossCheck then crossCheckPayLink p else pure (.ok ())) with
        | .error e => return .error e
        | .ok () => persistAndBroadcast D p h
end Service

/-! ## The idempotency store -/

namespace Idem
inductive Error where
  /-- A `ConflictError`, with its reason and message. -/
  | conflict (reason message : String)
  | backend (message : String)

def key (route key : String) : String := "idem:" ++ "proof-validator" ++ ":" ++ route ++ ":" ++ key

def inFlight : Error :=
  .conflict "in_flight" "a request with this Idempotency-Key is still in progress"

def bodyMismatch : Error :=
  .conflict "body_mismatch" "Idempotency-Key was already used with a different request body"

/-- The attempts of `Begin` from the given one on: `left` of them. -/
def attempts (rkey : String) (fp : Hash) : (left attempt : Nat) → Proc (Except Error (Option Response))
  | 0, _ => return .error inFlight
  | left + 1, attempt => do
    match ← Call.setNX rkey fp with
    | .error m => return .error (.backend m)
    | .ok true => return .ok none
    | .ok false =>
      match ← Call.slotGet rkey attempt with
      | .error m => return .error (.backend m)
      -- the reservation vanished between the two calls
      | .ok none => attempts rkey fp left (attempt + 1)
      | .ok (some rec) =>
        if rec.fp ≠ fp then return .error bodyMismatch
        else match rec.completed with
          | some resp => return .ok (some resp)
          | none => return .error inFlight

/-- `Begin`: a response to replay, or `none` when the caller now owns the key. -/
def begin (route key : String) (fp : Hash) : Proc (Except Error (Option Response)) :=
  attempts (Idem.key route key) fp 2 0

/-- `Complete`. -/
def complete (route key : String) (fp : Hash) (resp : Response) : Proc Unit := do
  let _ ← Call.slotSet (Idem.key route key) { fp := fp, completed := some resp }
  return ()

def release (route key : String) : Proc Unit := do
  let _ ← Call.slotDel (Idem.key route key)
  return ()
end Idem

/-! ## The handler -/

namespace Server
def maxBodyBytes : Nat := 2 ^ 20

def submitRoute : String := "submit_proof"

def invalidPayload (message : String) : GoError :=
  .app { code := .invalidPayload, message := message }

def parse (raw : Bytes) : Except GoError Proof :=
  match D.decodeProof raw with
  | .error m => .error (invalidPayload s!"request body is not valid JSON: {m}")
  | .ok (_, true) => .error (invalidPayload "request body must contain a single JSON object")
  | .ok (p, false) => .ok p

def idemError : Idem.Error → GoError
  | .conflict _ m => .app { code := .idempotentConflict, message := m }
  | .backend m => .app { code := .internalError, message := s!"idempotency: backend error: {m}" }

/-- `SubmitProof` under a reservation the request owns. -/
def process (idemKey : String) (fp : Hash) (p : Proof) : Proc Response := do
  match ← Service.submitProof D p with
  | .error e =>
    Idem.release submitRoute idemKey
    return writeError e
  | .ok v =>
    Idem.complete submitRoute idemKey fp (.view v)
    return .view v

def submitProof (idemKey : String) (raw : Bytes) : Proc Response :=
  if idemKey = "" then return writeError (invalidPayload "Idempotency-Key header is required")
  else if maxBodyBytes < raw.length then return writeError (invalidPayload "could not read request body")
  else match parse D raw with
    | .error e => return writeError e
    | .ok p => do
      let fp := D.env.sha256 raw
      match ← Idem.begin submitRoute idemKey fp with
      | .error e => return writeError (idemError e)
      | .ok (some cached) => return cached
      | .ok none => process D idemKey fp p
end Server
end LinkMint.Settle

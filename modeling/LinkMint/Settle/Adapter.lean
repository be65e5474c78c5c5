import LinkMint.Settle.Validator

/-!
# The M-Pesa adapter

`HandleCallback` turns a rail callback into a signed proof and posts it to the proof-validator.
-/

namespace LinkMint.Settle

open LinkMint.Lib LinkMint.Chain

namespace Adapter
inductive ErrorCode where
  | invalidPayload
  | unauthorized
  | chargeNotFound
  | idempotentConflict
  | proofRejected
  | darajaUnavailable
  | validatorUnavailable
  | serviceNotReady
  | internalError
deriving DecidableEq, Repr

/-- The rail-neutral callback, as far as `HandleCallback` reads it. -/
structure CallbackResult where
  checkoutRequestID : String
  resultCode : Int
  amount : UInt64
  mpesaReceiptNumber : String
  phoneNumber : String
deriving DecidableEq, Repr

def CallbackResult.succeeded (cb : CallbackResult) : Bool := cb.resultCode == 0

def CallbackResult.txID (cb : CallbackResult) : String :=
  if cb.mpesaReceiptNumber = "" then cb.checkoutRequestID else cb.mpesaReceiptNumber

def proofOf (cb : CallbackResult) (rec : Correlation) (now : Int64) : Proof where
  payLinkID := rec.payLinkID
  rail := "mpesa"
  txID := cb.txID
  amount := rec.amount
  timestamp := now
  sender := if cb.phoneNumber = "" then rec.payerPhone else cb.phoneNumber
  receiver := rec.receiver

/-- `proof.Validate`. -/
def validate (p : Proof) : Except String Unit :=
  if isHash p.payLinkID = false then
    .error s!"pl_id must be a 0x-prefixed 32-byte hex hash, got {String.quote p.payLinkID}"
  else if p.rail ≠ "mpesa" then .error s!"rail must be \"mpesa\", got {String.quote p.rail}"
  else if p.txID = "" then .error "tx_id is required"
  else if p.amount = 0 then .error "amount must be greater than zero"
  else if p.timestamp ≤ 0 then .error "timestamp must be a positive unix time"
  else if p.sender = "" then .error "sender is required"
  else if p.receiver = "" then .error "receiver is required"
  else .ok ()

def unavailable (message : String) (details : List (String × Detail) := []) : AppError ErrorCode :=
  { code := .validatorUnavailable, message := message, details := details }

/-- `validatorMsg`, of an envelope that arrived. -/
def validatorMsg (e : AppError Settle.ErrorCode) : String := s!"{e.code.text} — {e.message}"

def rejected (message code : String) (status : Nat) : AppError ErrorCode where
  code := .proofRejected
  message := s!"proof-validator rejected the proof: {message}"
  details := [("validator_code", .text code), ("validator_status", .code status)]

/-- What `Broadcast` makes of a response: 200 and 202 are success, any 4xx is a rejected proof, the
    rest is an unavailable validator. -/
def readResponse (resp : Response) (d : Delivered) : Except (AppError ErrorCode) SubmitView :=
  match d, resp with
  | .unreachable m, _ => .error (unavailable s!"proof-validator unreachable: {m}")
  | .whole, .view v => .ok v
  | .cut m, .view _ => .error (unavailable s!"decode validator response: {m}")
  | d, .envelope e =>
    if 400 ≤ e.code.statusFor ∧ e.code.statusFor < 500 then
      match d with
      | .whole => .error (rejected (validatorMsg e) e.code.text e.code.statusFor)
      | _ => .error (rejected "unknown error" "" e.code.statusFor)
    else
      .error (unavailable s!"proof-validator returned http {e.code.statusFor}"
        [("validator_status", .code e.code.statusFor)])

def broadcast (D : Deployment) (p : Proof) (idemKey : String) : Proc (Except (AppError ErrorCode) SubmitView) := do
  match ← Call.request with
  | .error m => return .error (unavailable s!"proof-validator unreachable: {m}")
  | .ok () =>
    let resp ← Server.submitProof D idemKey (marshalWire p)
    let d ← Call.respond resp
    return readResponse resp d

/-- `CallbackOutcome.Status`: the validator's own status, or why there is none. -/
inductive OutcomeStatus where
  | validator (status : ProofStatus)
  | rejected
  | ignoredNoCorrelation
  | ignoredFailedPayment
  | ignoredAmountMismatch
deriving DecidableEq, Repr

structure CallbackOutcome where
  status : OutcomeStatus
  proofHash : Option Hash := none
  txHash : String := ""
deriving DecidableEq, Repr

def internalError (message : String) : AppError ErrorCode :=
  { code := .internalError, message := message }

/-- The end of `HandleCallback`: a rejected proof is terminal and acknowledged. -/
def outcome : Except (AppError ErrorCode) SubmitView → Except (AppError ErrorCode) CallbackOutcome
  | .error e => if e.code = .proofRejected then .ok { status := .rejected } else .error e
  | .ok v => .ok { status := .validator v.status, proofHash := some v.proofHash, txHash := v.txHash }

def signAndBroadcast (D : Deployment) (p : Proof) : Proc (Except (AppError ErrorCode) CallbackOutcome) := do
  match ← Call.sign p with
  | .error m => return .error (internalError s!"sign proof: {m}")
  | .ok sig =>
    let res ← broadcast D { p with signature := sig } ("mpesa:" ++ p.txID)
    return outcome res

def handleCallback (D : Deployment) (cb : CallbackResult) : Proc (Except (AppError ErrorCode) CallbackOutcome) := do
  match ← Call.correlationGet cb.checkoutRequestID with
  | .error m => return .error (internalError s!"load correlation: {m}")
  | .ok none => return .ok { status := .ignoredNoCorrelation }
  | .ok (some rec) =>
    if cb.succeeded = false then return .ok { status := .ignoredFailedPayment }
    -- a callback that reports no amount passes
    else if cb.amount ≠ 0 ∧ cb.amount ≠ rec.amount then
      return .ok { status := .ignoredAmountMismatch }
    else
      let now ← Call.now
      let p := proofOf cb rec now
      match validate p with
      | .error m => return .error (internalError s!"normalized proof invalid: {m}")
      | .ok () => signAndBroadcast D p
end Adapter

def DecodesWire (D : Deployment) : Prop :=
  ∀ p q more, D.decodeProof (marshalWire p) = .ok (q, more) → q = p

/-- `SubmitProof` calls, any number at once. -/
def submissions (D : Deployment) : System Op Op.Answer Proof World Choice Drift (Except GoError SubmitView) where
  main := Service.submitProof D
  serve := serve
  drift := drift

/-- What reaches the two services: callbacks from the rail, and any other request to the validator. -/
inductive Request where
  | callback (cb : Adapter.CallbackResult)
  | submit (idemKey : String) (raw : Bytes)
deriving DecidableEq

inductive Returned where
  | callback (r : Except (AppError Adapter.ErrorCode) Adapter.CallbackOutcome)
  | submit (resp : Response)
deriving DecidableEq

def deliveries (D : Deployment) : System Op Op.Answer Request World Choice Drift Returned where
  main
    | .callback cb => do return .callback (← Adapter.handleCallback D cb)
    | .submit idemKey raw => do return .submit (← Server.submitProof D idemKey raw)
  serve := serve
  drift := drift

end LinkMint.Settle

import LinkMint.Settle.Adapter

/-!
# Charges

`InitiateCharge` of the M-Pesa adapter asks the rail for an STK push and stores, under the rail's
`CheckoutRequestID`, what the callback will be read against.
-/

namespace LinkMint.Settle

open LinkMint.Lib LinkMint.Chain

namespace Adapter
structure ChargeInput where
  payLinkID : String
  amount : UInt64
  payerPhone : String
  receiverShortCode : String := ""
deriving DecidableEq, Repr

structure STKPushParams where
  shortCode : String
  payerPhone : String
  amount : UInt64
  accountRef : String
  payLinkID : String
deriving DecidableEq, Repr

structure STKPushResult where
  merchantRequestID : String
  checkoutRequestID : String
deriving DecidableEq, Repr

structure ChargeResult where
  checkoutRequestID : String
  merchantRequestID : String
  status : String := "pending"
deriving DecidableEq, Repr

def accountRef (plID : String) : String :=
  let digits := if plID.toList.take 2 = ['0', 'x'] then plID.toList.drop 2 else plID.toList
  String.ofList (digits.take 12)

def invalidPayload (message : String) (details : List (String × Detail) := []) : AppError ErrorCode :=
  { code := .invalidPayload, message := message, details := details }

/-- The checks of `InitiateCharge`, and the push it asks for. -/
def chargeParams (defaultShortCode : String) (input : ChargeInput) : Except (AppError ErrorCode) STKPushParams :=
  let receiver := if input.receiverShortCode = "" then defaultShortCode else input.receiverShortCode
  if isHash input.payLinkID = false then
    .error (invalidPayload "pl_id must be a 0x-prefixed 32-byte hex hash" [("pl_id", .text input.payLinkID)])
  else if input.amount = 0 then .error (invalidPayload "amount must be greater than zero")
  else if input.payerPhone = "" then .error (invalidPayload "payer_phone is required")
  else if receiver = "" then
    .error (invalidPayload "receiver_shortcode is required (no default configured)")
  else
    .ok { shortCode := receiver, payerPhone := input.payerPhone, amount := input.amount,
          accountRef := accountRef input.payLinkID, payLinkID := input.payLinkID }

def STKPushParams.record (params : STKPushParams) : Correlation where
  payLinkID := params.payLinkID
  amount := params.amount
  receiver := params.shortCode
  payerPhone := params.payerPhone

/-- A call of `InitiateCharge`, with the rail's reply and the outcome of the write. -/
structure Charge where
  input : ChargeInput
  reply : Except (AppError ErrorCode) STKPushResult
  stored : Choice

def initiateCharge (defaultShortCode : String) (s : World) (c : Charge) :
    Except (AppError ErrorCode) ChargeResult × World :=
  match chargeParams defaultShortCode c.input with
  | .error e => (.error e, s)
  | .ok params =>
    match c.reply with
    | .error e => (.error e, s)
    | .ok res =>
      let put := { s with correlations := Function.update s.correlations res.checkoutRequestID (some params.record) }
      match write s put c.stored with
      | some (.ok (), s') => (.ok ⟨res.checkoutRequestID, res.merchantRequestID, "pending"⟩, s')
      | some (.error m, s') => (.error (internalError s!"store correlation: {m}"), s')
      | none => (.error (internalError "store correlation: "), s)
end Adapter

inductive Happening where
  | charge (c : Adapter.Charge)
  | expireCorrelation (id : String)
  | expireSlot (key : String)
  | restart

def happen (defaultShortCode : String) (s : World) : Happening → World
  | .charge c => (Adapter.initiateCharge defaultShortCode s c).2
  | .expireCorrelation id => drift s (.expireCorrelation id)
  | .expireSlot key => drift s (.expireSlot key)
  | .restart => drift s .restart

def charging (D : Deployment) (defaultShortCode : String) :
    System Op Op.Answer Request World Choice Happening Returned where
  main := (deliveries D).main
  serve := serve
  drift := happen defaultShortCode

end LinkMint.Settle

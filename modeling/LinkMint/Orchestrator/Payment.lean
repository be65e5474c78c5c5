import LinkMint.Lib.Json

/-!
# Payments

`internal/lifecycle/lifecycle.go` and `internal/domain/payment.go` of payment-orchestrator: the states of a payment as a
projection of the statuses of its PayLink on the chain, the record, and the payload of its events.
-/

namespace LinkMint.Orchestrator

open LinkMint.Lib

abbrev Time := Int

inductive State where
  | awaitingPayment | settled | cancelled | failed
  deriving DecidableEq

def State.value : State → String
  | .awaitingPayment => "AWAITING_PAYMENT"
  | .settled => "SETTLED"
  | .cancelled => "CANCELLED"
  | .failed => "FAILED"

def transitions : State → State → Bool
  | .awaitingPayment, .settled | .awaitingPayment, .cancelled | .awaitingPayment, .failed => true
  | _, _ => false

def isTerminal : State → Bool
  | .settled | .cancelled | .failed => true
  | .awaitingPayment => false

def fromChainStatus : String → Option State
  | "CREATED" => some .awaitingPayment
  | "VERIFIED" => some .settled
  | "CANCELLED" => some .cancelled
  | "FAILED" => some .failed
  | _ => none

/-- The next state, and whether it is another one; an error is `ErrIllegalTransition`. -/
def project (current : State) (chainStatus : String) : Except Unit (State × Bool) :=
  match fromChainStatus chainStatus with
  | none => .error ()
  | some target =>
    if target = current then .ok (current, false)
    else if transitions current target then .ok (target, true)
    else .error ()

structure Payment where
  id : String
  payLinkID : String
  rail : String
  status : State
  lastEventSeq : Nat := 0
  createdAt : Time
  updatedAt : Time
  deriving DecidableEq

def eventPaymentInitiated : String := "payment.initiated"

def domainEventForState : State → Option String
  | .settled => some "payment.settled"
  | .cancelled => some "payment.cancelled"
  | .failed => some "payment.failed"
  | .awaitingPayment => none

def Payment.payload (format : Time → String) (p : Payment) : List (String × Json) :=
  [("payment_id", .str p.id), ("paylink_id", .str p.payLinkID), ("rail", .str p.rail), ("status", .str p.status.value),
    ("created_at", .str (format p.createdAt)), ("updated_at", .str (format p.updatedAt))]

end LinkMint.Orchestrator

import Mathlib.Algebra.BigOperators.Group.List.Basic
import Mathlib.Algebra.Order.Field.Rat
import LinkMint.Compliance.Kyc
import LinkMint.Lib.Json

/-!
# The activity ledger

`app/events/consumer.py` and `app/busconsumer/run.py` of compliance-risk: what becomes of an event from the bus, and
the counts and sums that `RiskService.evaluate` reads.
-/

namespace LinkMint.Compliance.Intake

open LinkMint.Lib

structure Python where
  str : Json → String
  uuid : String → Option UUID
  decimal : String → Option Rat

def truthy : Json → Bool
  | .null => false
  | .bool b => b
  | .int n => n ≠ 0
  | .str s => s ≠ ""
  | .arr items => !items.isEmpty
  | .obj members => !members.isEmpty

abbrev Payload := List (String × Json)

def Payload.get (payload : Payload) (key : String) : Option Json := (payload.find? fun m => m.1 = key).map (·.2)

structure Activity where
  user : UUID
  action : String
  amount : Option Rat
  currency : Option String

def paymentInitiated : String := "payment.initiated"

def parseAmount (py : Python) : Option Json → Option Rat
  | none | some .null => none
  | some raw => py.decimal (py.str raw)

def parseCurrency (py : Python) : Option Json → Option String
  | none => none
  | some raw => if truthy raw then some (py.str raw) else none

/-- `_handle_payment_initiated`: the activity to record, if the event is not dropped. -/
def handlePaymentInitiated (py : Python) (payload : Payload) : Option Activity :=
  match payload.get "user_id" with
  | none => none
  | some raw =>
    if truthy raw then
      match py.uuid (py.str raw) with
      | none => none
      | some user =>
        some { user, action := paymentInitiated, amount := parseAmount py (payload.get "amount"),
               currency := parseCurrency py (payload.get "currency") }
    else none

def handle (py : Python) (name : String) (payload : Payload) : Option Activity :=
  if name = paymentInitiated then handlePaymentInitiated py payload else none

structure Delivery where
  name : String
  payload : Payload
  committedAt : Option Time

structure ActivityEventRow extends Activity where
  occurredAt : Time

def ledger (py : Python) (deliveries : List Delivery) : List ActivityEventRow :=
  deliveries.filterMap fun d =>
    match handle py d.name d.payload, d.committedAt with
    | some activity, some occurredAt => some { activity with occurredAt }
    | _, _ => none

def countActivitySince (rows : List ActivityEventRow) (user : UUID) (since : Time) : Nat :=
  (rows.filter fun r => r.user = user ∧ since ≤ r.occurredAt).length

def sumAmountSince (rows : List ActivityEventRow) (user : UUID) (since : Time) : Rat :=
  ((rows.filter fun r => r.user = user ∧ since ≤ r.occurredAt).filterMap (·.amount)).sum

end LinkMint.Compliance.Intake

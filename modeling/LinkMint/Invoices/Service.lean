import Mathlib.Data.List.Sort
import LinkMint.Lib.ReadCommitted

/-!
# Invoices

`app/domain/services.py`, `app/events/consumer.py` and `app/busconsumer/run.py` of invoice-subscription, with
`RedisDedupe` of idempotency-python.
-/

namespace LinkMint.Invoices

open LinkMint.Lib

abbrev UUID := Nat

abbrev Time := Int

inductive Status where
  | draft | opened | paid | overdue | voided
  deriving DecidableEq

def Status.value : Status → String
  | .draft => "DRAFT"
  | .opened => "OPEN"
  | .paid => "PAID"
  | .overdue => "OVERDUE"
  | .voided => "VOID"

def Status.Payable (s : Status) : Prop := s = .opened ∨ s = .overdue

instance (s : Status) : Decidable s.Payable := inferInstanceAs (Decidable (s = .opened ∨ s = .overdue))

structure InvoiceRow where
  merchantId : UUID
  plId : Option String := none
  status : Status := .draft
  dueAt : Time
  paidAt : Option Time := none
  deriving DecidableEq

namespace InvoiceRow
def finalized (plId : String) (row : InvoiceRow) : InvoiceRow := { row with plId := some plId, status := .opened }

def voided (row : InvoiceRow) : InvoiceRow := { row with status := .voided }

def paid (now : Time) (row : InvoiceRow) : InvoiceRow := { row with status := .paid, paidAt := some now }

def overdue (row : InvoiceRow) : InvoiceRow := { row with status := .overdue }
end InvoiceRow

inductive Event where
  | created (invoice : UUID)
  | finalized (invoice : UUID) (plId : String)
  | voided (invoice : UUID)
  | paid (invoice : UUID) (plId : String)
  | overdue (invoice : UUID)
  deriving DecidableEq

abbrev Tables := Db UUID InvoiceRow Event

namespace Tables
def getInvoice (d : Tables) (invoice : UUID) : Option InvoiceRow := Db.find? d invoice

def getByPlid (d : Tables) (plId : String) : List (UUID × InvoiceRow) := d.rows.filter fun x => x.2.plId = some plId

/-- At most `limit` invoices, the longest overdue first. -/
def findOverdue (d : Tables) (now : Time) (limit : Nat) : List (UUID × InvoiceRow) :=
  ((d.rows.filter fun x => x.2.status = .opened ∧ x.2.dueAt < now).insertionSort fun x y => x.2.dueAt ≤ y.2.dueAt).take limit
end Tables

inductive Query where
  | getInvoice (invoice : UUID)
  | getByPlid (plId : String)
  | findOverdue (now : Time)

def Query.Answer : Query → Type
  | .getInvoice _ => Option InvoiceRow
  | .getByPlid _ | .findOverdue _ => List (UUID × InvoiceRow)

inductive Ask where
  | uuid4
  | now
  | createPaylink (idempotencyKey : String)
  | setNX (key : String)
  | delete (key : String)
  | drop (key : String)

def Ask.Answer : Ask → Type
  | .uuid4 => UUID
  | .now => Time
  | .createPaylink _ => Except String String
  | .setNX _ => Except String Bool
  | .delete _ => Except String Unit
  | .drop _ => Unit

inductive Reply where
  | uuid (u : UUID)
  | time (t : Time)
  | paylink (r : Except String String)
  | redis
  | failed (message : String)
  | lost (message : String)

abbrev Markers := List String

def askWorld (markers : Markers) : (x : Ask) → Reply → Option (x.Answer × Markers)
  | .uuid4, .uuid u => some (u, markers)
  | .now, .time t => some (t, markers)
  | .createPaylink _, .paylink r => some (r, markers)
  | .setNX key, .redis => some (.ok (key ∉ markers), if key ∈ markers then markers else key :: markers)
  | .setNX _, .failed m => some (.error m, markers)
  | .setNX key, .lost m => some (.error m, if key ∈ markers then markers else key :: markers)
  | .delete key, .redis => some (.ok (), markers.filter fun k => k ≠ key)
  | .delete _, .failed m => some (.error m, markers)
  | .delete key, .lost m => some (.error m, markers.filter fun k => k ≠ key)
  | .drop key, .redis => some ((), markers.filter fun k => k ≠ key)
  | _, _ => none

def backend : Backend Query.Answer Ask.Answer UUID InvoiceRow Event Markers Reply where
  read
    | .getInvoice invoice, d => Tables.getInvoice d invoice
    | .getByPlid plId, d => Tables.getByPlid d plId
    | .findOverdue now, d => Tables.findOverdue d now 100
  ask _ := askWorld

inductive ErrorCode where
  | invoiceNotFound | invalidState | alreadyPaid | paylinkUnavailable
  deriving DecidableEq

structure AppError where
  code : ErrorCode
  message : String
  details : List (String × String) := []
  deriving DecidableEq

abbrev Act (α : Type) := TxAct Query.Answer Ask.Answer UUID InvoiceRow Event AppError α

namespace Act
def getInvoice (invoice : UUID) : Act (Option InvoiceRow) := TxAct.query (Query.getInvoice invoice)

def getByPlid (plId : String) : Act (List (UUID × InvoiceRow)) := TxAct.query (Query.getByPlid plId)

def findOverdue (now : Time) : Act (List (UUID × InvoiceRow)) := TxAct.query (Query.findOverdue now)

def uuid4 : Act UUID := TxAct.ask Ask.uuid4

def now : Act Time := TxAct.ask Ask.now

def createPaylink (idempotencyKey : String) : Act (Except String String) := TxAct.ask (Ask.createPaylink idempotencyKey)

def raised {α : Type} (x : Act (Except String α)) : Act α := do
  match ← x with
  | .ok a => return a
  | .error m => throw (.statement m)

def setNX (key : String) : Act Bool := raised (TxAct.ask (Ask.setNX key))

def delete (key : String) : Act Unit := raised (TxAct.ask (Ask.delete key))

def drop (key : String) : Act Unit := TxAct.ask (Ask.drop key)
end Act

def loadOwned (merchantId invoice : UUID) : Act InvoiceRow := do
  match ← Act.getInvoice invoice with
  | none => TxAct.raise ⟨.invoiceNotFound, "invoice not found", [("invoice_id", toString invoice)]⟩
  | some row =>
    TxAct.require (row.merchantId = merchantId) ⟨.invoiceNotFound, "invoice not found", [("invoice_id", toString invoice)]⟩
    return row

def create (merchantId : UUID) (dueAt : Time) : Act InvoiceRow := do
  let invoice ← Act.uuid4
  let row : InvoiceRow := { merchantId, dueAt }
  TxAct.flush [.insert invoice row]
  TxAct.flush [.emit (.created invoice)]
  TxAct.commit
  return row

def finalize (merchantId invoice : UUID) : Act InvoiceRow := do
  let row ← loadOwned merchantId invoice
  TxAct.require (row.status = .draft)
    ⟨.invalidState, "invoice is " ++ row.status.value ++ "; only a DRAFT invoice can be finalized",
      [("status", row.status.value)]⟩
  match ← Act.createPaylink ("invoice-" ++ toString invoice) with
  | .error reason => TxAct.raise ⟨.paylinkUnavailable, "could not create the backing PayLink", [("reason", reason)]⟩
  | .ok plId =>
    TxAct.require (plId ≠ "") ⟨.paylinkUnavailable, "paylink-service returned no pl_id", []⟩
    TxAct.flush [.update invoice (InvoiceRow.finalized plId), .emit (.finalized invoice plId)]
    TxAct.commit
    return row.finalized plId

def void (merchantId invoice : UUID) : Act InvoiceRow := do
  let row ← loadOwned merchantId invoice
  TxAct.require (row.status ≠ .paid)
    ⟨.alreadyPaid, "invoice already paid; cannot void", [("status", row.status.value)]⟩
  TxAct.require (row.status ≠ .voided) ⟨.invalidState, "invoice already void", [("status", row.status.value)]⟩
  TxAct.flush [.update invoice InvoiceRow.voided, .emit (.voided invoice)]
  TxAct.commit
  return row.voided

def markPaidByPlid (plId : String) : Act Bool := do
  match ← Act.getByPlid plId with
  | [] => return false
  | [(invoice, row)] =>
    if row.status.Payable then
      let now ← Act.now
      TxAct.flush [.update invoice (InvoiceRow.paid now), .emit (.paid invoice plId)]
      TxAct.commit
      return true
    else return false
  | _ => throw (.statement "Multiple rows were found when one or none was required")

def overdueWrites (invoice : UUID) : List (Write UUID InvoiceRow Event) :=
  [.update invoice InvoiceRow.overdue, .emit (.overdue invoice)]

def flushOverdue : List (UUID × InvoiceRow) → Act Unit
  | [] => return ()
  | (invoice, _) :: rows => do
    TxAct.flush (overdueWrites invoice)
    flushOverdue rows

def sweepOverdue : Act Nat := do
  let now ← Act.now
  let rows ← Act.findOverdue now
  flushOverdue rows
  match rows with
  | [] => return 0
  | _ =>
    TxAct.commit
    return rows.length

structure Payload where
  entityId : Option String
  plId : Option String
  other : String
  deriving DecidableEq

/-- `a or b`, where an empty text counts as none. -/
def orElse (a b : Option String) : Option String :=
  match a with
  | some s => if s = "" then b else some s
  | none => b

def Payload.payLink? (p : Payload) : Option String := orElse (orElse p.entityId p.plId) none

def chainPaylinkVerified : String := "chain.paylink.verified"

def consume (name : String) (payload : Payload) : Act Unit :=
  if name = chainPaylinkVerified then
    match payload.payLink? with
    | none => pure ()
    | some plId => do
      let _ ← markPaidByPlid plId
      return ()
  else pure ()

structure Settings where
  serviceName : String
  fingerprint : Payload → String

section
variable (cfg : Settings)

def dedupeKey (scope key : String) : String := "idemc:" ++ cfg.serviceName ++ ":" ++ scope ++ ":" ++ key

/-- `RedisDedupe.run_once`; `none` if the event has been seen. -/
def runOnce {α : Type} (scope key : String) (action : Act α) : Act (Option α) := do
  let reserved ← Act.setNX (dedupeKey cfg scope key)
  if reserved then
    let result ← TxAct.onError action (Act.delete (dedupeKey cfg scope key))
    return some result
  else return none

def deliver (name : String) (payload : Payload) : Act Unit := do
  let _ ← runOnce cfg name (cfg.fingerprint payload) (consume name payload)
  return ()

inductive Request where
  | create (merchantId : UUID) (dueAt : Time)
  | finalize (merchantId invoice : UUID)
  | void (merchantId invoice : UUID)
  | deliver (name : String) (payload : Payload)
  | sweepOverdue
  | dropMarker (key : String)
  deriving DecidableEq

inductive Response where
  | invoice (row : InvoiceRow)
  | acknowledged
  | swept (count : Nat)
  | dropped
  deriving DecidableEq

def handle : Request → Act Response
  | .create merchantId dueAt => do return .invoice (← create merchantId dueAt)
  | .finalize merchantId invoice => do return .invoice (← finalize merchantId invoice)
  | .void merchantId invoice => do return .invoice (← void merchantId invoice)
  | .deliver name payload => do
    deliver cfg name payload
    return .acknowledged
  | .sweepOverdue => do return .swept (← sweepOverdue)
  | .dropMarker key => do
    Act.drop key
    return .dropped

abbrev World := TxWorld UUID InvoiceRow Event Markers

def system : System (TxOp Query Ask UUID InvoiceRow Event) (TxOp.Answer Query.Answer Ask.Answer) Request World
    (TxChoice Reply) Nat (Except (Failure AppError) Response) :=
  txSystem backend (handle cfg)
end
end LinkMint.Invoices

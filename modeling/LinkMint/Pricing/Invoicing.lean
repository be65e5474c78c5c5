import Mathlib.Data.List.Sort
import Mathlib.Logic.Function.Basic
import LinkMint.Lib.Decimal
import LinkMint.Lib.Process

/-!
# Platform-fee invoicing

`fee-pricing-service`: `record_accrual` and `generate_for_period` over their two tables, each call in one session at
READ COMMITTED.
-/

namespace LinkMint.Pricing

open LinkMint.Lib

abbrev UUID := BitVec 128

structure Accrual where
  id : Nat
  merchant : UUID
  /-- `YYYY-MM`, of the time the fee arose. -/
  period : String
  amount : Int
  currency : String
  sourceRef : String
  invoice : Option UUID := none
deriving DecidableEq, Repr

structure Invoice where
  id : UUID
  merchant : UUID
  period : String
  currency : String
  totalFee : Int
  lineCount : Nat
deriving DecidableEq, Repr

structure Stored (α : Type) where
  row : α
  owner : Option Nat := none
deriving DecidableEq

def committed {α : Type} (rows : List (Stored α)) : List α :=
  rows.filterMap fun x => if x.owner = none then some x.row else none

structure Scope where
  period : String
  merchant : Option UUID := none
deriving DecidableEq, Repr

def Scope.covers (sc : Scope) (a : Accrual) : Bool :=
  a.period = sc.period && sc.merchant.all fun m => a.merchant = m

/-- `unbilled_accruals`: by merchant and id. -/
def unbilledAccruals (accruals : List Accrual) (sc : Scope) : List Accrual :=
  (accruals.filter fun a => sc.covers a && a.invoice.isNone).insertionSort fun a b =>
    a.merchant < b.merchant ∨ (a.merchant = b.merchant ∧ a.id ≤ b.id)

/-- A session's read of the unbilled accruals, with the rows that were committed then. -/
structure Scan where
  scope : Scope
  table : List Accrual
deriving DecidableEq

def Scan.rows (s : Scan) : List Accrual := unbilledAccruals s.table s.scope

structure Session where
  stamps : List (Nat × UUID) := []
  scan : Option Scan := none
deriving DecidableEq

/-- The tables and the open sessions, one a request; and, read by nobody, the committed runs. -/
structure World where
  accruals : List (Stored Accrual) := []
  invoices : List (Stored Invoice) := []
  nextID : Nat := 1
  sessions : Nat → Session := fun _ => {}
  runs : List (Nat × Scan) := []

def World.setSession (w : World) (n : Nat) (s : Session) : World :=
  { w with sessions := Function.update w.sessions n s }

def stamp (stamps : List (Nat × UUID)) (a : Accrual) : Accrual :=
  match stamps.reverse.find? fun s => s.1 = a.id with
  | some s => { a with invoice := some s.2 }
  | none => a

def release {α : Type} (n : Nat) (x : Stored α) : Stored α :=
  if x.owner = some n then { x with owner := none } else x

def World.commit (w : World) (n : Nat) : World where
  accruals := w.accruals.map fun x =>
    let x := release n x
    if x.owner = none then { x with row := stamp (w.sessions n).stamps x.row } else x
  invoices := w.invoices.map (release n)
  nextID := w.nextID
  sessions := Function.update w.sessions n {}
  runs := w.runs ++ ((w.sessions n).scan.map fun s => (n, s)).toList

def World.rollback (w : World) (n : Nat) : World :=
  { w with
    accruals := w.accruals.filter fun x => x.owner ≠ some n
    invoices := w.invoices.filter fun x => x.owner ≠ some n
    sessions := Function.update w.sessions n {} }

structure NewAccrual where
  merchant : UUID
  period : String
  amount : Int
  currency : String
  sourceRef : String
deriving DecidableEq, Repr

inductive Effect where
  | postLedger
  | addEvent
  | publish
deriving DecidableEq, Repr

inductive Op where
  | insertAccrual (a : NewAccrual)
  | accrualID (merchant : UUID) (sourceRef : String)
  | unbilled (sc : Scope)
  | invoiceForPeriod (merchant : UUID) (period : String)
  | newUUID
  | insertInvoice (inv : Invoice)
  | markInvoiced (ids : List Nat) (invoice : UUID)
  | effect (e : Effect) (inv : Invoice)
  | commit
deriving DecidableEq

def Op.Answer : Op → Type
  | .insertAccrual _ | .accrualID _ _ => Except String (Option Nat)
  | .unbilled _ => Except String (List Accrual)
  | .invoiceForPeriod _ _ => Except String (Option Invoice)
  | .newUUID => UUID
  | .insertInvoice _ | .markInvoiced _ _ | .effect _ _ | .commit => Except String Unit

inductive Choice where
  | ok
  | failed (message : String)
  | lost (message : String)
  | uuid (id : UUID)

abbrev Proc (α : Type) := Prog Op Op.Answer α

namespace Call
abbrev insertAccrual (a : NewAccrual) : Proc (Except String (Option Nat)) := Prog.op (Op.insertAccrual a)
abbrev accrualID (merchant : UUID) (sourceRef : String) : Proc (Except String (Option Nat)) :=
  Prog.op (Op.accrualID merchant sourceRef)
abbrev unbilled (sc : Scope) : Proc (Except String (List Accrual)) := Prog.op (Op.unbilled sc)
abbrev invoiceForPeriod (merchant : UUID) (period : String) : Proc (Except String (Option Invoice)) :=
  Prog.op (Op.invoiceForPeriod merchant period)
abbrev newUUID : Proc UUID := Prog.op Op.newUUID
abbrev insertInvoice (inv : Invoice) : Proc (Except String Unit) := Prog.op (Op.insertInvoice inv)
abbrev markInvoiced (ids : List Nat) (invoice : UUID) : Proc (Except String Unit) :=
  Prog.op (Op.markInvoiced ids invoice)
abbrev effect (e : Effect) (inv : Invoice) : Proc (Except String Unit) := Prog.op (Op.effect e inv)
abbrev commit : Proc (Except String Unit) := Prog.op Op.commit
end Call

/-- A statement of session `n` that answers `run`, or fails and rolls the session back. -/
def statement {α : Type} (n : Nat) (w : World) (run : Option (Except String α × World)) :
    Choice → Option (Except String α × World)
  | .ok =>
    match run with
    | some (.error m, _) => some (.error m, w.rollback n)
    | r => r
  | .failed m => some (.error m, w.rollback n)
  | .lost _ | .uuid _ => none

/-- Whom the session waits for, or whether it fails, at a row that has the key already. -/
inductive Conflict where
  | free
  | taken
  | waits
deriving DecidableEq

/-- The conflict of session `n` with the rows that have a key. -/
def conflict {α : Type} (n : Nat) (rows : List (Stored α)) (same : α → Bool) : Conflict :=
  if rows.any fun x => same x.row && (x.owner = none || x.owner = some n) then .taken
  else if rows.any fun x => same x.row then .waits
  else .free

/-- The rows session `n` sees. -/
def visible {α : Type} (n : Nat) (rows : List (Stored α)) : List α :=
  rows.filterMap fun x => if x.owner = none ∨ x.owner = some n then some x.row else none

def numeric38 (z : Int) : Bool := decide (z.natAbs < 10 ^ 38)

def serveInsertAccrual (n : Nat) (w : World) (a : NewAccrual) : Option (Except String (Option Nat) × World) :=
  if !numeric38 a.amount then some (.error "numeric field overflow", w)
  else match conflict n w.accruals fun b => b.merchant = a.merchant && b.sourceRef = a.sourceRef with
    | .taken => some (.ok none, w)
    | .waits => none
    | .free =>
      let row : Accrual := { id := w.nextID, merchant := a.merchant, period := a.period, amount := a.amount,
                             currency := a.currency, sourceRef := a.sourceRef }
      some (.ok (some w.nextID),
        { w with accruals := w.accruals ++ [{ row, owner := some n }], nextID := w.nextID + 1 })

def serveInsertInvoice (n : Nat) (w : World) (inv : Invoice) : Option (Except String Unit × World) :=
  if !numeric38 inv.totalFee then some (.error "numeric field overflow", w)
  else match conflict n w.invoices fun b =>
      b.id = inv.id || (b.merchant = inv.merchant && b.period = inv.period) with
    | .taken => some (.error "duplicate key value violates unique constraint", w)
    | .waits => none
    | .free => some (.ok (), { w with invoices := w.invoices ++ [{ row := inv, owner := some n }] })

/-- `mark_accruals_invoiced`: it waits while another session, which has inserted an invoice first, has
    stamped one of them. -/
def serveMark (n : Nat) (w : World) (ids : List Nat) (invoice : UUID) : Option (Except String Unit × World) :=
  let others := (w.invoices.filterMap (·.owner)).filter (· ≠ n)
  if others.any fun m => (w.sessions m).stamps.any fun s => ids.contains s.1 then none
  else
    let s := w.sessions n
    some (.ok (), w.setSession n { s with stamps := s.stamps ++ ids.map fun id => (id, invoice) })

def serve {ρ : Type} (n : Nat) (_ : ρ) (w : World) : (i : Op) → Choice → Option (i.Answer × World)
  | .insertAccrual a => statement n w (serveInsertAccrual n w a)
  | .accrualID merchant sourceRef => statement n w (some (.ok
      (((visible n w.accruals).find? fun b => b.merchant = merchant && b.sourceRef = sourceRef).map (·.id)), w))
  | .unbilled sc =>
    -- a session reads the unbilled accruals before it writes any
    let scan : Scan := { scope := sc, table := committed w.accruals }
    statement n w (some (.ok scan.rows, w.setSession n { w.sessions n with scan := some scan }))
  | .invoiceForPeriod merchant period => statement n w (some (.ok
      ((visible n w.invoices).find? fun b => b.merchant = merchant && b.period = period), w))
  | .newUUID => fun
    | .uuid id => some (id, w)
    | _ => none
  | .insertInvoice inv => statement n w (serveInsertInvoice n w inv)
  | .markInvoiced ids invoice => statement n w (serveMark n w ids invoice)
  | .effect _ _ => statement n w (some (.ok (), w))
  | .commit => fun
    | .ok => some (.ok (), w.commit n)
    | .failed m => some (.error m, w.rollback n)
    | .lost m => some (.error m, w.commit n)
    | .uuid _ => none

structure Deployment where
  /-- `period_of`: the month, in UTC, of a time. -/
  periodOf : Int → String
  upper : String → String
  /-- `\d` of the period's pattern. -/
  isDigit : Char → Bool
  ledgerPosting : Bool := false

inductive Error where
  | invalidPeriod (period : String)
  | database (message : String)
deriving DecidableEq, Repr

structure AccrualInput where
  merchant : UUID
  amount : Int
  currency : String
  sourceRef : String
  occurredAt : Int
deriving DecidableEq, Repr

structure AccrualResult where
  accrualID : Nat
  inserted : Bool
deriving DecidableEq, Repr

structure GeneratedInvoice where
  invoiceID : UUID
  merchant : UUID
  currency : String
  totalFee : Int
  lineCount : Nat
deriving DecidableEq, Repr

structure GenerationResult where
  period : String
  generated : List GeneratedInvoice
  skippedExisting : Nat
deriving DecidableEq, Repr

variable (D : Deployment)

/-- `record_accrual`, with the second statement of `insert_accrual` for a duplicate. -/
def recordAccrual (input : AccrualInput) : Proc (Except Error AccrualResult) := do
  let row : NewAccrual :=
    { merchant := input.merchant, period := D.periodOf input.occurredAt, amount := input.amount,
      currency := D.upper input.currency, sourceRef := input.sourceRef }
  match ← Call.insertAccrual row with
  | .error m => return .error (.database m)
  | .ok (some id) => commitAs { accrualID := id, inserted := true }
  | .ok none =>
    match ← Call.accrualID row.merchant row.sourceRef with
    | .error m => return .error (.database m)
    | .ok none => return .error (.database "No row was found when one was required")
    | .ok (some id) => commitAs { accrualID := id, inserted := false }
where
  commitAs (r : AccrualResult) : Proc (Except Error AccrualResult) := do
    match ← Call.commit with
    | .error m => return .error (.database m)
    | .ok () => return .ok r

/-- `_PERIOD_RE`: `$` also matches before a last newline. -/
def isPeriod (period : String) : Bool :=
  match period.toList with
  | a :: b :: c :: d :: '-' :: m :: n :: rest =>
    [a, b, c, d].all D.isDigit && (rest = [] || rest = ['\n']) &&
      ((m = '0' && '1' ≤ n && n ≤ '9') || (m = '1' && '0' ≤ n && n ≤ '2'))
  | _ => false

abbrev GroupKey := UUID × String

def Accrual.groupKey (a : Accrual) : GroupKey := (a.merchant, a.currency)

/-- `groups`: the rows by merchant and currency, in the order the keys first come up. -/
def groups (rows : List Accrual) : List (GroupKey × List Accrual) :=
  (rows.map Accrual.groupKey).eraseDups.map fun k => (k, rows.filter fun r => r.groupKey = k)

def decimalPrec : Nat := 28

def invoiceOf (id : UUID) (period : String) (k : GroupKey) (grp : List Accrual) : Invoice where
  id := id
  merchant := k.1
  period := period
  currency := k.2
  totalFee := Decimal.sum decimalPrec (grp.map (·.amount))
  lineCount := grp.length

def sequence : List (Proc (Except String Unit)) → Proc (Except String Unit)
  | [] => return .ok ()
  | p :: ps => do
    match ← p with
    | .error m => return .error m
    | .ok () => sequence ps

/-- One turn of the loop over the groups: nothing is generated if there is an invoice already. -/
def billGroup (period : String) (k : GroupKey) (grp : List Accrual) :
    Proc (Except String (Option GeneratedInvoice)) := do
  match ← Call.invoiceForPeriod k.1 period with
  | .error m => return .error m
  | .ok (some _) => return .ok none
  | .ok none =>
    let inv := invoiceOf (← Call.newUUID) period k grp
    match ← sequence ([Call.insertInvoice inv, Call.markInvoiced (grp.map (·.id)) inv.id] ++
        (if D.ledgerPosting then [Call.effect .postLedger inv] else []) ++
        [Call.effect .addEvent inv, Call.effect .publish inv]) with
    | .error m => return .error m
    | .ok () =>
      return .ok (some { invoiceID := inv.id, merchant := inv.merchant, currency := inv.currency,
                         totalFee := inv.totalFee, lineCount := inv.lineCount })

def billGroups (period : String) (generated : List GeneratedInvoice) (skipped : Nat) :
    List (GroupKey × List Accrual) → Proc (Except String (List GeneratedInvoice × Nat))
  | [] => return .ok (generated, skipped)
  | (k, grp) :: rest => do
    match ← billGroup D period k grp with
    | .error m => return .error m
    | .ok none => billGroups period generated (skipped + 1) rest
    | .ok (some g) => billGroups period (generated ++ [g]) skipped rest

def generateForPeriod (sc : Scope) : Proc (Except Error GenerationResult) := do
  if !isPeriod D sc.period then return .error (.invalidPeriod sc.period)
  else match ← Call.unbilled sc with
    | .error m => return .error (.database m)
    | .ok rows =>
      match ← billGroups D sc.period [] 0 (groups rows) with
      | .error m => return .error (.database m)
      | .ok (generated, skipped) =>
        match ← Call.commit with
        | .error m => return .error (.database m)
        | .ok () => return .ok { period := sc.period, generated := generated, skippedExisting := skipped }

inductive Request where
  | recordAccrual (input : AccrualInput)
  | generateForPeriod (sc : Scope)
deriving DecidableEq

inductive Reply where
  | accrual (r : Except Error AccrualResult)
  | generated (r : Except Error GenerationResult)

def handle : Request → Proc Reply
  | .recordAccrual input => do return .accrual (← recordAccrual D input)
  | .generateForPeriod sc => do return .generated (← generateForPeriod D sc)

def system : System Op Op.Answer Request World Choice Empty Reply where
  main := handle D
  serve := serve
  drift := fun _ w => nomatch w

end LinkMint.Pricing

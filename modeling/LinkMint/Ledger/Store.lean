import LinkMint.Lib.Process
import LinkMint.Ledger.Entry

/-!
# The ledger's table and its helpers

`ledger-go/ledger.go` over `ledger.ledger_entries`.
-/

namespace LinkMint.Ledger

open LinkMint.Lib

structure Row where
  id : Nat
  entryGroup : UUID
  account : String
  direction : Direction
  amount : Int
  currency : String
  plID : Option String
  note : Option String
  sided : direction = .dr ∨ direction = .cr
  /-- `NUMERIC(38,0)`, and greater than zero. -/
  ranged : 0 < amount ∧ amount < 10 ^ 38
deriving DecidableEq

/-- The values of one row of an `INSERT`. -/
structure NewRow where
  entryGroup : UUID
  account : String
  direction : Direction
  amount : Int
  currency : String
  plID : Option String
  note : Option String
deriving DecidableEq, Repr

def NewRow.row? (r : NewRow) (id : Nat) : Option Row :=
  if sided : r.direction = .dr ∨ r.direction = .cr then
    if ranged : 0 < r.amount ∧ r.amount < 10 ^ 38 then
      some { id, entryGroup := r.entryGroup, account := r.account, direction := r.direction,
             amount := r.amount, currency := r.currency, plID := r.plID, note := r.note, sided, ranged }
    else none
  else none

/-- All rows of a statement, numbered from `id` on, or none. -/
def insertRows : (id : Nat) → List NewRow → Option (List Row)
  | _, [] => some []
  | id, r :: rs =>
    match r.row? id, insertRows (id + 1) rs with
    | some row, some rows => some (row :: rows)
    | _, _ => none

def Row.leg (r : Row) : Leg where
  account := r.account
  direction := r.direction
  amount := some r.amount
  currency := r.currency

def signedSum (side : Direction) (rows : List Row) : Int :=
  (rows.map fun r => if r.direction = side then r.amount else -r.amount).sum

def balanceOf (rows : List Row) (account currency : String) : Int :=
  signedSum .cr (rows.filter fun r => r.account = account ∧ r.currency = currency)

def netDebit (rows : List Row) (currency : String) : Int :=
  signedSum .dr (rows.filter fun r => r.currency = currency)

def groupRows (rows : List Row) (group : UUID) : List Row :=
  (rows.filter fun r => r.entryGroup = group).mergeSort fun a b => a.id ≤ b.id

inductive TxState where
  | active
  | aborted
  | closed
deriving DecidableEq, Repr

structure Tx where
  own : List Row := []
  snapshot : Option (List Row) := none
  state : TxState := .active

inductive Handle where
  | pool
  | tx (n : Nat)
deriving DecidableEq, Repr

structure World where
  table : List Row := []
  /-- The sequence behind `id`; a rollback does not turn it back. -/
  nextID : Nat := 1
  txs : List Tx := []

def World.view (w : World) : Handle → Option (List Row)
  | .pool => some w.table
  | .tx n =>
    match w.txs[n]? with
    | some tx => if tx.state = .active then some (tx.snapshot.getD w.table ++ tx.own) else none
    | none => none

def World.setTx (w : World) (n : Nat) (tx : Tx) : World := { w with txs := w.txs.set n tx }

def World.abort (w : World) : Handle → World
  | .pool => w
  | .tx n =>
    match w.txs[n]? with
    | some tx => if tx.state = .active then w.setTx n { tx with state := .aborted } else w
    | none => w

/-- The statement's rows, committed at once on a pool and held back in a transaction. -/
def World.append (w : World) (h : Handle) (rows : List Row) : World :=
  let w := { w with nextID := w.nextID + rows.length }
  match h with
  | .pool => { w with table := w.table ++ rows }
  | .tx n =>
    match w.txs[n]? with
    | some tx => w.setTx n { tx with own := tx.own ++ rows }
    | none => w

inductive Op where
  | newUUID
  | beginTx (repeatable : Bool)
  | commit (n : Nat)
  | rollback (n : Nat)
  | insert (h : Handle) (rows : List NewRow)
  | selectGroup (h : Handle) (group : UUID)
  | selectBalance (h : Handle) (account currency : String)
  | selectNet (h : Handle) (currency : String)
deriving DecidableEq

def Op.Answer : Op → Type
  | .newUUID => UUID
  | .beginTx _ => Nat
  | .commit _ | .rollback _ | .insert _ _ => Except String Unit
  | .selectGroup _ _ => Except String (List Row)
  | .selectBalance _ _ _ | .selectNet _ _ => Except String Int

inductive Choice where
  | ok
  | failed (message : String)
  | lost (message : String)
  | uuid (g : UUID)

abbrev Proc (α : Type) := Prog Op Op.Answer α

namespace Call
abbrev newUUID : Proc UUID := Prog.op Op.newUUID
abbrev beginTx (repeatable : Bool) : Proc Nat := Prog.op (Op.beginTx repeatable)
abbrev commit (n : Nat) : Proc (Except String Unit) := Prog.op (Op.commit n)
abbrev rollback (n : Nat) : Proc (Except String Unit) := Prog.op (Op.rollback n)
abbrev insert (h : Handle) (rows : List NewRow) : Proc (Except String Unit) := Prog.op (Op.insert h rows)
abbrev selectGroup (h : Handle) (group : UUID) : Proc (Except String (List Row)) :=
  Prog.op (Op.selectGroup h group)
abbrev selectBalance (h : Handle) (account currency : String) : Proc (Except String Int) :=
  Prog.op (Op.selectBalance h account currency)
abbrev selectNet (h : Handle) (currency : String) : Proc (Except String Int) :=
  Prog.op (Op.selectNet h currency)
end Call

def txClosed : String := "tx is closed"

def serveSelect {α : Type} (w : World) (h : Handle) (query : List Row → α) : Choice → Option (Except String α × World)
  | .ok =>
    match w.view h with
    | some rows => some (.ok (query rows), w)
    | none => some (.error txClosed, w)
  | .failed m | .lost m => some (.error m, w.abort h)
  | .uuid _ => none

def serveInsert (w : World) (h : Handle) (rows : List NewRow) (c : Choice) : Option (Except String Unit × World) :=
  match w.view h with
  | none => some (.error txClosed, w)
  | some _ =>
    match c, insertRows w.nextID rows with
    | .uuid _, _ => none
    | .ok, some new => some (.ok (), w.append h new)
    | .ok, none => some (.error "violates check constraint", w.abort h)
    | .failed m, _ => some (.error m, w.abort h)
    | .lost m, new =>
      -- on a pool the statement was committed; a transaction's connection is gone
      match h, new with
      | .pool, some new => some (.error m, w.append .pool new)
      | _, _ => some (.error m, w.abort h)

def serveCommit (w : World) (n : Nat) (c : Choice) : Option (Except String Unit × World) :=
  match w.txs[n]? with
  | none => none
  | some tx =>
    let closed := w.setTx n { tx with state := .closed }
    match tx.state, c with
    | _, .uuid _ => none
    | .closed, _ => some (.error txClosed, w)
    | .aborted, _ => some (.error "commit unexpectedly resulted in rollback", closed)
    | .active, .ok => some (.ok (), { closed with table := w.table ++ tx.own })
    | .active, .failed m => some (.error m, closed)
    | .active, .lost m => some (.error m, { closed with table := w.table ++ tx.own })

def serveRollback (w : World) (n : Nat) : Choice → Option (Except String Unit × World)
  | .uuid _ => none
  | _ =>
    match w.txs[n]? with
    | none => none
    | some tx => some (.ok (), w.setTx n { tx with state := .closed })

def serve {ρ : Type} (_ : Nat) (_ : ρ) (w : World) : (i : Op) → Choice → Option (i.Answer × World)
  | .newUUID => fun
    | .uuid g => some (g, w)
    | _ => none
  | .beginTx repeatable => fun
    | .ok => some (w.txs.length,
        { w with txs := w.txs ++ [{ snapshot := if repeatable then some w.table else none }] })
    | _ => none
  | .commit n => serveCommit w n
  | .rollback n => serveRollback w n
  | .insert h rows => serveInsert w h rows
  | .selectGroup h group => serveSelect w h (groupRows · group)
  | .selectBalance h account currency => serveSelect w h (balanceOf · account currency)
  | .selectNet h currency => serveSelect w h (netDebit · currency)

def nullIfEmpty (s : String) : Option String := if s = "" then none else some s

def newRows (group : UUID) (input : PostingInput) : List NewRow :=
  input.entries.map fun leg =>
    { entryGroup := group, account := leg.account, direction := leg.direction,
      -- a validated leg has an amount
      amount := leg.amount.getD 0, currency := leg.currency,
      plID := nullIfEmpty input.plID, note := nullIfEmpty input.note }

def post (h : Handle) (input : PostingInput) : Proc (Except Error UUID) := do
  match validate input.entries with
  | .error e => return .error e
  | .ok () =>
    -- `uuid.New()` runs in any case
    let fresh ← Call.newUUID
    let group := input.entryGroup.getD fresh
    match ← Call.insert h (newRows group input) with
    | .error m => return .error (.plain ("ledger post: " ++ m))
    | .ok () => return .ok group

/-- The posting that corrects these legs: the first non-empty `pl_id` wins. -/
def reversal (group : UUID) (entries : List Row) (note : String) : PostingInput where
  entries := entries.map fun e => { e.leg with direction := flip e.direction }
  plID := ((entries.map fun e => e.plID.getD "").find? fun plID => plID ≠ "").getD ""
  note := if note = "" then "reversal of " ++ uuidText group else note

def reverse (h : Handle) (group : UUID) (note : String) : Proc (Except Error UUID) := do
  match ← Call.selectGroup h group with
  | .error m => return .error (.plain m)
  | .ok entries =>
    if entries = [] then return .error (.groupNotFound group)
    else post h (reversal group entries note)

def balance (h : Handle) (account currency : String) : Proc (Except String Int) :=
  Call.selectBalance h account currency

def isBalanced (h : Handle) (currency : String) : Proc (Except String Bool) := do
  match ← Call.selectNet h currency with
  | .error m => return .error m
  | .ok net => return .ok (net == 0)

inductive Request where
  | beginTx (repeatable : Bool)
  | commit (n : Nat)
  | rollback (n : Nat)
  | post (h : Handle) (input : PostingInput)
  | reverse (h : Handle) (group : UUID) (note : String)
  | balance (h : Handle) (account currency : String)
  | isBalanced (h : Handle) (currency : String)
deriving DecidableEq

inductive Reply where
  | tx (n : Nat)
  | done (r : Except String Unit)
  | group (r : Except Error UUID)
  | balance (r : Except String Int)
  | balanced (r : Except String Bool)

def handle : Request → Proc Reply
  | .beginTx repeatable => do return .tx (← Call.beginTx repeatable)
  | .commit n => do return .done (← Call.commit n)
  | .rollback n => do return .done (← Call.rollback n)
  | .post h input => do return .group (← post h input)
  | .reverse h group note => do return .group (← reverse h group note)
  | .balance h account currency => do return .balance (← balance h account currency)
  | .isBalanced h currency => do return .balanced (← isBalanced h currency)

def system : System Op Op.Answer Request World Choice Empty Reply where
  main := handle
  serve := serve
  drift := fun _ w => nomatch w

end LinkMint.Ledger

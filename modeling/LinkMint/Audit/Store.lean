import LinkMint.Lib.Process
import LinkMint.Audit.Append

/-!
# Appending and verifying, statement by statement

`store/postgres/postgres.go` under `Service.Append` and `Service.Verify`.
-/

namespace LinkMint.Audit

open LinkMint.Lib LinkMint.Chain

structure Uncommitted where
  tx : Nat
  id : Int
  columns : Columns

structure World where
  table : Table := ∅
  nextID : Int := 1
  /-- Who has `pg_advisory_xact_lock(appendLockKey)`. -/
  lock : Option Nat := none
  uncommitted : List Uncommitted := []
  /-- Transactions without a client, and whether it had sent `COMMIT`. -/
  orphans : List (Nat × Bool) := []

namespace World
def own (w : World) (n : Nat) : List Uncommitted := w.uncommitted.filter fun r => r.tx = n

def visible (w : World) (n : Nat) : Table := (w.own n).foldl (fun t r => t.insert r.id r.columns) w.table

def endTx (w : World) (n : Nat) : World :=
  { w with
    lock := if w.lock = some n then none else w.lock
    uncommitted := w.uncommitted.filter fun r => r.tx ≠ n
    orphans := w.orphans.filter fun o => o.1 ≠ n }

def commit (w : World) (n : Nat) : World := { w.endTx n with table := w.visible n }

def abandon (w : World) (n : Nat) (sent : Bool) : World := { w with orphans := (n, sent) :: w.orphans }
end World

inductive Op where
  | now
  | begin
  | lock
  | selectTail
  | insert (e : Columns)
  | commit
  | rollback
  | selectMin (start : Option Int)
  | selectMax (stop : Option Int)
  | selectPred (id : Int)
  | selectRange (startID endID : Int)

def Op.Answer : Op → Type
  | .now => Int
  | .begin | .lock | .commit | .rollback => Except String Unit
  | .selectTail | .selectPred _ => Except String (Option Bytes)
  | .insert _ => Except String Int
  | .selectMin _ | .selectMax _ => Except String (Option Int)
  | .selectRange _ _ => Except String (List Entry)

inductive Choice where
  | ok
  | failed (message : String)
  | lost (message : String)
  | time (nanos : Int)

abbrev Proc (α : Type) := Prog Op Op.Answer α

namespace Call
abbrev now : Proc Int := Prog.op Op.now
abbrev begin : Proc (Except String Unit) := Prog.op Op.begin
abbrev lock : Proc (Except String Unit) := Prog.op Op.lock
abbrev selectTail : Proc (Except String (Option Bytes)) := Prog.op Op.selectTail
abbrev insert (e : Columns) : Proc (Except String Int) := Prog.op (Op.insert e)
abbrev commit : Proc (Except String Unit) := Prog.op Op.commit
abbrev rollback : Proc (Except String Unit) := Prog.op Op.rollback
abbrev selectMin (start : Option Int) : Proc (Except String (Option Int)) := Prog.op (Op.selectMin start)
abbrev selectMax (stop : Option Int) : Proc (Except String (Option Int)) := Prog.op (Op.selectMax stop)
abbrev selectPred (id : Int) : Proc (Except String (Option Bytes)) := Prog.op (Op.selectPred id)
abbrev selectRange (startID endID : Int) : Proc (Except String (List Entry)) := Prog.op (Op.selectRange startID endID)
end Call

def newestHash (rows : List Entry) : Option Bytes := rows.getLast?.map (·.entryHash)

def serveSelect {α : Type} (w : World) (t : Table) (query : Table → α) : Choice → Option (Except String α × World)
  | .ok => some (.ok (query t), w)
  | .failed m | .lost m => some (.error m, w)
  | .time _ => none

def serveLock (w : World) (n : Nat) : Choice → Option (Except String Unit × World)
  | .ok => if w.lock = none ∨ w.lock = some n then some (.ok (), { w with lock := some n }) else none
  | .failed m => some (.error m, w)
  | .lost m => if w.lock = none ∨ w.lock = some n then some (.error m, { w with lock := some n }) else none
  | .time _ => none

def serveInsert (lib : Library) (w : World) (n : Nat) (e : Columns) (c : Choice) : Option (Except String Int × World) :=
  match c, e.stored lib with
  | .time _, _ => none
  | .failed m, _ => some (.error m, w)
  | _, none => some (.error "invalid input", w)
  | .ok, some columns =>
    some (.ok w.nextID, { w with nextID := w.nextID + 1, uncommitted := w.uncommitted ++ [⟨n, w.nextID, columns⟩] })
  | .lost m, some columns =>
    some (.error m, { w with nextID := w.nextID + 1, uncommitted := w.uncommitted ++ [⟨n, w.nextID, columns⟩] })

def serveCommit (w : World) (n : Nat) : Choice → Option (Except String Unit × World)
  | .ok => some (.ok (), w.commit n)
  | .failed m => some (.error m, w.endTx n)
  | .lost m => some (.error m, w.abandon n true)
  | .time _ => none

def serveRollback (w : World) (n : Nat) : Choice → Option (Except String Unit × World)
  | .ok => some (.ok (), w.endTx n)
  | .failed m | .lost m => some (.error m, w.abandon n false)
  | .time _ => none

def serve {ρ : Type} (lib : Library) (n : Nat) (_ : ρ) (w : World) : (i : Op) → Choice → Option (i.Answer × World)
  | .now => fun
    | .time t => some (t, w)
    | _ => none
  | .begin => fun
    | .ok => some (.ok (), w)
    | .failed m | .lost m => some (.error m, w)
    | .time _ => none
  | .lock => serveLock w n
  | .selectTail => serveSelect w (w.visible n) fun t => newestHash t.rows
  | .insert e => serveInsert lib w n e
  | .commit => serveCommit w n
  | .rollback => serveRollback w n
  | .selectMin start => serveSelect w w.table fun t => t.boundID List.min? (notBefore start)
  | .selectMax stop => serveSelect w w.table fun t => t.boundID List.max? (notAfter stop)
  | .selectPred id => serveSelect w w.table fun t => newestHash (t.rows.filter fun e => e.entryID < id)
  | .selectRange startID endID => serveSelect w w.table fun t =>
      t.rows.filter fun e => startID ≤ e.entryID ∧ e.entryID ≤ endID

/-- What the server does by itself: it ends a transaction that has no client any more. -/
structure Finish where
  tx : Nat
  commits : Bool

def World.finish (w : World) (f : Finish) : World :=
  if f.commits ∧ (f.tx, true) ∈ w.orphans then w.commit f.tx
  else if ∃ sent, (f.tx, sent) ∈ w.orphans then w.endTx f.tx
  else w

section
variable (lib : Library) (env : Env)

def abort {α : Type} (m : String) : Proc (Except String α) := do
  let _ ← Call.rollback
  return .error m

def append (input : AppendInput) : Proc (Except String Entry) := do
  match ← Call.begin with
  | .error m => return .error m
  | .ok () =>
    match ← Call.lock with
    | .error m => abort m
    | .ok () =>
      match ← Call.selectTail with
      | .error m => abort m
      | .ok tail =>
        match buildEntry lib env input (tail.getD genesis) with
        | none => abort "invalid JSON"
        | some e =>
          match ← Call.insert e with
          | .error m => abort m
          | .ok id =>
            match ← Call.commit with
            | .error m => return .error m
            | .ok () => return .ok { e with entryID := id }

def serviceAppend (input : AppendInput) : Proc (Except String Entry) := do
  match input.validate lib with
  | .error m => return .error m
  | .ok () =>
    let occurredAt ← if input.occurredAt = zeroTime then Call.now else pure input.occurredAt
    append lib env { input with occurredAt := truncate occurredAt * 1000 }

def verifyRange (start stop : Option Int) : Proc (Except String VerifyResult) := do
  match ← Call.selectMin start with
  | .error m => return .error m
  | .ok none => return .ok { ok := true }
  | .ok (some startID) =>
    match ← Call.selectMax stop with
    | .error m => return .error m
    | .ok none => return .ok { ok := true }
    | .ok (some endID) =>
      if endID < startID then return .ok { ok := true }
      else
        match ← Call.selectPred startID with
        | .error m => return .error m
        | .ok pred =>
          match ← Call.selectRange startID endID with
          | .error m => return .error m
          | .ok rows => return .ok (walk env (pred.getD genesis) rows)

inductive Request where
  | append (input : AppendInput)
  | verify (start stop : Option Int)

inductive Reply where
  | appended (r : Except String Entry)
  | verified (r : Except String VerifyResult)

def handle : Request → Proc Reply
  | .append input => do return .appended (← serviceAppend lib env input)
  | .verify start stop => do return .verified (← verifyRange env start stop)

def system : System Op Op.Answer Request World Choice Finish Reply where
  main := handle lib env
  serve := serve lib
  drift := World.finish
end
end LinkMint.Audit

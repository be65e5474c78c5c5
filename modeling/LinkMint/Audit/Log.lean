import LinkMint.Chain.Env

/-!
# The audit log

`audit-log-service`: entries in a hash chain, `entry_hash = SHA256(prev_hash || canonical_bytes)`, and the walk that
checks it, in the PostgreSQL store and in memory.
-/

namespace LinkMint.Audit

open LinkMint.Chain Std

structure Actor where
  id : Option (BitVec 128)
  kind : String
deriving DecidableEq, Repr

/-- The columns of `audit.entries` but for its key. -/
structure Columns where
  occurredAt : Int
  actor : Actor
  action : String
  resource : String
  before : Bytes := []
  after : Bytes := []
  context : Bytes
  prevHash : Bytes
  entryHash : Bytes
  canonical : Bytes
deriving DecidableEq, Repr

structure Entry extends Columns where
  entryID : Int
deriving DecidableEq, Repr

/-- `VerifyResult`: `brokenAt` is the first entry that failed. -/
structure VerifyResult where
  ok : Bool
  brokenAt : Option Int := none
deriving DecidableEq, Repr

def hashLen : Nat := 32

def genesis : Bytes := List.replicate hashLen 0

section
variable (env : Env)

/-- `hashing.Hash`: nothing separates the two parts. -/
def hash (prev canonical : Bytes) : Bytes := hashBytes (env.sha256 (prev ++ canonical))

/-- `CheckEntry`: the entry hashes to its stored hash, and it links to the one before it. -/
def checkEntry (e : Entry) (expectedPrev : Bytes) : Bool × Bool :=
  (hash env e.prevHash e.canonical == e.entryHash, e.prevHash == expectedPrev)

/-- The loop of `VerifyRange`. -/
def walk : (expected : Bytes) → List Entry → VerifyResult
  | _, [] => { ok := true }
  | expected, e :: es =>
    let (selfOK, linkOK) := checkEntry env e expected
    if !selfOK || !linkOK then { ok := false, brokenAt := some e.entryID }
    else walk e.entryHash es
end

def notBefore (bound : Option Int) (e : Entry) : Bool := bound.all fun t => decide (t ≤ e.occurredAt)

def notAfter (bound : Option Int) (e : Entry) : Bool := bound.all fun t => decide (e.occurredAt ≤ t)

abbrev Table := ExtTreeMap Int Columns

namespace Table
def rows (t : Table) : List Entry := t.toList.map fun r => { r.2 with entryID := r.1 }

/-- `boundID`: the least or greatest id among the rows that satisfy the predicate. -/
def boundID (t : Table) (agg : List Int → Option Int) (pred : Entry → Bool) : Option Int :=
  agg ((t.rows.filter pred).map (·.entryID))

/-- The hash before `id`: that of the last row with a smaller one. -/
def predHash (t : Table) (id : Int) : Bytes :=
  ((t.rows.filter fun e => e.entryID < id).getLast?).elim genesis (·.entryHash)

def verifyRange (env : Env) (t : Table) (start stop : Option Int) : VerifyResult :=
  match t.boundID List.min? (notBefore start) with
  | none => { ok := true }
  | some startID =>
    match t.boundID List.max? (notAfter stop) with
    | none => { ok := true }
    | some endID =>
      if endID < startID then { ok := true }
      else
        walk env (t.predHash startID)
          (t.rows.filter fun e => startID ≤ e.entryID ∧ e.entryID ≤ endID)

def tail (t : Table) : Bytes × Nat :=
  if t.rows.length = 0 then (genesis, 0)
  else ((t.rows.getLast?).elim genesis (·.entryHash), t.rows.length)

def canonicals (t : Table) : List Bytes := t.rows.map (·.canonical)
end Table

abbrev Memory := List Entry

namespace Memory
def lastIdx? (pred : Entry → Bool) (snap : Memory) : Option Nat :=
  (List.range snap.length).reverse.find? fun i => (snap[i]?).any pred

def verifyRange (env : Env) (snap : Memory) (start stop : Option Int) : VerifyResult :=
  match snap.findIdx? (notBefore start) with
  | none => { ok := true }
  | some startIdx =>
    match lastIdx? (notAfter stop) snap with
    | none => { ok := true }
    | some endIdx =>
      if endIdx < startIdx then { ok := true }
      else
        let expected := if startIdx = 0 then genesis else (snap[startIdx - 1]?).elim genesis (·.entryHash)
        walk env expected ((snap.drop startIdx).take (endIdx + 1 - startIdx))
end Memory
end LinkMint.Audit

import LinkMint.Lib.MapTotal
import LinkMint.Escrows.Types

/-!
# The escrow store

`internal/store/postgres`: three tables, each store call one transaction and one step.
-/

namespace LinkMint.Escrows

open LinkMint.Lib Std

/-- A row of `escrow.escrows`, with its approvers from `escrow.approvals` in the order recorded. -/
structure Row where
  escrow : Escrow
  approvals : List String := []
deriving DecidableEq, Repr

structure DB where
  rows : ExtTreeMap String Row
  keyed : ∀ (id : String) (r : Row), rows[id]? = some r → r.escrow.id = id
  /-- The keys of `escrow.processed_events`; its one scope is `chain.paylink.verified`. -/
  processed : ExtTreeSet String

namespace DB
def empty : DB where
  rows := ∅
  keyed := by simp
  processed := ∅

def put (db : DB) (r : Row) : DB where
  rows := db.rows.insert r.escrow.id r
  keyed := by
    intro id r' h
    rw [getElem?_insert_eq] at h
    split at h
    · next hid =>
      cases h
      exact hid
    · exact db.keyed id r' h
  processed := db.processed

def mapRows (db : DB) (f : Row → Row) (hf : ∀ r, (f r).escrow.id = r.escrow.id) : DB where
  rows := db.rows.map fun _ r => f r
  keyed := by
    intro id r h
    rw [ExtTreeMap.getElem?_map] at h
    obtain ⟨r₀, hr₀, rfl⟩ := Option.map_eq_some_iff.mp h
    rw [hf]
    exact db.keyed id r₀ hr₀
  processed := db.processed

def byPayLink (db : DB) (plID : String) : Option Row :=
  (db.rows.toList.find? fun r => r.2.escrow.plID = plID).map (·.2)

/-- `CreateEscrow`: the primary key and the `UNIQUE` constraint. -/
def createEscrow (db : DB) (e : Escrow) : Except Error DB :=
  if db.rows.contains e.id ∨ (db.byPayLink e.plID).isSome then .error .exists
  else .ok (db.put { escrow := e })

def updateEscrow (e : Escrow) (up : Update) (dbTime : Int) : Escrow :=
  { e with
    funded := e.funded || up.setFunded
    fundedTxHash := if up.setFunded && !e.funded then up.fundedTxHash else e.fundedTxHash
    state := up.setState.getD e.state
    disputeReason := if up.disputeReason ≠ "" then up.disputeReason else e.disputeReason
    updatedAt := dbTime }

/-- `applyUpdate`: the approval, unless it is recorded already, and the row. -/
def updateOf (r : Row) (up : Update) (dbTime : Int) : Row where
  escrow :=
    if !up.setFunded && up.setState.isNone && up.disputeReason == "" then r.escrow
    else updateEscrow r.escrow up dbTime
  approvals := if up.addApproval ≠ "" then appendApproval r.approvals up.addApproval else r.approvals

/-- A `MutateFn`: the update, and what the closure leaves in the variables it captured. -/
abbrev MutateFn (κ : Type) := Escrow → List String → Except Error (Update × κ)

def mutate {κ : Type} (db : DB) (id : String) (fn : MutateFn κ) (dbTime : Int) : Except Error ((Escrow × κ) × DB) :=
  match db.rows[id]? with
  | none => .error .notFound
  | some r =>
    match fn r.escrow r.approvals with
    | .error err => .error err
    | .ok (up, left) =>
      let r := updateOf r up dbTime
      .ok ((r.escrow, left), db.put r)

def dedupeKey (plID txHash : String) : String := plID ++ ":" ++ txHash

/-- `ApplyFunding`: the dedupe row is written in the same transaction. -/
def applyFunding {κ : Type} (db : DB) (plID txHash : String) (fn : MutateFn κ) (dbTime : Int) :
    Except Error ((Escrow × Option κ) × DB) :=
  match db.byPayLink plID with
  | none => .error .notFound
  | some r =>
    if db.processed.contains (dedupeKey plID txHash) then .ok ((r.escrow, none), db)
    else
      match fn r.escrow r.approvals with
      | .error err => .error err
      | .ok (up, left) =>
        let r := updateOf r up dbTime
        let db := db.put r
        .ok ((r.escrow, some left),
          { db with processed := db.processed.insert (dedupeKey plID txHash) })

def releaseDue (now : Int) (e : Escrow) : Bool :=
  e.state == .waiting && e.funded && e.conditionType == .timeLock && e.releaseAt.any fun t => decide (t ≤ now)

def timedOut (now : Int) (e : Escrow) : Bool := e.state == .waiting && decide (e.timeoutAt ≤ now)

/-- `SET state = …, updated_at = now()` on the rows the condition picks. -/
def moveRow (pick : Escrow → Bool) (target : State) (dbTime : Int) (r : Row) : Row :=
  if pick r.escrow then { r with escrow := { r.escrow with state := target, updatedAt := dbTime } } else r

theorem id_moveRow (pick : Escrow → Bool) (target : State) (dbTime : Int) (r : Row) :
    (moveRow pick target dbTime r).escrow.id = r.escrow.id := by
  unfold moveRow
  split <;> rfl

/-- `UPDATE … SET state … WHERE … RETURNING`: the rows it moved, and the tables. -/
def moveAll (db : DB) (pick : Escrow → Bool) (target : State) (dbTime : Int) : List Escrow × DB :=
  ((db.rows.toList.filter fun r => pick r.2.escrow).map fun r =>
      (moveRow pick target dbTime r.2).escrow,
    db.mapRows (moveRow pick target dbTime) (id_moveRow pick target dbTime))

def releaseDueTimeLocks (db : DB) (now dbTime : Int) : List Escrow × DB :=
  db.moveAll (releaseDue now) .released dbTime

def refundTimedOut (db : DB) (now dbTime : Int) : List Escrow × DB :=
  db.moveAll (timedOut now) .refunded dbTime

@[simp] theorem rows_put (db : DB) (r : Row) (id : String) :
    (db.put r).rows[id]? = if r.escrow.id = id then some r else db.rows[id]? :=
  getElem?_insert_eq db.rows r.escrow.id id r

@[simp] theorem rows_mapRows (db : DB) (f : Row → Row) (hf : ∀ r, (f r).escrow.id = r.escrow.id)
    (id : String) : (db.mapRows f hf).rows[id]? = (db.rows[id]?).map f :=
  ExtTreeMap.getElem?_map

@[simp] theorem id_updateOf (r : Row) (up : Update) (dbTime : Int) : (updateOf r up dbTime).escrow.id = r.escrow.id := by
  simp only [updateOf]
  split <;> rfl

theorem of_byPayLink {db : DB} {plID : String} {r : Row} (h : db.byPayLink plID = some r) :
    db.rows[r.escrow.id]? = some r ∧ r.escrow.plID = plID := by
  obtain ⟨⟨id, r'⟩, hfind, rfl⟩ := Option.map_eq_some_iff.mp h
  have hmem := List.mem_of_find?_eq_some hfind
  rw [ExtTreeMap.mem_toList_iff_getElem?_eq_some] at hmem
  have hid := db.keyed id r' hmem
  refine ⟨by rw [hid]; exact hmem, ?_⟩
  simpa using List.find?_some hfind
end DB
end LinkMint.Escrows

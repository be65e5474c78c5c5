import LinkMint.Chain.State

/-!
# PayLink records and their indexes

`internal/state/paylink_state.go`.
-/

namespace LinkMint.Chain

open Std

def appendIndex {κ : Type} [Ord κ] [TransOrd κ] (m : ExtTreeMap κ (List Hash)) (k : κ)
    (id : Hash) : ExtTreeMap κ (List Hash) :=
  m.insert k ((m[k]?).getD [] ++ [id])

/-- `removeFromStatusIndex`, `removeFromOwnerIndex`: drop the first occurrence, and write
    nothing when there is none. -/
def removeFromIndex {κ : Type} [Ord κ] [TransOrd κ] (m : ExtTreeMap κ (List Hash)) (k : κ)
    (id : Hash) : ExtTreeMap κ (List Hash) :=
  if id ∈ (m[k]?).getD [] then m.insert k (((m[k]?).getD []).erase id) else m

namespace Snapshot
/-- A write through the pointer `paylinks[id]`. -/
def putPayLink (s : Snapshot) (id : Hash) (pl : PayLink) : Snapshot :=
  { s with paylinks := s.paylinks.insert id pl }

def createPayLink (s : Snapshot) (pl : PayLink) : Except String Snapshot :=
  if s.paylinks.contains pl.id then .error s!"paylink already exists: {hex pl.id}"
  else .ok { s.putPayLink pl.id pl with
    paylinksByCreator := appendIndex s.paylinksByCreator pl.creator pl.id
    paylinksByReceiver := appendIndex s.paylinksByReceiver pl.receiver pl.id
    paylinksByStatus := appendIndex s.paylinksByStatus pl.status pl.id
    paylinksByOwner := appendIndex s.paylinksByOwner pl.owner pl.id }

def getPayLink (s : Snapshot) (id : Hash) : Option PayLink := s.paylinks[id]?

def setPayLinkStatus (s : Snapshot) (id : Hash) (status : Status) : Except String Snapshot :=
  match s.paylinks[id]? with
  | none => .error s!"paylink not found: {hex id}"
  | some pl => .ok { s.putPayLink id { pl with status := status } with
    paylinksByStatus :=
      appendIndex (removeFromIndex s.paylinksByStatus pl.status id) status id }

def incrementVoteCount (s : Snapshot) (id : Hash) : Except String (UInt64 × Snapshot) :=
  match s.paylinks[id]? with
  | none => .error s!"paylink not found: {hex id}"
  | some pl =>
    .ok (pl.voteCount + 1, s.putPayLink id { pl with voteCount := pl.voteCount + 1 })

/-- Transfers ownership: the single-PayLink approval is cleared and the transfer counted. -/
def setPayLinkOwner (s : Snapshot) (id : Hash) (newOwner : Address) : Except String Snapshot :=
  match s.paylinks[id]? with
  | none => .error s!"paylink not found: {hex id}"
  | some pl => .ok { s.putPayLink id
      { pl with owner := newOwner, approved := 0, transferCount := pl.transferCount + 1 } with
    paylinksByOwner :=
      appendIndex (removeFromIndex s.paylinksByOwner pl.owner id) newOwner id }

def setPayLinkApproval (s : Snapshot) (id : Hash) (approved : Address) : Except String Snapshot :=
  match s.paylinks[id]? with
  | none => .error s!"paylink not found: {hex id}"
  | some pl => .ok (s.putPayLink id { pl with approved := approved })

def setOperatorApproval (s : Snapshot) (owner operator : Address) (approved : Bool) : Snapshot :=
  let key : OperatorKey := { owner := owner, operator := operator }
  { s with operatorApprovals :=
      if approved then s.operatorApprovals.insert key else s.operatorApprovals.erase key }

def isApprovedOrOwner (s : Snapshot) (id : Hash) (spender : Address) : Bool :=
  match s.paylinks[id]? with
  | none => false
  | some pl =>
    spender == pl.owner || spender == pl.approved ||
      s.operatorApprovals.contains { owner := pl.owner, operator := spender }

variable {s s' : Snapshot} {id : Hash}

theorem createPayLink_ok {pl : PayLink} : s.createPayLink pl = .ok s' ↔ s.paylinks[pl.id]? = none ∧
    s' = { s.putPayLink pl.id pl with
      paylinksByCreator := appendIndex s.paylinksByCreator pl.creator pl.id
      paylinksByReceiver := appendIndex s.paylinksByReceiver pl.receiver pl.id
      paylinksByStatus := appendIndex s.paylinksByStatus pl.status pl.id
      paylinksByOwner := appendIndex s.paylinksByOwner pl.owner pl.id } := by
  unfold createPayLink
  rw [ExtTreeMap.contains_eq_isSome_getElem?]
  cases h : s.paylinks[pl.id]? with
  | none => simp [eq_comm]
  | some pl' => simp

theorem setPayLinkStatus_ok {status : Status} : s.setPayLinkStatus id status = .ok s' ↔
    ∃ pl, s.paylinks[id]? = some pl ∧ s' = { s.putPayLink id { pl with status := status } with
      paylinksByStatus :=
        appendIndex (removeFromIndex s.paylinksByStatus pl.status id) status id } := by
  unfold setPayLinkStatus
  cases h : s.paylinks[id]? with
  | none => simp
  | some pl => simp [eq_comm]

theorem incrementVoteCount_ok {count : UInt64} : s.incrementVoteCount id = .ok (count, s') ↔
    ∃ pl, s.paylinks[id]? = some pl ∧ count = pl.voteCount + 1 ∧
      s' = s.putPayLink id { pl with voteCount := pl.voteCount + 1 } := by
  unfold incrementVoteCount
  cases h : s.paylinks[id]? with
  | none => simp
  | some pl => simp [eq_comm]

theorem setPayLinkOwner_ok {newOwner : Address} : s.setPayLinkOwner id newOwner = .ok s' ↔
    ∃ pl, s.paylinks[id]? = some pl ∧ s' = { s.putPayLink id
        { pl with owner := newOwner, approved := 0, transferCount := pl.transferCount + 1 } with
      paylinksByOwner :=
        appendIndex (removeFromIndex s.paylinksByOwner pl.owner id) newOwner id } := by
  unfold setPayLinkOwner
  cases h : s.paylinks[id]? with
  | none => simp
  | some pl => simp [eq_comm]

theorem setPayLinkApproval_ok {approved : Address} : s.setPayLinkApproval id approved = .ok s' ↔
    ∃ pl, s.paylinks[id]? = some pl ∧ s' = s.putPayLink id { pl with approved := approved } := by
  unfold setPayLinkApproval
  cases h : s.paylinks[id]? with
  | none => simp
  | some pl => simp [eq_comm]
end Snapshot
end LinkMint.Chain

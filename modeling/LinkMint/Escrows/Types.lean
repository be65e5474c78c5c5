import LinkMint.Settle.Types

/-!
# Escrows

The records of the escrow-manager: an escrow, its condition, the errors the service answers with, and the state
machine (`internal/fsm`), whose engine is a copy of the chain's with the guard in use.
-/

namespace LinkMint.Escrows

open LinkMint.Settle (AppError Detail)

/-- `httpx.ErrorCode` of the escrow-manager, as far as the domain uses it. -/
inductive ErrorCode where
  | escrowNotFound
  | escrowExists
  | invalidPayload
  | invalidState
  | conditionNotConfirmable
  | notParticipant
deriving DecidableEq, Repr

/-- A Go `error`: the service's own, one of the store's, or an opaque one. -/
inductive Error where
  | app (e : AppError ErrorCode)
  | notFound
  | exists
  | plain (message : String)
deriving DecidableEq, Repr

def newError (code : ErrorCode) (message : String) (details : List (String × Detail) := []) : Error :=
  .app { code := code, message := message, details := details }

inductive State where
  | waiting
  | conditionsMet
  | released
  | refunded
  | disputed
deriving DecidableEq, Repr

def State.string : State → String
  | .waiting => "WAITING"
  | .conditionsMet => "CONDITIONS_MET"
  | .released => "RELEASED"
  | .refunded => "REFUNDED"
  | .disputed => "DISPUTED"

inductive TransitionKind where
  | conditionsMet
  | release
  | timeout
  | dispute
deriving DecidableEq, Repr

def TransitionKind.string : TransitionKind → String
  | .conditionsMet => "ConditionsMet"
  | .release => "Release"
  | .timeout => "Timeout"
  | .dispute => "Dispute"

structure ConditionsMetInput where
  funded : Bool
  satisfied : Bool
deriving DecidableEq, Repr

namespace Fsm
structure Transition where
  source : State
  target : State
  kind : TransitionKind
  guard : Option (Option ConditionsMetInput → Except String Unit) := none

structure Machine where
  name : String
  transitions : List Transition

def conditionsMetGuard : Option ConditionsMetInput → Except String Unit
  | none => .error "ConditionsMet requires a ConditionsMetInput"
  | some i =>
    if !i.funded then .error "escrow is not funded"
    else if !i.satisfied then .error "escrow condition is not satisfied"
    else .ok ()

def Machine.apply (m : Machine) (current : State) (kind : TransitionKind)
    (data : Option ConditionsMetInput) : Except String State :=
  match m.transitions.reverse.find? fun t => t.source = current ∧ t.kind = kind with
  | none => .error (s!"fsm {m.name}: no transition \"{kind.string}\" from state " ++ s!"\"{current.string}\"")
  | some t =>
    match t.guard with
    | none => .ok t.target
    | some guard =>
      match guard data with
      | .error e => .error (s!"fsm {m.name}: guard rejected \"{kind.string}\" from " ++ s!"\"{current.string}\": {e}")
      | .ok () => .ok t.target

def newEscrowMachine : Machine where
  name := "escrow"
  transitions := [
    { source := .waiting, target := .conditionsMet, kind := .conditionsMet, guard := some conditionsMetGuard },
    { source := .conditionsMet, target := .released, kind := .release },
    { source := .waiting, target := .refunded, kind := .timeout },
    { source := .waiting, target := .disputed, kind := .dispute },
    { source := .conditionsMet, target := .disputed, kind := .dispute }]
end Fsm

inductive ConditionType where
  | deliveryConfirmation
  | timeLock
  | multiPartyApproval
deriving DecidableEq, Repr

def ConditionType.text : ConditionType → String
  | .deliveryConfirmation => "delivery_confirmation"
  | .timeLock => "time_lock"
  | .multiPartyApproval => "multi_party_approval"

/-- `ValidConditionType`, with the type the text names. -/
def ConditionType.ofText? (s : String) : Option ConditionType :=
  [.deliveryConfirmation, .timeLock, .multiPartyApproval].find? fun t => t.text = s

structure ConditionParams where
  releaseAt : Option Int := none
  approvers : List String := []
  threshold : Int := 0
deriving DecidableEq, Repr

structure Escrow where
  id : String
  plID : String
  creatorAddr : String
  payeeAddr : String
  refundTo : String
  amount : String
  currency : String
  conditionType : ConditionType
  conditionParams : ConditionParams := {}
  state : State := .waiting
  funded : Bool := false
  fundedTxHash : String := ""
  releaseAt : Option Int := none
  timeoutAt : Int
  disputeReason : String := ""
  createdAt : Int
  updatedAt : Int
deriving DecidableEq, Repr

namespace Escrow
def isParticipant (e : Escrow) (addr : String) : Bool :=
  addr == e.creatorAddr || addr == e.payeeAddr || addr == e.refundTo

def conditionSatisfied (e : Escrow) (approvals : List String) (now : Int) : Bool :=
  match e.conditionType with
  | .deliveryConfirmation => approvals.contains e.creatorAddr
  | .timeLock => e.releaseAt.any fun t => decide (t ≤ now)
  | .multiPartyApproval =>
    decide (e.conditionParams.threshold ≤ ((e.conditionParams.approvers.filter approvals.contains).length : Int))
end Escrow

structure Update where
  addApproval : String := ""
  setFunded : Bool := false
  fundedTxHash : String := ""
  setState : Option State := none
  disputeReason : String := ""
deriving DecidableEq, Repr

def appendApproval (approvals : List String) (addr : String) : List String :=
  if approvals.contains addr then approvals else approvals ++ [addr]

structure StringLib where
  trimSpace : String → String
  toLower : String → String
  toUpper : String → String

def normalizeAddr (strs : StringLib) (a : String) : String := strs.toLower (strs.trimSpace a)

/-- `new(big.Int).SetString(s, 10)`: a sign or none, then digits. -/
def parseDecimal (s : String) : Option Int :=
  match s.toList with
  | '-' :: ds => (digits ds).map fun n => -(n : Int)
  | '+' :: ds => (digits ds).map fun n => (n : Int)
  | ds => (digits ds).map fun n => (n : Int)
where
  digits (ds : List Char) : Option Nat :=
    if ds ≠ [] ∧ ds.all Char.isDigit then
      some (ds.foldl (fun n d => 10 * n + (d.toNat - '0'.toNat)) 0)
    else none

def normalizeAmount (strs : StringLib) (raw : String) : Except String String :=
  match parseDecimal (strs.trimSpace raw) with
  | none => .error "amount must be a positive integer string"
  | some n =>
    if n ≤ 0 then .error "amount must be a positive integer string"
    else if 30 < (toString n).utf8ByteSize then .error "amount exceeds 30 digits"
    else .ok (toString n)

end LinkMint.Escrows

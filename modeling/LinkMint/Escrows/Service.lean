import LinkMint.Lib.Process
import LinkMint.Escrows.Store

/-!
# The escrow service

`internal/domain/service.go` as programs over the calls they make.
-/

namespace LinkMint.Escrows

open LinkMint.Lib LinkMint.Settle

structure Left where
  kinds : List TransitionKind := []
  disputed : Bool := false
  fundedNow : Bool := false
deriving DecidableEq, Repr

namespace Service
def escrowID (e : Escrow) : List (String × Detail) := [("escrow_id", .text e.id)]

/-- `tryRelease`: `ConditionsMet`, then `Release`. -/
def tryRelease (cur : State) (funded satisfied : Bool) : Option (State × List TransitionKind) :=
  match Fsm.newEscrowMachine.apply cur .conditionsMet
      (some { funded := funded, satisfied := satisfied }) with
  | .error _ => none
  | .ok mid =>
    match Fsm.newEscrowMachine.apply mid .release none with
    | .error _ => none
    | .ok final => some (final, [.conditionsMet, .release])

def mayConfirm (e : Escrow) (caller : String) : Except Error Unit :=
  match e.conditionType with
  | .timeLock =>
    .error (newError .conditionNotConfirmable
      "a time_lock escrow releases automatically at release_at and cannot be confirmed" (escrowID e))
  | .deliveryConfirmation =>
    if caller ≠ e.creatorAddr then
      .error (newError .notParticipant "only the escrow creator can confirm delivery" (escrowID e))
    else .ok ()
  | .multiPartyApproval =>
    if e.conditionParams.approvers.contains caller then .ok ()
    else .error (newError .notParticipant "caller is not in the approvers list" (escrowID e))

def confirmFn (caller : String) (now : Int) : DB.MutateFn Left := fun e approvals =>
  match mayConfirm e caller with
  | .error err => .error err
  | .ok () =>
    if e.state ≠ .waiting then
      .error (newError .invalidState s!"escrow is {e.state.string} and cannot be confirmed"
        (escrowID e ++ [("state", .text e.state.string)]))
    else
      let satisfied := e.conditionSatisfied (appendApproval approvals caller) now
      match tryRelease e.state e.funded satisfied with
      | some (next, kinds) => .ok ({ addApproval := caller, setState := some next }, { kinds := kinds })
      | none => .ok ({ addApproval := caller }, {})

def disputeFn (caller reason : String) : DB.MutateFn Left := fun e _ =>
  if !e.isParticipant caller then
    .error (newError .notParticipant "only the creator, payee, or refund recipient can dispute" (escrowID e))
  else
    match Fsm.newEscrowMachine.apply e.state .dispute none with
    | .error _ =>
      .error (newError .invalidState s!"escrow is {e.state.string} and cannot be disputed"
        (escrowID e ++ [("state", .text e.state.string)]))
    | .ok next => .ok ({ setState := some next, disputeReason := reason }, { disputed := true })

/-- The closure of `HandlePaylinkVerified`. -/
def fundingFn (txHash : String) (now : Int) : DB.MutateFn Left := fun e approvals =>
  if e.state ≠ .waiting then .ok ({}, {})
  else
    let up : Update := if e.funded then {} else { setFunded := true, fundedTxHash := txHash }
    let fundedNow := !e.funded
    match tryRelease e.state true (e.conditionSatisfied approvals now) with
    | some (next, kinds) =>
      .ok ({ up with setState := some next }, { kinds := kinds, fundedNow := fundedNow })
    | none => .ok (up, { fundedNow := fundedNow })
end Service

/-- The two closures `Mutate` is called with. -/
inductive Decision where
  | confirm (caller : String)
  | dispute (caller reason : String)
deriving DecidableEq, Repr

def Decision.fn (now : Int) : Decision → DB.MutateFn Left
  | .confirm caller => Service.confirmFn caller now
  | .dispute caller reason => Service.disputeFn caller reason

inductive EventName where
  | created
  | released
  | refunded
  | disputed
deriving DecidableEq, Repr

structure World where
  db : DB := .empty
  published : List (EventName × Escrow) := []

inductive Op where
  | now
  | newID
  | createEscrow (e : Escrow)
  | mutate (id : String) (d : Decision)
  | applyFunding (plID txHash : String)
  | releaseDueTimeLocks (now : Int)
  | refundTimedOut (now : Int)
  | publish (name : EventName) (e : Escrow)
deriving DecidableEq

abbrev Swept := List Escrow × Option String

def Op.Answer : Op → Type
  | .now => Int
  | .newID => String
  | .createEscrow _ => Except Error Unit
  | .mutate _ _ => Except Error (Escrow × Left)
  | .applyFunding _ _ => Except Error (Escrow × Option Left)
  | .releaseDueTimeLocks _ | .refundTimedOut _ => Swept
  | .publish _ _ => Except String Unit

inductive Choice where
  /-- It takes effect, at these readings of the service's clock and the database's. -/
  | ok (clock dbTime : Int)
  /-- It fails and is rolled back; a statement had returned the rows with these ids. -/
  | failed (seen : String → Bool) (dbTime : Int) (message : String)
  | lost (seen : String → Bool) (clock dbTime : Int) (message : String)
  | text (s : String)

abbrev Proc (α : Type) := Prog Op Op.Answer α

namespace Call
abbrev now : Proc Int := Prog.op Op.now
abbrev newID : Proc String := Prog.op Op.newID
abbrev createEscrow (e : Escrow) : Proc (Except Error Unit) := Prog.op (Op.createEscrow e)
abbrev mutate (id : String) (d : Decision) : Proc (Except Error (Escrow × Left)) :=
  Prog.op (Op.mutate id d)
abbrev applyFunding (plID txHash : String) : Proc (Except Error (Escrow × Option Left)) :=
  Prog.op (Op.applyFunding plID txHash)
abbrev releaseDueTimeLocks (now : Int) : Proc Swept := Prog.op (Op.releaseDueTimeLocks now)
abbrev refundTimedOut (now : Int) : Proc Swept := Prog.op (Op.refundTimedOut now)
abbrev publish (name : EventName) (e : Escrow) : Proc (Except String Unit) :=
  Prog.op (Op.publish name e)
end Call

/-- A transaction of the store: its own error, or its result and the tables it leaves. -/
def transact {α : Type} (s : World) (run : (clock dbTime : Int) → Except Error (α × DB)) :
    Choice → Option (Except Error α × World)
  | .ok clock dbTime =>
    match run clock dbTime with
    | .error e => some (.error e, s)
    | .ok (a, db) => some (.ok a, { s with db := db })
  | .failed _ _ m => some (.error (.plain m), s)
  | .lost _ clock dbTime m =>
    match run clock dbTime with
    | .error _ => none
    | .ok (_, db) => some (.error (.plain m), { s with db := db })
  | .text _ => none

def sweepStatement (s : World) (run : (dbTime : Int) → List Escrow × DB) : Choice → Option (Swept × World)
  | .ok _ dbTime => some (((run dbTime).1, none), { s with db := (run dbTime).2 })
  | .failed seen dbTime m => some (((run dbTime).1.filter fun e => seen e.id, some m), s)
  | .lost seen _ dbTime m =>
    some (((run dbTime).1.filter fun e => seen e.id, some m), { s with db := (run dbTime).2 })
  | .text _ => none

def servePublish (s : World) (name : EventName) (e : Escrow) : Choice → Option (Except String Unit × World)
  | .ok _ _ => some (.ok (), { s with published := s.published ++ [(name, e)] })
  | .failed _ _ m => some (.error m, s)
  | .lost _ _ _ m => some (.error m, { s with published := s.published ++ [(name, e)] })
  | .text _ => none

def perform (s : World) : (i : Op) → Choice → Option (i.Answer × World)
  | .now => fun
    | .ok clock _ => some (clock, s)
    | _ => none
  | .newID => fun
    | .text id => some (id, s)
    | _ => none
  | .createEscrow e => transact s fun _ _ => (s.db.createEscrow e).map fun db => ((), db)
  | .mutate id d => transact s fun clock dbTime => s.db.mutate id (d.fn clock) dbTime
  | .applyFunding plID txHash =>
    transact s fun clock dbTime => s.db.applyFunding plID txHash (Service.fundingFn txHash clock) dbTime
  | .releaseDueTimeLocks now => sweepStatement s (s.db.releaseDueTimeLocks now)
  | .refundTimedOut now => sweepStatement s (s.db.refundTimedOut now)
  | .publish name e => servePublish s name e

def Choice.committed : Choice → Bool
  | .ok _ _ | .lost _ _ _ _ => true
  | .failed _ _ _ | .text _ => false

structure Deployment where
  strs : StringLib
  defaultTimeout : Int

structure CreateInput where
  creatorAddr : String
  plID : String
  payeeAddr : String
  refundTo : String
  amount : String
  currency : String
  conditionType : String
  conditionParams : ConditionParams := {}
  timeoutAt : Option Int := none
deriving DecidableEq, Repr

namespace Service
variable (D : Deployment)

def invalid {α : Type} (message : String) (details : List (String × Detail) := []) : Except Error α :=
  .error (newError .invalidPayload message details)

/-- The fields `Create` checks before it reads the clock. -/
structure Fields where
  creator : String
  plID : String
  payee : String
  refundTo : String
  amount : String
  currency : String
  conditionType : ConditionType

def checkFields (input : CreateInput) : Except Error Fields :=
  let plID := D.strs.trimSpace input.plID
  let payee := normalizeAddr D.strs input.payeeAddr
  let refundTo := normalizeAddr D.strs input.refundTo
  let currency := D.strs.toUpper (D.strs.trimSpace input.currency)
  if plID = "" ∨ 128 < plID.utf8ByteSize then
    invalid "pl_id is required (opaque PayLink reference, ≤128 chars)"
  else if payee = "" then invalid "payee_addr is required"
  else if refundTo = "" then invalid "refund_to is required"
  else match normalizeAmount D.strs input.amount with
    | .error m => invalid m [("amount", .text input.amount)]
    | .ok amount =>
      if currency = "" ∨ 16 < currency.utf8ByteSize then invalid "currency is required (≤16 chars)"
      else match ConditionType.ofText? input.conditionType with
        | none =>
          invalid "condition_type must be one of delivery_confirmation|time_lock|multi_party_approval"
            [("condition_type", .text input.conditionType)]
        | some type =>
          .ok { creator := normalizeAddr D.strs input.creatorAddr, plID := plID, payee := payee,
                refundTo := refundTo, amount := amount, currency := currency, conditionType := type }

def checkApprovers (strs : StringLib) : (seen : List String) → List String → Except Error (List String)
  | _, [] => .ok []
  | seen, a :: as =>
    let a := normalizeAddr strs a
    if a = "" then invalid "condition_params.approvers must not contain empty addresses"
    else if a ∈ seen then invalid "condition_params.approvers must be unique" [("approver", .text a)]
    else (checkApprovers strs (a :: seen) as).map (a :: ·)

/-- `validateCondition`: the canonical parameters, and `release_at` for a time lock. -/
def validateCondition (type : ConditionType) (p : ConditionParams) (now timeoutAt : Int) :
    Except Error (ConditionParams × Option Int) :=
  match type with
  | .deliveryConfirmation =>
    if p.releaseAt.isSome ∨ p.approvers ≠ [] ∨ p.threshold ≠ 0 then
      invalid "delivery_confirmation takes no condition_params"
    else .ok ({}, none)
  | .timeLock =>
    if p.approvers ≠ [] ∨ p.threshold ≠ 0 then invalid "time_lock takes only condition_params.release_at"
    else match p.releaseAt with
      | none => invalid "time_lock requires condition_params.release_at"
      | some releaseAt =>
        if releaseAt ≤ now then invalid "condition_params.release_at must be in the future"
        else if timeoutAt ≤ releaseAt then invalid "condition_params.release_at must be before timeout_at"
        else .ok ({ releaseAt := some releaseAt }, some releaseAt)
  | .multiPartyApproval =>
    if p.releaseAt.isSome then
      invalid "multi_party_approval takes only condition_params.approvers and .threshold"
    else if p.approvers = [] then
      invalid "multi_party_approval requires a non-empty condition_params.approvers list"
    else match checkApprovers D.strs [] p.approvers with
      | .error e => .error e
      | .ok approvers =>
        if p.threshold < 1 ∨ (approvers.length : Int) < p.threshold then
          invalid s!"condition_params.threshold must be between 1 and {approvers.length}"
            [("threshold", .int (Int64.ofInt p.threshold))]
        else .ok ({ approvers := approvers, threshold := p.threshold }, none)

def timeout (input : CreateInput) (now : Int) : Except Error Int :=
  match input.timeoutAt with
  | none => .ok (now + D.defaultTimeout)
  | some t => if t ≤ now then invalid "timeout_at must be in the future" else .ok t

def newEscrow (input : CreateInput) (f : Fields) (now : Int) : Except Error (String → Escrow) := do
  let timeoutAt ← timeout D input now
  let (params, releaseAt) ← validateCondition D f.conditionType input.conditionParams now timeoutAt
  return fun id =>
    { id := id, plID := f.plID, creatorAddr := f.creator, payeeAddr := f.payee, refundTo := f.refundTo,
      amount := f.amount, currency := f.currency, conditionType := f.conditionType,
      conditionParams := params, releaseAt := releaseAt, timeoutAt := timeoutAt, createdAt := now,
      updatedAt := now }

/-- `publish`: a failure is only logged. -/
def publish (name : EventName) (e : Escrow) : Proc Unit := do
  let _ ← Call.publish name e
  return ()

def create (input : CreateInput) : Proc (Except Error Escrow) := do
  match checkFields D input with
  | .error err => return .error err
  | .ok f =>
    let now ← Call.now
    match newEscrow D input f now with
    | .error err => return .error err
    | .ok mk =>
      let e := mk (← Call.newID)
      match ← Call.createEscrow e with
      | .error .exists =>
        return .error (newError .escrowExists "an escrow already exists for this PayLink"
          [("pl_id", .text e.plID)])
      | .error err => return .error err
      | .ok () =>
        publish .created e
        return .ok e

def orNotFound (id : String) : Error → Error
  | .notFound => newError .escrowNotFound "no escrow with that id" [("escrow_id", .text id)]
  | err => err

def confirm (id callerAddr : String) : Proc (Except Error Escrow) := do
  match ← Call.mutate id (.confirm (normalizeAddr D.strs callerAddr)) with
  | .error err => return .error (orNotFound id err)
  | .ok (e, left) =>
    if left.kinds ≠ [] then publish .released e
    return .ok e

def dispute (id callerAddr reason : String) : Proc (Except Error Escrow) := do
  let reason := D.strs.trimSpace reason
  if reason = "" then return invalid "reason is required"
  else
    match ← Call.mutate id (.dispute (normalizeAddr D.strs callerAddr) reason) with
    | .error err => return .error (orNotFound id err)
    | .ok (e, left) =>
      if left.disputed then publish .disputed e
      return .ok e

inductive ConsumeResult where
  | funded
  | released
  | duplicate
  | skipped
  | ignored
deriving DecidableEq, Repr

def handlePaylinkVerified (plID txHash : String) : Proc (Except Error ConsumeResult) := do
  match ← Call.applyFunding (D.strs.trimSpace plID) txHash with
  | .error .notFound => return .ok .ignored
  | .error err => return .error err
  | .ok (_, none) => return .ok .duplicate
  | .ok (e, some left) =>
    if left.kinds ≠ [] then
      publish .released e
      return .ok .released
    else if left.fundedNow then return .ok .funded
    else return .ok .skipped

def publishAll (name : EventName) : List Escrow → Proc Unit
  | [] => return ()
  | e :: es => do
    publish name e
    publishAll name es

/-- `Sweep`: errors are logged, and the pass goes on with the rows it was given. -/
def sweep : Proc Unit := do
  let now ← Call.now
  let (released, _) ← Call.releaseDueTimeLocks now
  publishAll .released released
  let (refunded, _) ← Call.refundTimedOut now
  publishAll .refunded refunded
end Service

inductive Request where
  | create (input : CreateInput)
  | confirm (id caller : String)
  | dispute (id caller reason : String)
  /-- The consumer's delivery of a `chain.paylink.verified` event, the first or a later one. -/
  | paylinkVerified (plID txHash : String)
  | sweep
deriving DecidableEq, Repr

inductive Reply where
  | escrow (r : Except Error Escrow)
  | consumed (r : Except Error Service.ConsumeResult)
  | swept

def handle (D : Deployment) : Request → Proc Reply
  | .create input => do return .escrow (← Service.create D input)
  | .confirm id caller => do return .escrow (← Service.confirm D id caller)
  | .dispute id caller reason => do return .escrow (← Service.dispute D id caller reason)
  | .paylinkVerified plID txHash => do return .consumed (← Service.handlePaylinkVerified D plID txHash)
  | .sweep => do
    Service.sweep
    return .swept

abbrev serve (_ : Nat) (_ : Request) (s : World) (i : Op) (c : Choice) : Option (i.Answer × World) :=
  perform s i c

def system (D : Deployment) : System Op Op.Answer Request World Choice Empty Reply where
  main := handle D
  serve := serve
  drift := fun _ w => nomatch w

end LinkMint.Escrows

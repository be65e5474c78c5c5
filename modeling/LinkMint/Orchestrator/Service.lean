import Std.Data.ExtTreeMap
import LinkMint.Lib.Process
import LinkMint.Orchestrator.Payment

/-!
# The orchestrator

`internal/domain/service.go` of payment-orchestrator over `internal/store/postgres` and `internal/store/memory`. A
call of the store is one step: the memory store holds its mutex, and a transaction of the Postgres store locks the row
of the payment before it reads it. Search, logging and metrics are left out, and so are the kind and the transaction
hash of a chain event.
-/

namespace LinkMint.Orchestrator

open LinkMint.Lib

def isSpace (c : Char) : Bool :=
  let n := c.toNat
  (9 ≤ n ∧ n ≤ 13) ∨ n ∈ [0x20, 0x85, 0xa0, 0x1680, 0x2028, 0x2029, 0x202f, 0x205f, 0x3000] ∨ (0x2000 ≤ n ∧ n ≤ 0x200a)

def trimSpace (h : List Char) : List Char := ((h.dropWhile isSpace).reverse.dropWhile isSpace).reverse

-- outside of ASCII no letter has one of the digits or the `x` of an id as its lower case

@[irreducible] def normalizeHash (h : String) : String :=
  let h := (trimSpace h.toList).map Char.toLower
  .ofList (if ['0', 'x'].isPrefixOf h then h else '0' :: 'x' :: h)

def isLowerHex (c : Char) : Bool := ('0' ≤ c ∧ c ≤ '9') ∨ ('a' ≤ c ∧ c ≤ 'f')

@[irreducible] def validHash (h : String) : Bool :=
  match h.toList with
  | '0' :: 'x' :: digits => digits.length = 64 ∧ digits.all isLowerHex
  | _ => false

def validRail (r : String) : Bool := r ∈ ["mpesa", "card", "bank", "crypto"]

inductive Final where
  | verified | cancelled | failed
  deriving DecidableEq

def Final.state : Final → State
  | .verified => .settled
  | .cancelled => .cancelled
  | .failed => .failed

abbrev Chain := List (String × Final)

def Chain.final? (chain : Chain) (id : String) : Option Final := List.lookup id chain

def Chain.settle (chain : Chain) (id : String) (f : Final) : Chain :=
  match chain.final? id with
  | some _ => chain
  | none => (id, f) :: chain

/-- What the chain may say of a PayLink: a final status only after it has been reached. -/
def Chain.says (chain : Chain) (id status : String) : Bool :=
  match fromChainStatus status with
  | none | some .awaitingPayment => true
  | some state => (chain.final? id).map Final.state = some state

structure EventRef where
  payLinkID : String
  seq : Nat

inductive Advance where
  | notFound
  | illegal (p : Payment)
  | done (p : Payment) (changed : Bool)
  deriving DecidableEq

abbrev ProjectFn := State → Except Unit (State × Bool)

structure Store (σ : Type) where
  empty : σ
  /-- `none` is `ErrPaymentExists`. -/
  createPayment : σ → Payment → Option σ
  getPayment : σ → String → Option Payment
  getPaymentByPayLink : σ → String → Option Payment
  applyChainEvent : σ → EventRef → ProjectFn → Time → Advance × σ
  reconcile : σ → String → ProjectFn → Time → Advance × σ

namespace Postgres
structure Tables where
  payments : List Payment := []
  appliedChainEvents : List (String × Nat) := []

def createPayment (s : Tables) (p : Payment) : Option Tables :=
  if s.payments.any fun q => q.id = p.id ∨ q.payLinkID = p.payLinkID then none
  else some { s with payments := s.payments ++ [p] }

def getPayment (s : Tables) (id : String) : Option Payment := s.payments.find? fun p => p.id = id

def getPaymentByPayLink (s : Tables) (payLinkID : String) : Option Payment :=
  s.payments.find? fun p => p.payLinkID = payLinkID

def update (s : Tables) (p : Payment) : Tables :=
  { s with payments := s.payments.map fun q => if q.id = p.id then p else q }

def applyChainEvent (s : Tables) (ev : EventRef) (project : ProjectFn) (now : Time) : Advance × Tables :=
  match getPaymentByPayLink s ev.payLinkID with
  | none => (.notFound, s)
  | some p =>
    if (ev.payLinkID, ev.seq) ∈ s.appliedChainEvents then (.done p false, s)
    else
      let s := { s with appliedChainEvents := (ev.payLinkID, ev.seq) :: s.appliedChainEvents }
      match project p.status with
      | .error _ => (.illegal p, s)
      | .ok (next, changed) =>
        let seq := max p.lastEventSeq ev.seq
        if changed then
          let p := { p with status := next, lastEventSeq := seq, updatedAt := now }
          (.done p true, update s p)
        else
          let p := { p with lastEventSeq := seq }
          (.done p false, update s p)

def reconcile (s : Tables) (payLinkID : String) (project : ProjectFn) (now : Time) : Advance × Tables :=
  match getPaymentByPayLink s payLinkID with
  | none => (.notFound, s)
  | some p =>
    match project p.status with
    | .error _ => (.illegal p, s)
    | .ok (next, changed) =>
      if changed then
        let p := { p with status := next, updatedAt := now }
        (.done p true, update s p)
      else (.done p false, s)

def store : Store Tables where
  empty := {}
  createPayment := createPayment
  getPayment := getPayment
  getPaymentByPayLink := getPaymentByPayLink
  applyChainEvent := applyChainEvent
  reconcile := reconcile
end Postgres

namespace Memory
structure Maps where
  byID : Std.ExtTreeMap String Payment := ∅
  byPL : Std.ExtTreeMap String String := ∅
  /-- Under `paylinkID:seq`; a PayLink id has no colon. -/
  applied : List (String × Nat) := []

def createPayment (s : Maps) (p : Payment) : Option Maps :=
  if s.byPL.contains p.payLinkID then none
  else some { s with byID := s.byID.insert p.id p, byPL := s.byPL.insert p.payLinkID p.id }

def getPayment (s : Maps) (id : String) : Option Payment := s.byID[id]?

def getPaymentByPayLink (s : Maps) (payLinkID : String) : Option Payment := s.byPL[payLinkID]?.bind (s.byID[·]?)

def applyChainEvent (s : Maps) (ev : EventRef) (project : ProjectFn) (now : Time) : Advance × Maps :=
  match getPaymentByPayLink s ev.payLinkID with
  | none => (.notFound, s)
  | some p =>
    if (ev.payLinkID, ev.seq) ∈ s.applied then (.done p false, s)
    else
      let s := { s with applied := (ev.payLinkID, ev.seq) :: s.applied }
      match project p.status with
      | .error _ => (.illegal p, s)
      | .ok (next, changed) =>
        if changed then
          let p := { p with status := next, lastEventSeq := max p.lastEventSeq ev.seq, updatedAt := now }
          (.done p true, { s with byID := s.byID.insert p.id p })
        else
          let p := { p with lastEventSeq := max p.lastEventSeq ev.seq }
          (.done p false, { s with byID := s.byID.insert p.id p })

def reconcile (s : Maps) (payLinkID : String) (project : ProjectFn) (now : Time) : Advance × Maps :=
  match getPaymentByPayLink s payLinkID with
  | none => (.notFound, s)
  | some p =>
    match project p.status with
    | .error _ => (.illegal p, s)
    | .ok (next, changed) =>
      if changed then
        let p := { p with status := next, updatedAt := now }
        (.done p true, { s with byID := s.byID.insert p.id p })
      else (.done p false, s)

def store : Store Maps where
  empty := {}
  createPayment := createPayment
  getPayment := getPayment
  getPaymentByPayLink := getPaymentByPayLink
  applyChainEvent := applyChainEvent
  reconcile := reconcile
end Memory

structure PayLinkRecord where
  status : String
  expiry : Option Time

structure ChainEventInput where
  payLinkID : String
  seq : Nat
  chainStatus : String

inductive Op where
  | getPayLink (id : String)
  | now
  | newID
  | createPayment (p : Payment)
  | getPayment (id : String)
  | getPaymentByPayLink (id : String)
  | payLinkStatus (id : String)
  | nextEvent
  | applyChainEvent (ev : EventRef) (chainStatus : String)
  | reconcile (payLinkID chainStatus : String)
  | publish (name : String) (p : Payment)

def Op.Answer : Op → Type
  | .getPayLink _ => Except String (Option PayLinkRecord)
  | .now => Time
  | .newID => String
  | .createPayment _ => Except String Bool
  | .getPayment _ | .getPaymentByPayLink _ => Except String (Option Payment)
  | .payLinkStatus _ => Except String (Option String)
  | .nextEvent => ChainEventInput
  | .applyChainEvent _ _ | .reconcile _ _ => Except String Advance
  | .publish _ _ => Unit

inductive Choice where
  | ok
  | failed (message : String)
  | payLink (r : Option PayLinkRecord)
  | time (t : Time)
  | id (s : String)
  | status (s : Option String)
  | event (e : ChainEventInput)

structure World (σ : Type) where
  store : σ
  chain : Chain := []
  published : List (String × Payment) := []
  /-- The payments that have been advanced, by which request, and are yet to be announced. -/
  owed : List (Nat × Payment) := []

section
variable {σ : Type} (S : Store σ)

def serveCreate (w : World σ) (p : Payment) : Choice → Option (Except String Bool × World σ)
  | .ok =>
    -- `uuid.NewString` does not repeat an id
    match S.getPayment w.store p.id with
    | some _ => none
    | none =>
      match S.createPayment w.store p with
      | none => some (.ok false, w)
      | some s => some (.ok true, { w with store := s })
  | .failed m => some (.error m, w)
  | _ => none

def serveRead (w : World σ) (p : Option Payment) : Choice → Option (Except String (Option Payment) × World σ)
  | .ok => some (.ok p, w)
  | .failed m => some (.error m, w)
  | _ => none

def servePayLinkStatus (w : World σ) (id : String) : Choice → Option (Except String (Option String) × World σ)
  | .status none => some (.ok none, w)
  | .status (some s) => if w.chain.says id s then some (.ok (some s), w) else none
  | .failed m => some (.error m, w)
  | _ => none

def serveNextEvent (w : World σ) : Choice → Option (ChainEventInput × World σ)
  | .event e => if w.chain.says (normalizeHash e.payLinkID) e.chainStatus then some (e, w) else none
  | _ => none

/-- A payment that has changed is to be announced by the request that changed it. -/
def serveAdvance (n : Nat) (w : World σ) (advance : Time → Advance × σ) : Choice → Option (Except String Advance × World σ)
  | .time t =>
    match advance t with
    | (.done p true, s) => some (.ok (.done p true), { w with store := s, owed := (n, p) :: w.owed })
    | (a, s) => some (.ok a, { w with store := s })
  | .failed m => some (.error m, w)
  | _ => none

def servePublish (n : Nat) (w : World σ) (name : String) (p : Payment) : Choice → Option (Unit × World σ)
  | .ok => some ((), { w with
      published := w.published ++ [(name, p)]
      owed := w.owed.filter fun x => x.1 ≠ n })
  | _ => none

def serve {ρ : Type} (n : Nat) (_ : ρ) (w : World σ) : (i : Op) → Choice → Option (i.Answer × World σ)
  | .getPayLink _, .payLink r => some (.ok r, w)
  | .getPayLink _, .failed m => some (.error m, w)
  | .getPayLink _, _ => none
  | .now, .time t => some (t, w)
  | .now, _ => none
  | .newID, .id s => some (s, w)
  | .newID, _ => none
  | .createPayment p, c => serveCreate S w p c
  | .getPayment id, c => serveRead w (S.getPayment w.store id) c
  | .getPaymentByPayLink id, c => serveRead w (S.getPaymentByPayLink w.store id) c
  | .payLinkStatus id, c => servePayLinkStatus w id c
  | .nextEvent, c => serveNextEvent w c
  | .applyChainEvent ev status, c =>
    serveAdvance n w (S.applyChainEvent w.store ev fun cur => project cur status) c
  | .reconcile id status, c => serveAdvance n w (S.reconcile w.store id fun cur => project cur status) c
  | .publish name p, c => servePublish n w name p c
end

abbrev Proc (α : Type) := Prog Op Op.Answer α

namespace Call
def getPayLink (id : String) : Proc (Except String (Option PayLinkRecord)) := Prog.op (Op.getPayLink id)

def now : Proc Time := Prog.op Op.now

def newID : Proc String := Prog.op Op.newID

def createPayment (p : Payment) : Proc (Except String Bool) := Prog.op (Op.createPayment p)

def getPayment (id : String) : Proc (Except String (Option Payment)) := Prog.op (Op.getPayment id)

def getPaymentByPayLink (id : String) : Proc (Except String (Option Payment)) := Prog.op (Op.getPaymentByPayLink id)

def payLinkStatus (id : String) : Proc (Except String (Option String)) := Prog.op (Op.payLinkStatus id)

def nextEvent : Proc ChainEventInput := Prog.op Op.nextEvent

def applyChainEvent (ev : EventRef) (chainStatus : String) : Proc (Except String Advance) :=
  Prog.op (Op.applyChainEvent ev chainStatus)

def reconcile (payLinkID chainStatus : String) : Proc (Except String Advance) := Prog.op (Op.reconcile payLinkID chainStatus)

def publish (name : String) (p : Payment) : Proc Unit := Prog.op (Op.publish name p)
end Call

inductive ErrorCode where
  | invalidPayload | payLinkNotFound | payLinkNotPayable | payLinkExpired | paymentExists | paymentNotFound
  deriving DecidableEq

inductive Failure where
  | refused (code : ErrorCode) (message : String) (details : List (String × String) := [])
  | notFound
  | passed (message : String)
  deriving DecidableEq

def afterTransition (updated : Payment) : Proc Unit :=
  match domainEventForState updated.status with
  | none => pure ()
  | some name => Call.publish name updated

def reconcile (p : Payment) : Proc (Payment × Bool) :=
  if isTerminal p.status then pure (p, false)
  else do
    match ← Call.payLinkStatus p.payLinkID with
    | .error _ => return (p, false)
    | .ok none => return (p, false)
    | .ok (some status) =>
      match ← Call.reconcile p.payLinkID status with
      | .error _ | .ok .notFound | .ok (.illegal _) => return (p, false)
      | .ok (.done updated changed) =>
        if changed then
          afterTransition updated
          return (updated, changed)
        else return (updated, changed)

def get (id : String) : Proc (Except Failure Payment) := do
  match ← Call.getPayment id with
  | .error m => return .error (.passed m)
  | .ok none => return .error (.refused .paymentNotFound "no payment with that id" [("payment_id", id)])
  | .ok (some p) =>
    let (updated, changed) ← reconcile p
    return .ok (if changed then updated else p)

/-- `ApplyChainEvent`, for the event the subscriber hands over: the payment, and whether it has changed. -/
def applyChainEvent : Proc (Except Failure (Payment × Bool)) := do
  let input ← Call.nextEvent
  let plID := normalizeHash input.payLinkID
  match ← Call.applyChainEvent { payLinkID := plID, seq := input.seq } input.chainStatus with
  | .error m => return .error (.passed m)
  | .ok .notFound => return .error .notFound
  | .ok (.illegal p) => return .ok (p, false)
  | .ok (.done updated changed) =>
    if changed then
      afterTransition updated
      return .ok (updated, changed)
    else return .ok (updated, changed)

def paymentExists (plID : String) : Proc (Except Failure Payment) := do
  let details := match ← Call.getPaymentByPayLink plID with
    | .ok (some existing) => [("payment_id", existing.id), ("status", existing.status.value)]
    | _ => []
  return .error (.refused .paymentExists "a payment already exists for this PayLink" (("paylink_id", plID) :: details))

def record (plID rail : String) : Proc (Except Failure Payment) := do
  let now ← Call.now
  let id ← Call.newID
  let p : Payment :=
    { id, payLinkID := plID, rail, status := .awaitingPayment, createdAt := now, updatedAt := now }
  match ← Call.createPayment p with
  | .error m => return .error (.passed m)
  | .ok false => paymentExists plID
  | .ok true =>
    Call.publish eventPaymentInitiated p
    return .ok p

section
variable (format : Time → String)

def initiate (payLinkID rail : String) : Proc (Except Failure Payment) :=
  let plID := normalizeHash payLinkID
  if ¬ validHash plID then
    pure (.error (.refused .invalidPayload "paylink_id must be a 0x-prefixed 32-byte hex hash"))
  else if ¬ validRail rail then
    pure (.error (.refused .invalidPayload "rail must be one of mpesa|card|bank|crypto" [("rail", rail)]))
  else do
    match ← Call.getPayLink plID with
    | .error m => return .error (.passed m)
    | .ok none => return .error (.refused .payLinkNotFound "no PayLink with that id" [("paylink_id", plID)])
    | .ok (some rec) =>
      if rec.status ∉ ["CREATED", "PENDING"] then
        return .error (.refused .payLinkNotPayable ("PayLink is " ++ rec.status ++ " and cannot accept a new payment")
          [("paylink_id", plID), ("status", rec.status)])
      else
        match rec.expiry with
        | none => record plID rail
        | some expiry =>
          let now ← Call.now
          if expiry < now then
            return .error (.refused .payLinkExpired "PayLink has expired" [("paylink_id", plID), ("expiry", format expiry)])
          else record plID rail

inductive Request where
  | initiate (payLinkID rail : String)
  | applyChainEvent
  | get (id : String)

inductive Response where
  | initiated (r : Except Failure Payment)
  | applied (r : Except Failure (Payment × Bool))
  | got (r : Except Failure Payment)

def handle : Request → Proc Response
  | .initiate payLinkID rail => do return .initiated (← initiate format payLinkID rail)
  | .applyChainEvent => do return .applied (← applyChainEvent)
  | .get id => do return .got (← get id)

structure Settlement where
  payLinkID : String
  final : Final

def system {σ : Type} (S : Store σ) : System Op Op.Answer Request (World σ) Choice Settlement Response where
  main := handle format
  serve := serve S
  drift w x := { w with chain := w.chain.settle x.payLinkID x.final }
end
end LinkMint.Orchestrator

import LinkMint.Lib.Process
import LinkMint.Settle.Types

/-!
# The world the services share

`World` is what the calls read and write: the adapter's correlations, the Redis slots of the idempotency store, the
rows of the proof table, and the nonce manager of the settlement signer.
-/

namespace LinkMint.Settle

open LinkMint.Lib LinkMint.Chain

/-! ## State -/

structure Correlation where
  payLinkID : String
  amount : UInt64
  receiver : String
  payerPhone : String
deriving DecidableEq, Repr

/-- `record` of the idempotency store: pending, or completed with the response to replay. -/
structure IdemRecord where
  fp : Hash
  completed : Option Response := none
deriving DecidableEq, Repr

/-- A `TxSubmitValidation`: sender, nonce, PayLink and proof hash. -/
structure SettlementTx where
  fromAddr : Address
  nonce : Nat
  payLinkID : Hash
  proofHash : Hash
deriving DecidableEq, Repr

/-- What `paylink_getPayLink` answers, as far as the validator reads it. -/
structure PayLinkState where
  status : String
  amount : UInt64
  expiry : Int64
deriving DecidableEq, Repr

inductive Event where
  | correlated (rec : Correlation)
  | proofUsed (h : Hash) (used : Bool)
  | inserted (h : Hash)
  /-- A settlement was handed to `SendTransaction`; the chain took it in, or did not. -/
  | sent (tx : SettlementTx) (accepted : Bool)
  | answered (resp : Response)
deriving DecidableEq, Repr

structure World where
  correlations : String → Option Correlation := fun _ => none
  slots : String → Option IdemRecord := fun _ => none
  proofs : Hash → Option ProofRecord := fun _ => none
  nonceLocked : Bool := false
  nextNonce : Address → Nat := fun _ => 0
  log : List (Nat × Event) := []

def World.note (s : World) (n : Nat) (e : Event) : World := { s with log := (n, e) :: s.log }

/-! ## Calls -/

inductive Rpc (α : Type) where
  | result (a : α)
  | rpcError (message : String)
  | transport (message : String)
deriving DecidableEq, Repr

/-- How `InsertProof` ended. -/
inductive Inserted where
  | ok
  | proofExists
  | failed (message : String)
deriving DecidableEq, Repr

/-- How the adapter's `http.Do` ended, the validator having answered `status`. -/
inductive Delivered where
  | whole
  | cut (message : String)
  | unreachable (message : String)
deriving DecidableEq, Repr

inductive Op where
  | correlationGet (id : String)
  | now
  | sign (p : Proof)
  | request
  | respond (resp : Response)
  | setNX (key : String) (fp : Hash)
  /-- `Get` in the given attempt of `Begin`. -/
  | slotGet (key : String) (attempt : Nat)
  | slotSet (key : String) (rec : IdemRecord)
  | slotDel (key : String)
  | isProofUsed (h : Hash)
  | getPayLink (id : String)
  | insertProof (rec : ProofRecord)
  | getByProofHash (h : Hash)
  | markBroadcast (h : Hash) (txHash : String) (status : ProofStatus)
  | lockNonce
  | getNonce (a : Address)
  | localNonce (a : Address)
  /-- `commit`: with `some n`, the local counter moves to `n`; the lock is released. -/
  | commitNonce (a : Address) (next : Option Nat)
  | signTx (tx : SettlementTx)
  | sendTransaction (tx : SettlementTx)

def Op.Answer : Op → Type
  | .correlationGet _ => Except String (Option Correlation)
  | .now => Int64
  | .sign _ => Except String String
  | .request => Except String Unit
  | .respond _ => Delivered
  | .setNX _ _ => Except String Bool
  | .slotGet _ _ => Except String (Option IdemRecord)
  | .slotSet _ _ | .slotDel _ => Except String Unit
  | .isProofUsed _ => Rpc Bool
  | .getPayLink _ => Rpc PayLinkState
  | .insertProof _ => Inserted
  | .getByProofHash _ => Except String (Option ProofRecord)
  | .markBroadcast _ _ _ => Except String Unit
  | .lockNonce | .commitNonce _ _ => Unit
  | .getNonce _ => Rpc Nat
  | .localNonce _ => Nat
  | .signTx _ => Except String Unit
  | .sendTransaction _ => Rpc String

inductive Choice where
  | ok
  | failed (message : String)
  | lost (message : String)
  | time (t : Int64)
  | text (s : String)
  | delivered (d : Delivered)
  | used (reply : Rpc Bool)
  | payLink (reply : Rpc PayLinkState)
  | nonce (reply : Rpc Nat)
  /-- The chain's reply to a transaction, and whether it took it into the mempool. -/
  | sent (reply : Rpc String) (accepted : Bool)

/-- A reply the node can give: a hash means that it has accepted the transaction, an error of its own
    that it has not; without an answer it may be either. -/
def Rpc.consistent : Rpc String → Bool → Bool
  | .result _, accepted => accepted
  | .rpcError _, accepted => !accepted
  | .transport _, _ => true

abbrev Proc (α : Type) := Prog Op Op.Answer α

/-! The calls as programs, each at its own answer type. -/

namespace Call
abbrev correlationGet (id : String) : Proc (Except String (Option Correlation)) :=
  Prog.op (Op.correlationGet id)
abbrev now : Proc Int64 := Prog.op Op.now
abbrev sign (p : Proof) : Proc (Except String String) := Prog.op (Op.sign p)
abbrev request : Proc (Except String Unit) := Prog.op Op.request
abbrev respond (resp : Response) : Proc Delivered := Prog.op (Op.respond resp)
abbrev setNX (key : String) (fp : Hash) : Proc (Except String Bool) := Prog.op (Op.setNX key fp)
abbrev slotGet (key : String) (attempt : Nat) : Proc (Except String (Option IdemRecord)) :=
  Prog.op (Op.slotGet key attempt)
abbrev slotSet (key : String) (rec : IdemRecord) : Proc (Except String Unit) :=
  Prog.op (Op.slotSet key rec)
abbrev slotDel (key : String) : Proc (Except String Unit) := Prog.op (Op.slotDel key)
abbrev isProofUsed (h : Hash) : Proc (Rpc Bool) := Prog.op (Op.isProofUsed h)
abbrev getPayLink (id : String) : Proc (Rpc PayLinkState) := Prog.op (Op.getPayLink id)
abbrev insertProof (rec : ProofRecord) : Proc Inserted := Prog.op (Op.insertProof rec)
abbrev getByProofHash (h : Hash) : Proc (Except String (Option ProofRecord)) :=
  Prog.op (Op.getByProofHash h)
abbrev markBroadcast (h : Hash) (txHash : String) (status : ProofStatus) : Proc (Except String Unit) :=
  Prog.op (Op.markBroadcast h txHash status)
abbrev lockNonce : Proc Unit := Prog.op Op.lockNonce
abbrev getNonce (a : Address) : Proc (Rpc Nat) := Prog.op (Op.getNonce a)
abbrev localNonce (a : Address) : Proc Nat := Prog.op (Op.localNonce a)
abbrev commitNonce (a : Address) (next : Option Nat) : Proc Unit := Prog.op (Op.commitNonce a next)
abbrev signTx (tx : SettlementTx) : Proc (Except String Unit) := Prog.op (Op.signTx tx)
abbrev sendTransaction (tx : SettlementTx) : Proc (Rpc String) := Prog.op (Op.sendTransaction tx)
end Call

/-! ## The environment -/

def write (s s' : World) : Choice → Option (Except String Unit × World)
  | .ok => some (.ok (), s')
  | .failed m => some (.error m, s)
  | .lost m => some (.error m, s')
  | _ => none

def read {α : Type} (s : World) (a : α) : Choice → Option (Except String α × World)
  | .ok => some (.ok a, s)
  | .failed m => some (.error m, s)
  | _ => none

/-- `SETNX`: the slot is taken when it is free. -/
def serveSetNX (s : World) (key : String) (fp : Hash) : Choice → Option (Except String Bool × World)
  | .ok =>
    if s.slots key = none then some (.ok true, taken) else some (.ok false, s)
  | .failed m => some (.error m, s)
  | .lost m => if s.slots key = none then some (.error m, taken) else none
  | _ => none
where
  taken : World := { s with slots := Function.update s.slots key (some { fp := fp }) }

/-- `INSERT`, with the proof hash as primary key. -/
def serveInsertProof (n : Nat) (s : World) (rec : ProofRecord) : Choice → Option (Inserted × World)
  | .ok =>
    if s.proofs rec.proofHash = none then some (.ok, stored.note n (.inserted rec.proofHash))
    else some (.proofExists, s)
  | .failed m => some (.failed m, s)
  | .lost m => if s.proofs rec.proofHash = none then some (.failed m, stored) else none
  | _ => none
where
  stored : World := { s with proofs := Function.update s.proofs rec.proofHash (some rec) }

/-- `UPDATE`, which finds the row or says that there is none. -/
def serveMarkBroadcast (s : World) (h : Hash) (txHash : String) (status : ProofStatus) (c : Choice) :
    Option (Except String Unit × World) :=
  match s.proofs h with
  | some rec =>
    let row := { rec with txHash := txHash, status := status }
    write s { s with proofs := Function.update s.proofs h (some row) } c
  | none =>
    match c with
    | .ok => some (.error "proof not found", s)
    | .failed m => some (.error m, s)
    | _ => none

def serveCorrelationGet (n : Nat) (s : World) (id : String) :
    Choice → Option (Except String (Option Correlation) × World)
  | .ok =>
    match s.correlations id with
    | some rec => some (.ok (some rec), s.note n (.correlated rec))
    | none => some (.ok none, s)
  | .failed m => some (.error m, s)
  | _ => none

def serveIsProofUsed (n : Nat) (s : World) (h : Hash) : Choice → Option (Rpc Bool × World)
  | .used (.result b) => some (.result b, s.note n (.proofUsed h b))
  | .used reply => some (reply, s)
  | _ => none

def serveSendTransaction (n : Nat) (s : World) (tx : SettlementTx) : Choice → Option (Rpc String × World)
  | .sent reply accepted =>
    if reply.consistent accepted then some (reply, s.note n (.sent tx accepted)) else none
  | _ => none

def serveRespond (n : Nat) (s : World) (resp : Response) : Choice → Option (Delivered × World)
  | .delivered (.unreachable m) => some (.unreachable m, s)
  | .delivered d => some (d, s.note n (.answered resp))
  | _ => none

def always {α : Type} (a : α) (s : World) : Choice → Option (α × World)
  | .ok => some (a, s)
  | _ => none

def serveLockNonce (s : World) : Choice → Option (Unit × World)
  | .ok => if s.nonceLocked then none else some ((), { s with nonceLocked := true })
  | _ => none

def commitNonceTo (s : World) (a : Address) : Option Nat → World
  | some next => { s with nonceLocked := false, nextNonce := Function.update s.nextNonce a next }
  | none => { s with nonceLocked := false }

def serve {ρ : Type} (n : Nat) (_ : ρ) (s : World) : (i : Op) → Choice → Option (i.Answer × World)
  | .correlationGet id => serveCorrelationGet n s id
  | .now => fun
    | .time t => some (t, s)
    | _ => none
  | .sign _ => fun
    | .text sig => some (.ok sig, s)
    | .failed m => some (.error m, s)
    | _ => none
  | .request => read s ()
  | .respond resp => serveRespond n s resp
  | .setNX key fp => serveSetNX s key fp
  | .slotGet key _ => read s (s.slots key)
  | .slotSet key rec => write s { s with slots := Function.update s.slots key (some rec) }
  | .slotDel key => write s { s with slots := Function.update s.slots key none }
  | .isProofUsed h => serveIsProofUsed n s h
  | .getPayLink _ => fun
    | .payLink reply => some (reply, s)
    | _ => none
  | .insertProof rec => serveInsertProof n s rec
  | .getByProofHash h => read s (s.proofs h)
  | .markBroadcast h txHash status => serveMarkBroadcast s h txHash status
  | .lockNonce => serveLockNonce s
  | .getNonce _ => fun
    | .nonce reply => some (reply, s)
    | _ => none
  | .localNonce a => always (s.nextNonce a) s
  | .commitNonce a next => always () (commitNonceTo s a next)
  | .signTx _ => read s ()
  | .sendTransaction tx => serveSendTransaction n s tx

/-! ## What happens outside any request -/

inductive Drift where
  /-- `InitiateCharge` stores a correlation, and later it expires. -/
  | correlate (id : String) (rec : Correlation)
  | expireCorrelation (id : String)
  | expireSlot (key : String)
  | restart

def drift (s : World) : Drift → World
  | .correlate id rec => { s with correlations := Function.update s.correlations id (some rec) }
  | .expireCorrelation id => { s with correlations := Function.update s.correlations id none }
  | .expireSlot key => { s with slots := Function.update s.slots key none }
  | .restart => { s with nonceLocked := false, nextNonce := fun _ => 0 }

end LinkMint.Settle

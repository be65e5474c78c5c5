import LinkMint.Chain.Gossip

/-!
# Submitting transactions

`paylink_sendTransaction` (`internal/rpc/handlers.go`), and the nonce manager that numbers what a signer submits (the
same in the proof-validator and in the paylink-service).
-/

namespace LinkMint.Chain

structure RpcError where
  code : Int
  message : String
deriving DecidableEq, Repr

namespace RpcError
def invalidParams (message : String) : RpcError := { code := -32602, message := message }

def internal (message : String) : RpcError := { code := -32603, message := message }
end RpcError

variable {env : Env}

theorem Paylinkd.exec_idle (node : Paylinkd env) : node.exec.Idle := node.idle

/-- `sendTransaction`, from the decoded request on: the answer is the hash the transaction is known by. -/
def Paylinkd.sendTransaction (srt : NonceSort) (node : Paylinkd env) (tx : Transaction) :
    Except RpcError Hash × Paylinkd env :=
  if maxTxPayloadBytes < tx.payload.length then
    (.error (.invalidParams
      s!"payload too large: {tx.payload.length} bytes (max {maxTxPayloadBytes})"), node)
  else
    let tx := { tx with hash := env.sha256 (signableBytes env tx) }
    match verifyTx env tx with
    | .error e => (.error (.invalidParams s!"signature verification failed: {e}"), node)
    | .ok () =>
      match node.mempool.add srt tx with
      | .error e => (.error (.internal e), node)
      | .ok mempool => (.ok tx.hash, { node with mempool := mempool, idle := node.exec_idle })

inductive Submission where
  | none
  | reserved (nonce : Nat)
  | sent (nonce : Nat) (accepted : Bool)
deriving DecidableEq, Repr

structure NonceManager (env : Env) where
  node : Paylinkd env
  signer : Address
  next : Nat := 0
  current : Submission := .none

namespace NonceManager
def chainNonce (m : NonceManager env) : Nat := m.node.exec.db.live.getNonce m.signer

def nextReserved (m : NonceManager env) : Nat := max m.chainNonce m.next

inductive Op where
  | reserve
  /-- The submission fails before it is sent: `commit(false)`. -/
  | release
  | send (tx : Transaction)
  | commit (replied : Bool)
  | chain (op : Paylinkd.Op)

/-- `Reserve`. -/
def reserve (m : NonceManager env) : NonceManager env :=
  match m.current with
  | .none => { m with current := .reserved m.nextReserved }
  | _ => m

def release (m : NonceManager env) : NonceManager env :=
  match m.current with
  | .reserved _ => { m with current := .none }
  | _ => m

def send (srt : NonceSort) (m : NonceManager env) (tx : Transaction) : NonceManager env :=
  match m.current with
  | .reserved nonce =>
    if tx.fromAddr = m.signer ∧ tx.nonce = nonce then
      let r := m.node.sendTransaction srt tx
      { m with node := r.2, current := .sent nonce r.1.isOk }
    else m
  | _ => m

/-- `commit`: the counter moves when the submitter knows that the transaction was accepted. -/
def commit (m : NonceManager env) (replied : Bool) : NonceManager env :=
  match m.current with
  | .sent nonce accepted =>
    { m with next := if accepted && replied then nonce + 1 else m.next, current := .none }
  | _ => m

def step (srt : NonceSort) (m : NonceManager env) : Op → NonceManager env
  | .reserve => m.reserve
  | .release => m.release
  | .send tx => m.send srt tx
  | .commit replied => m.commit replied
  | .chain op => { m with node := m.node.step srt op }

def start (node : Paylinkd env) (signer : Address) : NonceManager env :=
  { node := node, signer := signer }

/-- **What serving a transaction can do**: refuse it, or take the authenticated transaction in. -/
theorem sendTransaction_cases (srt : NonceSort) (node : Paylinkd env) (tx : Transaction) :
    (∃ e, node.sendTransaction srt tx = (.error e, node)) ∨
    ∃ hash mempool, node.sendTransaction srt tx = (.ok hash, { node with mempool := mempool }) ∧
      verifyTx env { tx with hash := hash } = .ok () ∧
      Mempool.Added node.mempool { tx with hash := hash } mempool := by
  unfold Paylinkd.sendTransaction
  split
  · exact .inl ⟨_, rfl⟩
  · simp only
    split
    · exact .inl ⟨_, rfl⟩
    · next hsigned =>
      rcases Mempool.add_cases srt node.mempool
          { tx with hash := env.sha256 (signableBytes env tx) } with
        ⟨-, hadd⟩ | ⟨-, -, hadd⟩ | ⟨mempool, hadd, hadded⟩
      · rw [hadd]
        exact .inl ⟨_, rfl⟩
      · rw [hadd]
        exact .inl ⟨_, rfl⟩
      · rw [hadd]
        exact .inr ⟨_, mempool, rfl, hsigned, hadded⟩
end NonceManager
end LinkMint.Chain

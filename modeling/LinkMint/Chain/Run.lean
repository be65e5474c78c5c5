import LinkMint.Lib.Runs
import LinkMint.Chain.Effect

/-!
# Runs of the chain

A run is a finite sequence of `ExecuteBlock` calls from genesis, each with any transactions and any timestamp.
-/

namespace LinkMint.Chain

open LinkMint.Lib

structure BlockCall where
  timestamp : Int64
  txs : List Transaction

variable (env : Env)

def newExecutor (g : GenesisConfig) (eventBus : Bool) : Executor :=
  { db := newStateDB g, eventBus := eventBus }

def runBlocks (ex : Executor) (calls : List BlockCall) : Executor :=
  calls.foldl (fun ex call => (ex.executeBlock env call.timestamp call.txs).2) ex

abbrev TimedTx := Transaction × Int64

def timedTxs (calls : List BlockCall) : List TimedTx :=
  calls.flatMap fun call => call.txs.map fun tx => (tx, call.timestamp)

def stepTx (cp : ChainParams) (s : Snapshot) (a : TimedTx) : Snapshot := applyTx env cp s a.1 a.2

def reached (g : GenesisConfig) (calls : List BlockCall) : Snapshot :=
  (timedTxs calls).foldl (stepTx env (.ofGenesis g)) (newStateDB g).live

/-- Every transaction of a run from genesis, with the live state it was executed in. -/
def history (g : GenesisConfig) (calls : List BlockCall) : List (Snapshot × TimedTx) :=
  trace (stepTx env (.ofGenesis g)) (newStateDB g).live (timedTxs calls)

variable {env}

theorem runBlocks_db (ex : Executor) (calls : List BlockCall) : (runBlocks env ex calls).db =
      { ex.db with live := (timedTxs calls).foldl (stepTx env ex.db.params) ex.db.live } := by
  induction calls generalizing ex with
  | nil => rfl
  | cons call calls ih =>
    obtain ⟨-, hdb, -, -⟩ := executeBlock_spec env ex call.timestamp call.txs
    show (runBlocks env (ex.executeBlock env call.timestamp call.txs).2 calls).db = _
    rw [ih, hdb]
    simp only [timedTxs, List.flatMap_cons, List.foldl_append, List.foldl_map]
    rfl

theorem runBlocks_live (g : GenesisConfig) (eventBus : Bool) (calls : List BlockCall) :
    (runBlocks env (newExecutor g eventBus) calls).db.live = reached env g calls := by
  rw [runBlocks_db]
  rfl

def Reachable (env : Env) (g : GenesisConfig) (s : Snapshot) : Prop :=
  ∃ eventBus calls, (runBlocks env (newExecutor g eventBus) calls).db.live = s

theorem Reachable.invariant {I : Snapshot → Prop} {g : GenesisConfig} {s : Snapshot}
    (h : Reachable env g s) (init : I (newStateDB g).live) (next : ∀ s a, I s → I (stepTx env (.ofGenesis g) s a)) : I s := by
  obtain ⟨eventBus, calls, rfl⟩ := h
  rw [runBlocks_live]
  exact history_induction (I := fun _ s => I s) init (fun _ s a => next s a) (timedTxs calls)

/-- The transaction authenticates and carries its sender's nonce: `ExecuteBlock` gets as far as its handler. -/
def Admitted (env : Env) (s : Snapshot) (tx : Transaction) : Prop :=
  verifyTx env tx = .ok () ∧ tx.nonce = s.getNonce tx.fromAddr

instance (env : Env) (s : Snapshot) (tx : Transaction) : Decidable (Admitted env s tx) :=
  inferInstanceAs (Decidable (_ ∧ _))

def succeeded (env : Env) (cp : ChainParams) (e : Snapshot × TimedTx) : Bool :=
  (outcome env cp e.1 e.2.1 e.2.2).isOk

/-- A step either succeeds, with an effect and the sender's nonce moved, or changes nothing. -/
theorem stepTx_cases (env : Env) (cp : ChainParams) (s : Snapshot) (a : TimedTx) : (succeeded env cp (s, a) = true ∧
      ∃ s₁, Step env cp s a.1 a.2 s₁ ∧ stepTx env cp s a = s₁.incrementNonce a.1.fromAddr) ∨
    (succeeded env cp (s, a) = false ∧ stepTx env cp s a = s) := by
  rcases applyTx_cases env cp s a.1 a.2 with ⟨s₁, hs, heq⟩ | ⟨⟨e, hfail⟩, heq⟩
  · obtain ⟨t, hok, -⟩ := outcome_ok_iff.mpr ⟨s₁, hs, rfl⟩
    refine .inl ⟨?_, s₁, hs, heq⟩
    rw [succeeded, hok]
    rfl
  · refine .inr ⟨?_, heq⟩
    rw [succeeded, hfail]
    rfl

end LinkMint.Chain

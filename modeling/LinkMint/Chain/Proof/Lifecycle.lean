import LinkMint.Chain.Fsm
import LinkMint.Chain.Testnet
import LinkMint.Chain.Proof.Change

/-!
# The handlers against the declared lifecycle

`NewPayLinkFSM` says how a PayLink's status may move and where it ends; the handlers set
statuses without asking it.
-/

namespace LinkMint.Chain

open LinkMint.Lib Std

def statusIn (s : Snapshot) (id : Hash) : Status := (s.paylinks[id]?).elim .none (·.status)

def Declared (old new : Status) : Prop :=
  old = new ∨ Fsm.newPayLinkFSM.Permits (statusToFSMState old) (statusToFSMState new)

def Status.Final (st : Status) : Prop := st = .verified ∨ st = .failed ∨ st = .cancelled

namespace Declared
theorem refl (st : Status) : Declared st st := .inl rfl

theorem opened : Declared .none .created := .inr (Fsm.Machine.permits_of_lookup .payLinkCreate rfl)

theorem settled : Declared .created .verified := .inr (Fsm.Machine.permits_of_lookup .payLinkSettle rfl)

theorem cancelled : Declared .created .cancelled := .inr (Fsm.Machine.permits_of_lookup .payLinkCancel rfl)

theorem failed {st : Status} (hv : st ≠ .verified) (hc : st ≠ .cancelled) : Declared st .failed := by
  cases st with
  | none => exact .inr (Fsm.Machine.permits_of_lookup .payLinkFail rfl)
  | created => exact .inr (Fsm.Machine.permits_of_lookup .payLinkFail rfl)
  | verified => exact absurd rfl hv
  | failed => exact refl _
  | cancelled => exact absurd rfl hc

theorem of_final {old new : Status} (hf : old.Final) (h : Declared old new) : new = old := by
  rcases h with rfl | hp
  · rfl
  · obtain ⟨t, ht, hsource, -⟩ := hp.exists_mem
    -- every transition of the table starts at NONE or CREATED
    have hstart : ∀ t ∈ Fsm.newPayLinkFSM.transitions, t.source = .payLinkNone ∨ t.source = .payLinkCreated := by decide
    rcases hf with rfl | rfl | rfl
    · rcases hstart t ht with h | h <;> simp [hsource, statusToFSMState] at h
    · rcases hstart t ht with h | h <;> simp [hsource, statusToFSMState] at h
    · rcases hstart t ht with h | h <;> simp [hsource, statusToFSMState] at h
end Declared

def FailOpen (env : Env) (cp : ChainParams) (s : Snapshot) (a : TimedTx) : Prop :=
  TxKind.ofCode a.1.type = some .failPayLink → Admitted env s a.1 → a.1.fromAddr = cp.adminAddress →
      ∀ p pl, env.decode.failPayLink a.1.payload = .ok p → s.paylinks[p.payLinkID]? = some pl →
        pl.status ≠ .verified ∧ pl.status ≠ .cancelled

section Step

variable {env : Env} {cp : ChainParams} {s s' : Snapshot} {a : TimedTx}
  {paylinks : ExtTreeMap Hash PayLink}

theorem declared_insert {id : Hash} {pl : PayLink} (h : Declared (statusIn s id) pl.status) (id' : Hash) :
    Declared (statusIn s id') (((s.paylinks.insert id pl)[id']?).elim .none (·.status)) := by
  rw [getElem?_insert_eq]
  split
  · next hid =>
    subst hid
    exact h
  · exact .refl _

theorem statusIn_of_getElem? {id : Hash} {pl : PayLink} (found : s.paylinks[id]? = some pl) : statusIn s id = pl.status := by
  rw [statusIn, found]
  rfl

theorem declared_put {id : Hash} {pl pl' : PayLink} (found : s.paylinks[id]? = some pl)
    (h : Declared pl.status pl'.status) (id' : Hash) :
    Declared (statusIn s id') (((s.paylinks.insert id pl')[id']?).elim .none (·.status)) := by
  refine declared_insert ?_ id'
  rw [statusIn_of_getElem? found]
  exact h

theorem PayLinkChange.declared (hc : PayLinkChange env cp s a.1 a.2 paylinks)
    (safe : FailOpen env cp s a) (hadm : Admitted env s a.1) (id : Hash) :
    Declared (statusIn s id) ((paylinks[id]?).elim .none (·.status)) := by
  cases hc with
  | same => exact .refl _
  | opened _ _ fresh =>
    refine declared_insert ?_ id
    rw [statusIn, fresh]
    exact .opened
  | voted _ ballot =>
    refine declared_put ballot.found ?_ id
    exact .refl _
  | settled _ ballot =>
    refine declared_put ballot.found ?_ id
    rw [ballot.created]
    exact .settled
  | cancelled _ found created =>
    refine declared_put found ?_ id
    rw [created]
    exact .cancelled
  | failed kind admin payload found =>
    obtain ⟨hv, hc⟩ := safe kind hadm admin _ _ payload found
    exact declared_put found (.failed hv hc) id
  | transferred _ found =>
    refine declared_put found ?_ id
    exact .refl _
  | approved _ found =>
    refine declared_put found ?_ id
    exact .refl _

theorem stepTx_declared (safe : FailOpen env cp s a) (id : Hash) :
    Declared (statusIn s id) (statusIn (stepTx env cp s a) id) := by
  rcases stepTx_cases env cp s a with ⟨-, s₁, hs, heq⟩ | ⟨-, heq⟩
  · rw [heq]
    exact hs.effect.changes.paylinks.declared safe ⟨hs.signed, hs.nonce⟩ id
  · rw [heq]
    exact .refl _
end Step

structure Lifecycle (env : Env) (cp : ChainParams) (tr : List (Snapshot × TimedTx))
    (s : Snapshot) : Prop where
  declared : ∀ e ∈ tr, ∀ id, Declared (statusIn e.1 id) (statusIn (stepTx env cp e.1 e.2) id)
  final : ∀ e ∈ tr, ∀ id, (statusIn e.1 id).Final → statusIn s id = statusIn e.1 id

theorem Lifecycle.step {env : Env} {cp : ChainParams} {tr : List (Snapshot × TimedTx)}
    {s : Snapshot} {a : TimedTx} (h : Lifecycle env cp tr s) (safe : FailOpen env cp s a) :
    Lifecycle env cp (tr ++ [(s, a)]) (stepTx env cp s a) := by
  have hstep := stepTx_declared safe
  refine ⟨fun e he id => ?_, fun e he id hf => ?_⟩
  · rcases List.mem_append.mp he with hold | hnew
    · exact h.declared e hold id
    · obtain rfl := List.mem_singleton.mp hnew
      exact hstep id
  · rcases List.mem_append.mp he with hold | hnew
    · -- final before this step, so final at it, so unmoved by it
      have hsame := h.final e hold id hf
      rw [← hsame] at hf ⊢
      exact (hstep id).of_final hf
    · obtain rfl := List.mem_singleton.mp hnew
      exact (hstep id).of_final hf

/-- **The PayLink lifecycle refines the declared machine.** -/
theorem lifecycle_refines (env : Env) (eventBus : Bool) (g : GenesisConfig)
    (calls : List BlockCall)
    (safe : ∀ e ∈ history env g calls, FailOpen env (.ofGenesis g) e.1 e.2) :
    (∀ e ∈ history env g calls, ∀ id, let new := statusIn (stepTx env (.ofGenesis g) e.1 e.2) id
      statusIn e.1 id ≠ new → Fsm.newPayLinkFSM.Permits (statusToFSMState (statusIn e.1 id)) (statusToFSMState new)) ∧
    (∀ e ∈ history env g calls, ∀ id, (statusIn e.1 id).Final →
      statusIn (runBlocks env (newExecutor g eventBus) calls).db.live id = statusIn e.1 id) := by
  have h : Lifecycle env (.ofGenesis g) (history env g calls) (reached env g calls) :=
    trace_induction ⟨by simp, by simp⟩ (fun _ _ _ h safe => h.step safe) (timedTxs calls) safe
  rw [runBlocks_live]
  refine ⟨fun e he id hne => ?_, h.final⟩
  rcases h.declared e he id with heq | hp
  · exact absurd heq hne
  · exact hp

instance (env : Env) (cp : ChainParams) (s : Snapshot) (a : TimedTx) : Decidable (FailOpen env cp s a) :=
  decidable_of_iff
    (TxKind.ofCode a.1.type = some .failPayLink → Admitted env s a.1 → a.1.fromAddr = cp.adminAddress →
        (env.decode.failPayLink a.1.payload).toOption.all (fun p =>
          (s.paylinks[p.payLinkID]?).all (fun pl =>
            pl.status ≠ .verified ∧ pl.status ≠ .cancelled) = true) = true) <| by
    constructor
    · intro h hk ha hadmin p pl hp found
      have h' := h hk ha hadmin
      rw [hp] at h'
      simp only [Except.toOption, Option.all_some, decide_eq_true_eq] at h'
      rw [found] at h'
      simpa only [Option.all_some, decide_eq_true_eq] using h'
    · intro h hk ha hadmin
      cases hp : env.decode.failPayLink a.1.payload with
      | error e => rfl
      | ok p =>
        simp only [Except.toOption, Option.all_some, decide_eq_true_eq]
        cases found : s.paylinks[p.payLinkID]? with
        | none => rfl
        | some pl =>
          simp only [Option.all_some, decide_eq_true_eq]
          exact h hk ha hadmin p pl hp found

def failEnv : Env := Testnet.env [Devnet.stakeTx, Devnet.createTx, Devnet.voteTx, Testnet.failTx]

theorem lifecycle_refines_failedEarlyRun : let g := Devnet.genesis
    let calls := Testnet.failedEarlyRun
    (∀ e ∈ history failEnv g calls, ∀ id, let new := statusIn (stepTx failEnv (.ofGenesis g) e.1 e.2) id
      statusIn e.1 id ≠ new → Fsm.newPayLinkFSM.Permits (statusToFSMState (statusIn e.1 id)) (statusToFSMState new)) ∧
    (∀ e ∈ history failEnv g calls, ∀ id, (statusIn e.1 id).Final →
      statusIn (runBlocks failEnv (newExecutor g true) calls).db.live id = statusIn e.1 id) :=
  lifecycle_refines failEnv true Devnet.genesis Testnet.failedEarlyRun (by decide +kernel)

/-- **A settled PayLink can be failed**: VERIFIED is left for FAILED, which no transition of the machine does. -/
theorem settled_payLink_failed : ¬ ∀ (env : Env) (g : GenesisConfig) (calls : List BlockCall),
      ∀ e ∈ history env g calls, ∀ id, let new := statusIn (stepTx env (.ofGenesis g) e.1 e.2) id
        statusIn e.1 id ≠ new →
          Fsm.newPayLinkFSM.Permits (statusToFSMState (statusIn e.1 id)) (statusToFSMState new) := by
  intro h
  have hrun : (history failEnv Devnet.genesis Testnet.failedLateRun).any (fun e =>
      statusIn e.1 Devnet.payLinkID = .verified ∧
        statusIn (stepTx failEnv (.ofGenesis Devnet.genesis) e.1 e.2) Devnet.payLinkID = .failed)
      = true := by
    decide +kernel
  obtain ⟨e, he, hpair⟩ := List.any_eq_true.mp hrun
  rw [decide_eq_true_eq] at hpair
  obtain ⟨hold, hnew⟩ := hpair
  have hperm := h failEnv Devnet.genesis Testnet.failedLateRun e he Devnet.payLinkID
  rw [hold, hnew] at hperm
  have hfinal : Status.failed = .verified :=
    Declared.of_final (.inl rfl) (.inr (hperm (by decide)))
  cases hfinal

end LinkMint.Chain

import LinkMint.Chain.Proof.Lifecycle

/-!
# What a transaction reports

An event may carry a transition: where its entity was, where it went and by which trigger. A
completed withdrawal, and a failed PayLink that was already closed, report one the state
machines do not have.
-/

namespace LinkMint.Chain

open LinkMint.Lib Exec Std

def EventKind.changesStatus : EventKind → Bool
  | .payLinkCreated | .payLinkVerified | .payLinkCancelled | .payLinkFailed => true
  | _ => false

structure Mark where
  kind : EventKind
  entityType : EntityType
  entityID : String
  transition : Option (FsmState × FsmState × TransitionKind)
deriving DecidableEq, Repr

def Event.mark (evt : Event) : Option Mark :=
  if evt.kind.changesStatus || evt.transition.isSome then
    some { kind := evt.kind, entityType := evt.entityType, entityID := evt.entityID
           transition := evt.transition }
  else none

def marks (evts : List Event) : List Mark := evts.filterMap Event.mark

def payLinkMark (kind : EventKind) (id : Hash) (source target : FsmState)
    (trigger : TransitionKind) : Mark :=
  { kind := kind, entityType := .payLink, entityID := hex id
    transition := some (source, target, trigger) }

def validatorMark (kind : EventKind) (addr : Address) (source target : FsmState)
    (trigger : TransitionKind) : Mark :=
  { kind := kind, entityType := .validator, entityID := hex addr
    transition := some (source, target, trigger) }

@[simp] theorem marks_nil : marks [] = [] := rfl

@[simp] theorem marks_append (evts evts' : List Event) : marks (evts ++ evts') = marks evts ++ marks evts' :=
  List.filterMap_append

@[simp] theorem marks_cons (evt : Event) (evts : List Event) : marks (evt :: evts) = evt.mark.toList ++ marks evts := by
  unfold marks
  rw [List.filterMap_cons]
  cases evt.mark <;> rfl

@[simp] theorem marks_feeEvents (plID : Hash) (amount : UInt64) (txHash : Hash) (fb : FeeBreakdown)
    (payouts : List ValidatorPayout) (totalBurned : UInt64) :
    marks (feeEvents plID amount txHash fb payouts totalBurned) = [] := by
  have hpayouts : marks (payouts.map fun p =>
      { kind := .feeDistributed, entityType := .validator, entityID := hex p.validator
        txHash := hex txHash, data := some (.feeDistributed (hex p.validator) p.amount) }) = [] := by
    induction payouts with
    | nil => rfl
    | cons p payouts ih => simpa [Event.mark, EventKind.changesStatus] using ih
  unfold feeEvents
  split <;> simp [hpayouts, Event.mark, EventKind.changesStatus]

theorem marks_collect (cp : ChainParams) (plID : Hash) (amount : UInt64) (txHash : Hash) (t : TxState) :
    marks (collectAndDistributeFees cp plID amount txHash t).pending = marks t.pending := by
  unfold collectAndDistributeFees
  simp only
  split
  · rfl
  · split
    · rfl
    · rcases distributeFees cp (cp.calculator.calculateFee amount) (t.state.getVoters plID)
        t.state with ⟨_ | payouts, s'⟩
      · rfl
      · simp

def KeepsStatus (s s' : Snapshot) : Prop := ∀ id, statusIn s' id = statusIn s id

structure MovesStatus (s s' : Snapshot) (id : Hash) (source target : Status) : Prop where
  source : statusIn s id = source
  target : statusIn s' id = target
  others : ∀ id', id' ≠ id → statusIn s' id' = statusIn s id'

section
variable {cp : ChainParams} {s s' : Snapshot} {id : Hash}

theorem KeepsStatus.of_paylinks (h : s'.paylinks = s.paylinks) : KeepsStatus s s' := by
  intro id
  unfold statusIn
  rw [h]

theorem KeepsStatus.of_insert {pl pl' : PayLink} (found : s.paylinks[id]? = some pl)
    (hstatus : pl'.status = pl.status) (h : s'.paylinks = s.paylinks.insert id pl') : KeepsStatus s s' := by
  intro id'
  unfold statusIn
  rw [h, getElem?_insert_eq]
  split
  · next heq =>
    subst heq
    rw [found]
    exact hstatus
  · rfl

theorem MovesStatus.of_insert {pl : PayLink} (h : s'.paylinks = s.paylinks.insert id pl) :
    MovesStatus s s' id (statusIn s id) pl.status := by
  refine ⟨rfl, ?_, fun id' hne => ?_⟩
  · unfold statusIn
    rw [h, ExtTreeMap.getElem?_insert_self]
    rfl
  · unfold statusIn
    rw [h, getElem?_insert_eq, if_neg (Ne.symm hne)]

theorem KeepsStatus.congr {s₀ s₁ : Snapshot} (h : KeepsStatus s s') (h₀ : s₀.paylinks = s.paylinks)
    (h₁ : s₁.paylinks = s'.paylinks) : KeepsStatus s₀ s₁ := by
  intro id
  have h := h id
  unfold statusIn at h ⊢
  rw [h₀, h₁]
  exact h

theorem MovesStatus.congr {s₀ s₁ : Snapshot} {source target : Status} (h : MovesStatus s s' id source target)
    (h₀ : s₀.paylinks = s.paylinks) (h₁ : s₁.paylinks = s'.paylinks) : MovesStatus s₀ s₁ id source target := by
  obtain ⟨hsource, htarget, hothers⟩ := h
  unfold statusIn at hsource htarget hothers
  refine ⟨?_, ?_, fun id' hne => ?_⟩
  · unfold statusIn
    rw [h₀]
    exact hsource
  · unfold statusIn
    rw [h₁]
    exact htarget
  · unfold statusIn
    rw [h₀, h₁]
    exact hothers id' hne

theorem KeepsStatus.moves {s'' : Snapshot} {source target : Status} (h : KeepsStatus s s')
    (hmoves : MovesStatus s' s'' id source target) : MovesStatus s s'' id source target := by
  refine ⟨?_, hmoves.target, fun id' hne => ?_⟩
  · rw [← h, hmoves.source]
  · rw [hmoves.others id' hne, h]

theorem MovesStatus.createPayLink {pl : PayLink} (h : s.createPayLink pl = .ok s') :
    MovesStatus s s' pl.id .none pl.status := by
  obtain ⟨fresh, rfl⟩ := Snapshot.createPayLink_ok.mp h
  have hnone : statusIn s pl.id = .none := by
    unfold statusIn
    rw [fresh]
    rfl
  rw [← hnone]
  exact .of_insert rfl

theorem MovesStatus.setPayLinkStatus {status : Status} (h : s.setPayLinkStatus id status = .ok s') :
    MovesStatus s s' id (statusIn s id) status := by
  obtain ⟨pl, -, rfl⟩ := Snapshot.setPayLinkStatus_ok.mp h
  have hput : ({ pl with status := status } : PayLink).status = status := rfl
  rw [← hput]
  exact .of_insert rfl
end

def machineOf : EntityType → Option Fsm.Machine
  | .payLink => some Fsm.newPayLinkFSM
  | .validator => some Fsm.newValidatorFSM
  | _ => none

def Registered (entityType : EntityType) (transition : Option (FsmState × FsmState × TransitionKind)) : Prop :=
  ∀ source target trigger, transition = some (source, target, trigger) →
    ∃ machine, machineOf entityType = some machine ∧ machine.apply source trigger = .ok target

theorem Registered.of_apply {entityType : EntityType} {machine : Fsm.Machine} {source target : FsmState}
    {trigger : TransitionKind} (hmachine : machineOf entityType = some machine)
    (happly : machine.apply source trigger = .ok target) : Registered entityType (some (source, target, trigger)) := by
  rintro _ _ _ ⟨⟩
  exact ⟨machine, hmachine, happly⟩

def validatorMarks (addr : Address) : List Mark :=
  [validatorMark .validatorActivated addr .validatorInactive .validatorActive .validatorActivate,
    validatorMark .validatorDeactivated addr .validatorActive .validatorInactive
      .validatorDeactivate,
    validatorMark .validatorUnstakeStarted addr .validatorActive .validatorPendingWithdraw
      .validatorInitUnstake,
    validatorMark .validatorSlashed addr .validatorActive .validatorSlashed .validatorSlash,
    validatorMark .validatorRewarded addr .validatorActive .validatorActive .validatorReward]

section
variable (env : Env) (s : Snapshot) (tx : Transaction) (s' : Snapshot)

inductive Reports : List Mark → Prop
  | opened {id : Hash} (moves : MovesStatus s s' id .none .created) :
      Reports [payLinkMark .payLinkCreated id .payLinkNone .payLinkCreated .payLinkCreate]
  | settled {id : Hash} (moves : MovesStatus s s' id .created .verified) :
      Reports [payLinkMark .payLinkVerified id .payLinkCreated .payLinkVerified .payLinkSettle]
  | cancelled {id : Hash} (moves : MovesStatus s s' id .created .cancelled) :
      Reports [payLinkMark .payLinkCancelled id .payLinkCreated .payLinkCancelled .payLinkCancel]
  | failed {p : FailPayLinkPayload} {pl : PayLink} (kind : TxKind.ofCode tx.type = some .failPayLink)
      (payload : env.decode.failPayLink tx.payload = .ok p)
      (found : s.paylinks[p.payLinkID]? = some pl)
      (moves : MovesStatus s s' p.payLinkID pl.status .failed) :
      Reports [payLinkMark .payLinkFailed p.payLinkID (statusToFSMState pl.status) .payLinkFailed
        .payLinkFail]
  | transferred (id : Hash) (keeps : KeepsStatus s s') :
      Reports [payLinkMark .payLinkTransferred id .payLinkCreated .payLinkCreated .payLinkTransfer]
  | quiet (keeps : KeepsStatus s s') : Reports []
  | validator {ms : List Mark} (addr : Address) (known : ∀ m ∈ ms, m ∈ validatorMarks addr)
      (keeps : KeepsStatus s s') : Reports ms
  | unstaked (kind : TxKind.ofCode tx.type = some .completeUnstake) (keeps : KeepsStatus s s') :
      Reports [validatorMark .validatorUnstakeComplete tx.fromAddr .validatorPendingWithdraw
        .validatorNonExistent .validatorCompleteUnstake]
end

theorem Reports.congr {env : Env} {tx : Transaction} {s s' s₀ s₁ : Snapshot} {ms : List Mark}
    (h : Reports env s tx s' ms) (h₀ : s₀.paylinks = s.paylinks) (h₁ : s₁.paylinks = s'.paylinks) :
    Reports env s₀ tx s₁ ms := by
  cases h with
  | opened moves => exact .opened (moves.congr h₀ h₁)
  | settled moves => exact .settled (moves.congr h₀ h₁)
  | cancelled moves => exact .cancelled (moves.congr h₀ h₁)
  | failed kind payload found moves =>
    rw [← h₀] at found
    exact .failed kind payload found (moves.congr h₀ h₁)
  | transferred id keeps => exact .transferred id (keeps.congr h₀ h₁)
  | quiet keeps => exact .quiet (keeps.congr h₀ h₁)
  | validator addr known keeps => exact .validator addr known (keeps.congr h₀ h₁)
  | unstaked kind keeps => exact .unstaked kind (keeps.congr h₀ h₁)

variable {env : Env} {cp : ChainParams} {tx : Transaction} {ts : Int64} {t t' : TxState}

def Reported (env : Env) (tx : Transaction) (t t' : TxState) : Prop :=
  ∃ ms, marks t'.pending = marks t.pending ++ ms ∧ Reports env t.state tx t'.state ms

theorem reported_validator {evts : List Event} (addr : Address) (keeps : KeepsStatus t.state t'.state)
    (hpending : t'.pending = t.pending ++ evts) (known : ∀ m ∈ marks evts, m ∈ validatorMarks addr) :
    Reported env tx t t' := by
  refine ⟨marks evts, ?_, .validator addr known keeps⟩
  rw [hpending, marks_append]

theorem reported_createPayLink (h : Yields (executeCreatePayLink env tx ts) t ⟨⟩ t') : Reported env tx t t' := by
  simp only [executeCreatePayLink, yields_bind, yields_orThrow, yields_failIf, yields_check,
    yields_attempt, yields_emit, ↓existsAndEq, and_true, exists_const] at h
  obtain ⟨p, -, -, -, -, -, s', hdone, rfl⟩ := h
  have hmoves : MovesStatus t.state s' p.payLinkID .none .created := MovesStatus.createPayLink hdone
  refine ⟨_, ?_, .opened hmoves⟩
  simp [Event.mark, EventKind.changesStatus, payLinkMark]

theorem marks_settle {p : SubmitValidationPayload} {pl : PayLink} {count : UInt64}
    (h : Yields (settle env cp tx ts p pl count) t ⟨⟩ t') :
    MovesStatus t.state t'.state p.payLinkID (statusIn t.state p.payLinkID) .verified ∧
    marks t'.pending = marks t.pending ++
      [payLinkMark .payLinkVerified p.payLinkID .payLinkCreated .payLinkVerified .payLinkSettle] := by
  simp only [settle, yields_bind, yields_readState, yields_check, yields_attempt, yields_write,
    yields_emit, yields_modify, true_and, ↓existsAndEq, and_true, exists_const] at h
  obtain ⟨-, s₁, hdone, rfl⟩ := h
  refine ⟨(MovesStatus.setPayLinkStatus hdone).congr rfl ?_, ?_⟩
  · -- the fee and the proof leave the PayLinks alone
    rw [collect_state, (TokensOnly.feeState cp p.payLinkID pl.amount _).paylinks]
    rfl
  · rw [marks_collect]
    simp [Event.mark, EventKind.changesStatus, payLinkMark]

theorem reported_submitValidation (h : Yields (executeSubmitValidation env cp tx ts) t ⟨⟩ t') : Reported env tx t t' := by
  simp only [executeSubmitValidation, Snapshot.getPayLink, ne_eq, yields_bind, yields_orThrow,
    yields_readState, yields_failIf, yields_orFail, not_not, yields_agreeOnProof, yields_write,
    yields_attemptGet, yields_emit, yields_ite, yields_pure, true_and, ↓existsAndEq, and_true,
    exists_const] at h
  obtain ⟨p, -, -, -, pl, found, created, -, -, -, count, s₁, hinc, hrest⟩ := h
  obtain ⟨-, rfl⟩ := (incrementVoteCount_counted tx found).mp hinc
  have hkeeps : KeepsStatus t.state (counted t.state tx p pl) := by
    refine .of_insert found ?_ rfl
    rfl
  split at hrest
  · obtain ⟨hmoves, hmarks⟩ := marks_settle hrest
    have hstatus : statusIn (counted t.state tx p pl) p.payLinkID = .created := by
      rw [hkeeps, statusIn_of_getElem? found, created]
    rw [hstatus] at hmoves
    refine ⟨_, ?_, .settled (hkeeps.moves hmoves)⟩
    rw [hmarks]
    simp [Event.mark, EventKind.changesStatus]
  · subst hrest
    refine ⟨[], ?_, .quiet hkeeps⟩
    simp [Event.mark, EventKind.changesStatus]

theorem reported_cancelPayLink (h : Yields (executeCancelPayLink env tx ts) t ⟨⟩ t') : Reported env tx t t' := by
  simp only [executeCancelPayLink, Snapshot.getPayLink, ne_eq, yields_bind, yields_orThrow,
    yields_readState, yields_failIf, yields_orFail, not_not, yields_check, yields_attempt,
    yields_emit, true_and, ↓existsAndEq, and_true, exists_const] at h
  obtain ⟨p, -, pl, found, created, -, -, s', hdone, rfl⟩ := h
  have hmoves : MovesStatus t.state s' p.payLinkID .created .cancelled := by
    rw [← created, ← statusIn_of_getElem? found]
    exact .setPayLinkStatus hdone
  refine ⟨_, ?_, .cancelled hmoves⟩
  simp [Event.mark, EventKind.changesStatus, payLinkMark]

theorem reported_failPayLink (kind : TxKind.ofCode tx.type = some .failPayLink)
    (h : Yields (executeFailPayLink env cp tx) t ⟨⟩ t') : Reported env tx t t' := by
  simp only [executeFailPayLink, Snapshot.getPayLink, ne_eq, yields_bind, yields_orThrow,
    yields_readState, yields_failIf, yields_orFail, not_not, yields_attempt, yields_emit,
    true_and, ↓existsAndEq, and_true, exists_const] at h
  obtain ⟨-, p, payload, pl, found, s', hdone, rfl⟩ := h
  have hmoves : MovesStatus t.state s' p.payLinkID pl.status .failed := by
    rw [← statusIn_of_getElem? found]
    exact .setPayLinkStatus hdone
  refine ⟨_, ?_, .failed kind payload found hmoves⟩
  simp [Event.mark, EventKind.changesStatus, payLinkMark]

theorem reported_transferPayLink (h : Yields (executeTransferPayLink env tx ts) t ⟨⟩ t') : Reported env tx t t' := by
  simp only [executeTransferPayLink, Snapshot.getPayLink, ne_eq, yields_bind, yields_orThrow,
    yields_readState, yields_failIf, yields_orFail, not_not, yields_check, yields_attempt,
    yields_emit, true_and, ↓existsAndEq, and_true, exists_const] at h
  obtain ⟨p, -, -, pl, found, -, -, -, -, s', hdone, rfl⟩ := h
  obtain ⟨pl', found', rfl⟩ := Snapshot.setPayLinkOwner_ok.mp hdone
  refine ⟨_, ?_, .transferred p.payLinkID (.of_insert found' ?_ rfl)⟩
  · simp [Event.mark, EventKind.changesStatus, payLinkMark]
  · rfl

theorem reported_approvePayLink (h : Yields (executeApprovePayLink env tx) t ⟨⟩ t') : Reported env tx t t' := by
  simp only [executeApprovePayLink, Snapshot.getPayLink, ne_eq, yields_bind, yields_orThrow,
    yields_readState, yields_failIf, yields_orFail, not_not, yields_attempt, yields_emit,
    true_and, ↓existsAndEq, and_true, exists_const] at h
  obtain ⟨p, -, pl, found, -, -, s', hdone, rfl⟩ := h
  obtain ⟨pl', found', rfl⟩ := Snapshot.setPayLinkApproval_ok.mp hdone
  refine ⟨[], ?_, .quiet (.of_insert found' ?_ rfl)⟩
  · simp [Event.mark, EventKind.changesStatus]
  · rfl

theorem reported_setApprovalForAll (h : Yields (executeSetApprovalForAll env tx) t ⟨⟩ t') : Reported env tx t t' := by
  simp only [executeSetApprovalForAll, yields_bind, yields_orThrow, yields_failIf, yields_write,
    yields_emit, true_and, ↓existsAndEq, and_true, exists_const] at h
  obtain ⟨p, -, -, -, rfl⟩ := h
  refine ⟨[], ?_, .quiet (.of_paylinks rfl)⟩
  simp [Event.mark, EventKind.changesStatus]

theorem reported_transfer (h : Yields (executeTransfer env tx) t ⟨⟩ t') : Reported env tx t t' := by
  simp only [executeTransfer, yields_bind, yields_orThrow, yields_failIf, yields_attempt,
    yields_emit, ↓existsAndEq, and_true, exists_const] at h
  obtain ⟨p, -, -, -, s', hdone, rfl⟩ := h
  obtain ⟨s₁, debit, rfl⟩ := Snapshot.transfer_ok.mp hdone
  obtain ⟨_, -, -, rfl⟩ := Snapshot.subBalance_ok.mp debit
  refine ⟨[], ?_, .quiet (.of_paylinks rfl)⟩
  simp [Event.mark, EventKind.changesStatus]

theorem reported_stake (h : Yields (executeStake env cp tx ts) t ⟨⟩ t') : Reported env tx t t' := by
  simp only [executeStake, yields_bind, yields_orThrow, yields_failIf, yields_readState,
    yields_attempt, yields_emit, yields_emitIf, true_and, ↓existsAndEq, and_true, exists_const] at h
  obtain ⟨p, -, -, s₁, debit, s', hdone, rfl⟩ := h
  have keeps : KeepsStatus t.state s' := by
    obtain ⟨_, -, -, rfl⟩ := Snapshot.subBalance_ok.mp debit
    obtain ⟨-, rfl⟩ := Snapshot.stake_ok.mp hdone
    exact .of_paylinks rfl
  refine reported_validator tx.fromAddr keeps (List.append_assoc _ _ _) ?_
  split <;> simp [Event.mark, EventKind.changesStatus, validatorMarks, validatorMark]

theorem reported_initiateUnstake (h : Yields (executeInitiateUnstake env cp tx ts) t ⟨⟩ t') : Reported env tx t t' := by
  simp only [executeInitiateUnstake, yields_bind, yields_orThrow, yields_failIf, yields_readState,
    yields_attempt, yields_emit, yields_emitIf, true_and, ↓existsAndEq, and_true, exists_const] at h
  obtain ⟨p, -, -, s', hdone, rfl⟩ := h
  have keeps : KeepsStatus t.state s' := by
    obtain ⟨_, _, _, _, -, rfl⟩ := Snapshot.initiateWithdrawal_ok.mp hdone
    exact .of_paylinks rfl
  refine reported_validator tx.fromAddr keeps (List.append_assoc _ _ _) ?_
  split <;> simp [Event.mark, EventKind.changesStatus, deactivated, validatorMarks, validatorMark]

theorem reported_completeUnstake (kind : TxKind.ofCode tx.type = some .completeUnstake)
    (h : Yields (executeCompleteUnstake tx ts) t ⟨⟩ t') : Reported env tx t t' := by
  simp only [executeCompleteUnstake, yields_bind, yields_attemptGet, yields_write, yields_emit,
    ↓existsAndEq, and_true, exists_const, true_and] at h
  obtain ⟨amount, s', hdone, rfl⟩ := h
  obtain ⟨_, _, _, _, rfl, rfl⟩ := Snapshot.completeWithdrawal_ok.mp hdone
  refine ⟨_, ?_, .unstaked kind (.of_paylinks rfl)⟩
  simp [Event.mark, EventKind.changesStatus, validatorMark]

theorem reported_slashAndReport {validator : Address} {amount : UInt64} {reason : String}
    {wrap : String → String} (h : Yields (slashAndReport cp tx validator amount reason wrap) t ⟨⟩ t') :
    Reported env tx t t' := by
  simp only [slashAndReport, yields_bind, yields_readState, yields_attempt, yields_emit,
    yields_emitIf, true_and, ↓existsAndEq, and_true, exists_const] at h
  obtain ⟨s', hdone, rfl⟩ := h
  have keeps : KeepsStatus t.state s' := by
    obtain ⟨_, _, _, rfl⟩ := Snapshot.slash_ok.mp hdone
    exact .of_paylinks rfl
  refine reported_validator validator keeps (List.append_assoc _ _ _) ?_
  split <;> simp [Event.mark, EventKind.changesStatus, deactivated, validatorMarks, validatorMark]

theorem reported_slash (h : Yields (executeSlash env cp tx) t ⟨⟩ t') : Reported env tx t t' := by
  simp only [executeSlash, yields_bind, yields_orThrow, yields_failIf, ↓existsAndEq, and_true, exists_const] at h
  obtain ⟨-, p, -, hslash⟩ := h
  exact reported_slashAndReport hslash

theorem reported_distributeReward (h : Yields (executeDistributeReward env cp tx) t ⟨⟩ t') : Reported env tx t t' := by
  simp only [executeDistributeReward, yields_bind, yields_orThrow, yields_failIf,
    yields_readState, yields_attempt, yields_write, yields_emit, true_and, ↓existsAndEq, and_true,
    exists_const] at h
  obtain ⟨-, p, -, s₁, debit, s', hdone, rfl⟩ := h
  have keeps : KeepsStatus t.state s' := by
    obtain ⟨_, -, -, rfl⟩ := Snapshot.subBalance_ok.mp debit
    obtain ⟨_, _, -, rfl⟩ := Snapshot.distributeReward_ok.mp hdone
    exact .of_paylinks rfl
  refine reported_validator p.validator keeps rfl ?_
  simp [Event.mark, EventKind.changesStatus, validatorMarks, validatorMark]

theorem reported_registerVRFKey (h : Yields (executeRegisterVRFKey env tx) t ⟨⟩ t') : Reported env tx t t' := by
  simp only [executeRegisterVRFKey, yields_bind, yields_orThrow, yields_failIf, yields_readState,
    yields_attempt, yields_emit, true_and, ↓existsAndEq, and_true, exists_const] at h
  obtain ⟨p, -, -, -, s', hdone, rfl⟩ := h
  obtain ⟨_, _, -, rfl⟩ := Snapshot.setVRFPublicKey_ok.mp hdone
  refine ⟨[], ?_, .quiet (.of_paylinks rfl)⟩
  simp [Event.mark, EventKind.changesStatus]

theorem reported_submitEvidence (h : Yields (executeSubmitEvidence env cp tx) t ⟨⟩ t') : Reported env tx t t' := by
  simp only [executeSubmitEvidence, yields_bind, yields_orThrow, yields_failIf, yields_readState,
    yields_write, true_and, ↓existsAndEq, and_true, exists_const] at h
  obtain ⟨p, -, action, -, -, hslash⟩ := h
  -- the evidence is marked before the slash, in a map of its own
  obtain ⟨ms, hmarks, hreports⟩ := reported_slashAndReport hslash
  exact ⟨ms, hmarks, hreports.congr rfl rfl⟩

theorem reported_dispatch (h : Yields (dispatch env cp tx ts) t ⟨⟩ t') : Reported env tx t t' := by
  unfold dispatch at h
  split at h
  · exact reported_createPayLink h
  · exact reported_submitValidation h
  · exact reported_cancelPayLink h
  · next kind => exact reported_failPayLink kind h
  · exact reported_transfer h
  · exact reported_stake h
  · exact reported_initiateUnstake h
  · next kind => exact reported_completeUnstake kind h
  · exact reported_slash h
  · exact reported_distributeReward h
  · exact reported_registerVRFKey h
  · exact reported_submitEvidence h
  · exact reported_transferPayLink h
  · exact reported_approvePayLink h
  · exact reported_setApprovalForAll h
  · exact absurd h yields_throw

theorem reports_outcome {s : Snapshot} (h : outcome env cp s tx ts = .ok t) : Reports env s tx t.state (marks t.pending) := by
  unfold outcome at h
  split at h
  · cases h
  · split at h
    · next hrun =>
      cases h
      have hyields : Yields (executeTx env cp tx ts) { state := s } ⟨⟩ t := hrun
      simp only [executeTx, yields_bind, yields_readState, yields_failIf, yields_write] at hyields
      obtain ⟨_, _, ⟨rfl, rfl⟩, _, _, ⟨-, rfl⟩, _, t₁, hdispatch, rfl⟩ := hyields
      obtain ⟨ms, hmarks, hreports⟩ := reported_dispatch hdispatch
      rw [marks_nil, List.nil_append] at hmarks
      rw [hmarks]
      exact hreports.congr rfl rfl
    · cases h

def ReportsRegistered (env : Env) (s : Snapshot) (tx : Transaction) : Prop :=
  TxKind.ofCode tx.type ≠ some .completeUnstake ∧
  (TxKind.ofCode tx.type = some .failPayLink → ∀ p pl, env.decode.failPayLink tx.payload = .ok p →
    s.paylinks[p.payLinkID]? = some pl → ¬ pl.status.Final)

theorem registered_of_mem_validatorMarks {addr : Address} {m : Mark} (h : m ∈ validatorMarks addr) :
    Registered m.entityType m.transition := by
  simp only [validatorMarks, List.mem_cons, List.not_mem_nil, or_false] at h
  rcases h with rfl | rfl | rfl | rfl | rfl <;> exact .of_apply rfl rfl

theorem Reports.registered {s s' : Snapshot} {ms : List Mark} (h : Reports env s tx s' ms)
    (safe : ReportsRegistered env s tx) : ∀ m ∈ ms, Registered m.entityType m.transition := by
  cases h with
  | opened | settled | cancelled | transferred =>
    simp only [List.mem_singleton, forall_eq]
    exact .of_apply rfl rfl
  | quiet => simp
  | validator addr known => exact fun m hm => registered_of_mem_validatorMarks (known m hm)
  | @failed p pl kind payload found =>
    simp only [List.mem_singleton, forall_eq]
    have hopen := safe.2 kind p pl payload found
    cases hstatus : pl.status with
    | none | created => exact .of_apply rfl rfl
    | verified => exact absurd (.inl hstatus) hopen
    | failed => exact absurd (.inr (.inl hstatus)) hopen
    | cancelled => exact absurd (.inr (.inr hstatus)) hopen
  | unstaked kind => exact absurd kind safe.1

theorem registered_of_marks {evts : List Event} (h : ∀ m ∈ marks evts, Registered m.entityType m.transition) :
    ∀ evt ∈ evts, Registered evt.entityType evt.transition := by
  intro evt hevt source target trigger htransition
  have hmark : evt.mark = some { kind := evt.kind, entityType := evt.entityType
                                 entityID := evt.entityID, transition := evt.transition } := by
    simp [Event.mark, htransition]
  exact h _ (List.mem_filterMap.mpr ⟨evt, hevt, hmark⟩) source target trigger htransition

/-- **Every emitted transition is registered**, where a withdrawal is not completed and a closed
    PayLink not failed. -/
theorem transitions_registered (env : Env) (cp : ChainParams) (s : Snapshot) (tx : Transaction)
    (ts : Int64) (t : TxState) (done : outcome env cp s tx ts = .ok t)
    (safe : ReportsRegistered env s tx) : ∀ evt ∈ t.pending, Registered evt.entityType evt.transition :=
  registered_of_marks ((reports_outcome done).registered safe)

theorem exists_of_isOk {ε α : Type} {x : Except ε α} (h : x.isOk = true) : ∃ a, x = .ok a := by
  cases x with
  | error e => cases h
  | ok a => exact ⟨a, rfl⟩

/-- A PayLink is created and reported. -/
theorem transitions_registered_create :
    ∃ t, outcome Devnet.env (.ofGenesis Devnet.genesis) (newStateDB Devnet.genesis).live
        Devnet.createTx 1700000100 = .ok t ∧
      ReportsRegistered Devnet.env (newStateDB Devnet.genesis).live Devnet.createTx ∧
      ∀ evt ∈ t.pending, Registered evt.entityType evt.transition := by
  have hok : (outcome Devnet.env (.ofGenesis Devnet.genesis) (newStateDB Devnet.genesis).live
      Devnet.createTx 1700000100).isOk = true := by decide +kernel
  have kind : TxKind.ofCode Devnet.createTx.type = some .createPayLink := by decide
  have safe : ReportsRegistered Devnet.env (newStateDB Devnet.genesis).live Devnet.createTx := by
    refine ⟨?_, fun hfail => ?_⟩
    · rw [kind]
      decide
    · rw [kind] at hfail
      cases hfail
  obtain ⟨t, done⟩ := exists_of_isOk hok
  exact ⟨t, done, safe, transitions_registered _ _ _ _ _ t done safe⟩

def AlwaysRegistered (kind : TxKind) : Prop :=
  ∀ (env : Env) (g : GenesisConfig) (s : Snapshot), Reachable env g s →
    ∀ (tx : Transaction) (ts : Int64) (t : TxState), TxKind.ofCode tx.type = some kind →
      outcome env (.ofGenesis g) s tx ts = .ok t → ∀ evt ∈ t.pending, Registered evt.entityType evt.transition

theorem not_alwaysRegistered {kind : TxKind} (env : Env) (g : GenesisConfig)
    (calls : List BlockCall) (tx : Transaction) (ts : Int64) (m : Mark) (hkind : TxKind.ofCode tx.type = some kind)
    (hmark : ((outcome env (.ofGenesis g) (reached env g calls) tx ts).toOption.any fun t =>
      decide (m ∈ marks t.pending)) = true) (hm : ¬ Registered m.entityType m.transition) : ¬ AlwaysRegistered kind := by
  intro h
  cases done : outcome env (.ofGenesis g) (reached env g calls) tx ts with
  | error e =>
    rw [done] at hmark
    cases hmark
  | ok t =>
    rw [done] at hmark
    obtain ⟨evt, hevt, hevtMark⟩ := List.mem_filterMap.mp (of_decide_eq_true hmark)
    have hreachable : Reachable env g (reached env g calls) := ⟨true, calls, runBlocks_live g true calls⟩
    refine hm ?_
    rw [Event.mark] at hevtMark
    split at hevtMark
    · cases hevtMark
      exact h env g _ hreachable tx ts t hkind done evt hevt
    · cases hevtMark

/-- **A completed withdrawal is reported as the end of the validator**, which the machine has
    inactive; **and a settled PayLink as failed**, which it does not have at all. -/
theorem unregistered_transitions : ¬ AlwaysRegistered .completeUnstake ∧ ¬ AlwaysRegistered .failPayLink := by
  constructor
  · refine not_alwaysRegistered Devnet.env Devnet.genesis
      [⟨1700000100, [Devnet.stakeTx, Devnet.createTx]⟩, ⟨1700000200, [Devnet.voteTx, Devnet.initiateTx]⟩]
      Devnet.completeTx 1700700000
      (validatorMark .validatorUnstakeComplete Devnet.validatorAddress .validatorPendingWithdraw
        .validatorNonExistent .validatorCompleteUnstake) (by decide) (by decide +kernel) ?_
    intro h
    obtain ⟨_, hmachine, happly⟩ := h _ _ _ rfl
    cases hmachine
    cases happly
  · refine not_alwaysRegistered failEnv Devnet.genesis
      [⟨1700000100, [Devnet.stakeTx, Devnet.createTx]⟩, ⟨1700000200, [Devnet.voteTx]⟩]
      Testnet.failTx 1700000300
      (payLinkMark .payLinkFailed Devnet.payLinkID .payLinkVerified .payLinkFailed .payLinkFail)
      (by decide) (by decide +kernel) ?_
    intro h
    obtain ⟨_, hmachine, happly⟩ := h _ _ _ rfl
    cases hmachine
    cases happly

end LinkMint.Chain

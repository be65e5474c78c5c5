import LinkMint.Chain.Event

/-!
# Declared lifecycles

`internal/fsm`: a machine is a table of transitions, looked up by state and kind.
-/

namespace LinkMint.Chain

def FsmState.string : FsmState → String
  | .payLinkNone => "NONE"
  | .payLinkCreated => "CREATED"
  | .payLinkVerified => "VERIFIED"
  | .payLinkFailed => "FAILED"
  | .payLinkCancelled => "CANCELLED"
  | .validatorNonExistent => "NON_EXISTENT"
  | .validatorActive => "ACTIVE"
  | .validatorInactive => "INACTIVE"
  | .validatorPendingWithdraw => "PENDING_WITHDRAW"
  | .validatorSlashed => "SLASHED"

def TransitionKind.string : TransitionKind → String
  | .payLinkCreate => "Create"
  | .payLinkSettle => "Settle"
  | .payLinkCancel => "Cancel"
  | .payLinkFail => "Fail"
  | .payLinkTransfer => "Transfer"
  | .validatorStake => "Stake"
  | .validatorActivate => "Activate"
  | .validatorDeactivate => "Deactivate"
  | .validatorInitUnstake => "InitiateUnstake"
  | .validatorCompleteUnstake => "CompleteUnstake"
  | .validatorSlash => "Slash"
  | .validatorReward => "Reward"

namespace Fsm
structure Transition where
  source : FsmState
  target : FsmState
  kind : TransitionKind
deriving DecidableEq, Repr

structure Machine where
  name : String
  transitions : List Transition

/-- The map lookup: of two transitions with one state and kind, the later was stored last. -/
def Machine.lookup (m : Machine) (current : FsmState) (kind : TransitionKind) : Option Transition :=
  m.transitions.reverse.find? fun t => t.source = current ∧ t.kind = kind

def Machine.apply (m : Machine) (current : FsmState) (kind : TransitionKind) : Except String FsmState :=
  match m.lookup current kind with
  | none => .error (s!"fsm {m.name}: no transition \"{kind.string}\" from state " ++ s!"\"{current.string}\"")
  | some t => .ok t.target

def newPayLinkFSM : Machine where
  name := "PayLink"
  transitions := [
    { source := .payLinkNone, target := .payLinkCreated, kind := .payLinkCreate },
    { source := .payLinkCreated, target := .payLinkVerified, kind := .payLinkSettle },
    { source := .payLinkCreated, target := .payLinkCancelled, kind := .payLinkCancel },
    { source := .payLinkCreated, target := .payLinkFailed, kind := .payLinkFail },
    -- the administrator can fail from any non-terminal state
    { source := .payLinkNone, target := .payLinkFailed, kind := .payLinkFail },
    -- a transfer leaves the status alone
    { source := .payLinkCreated, target := .payLinkCreated, kind := .payLinkTransfer }]

def newValidatorFSM : Machine where
  name := "Validator"
  transitions := [
    -- more stake keeps the current state
    { source := .validatorNonExistent, target := .validatorInactive, kind := .validatorStake },
    { source := .validatorInactive, target := .validatorInactive, kind := .validatorStake },
    { source := .validatorActive, target := .validatorActive, kind := .validatorStake },
    { source := .validatorSlashed, target := .validatorInactive, kind := .validatorStake },
    { source := .validatorInactive, target := .validatorActive, kind := .validatorActivate },
    { source := .validatorSlashed, target := .validatorActive, kind := .validatorActivate },
    { source := .validatorActive, target := .validatorInactive, kind := .validatorDeactivate },
    { source := .validatorActive, target := .validatorPendingWithdraw, kind := .validatorInitUnstake },
    { source := .validatorInactive, target := .validatorPendingWithdraw, kind := .validatorInitUnstake },
    -- back to inactive; activation, if any, is another event
    { source := .validatorPendingWithdraw, target := .validatorInactive, kind := .validatorCompleteUnstake },
    { source := .validatorActive, target := .validatorSlashed, kind := .validatorSlash },
    { source := .validatorInactive, target := .validatorSlashed, kind := .validatorSlash },
    -- a reward leaves the state alone
    { source := .validatorActive, target := .validatorActive, kind := .validatorReward },
    { source := .validatorInactive, target := .validatorInactive, kind := .validatorReward }]

def Machine.Permits (m : Machine) (current next : FsmState) : Prop :=
  ∃ kind, m.apply current kind = .ok next

theorem Machine.permits_of_lookup {m : Machine} {current next : FsmState} (kind : TransitionKind)
    (h : m.lookup current kind = some { source := current, target := next, kind := kind }) :
    m.Permits current next :=
  ⟨kind, by rw [apply, h]⟩

theorem Machine.Permits.exists_mem {m : Machine} {current next : FsmState} (h : m.Permits current next) :
    ∃ t ∈ m.transitions, t.source = current ∧ t.target = next := by
  obtain ⟨kind, hk⟩ := h
  unfold apply lookup at hk
  split at hk
  · cases hk
  · next t ht =>
    cases hk
    have hsource := List.find?_some ht
    simp only [decide_eq_true_eq] at hsource
    exact ⟨t, List.mem_reverse.mp (List.mem_of_find?_eq_some ht), hsource.1, rfl⟩
end Fsm
end LinkMint.Chain

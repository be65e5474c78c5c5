import LinkMint.Chain.Types

/-!
# The event stream

What the executor emits while it runs a transaction and what the bus is handed once the block is committed.
-/

namespace LinkMint.Chain

inductive EventKind where
  | payLinkCreated
  | payLinkVoted
  | payLinkVerified
  | payLinkCancelled
  | payLinkFailed
  | payLinkTransferred
  | payLinkApproved
  | payLinkApprovalForAll
  | validatorStaked
  | validatorActivated
  | validatorDeactivated
  | validatorUnstakeStarted
  | validatorUnstakeComplete
  | validatorSlashed
  | validatorRewarded
  | validatorVRFKeyRegistered
  | feeCollected
  | feeDistributed
  | tokenBurned
  | transfer
  | blockProduced
deriving DecidableEq, Repr

inductive EntityType where
  | payLink
  | validator
  | account
  | block
deriving DecidableEq, Repr

inductive FsmState where
  | payLinkNone
  | payLinkCreated
  | payLinkVerified
  | payLinkFailed
  | payLinkCancelled
  | validatorNonExistent
  | validatorActive
  | validatorInactive
  | validatorPendingWithdraw
  | validatorSlashed
deriving DecidableEq, Repr

inductive TransitionKind where
  | payLinkCreate
  | payLinkSettle
  | payLinkCancel
  | payLinkFail
  | payLinkTransfer
  | validatorStake
  | validatorActivate
  | validatorDeactivate
  | validatorInitUnstake
  | validatorCompleteUnstake
  | validatorSlash
  | validatorReward
deriving DecidableEq, Repr

/-- The typed payloads of `event.go`. -/
inductive EventData where
  | payLinkCreated (creator receiver : String) (amount : UInt64) (expiry : Int64)
      (metadataHash : String)
  | payLinkVoted (validator proofHash : String) (voteCount required : UInt64)
  | payLinkSettled (proofHash : String) (voteCount : UInt64)
  | payLinkTransferred (fromAddr toAddr operator : String) (transferCount : UInt64)
  | payLinkApproved (owner approved : String)
  | payLinkApprovalForAll (owner operator : String) (approved : Bool)
  | transfer (fromAddr toAddr : String) (amount : UInt64)
  | validatorStake (amount totalStaked : UInt64) (isActive : Bool)
  | validatorUnstake (amount : UInt64) (withdrawableAt : Int64)
  | validatorSlash (amount : UInt64) (reason : String) (remaining : UInt64)
  | validatorReward (amount totalRewards : UInt64)
  | feeCollected (payLinkID : String)
      (amount totalFee validatorShare treasuryShare burnAmount : UInt64)
  | feeDistributed (validator : String) (amount : UInt64)
  | tokenBurned (amount totalBurned : UInt64)
  | blockProduced (hash : String) (height txCount : Nat) (proposer stateRoot previousHash : String)
deriving DecidableEq, Repr

structure Event where
  kind : EventKind
  entityType : EntityType
  entityID : String
  blockHeight : Nat := 0
  txHash : String := ""
  /-- `FromState`, `ToState` and `Transition`, set together or not at all. -/
  transition : Option (FsmState × FsmState × TransitionKind) := none
  data : Option EventData := none
deriving DecidableEq, Repr

def statusToFSMState : Status → FsmState
  | .created => .payLinkCreated
  | .verified => .payLinkVerified
  | .failed => .payLinkFailed
  | .cancelled => .payLinkCancelled
  | .none => .payLinkNone

end LinkMint.Chain

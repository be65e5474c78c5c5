import LinkMint.Chain.Types

/-!
# Transactions, blocks, and what the chain asks of its libraries

A transaction carries its payload as raw JSON, and every handler decodes its own.
-/

namespace LinkMint.Chain

/-! ## Transactions -/

inductive TxKind where
  | createPayLink
  | submitValidation
  | cancelPayLink
  | failPayLink
  | transfer
  | stake
  | initiateUnstake
  | completeUnstake
  | slash
  | distributeReward
  | registerVRFKey
  | submitEvidence
  | transferPayLink
  | approvePayLink
  | setApprovalForAll
deriving DecidableEq, Repr

/-- `types.TxType` is a `uint8`; the fifteen constants are the codes 1 to 15, and a transaction
    may carry any other byte. -/
def TxKind.ofCode (code : UInt8) : Option TxKind :=
  match code.toNat with
  | 1 => some .createPayLink
  | 2 => some .submitValidation
  | 3 => some .cancelPayLink
  | 4 => some .failPayLink
  | 5 => some .transfer
  | 6 => some .stake
  | 7 => some .initiateUnstake
  | 8 => some .completeUnstake
  | 9 => some .slash
  | 10 => some .distributeReward
  | 11 => some .registerVRFKey
  | 12 => some .submitEvidence
  | 13 => some .transferPayLink
  | 14 => some .approvePayLink
  | 15 => some .setApprovalForAll
  | _ => none

structure Transaction where
  type : UInt8
  fromAddr : Address
  nonce : Nat
  payload : Bytes
  pubKey : Bytes
  signature : Bytes
  hash : Hash
deriving DecidableEq, Repr

/-! ## Payloads -/

structure CreatePayLinkPayload where
  payLinkID : Hash
  receiver : Address
  amount : UInt64
  expiry : Int64
  metadataHash : Hash
  rules : Bytes

structure SubmitValidationPayload where
  payLinkID : Hash
  proofHash : Hash
deriving DecidableEq

structure CancelPayLinkPayload where
  payLinkID : Hash

structure FailPayLinkPayload where
  payLinkID : Hash

structure TransferPayload where
  toAddr : Address
  amount : UInt64

structure StakePayload where
  amount : UInt64

structure InitiateUnstakePayload where
  amount : UInt64

structure SlashPayload where
  validator : Address
  amount : UInt64
  reason : String

structure DistributeRewardPayload where
  validator : Address
  amount : UInt64

structure RegisterVRFKeyPayload where
  vrfPublicKey : Bytes

/-- The offences of `slashing.go`; `other` is any other text the field may hold. -/
inductive EvidenceType where
  | doubleSign
  | equivocation
  | liveness
  | other (text : String)

structure SubmitEvidencePayload where
  evidenceType : EvidenceType
  validator : Address
  data : Bytes

structure TransferPayLinkPayload where
  payLinkID : Hash
  toAddr : Address

structure ApprovePayLinkPayload where
  payLinkID : Hash
  approved : Address

structure SetApprovalForAllPayload where
  operator : Address
  approved : Bool

structure DoubleSignEvidence where
  height : UInt64
  blockHash1 : Hash
  blockHash2 : Hash
  signature1 : Bytes
  signature2 : Bytes
  publicKey : Bytes

structure EquivocationEvidence where
  seed : Hash
  vrfProof1 : Bytes
  vrfProof2 : Bytes

/-! ## Rules attached to a PayLink -/

/-- The built-in rules; `other` is any other type name a rule set may carry. -/
inductive RuleType where
  | timeLock
  | multiApproval
  | amountThreshold
  | addressWhitelist
  | receiverWhitelist
  | maxTransfers
  | other (text : String)
deriving DecidableEq

def RuleType.string : RuleType → String
  | .timeLock => "TimeLock"
  | .multiApproval => "MultiApproval"
  | .amountThreshold => "AmountThreshold"
  | .addressWhitelist => "AddressWhitelist"
  | .receiverWhitelist => "ReceiverWhitelist"
  | .maxTransfers => "MaxTransfers"
  | .other text => text

structure Rule where
  type : RuleType
  params : Bytes

/-- The operation a rule may guard; `other` is any other name a rule may list. -/
inductive ActionKind where
  | settle
  | cancel
  | transfer
  | other (text : String)
deriving DecidableEq

structure TimeLockParams where
  notBefore : Int64
  notAfter : Int64
  actions : List ActionKind

structure MultiApprovalParams where
  required : UInt64
  approvers : List Address

structure AmountThresholdParams where
  minAmount : UInt64
  maxAmount : UInt64

structure AddressWhitelistParams where
  addresses : List Address
  actions : List ActionKind

structure ReceiverWhitelistParams where
  addresses : List Address

structure MaxTransfersParams where
  max : UInt64

/-! ## Blocks and receipts -/

structure BlockHeader where
  height : Nat
  timestamp : Int64
  previousHash : Hash
  stateRoot : Hash
  txRoot : Hash
  proposerAddr : Address
deriving DecidableEq, Repr

structure BlockCommit where
  proposerAddr : Address := 0
  publicKey : Bytes := []
  signature : Bytes := []
deriving DecidableEq, Repr

structure Block where
  header : BlockHeader
  transactions : List Transaction
  commit : BlockCommit := {}
  hash : Hash
deriving DecidableEq, Repr

structure TxReceipt where
  txHash : Hash
  success : Bool := false
  error : String := ""
  blockHeight : Nat := 0
  txIndex : Nat := 0
deriving DecidableEq, Repr

/-! ## The genesis configuration -/

structure GenesisBalance where
  address : Address
  balance : UInt64

/-- The fields of `GenesisConfig` that the state or the chain reads. -/
structure GenesisConfig where
  adminAddress : Address
  maxSupply : UInt64
  minimumStake : UInt64
  withdrawalCooldown : Int64
  requiredValidations : UInt64
  genesisTimestamp : Int64 := 0
  initialBalances : List GenesisBalance
  treasuryAddress : Address := 0
  feeRateBasisPoints : UInt64 := 0
  validatorRewardShare : UInt64 := 0
  treasuryShare : UInt64 := 0
  burnShare : UInt64 := 0

end LinkMint.Chain

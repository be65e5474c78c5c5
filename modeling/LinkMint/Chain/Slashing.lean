import LinkMint.Chain.Env
import LinkMint.Chain.ValidatorState

/-!
# Slashing evidence

`internal/slashing`.
-/

namespace LinkMint.Chain

structure SlashAction where
  validator : Address
  amount : UInt64
  reason : String
  evidenceID : Hash
deriving DecidableEq, Repr

def doubleSignSlashPct : UInt64 := 50

def equivocationSlashPct : UInt64 := 25

/-- `slashAmount`: the percentage, or the whole stake when that rounds to nothing. -/
def slashAmount (stakedAmount pct : UInt64) : UInt64 :=
  if stakedAmount * pct / 100 = 0 then stakedAmount else stakedAmount * pct / 100

variable (env : Env)

def doubleSignEvidenceID (validator : Address) (height : UInt64) : Hash :=
  env.sha256 ("ds".toUTF8.toList ++ addressBytes validator ++ beBytes 8 height.toNat)

def equivocationEvidenceID (validator : Address) (seed : Hash) : Hash :=
  env.sha256 ("eq".toUTF8.toList ++ addressBytes validator ++ hashBytes seed)

def vrfOutputFromProof (proof : Bytes) : Hash :=
  if proof.length < 96 then 0 else env.sha256 ((proof.drop 32).take 64)

def processDoubleSign (validator : Address) (v : ValidatorInfo) (rawData : Bytes) : Except String SlashAction :=
  match env.decode.doubleSign rawData with
  | .error e => .error s!"invalid double-sign evidence: {e}"
  | .ok ev =>
    if ev.blockHash1 = ev.blockHash2 then .error "block hashes are identical"
    else match unmarshalPublicKey env ev.publicKey with
      | .error e => .error s!"invalid public key in evidence: {e}"
      | .ok pub =>
        if pubkeyToAddress env pub ≠ validator then
          .error (s!"public key does not match validator {hex validator} " ++ s!"(got {hex (pubkeyToAddress env pub)})")
        else if verify env ev.blockHash1 ev.signature1 pub = false then
          .error "signature1 invalid for blockHash1"
        else if verify env ev.blockHash2 ev.signature2 pub = false then
          .error "signature2 invalid for blockHash2"
        else .ok {
          validator := validator
          amount := slashAmount v.stakedAmount doubleSignSlashPct
          reason := s!"double-sign at height {ev.height}"
          evidenceID := doubleSignEvidenceID env validator ev.height }

def processEquivocation (s : Snapshot) (validator : Address) (v : ValidatorInfo)
    (rawData : Bytes) : Except String SlashAction :=
  match env.decode.equivocation rawData with
  | .error e => .error s!"invalid equivocation evidence: {e}"
  | .ok ev =>
    if verifyVRFProof env (hashBytes ev.seed) (vrfOutputFromProof env ev.vrfProof1)
        ev.vrfProof1 = false then .error "VRF proof 1 invalid"
    else if verifyVRFProof env (hashBytes ev.seed) (vrfOutputFromProof env ev.vrfProof2)
        ev.vrfProof2 = false then .error "VRF proof 2 invalid"
    else match vrfProofPublicKey ev.vrfProof1 with
      | .error e => .error s!"cannot extract pubkey from proof1: {e}"
      | .ok pub1 => match vrfProofPublicKey ev.vrfProof2 with
        | .error e => .error s!"cannot extract pubkey from proof2: {e}"
        | .ok pub2 => match s.vrfKeys[validator]? with
          | none => .error s!"validator {hex validator} has no VRF public key"
          | some storedKey =>
            if pub1 ≠ storedKey ∨ pub2 ≠ storedKey then
              .error s!"VRF proof public key does not match validator {hex validator}"
            else if ev.vrfProof1 = ev.vrfProof2 then
              .error "proofs are identical -- not equivocation"
            else .ok {
              validator := validator
              amount := slashAmount v.stakedAmount equivocationSlashPct
              reason := s!"VRF equivocation on seed {hex ev.seed}"
              evidenceID := equivocationEvidenceID env validator ev.seed }

def processEvidence (s : Snapshot) (evidenceType : EvidenceType) (validator : Address)
    (rawData : Bytes) : Except String SlashAction :=
  match s.validators[validator]? with
  | none => .error s!"validator {hex validator} has no stake"
  | some v =>
    if v.stakedAmount = 0 then .error s!"validator {hex validator} has no stake"
    else match evidenceType with
      | .doubleSign => processDoubleSign env validator v rawData
      | .equivocation => processEquivocation env s validator v rawData
      | .liveness => .error "liveness evidence is not accepted: claims are not verifiable"
      | .other text => .error s!"unknown evidence type: {text}"

end LinkMint.Chain

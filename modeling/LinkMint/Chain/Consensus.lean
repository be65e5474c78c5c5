import LinkMint.Chain.Env

/-!
# Committees and their votes

`internal/consensus/quorum.go`: whether enough members of a committee have voted for a proof.
-/

namespace LinkMint.Chain

open Std

structure CommitteeMember where
  address : Address
  vrfOutput : Hash
  vrfProof : Bytes
  stakeWeight : UInt64
  vrfPublicKey : Bytes
deriving DecidableEq

structure Vote where
  validator : Address
  proofHash : Hash
  vrfOutput : Hash
  vrfProof : Bytes
deriving DecidableEq

structure QuorumChecker where
  ceil : Nat → Int

def QuorumChecker.requiredVotes (qc : QuorumChecker) (committeeSize : Nat) : Int :=
  let q := qc.ceil committeeSize
  if q < 1 then 1 else q

/-- `memberSet`: of two members with one address the later one counts. -/
def memberSet (committee : List CommitteeMember) : ExtTreeMap Address CommitteeMember :=
  committee.foldl (fun set m => set.insert m.address m) ∅

/-- What the loop of `CheckQuorum` keeps. -/
structure Tallying where
  validVotes : Nat := 0
  seen : ExtTreeSet Address := ∅
  consensusProof : Hash := 0

def Tallying.next (env : Env) (seed : Hash) (members : ExtTreeMap Address CommitteeMember) (t : Tallying) (vote : Vote) :
    Tallying :=
  if vote.validator ∈ t.seen then t
  else match members[vote.validator]? with
    | none => t
    | some member =>
      match vrfProofPublicKey vote.vrfProof with
      | .error _ => t
      | .ok votePub =>
        if member.vrfPublicKey.length = 0 ∨ votePub ≠ member.vrfPublicKey then t
        else if verifyVRFProof env (hashBytes seed) vote.vrfOutput vote.vrfProof = false then t
        else if vote.vrfOutput ≠ member.vrfOutput then t
        else if t.validVotes ≠ 0 ∧ vote.proofHash ≠ t.consensusProof then t
        else
          { validVotes := t.validVotes + 1
            seen := t.seen.insert vote.validator
            consensusProof := if t.validVotes = 0 then vote.proofHash else t.consensusProof }

def QuorumChecker.checkQuorum (env : Env) (qc : QuorumChecker) (seed : Hash) (committee : List CommitteeMember)
    (votes : List Vote) : Except String Bool :=
  if committee.length = 0 then .error "empty committee"
  else
    let t := votes.foldl (Tallying.next env seed (memberSet committee)) {}
    .ok (decide (qc.requiredVotes committee.length ≤ t.validVotes))

end LinkMint.Chain

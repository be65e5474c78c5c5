import LinkMint.Lib.Merkle
import LinkMint.Chain.Env
import LinkMint.Chain.State

/-!
# The state root

`internal/state/merkle.go`.
-/

namespace LinkMint.Chain

open LinkMint.Lib Std

variable (env : Env)

def nodeBytes (children : Hash × Hash) : Bytes := hashBytes children.1 ++ hashBytes children.2

def merkleNode (left right : Hash) : Hash := env.sha256 (nodeBytes (left, right))

def merkleRoot (leaves : List Hash) : Hash := Merkle.root (merkleNode env) 0 leaves

/-- The root over the hashes of some data, which the five functions below have in common. -/
def treeRoot (data : List Bytes) : Hash :=
  if data.length = 0 then 0 else merkleRoot env (data.map env.sha256)

def accountLeaf (entry : Address × Account) : Bytes := env.encode.account entry.1 entry.2

def payLinkLeaf (entry : Hash × PayLink) : Bytes := env.encode.payLink entry.2

def validatorLeaf (entry : Address × ValidatorInfo) : Bytes := env.encode.validator entry.2

def computeAccountRoot (accounts : ExtTreeMap Address Account) : Hash :=
  treeRoot env (accounts.toList.map (accountLeaf env))

def computePayLinkRoot (paylinks : ExtTreeMap Hash PayLink) : Hash :=
  treeRoot env (paylinks.toList.map (payLinkLeaf env))

def computeValidatorRoot (validators : ExtTreeMap Address ValidatorInfo) : Hash :=
  treeRoot env (validators.toList.map (validatorLeaf env))

def computeProofRoot (proofs : ExtTreeSet Hash) : Hash :=
  treeRoot env (proofs.toList.map hashBytes)

def computeOperatorApprovalRoot (approvals : ExtTreeSet OperatorKey) : Hash :=
  treeRoot env (approvals.toList.map env.encode.operator)

def stateRoots (s : Snapshot) : List Hash :=
  [computeAccountRoot env s.accounts, computePayLinkRoot env s.paylinks,
    computeValidatorRoot env s.validators, computeProofRoot env s.usedProofs,
    computeOperatorApprovalRoot env s.operatorApprovals, computeProofRoot env s.processedEvidence]

def computeStateRoot (s : Snapshot) : Hash := combineHashes env (stateRoots env s)

def treeHashed (data : List Bytes) : List Bytes :=
  data ++ (Merkle.joins (merkleNode env) (data.map env.sha256)).map nodeBytes

def rootHashed (s : Snapshot) : List Bytes :=
  treeHashed env (s.accounts.toList.map (accountLeaf env)) ++
  treeHashed env (s.paylinks.toList.map (payLinkLeaf env)) ++
  treeHashed env (s.validators.toList.map (validatorLeaf env)) ++
  treeHashed env (s.usedProofs.toList.map hashBytes) ++
  treeHashed env (s.operatorApprovals.toList.map env.encode.operator) ++
  treeHashed env (s.processedEvidence.toList.map hashBytes) ++
  [(stateRoots env s).flatMap hashBytes]

@[simp] theorem length_beBytes (len n : Nat) : (beBytes len n).length = len := by
  induction len generalizing n with
  | zero => rfl
  | succ len ih => simp [beBytes, ih]

theorem beBytes_injective {len n m : Nat} (hn : n < 256 ^ len) (hm : m < 256 ^ len)
    (h : beBytes len n = beBytes len m) : n = m := by
  induction len generalizing n m with
  | zero =>
    rw [Nat.pow_zero, Nat.lt_one_iff] at hn hm
    rw [hn, hm]
  | succ len ih =>
    obtain ⟨hhigh, hlow⟩ := List.append_inj h (by simp)
    have hhigh' : n / 256 = m / 256 := ih (Nat.div_lt_of_lt_mul (by rwa [Nat.mul_comm, ← Nat.pow_succ]))
        (Nat.div_lt_of_lt_mul (by rwa [Nat.mul_comm, ← Nat.pow_succ])) hhigh
    have hlow' : n % 256 = m % 256 := by
      have hbyte := congrArg UInt8.toNat (List.singleton_inj.mp hlow)
      simpa only [UInt8.toNat_ofNat', Nat.reducePow, Nat.mod_mod] using hbyte
    omega

theorem beNat_beBytes {len n : Nat} (h : n < 256 ^ len) : beNat (beBytes len n) = n := by
  induction len generalizing n with
  | zero =>
    rw [Nat.pow_zero, Nat.lt_one_iff] at h
    rw [h]
    rfl
  | succ len ih =>
    have hhigh : beNat (beBytes len (n / 256)) = n / 256 :=
      ih (Nat.div_lt_of_lt_mul (by rwa [Nat.mul_comm, ← Nat.pow_succ]))
    have hlow : (UInt8.ofNat (n % 256)).toNat = n % 256 := by
      simp only [UInt8.toNat_ofNat', Nat.reducePow, Nat.mod_mod]
    unfold beNat at hhigh ⊢
    rw [beBytes, List.foldl_append, hhigh, List.foldl_cons, List.foldl_nil, hlow]
    exact Nat.div_add_mod n 256

@[simp] theorem length_hashBytes (h : Hash) : (hashBytes h).length = 32 := length_beBytes 32 _

theorem hashBytes_injective : Function.Injective hashBytes := by
  intro h h' heq
  have hsize : (256 : Nat) ^ 32 = 2 ^ 256 := by norm_num
  exact BitVec.eq_of_toNat_eq (beBytes_injective (hsize ▸ h.isLt) (hsize ▸ h'.isLt) heq)

@[simp] theorem length_nodeBytes (children : Hash × Hash) : (nodeBytes children).length = 64 := by
  simp [nodeBytes]

theorem nodeBytes_injective : Function.Injective nodeBytes := by
  rintro ⟨l, r⟩ ⟨l', r'⟩ heq
  obtain ⟨hl, hr⟩ := List.append_inj heq (by simp)
  obtain rfl : l = l' := hashBytes_injective hl
  obtain rfl : r = r' := hashBytes_injective hr
  rfl

theorem flatMap_hashBytes_injective {hs hs' : List Hash} (hlen : hs.length = hs'.length)
    (h : hs.flatMap hashBytes = hs'.flatMap hashBytes) : hs = hs' := by
  induction hs generalizing hs' with
  | nil => exact (List.length_eq_zero_iff.mp hlen.symm).symm
  | cons x hs ih =>
    cases hs' with
    | nil => cases hlen
    | cons x' hs' =>
      rw [List.flatMap_cons, List.flatMap_cons] at h
      obtain ⟨hhead, htail⟩ := List.append_inj h (by simp)
      rw [hashBytes_injective hhead, ih (Nat.succ.inj hlen) htail]

end LinkMint.Chain

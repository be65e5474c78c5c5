import Mathlib

/-!
# The chain's data model

The records of `paylink-chain/internal/types`.
-/

namespace LinkMint.Chain

open Std

/-- A Go `[]byte` or `json.RawMessage`. -/
abbrev Bytes := List UInt8

abbrev Hash := BitVec 256

abbrev Address := BitVec 160

instance instTransOrdHash : TransOrd Hash := inferInstance

instance instTransOrdAddress : TransOrd Address := inferInstance

/-- Big-endian bytes of `n`, `len` of them. -/
def beBytes : (len : Nat) → (n : Nat) → Bytes
  | 0, _ => []
  | len + 1, n => beBytes len (n / 256) ++ [UInt8.ofNat (n % 256)]

def beNat (bs : Bytes) : Nat := bs.foldl (fun n b => 256 * n + b.toNat) 0

def hexDigits (bs : Bytes) : List Char :=
  bs.flatMap fun b => [Nat.digitChar (b.toNat / 16), Nat.digitChar (b.toNat % 16)]

def hex {w : Nat} (b : BitVec w) : String := String.ofList ('0' :: 'x' :: hexDigits (beBytes (w / 8) b.toNat))

def hashBytes (h : Hash) : Bytes := beBytes 32 h.toNat

def addressBytes (a : Address) : Bytes := beBytes 20 a.toNat

structure Account where
  balance : UInt64 := 0
  nonce : Nat := 0
deriving DecidableEq, Repr

inductive Status where
  | none
  | created
  | verified
  | failed
  | cancelled
deriving DecidableEq, Repr

namespace Status
def code : Status → Nat
  | .none => 0
  | .created => 1
  | .verified => 2
  | .failed => 3
  | .cancelled => 4

def string : Status → String
  | .none => "NONE"
  | .created => "CREATED"
  | .verified => "VERIFIED"
  | .failed => "FAILED"
  | .cancelled => "CANCELLED"

theorem code_injective : Function.Injective code := by
  intro a b h
  cases a <;> cases b <;> first | rfl | exact absurd h (by decide)

instance : Ord Status := ⟨compareOn code⟩

instance : TransOrd Status := inferInstanceAs (TransCmp (compareOn code))

instance : LawfulEqOrd Status where
  eq_of_compare h := code_injective (LawfulEqOrd.eq_of_compare h)
end Status

structure PayLink where
  id : Hash
  creator : Address
  receiver : Address
  owner : Address
  approved : Address := 0
  amount : UInt64
  expiry : Int64
  status : Status
  metadataHash : Hash
  createdAt : Int64
  voteCount : UInt64 := 0
  transferCount : UInt64 := 0
  rules : Bytes
deriving DecidableEq, Repr

structure ValidatorInfo where
  address : Address
  stakedAmount : UInt64 := 0
  pendingWithdrawal : UInt64 := 0
  withdrawableAt : Int64 := 0
  totalSlashed : UInt64 := 0
  totalRewards : UInt64 := 0
  isActive : Bool := false
  joinedAt : Int64
  vrfPublicKey : Bytes := []
deriving DecidableEq, Repr

structure VoteKey where
  payLinkID : Hash
  validator : Address
deriving DecidableEq, Repr

structure OperatorKey where
  owner : Address
  operator : Address
deriving DecidableEq, Repr

instance : Ord VoteKey := ⟨compareLex (compareOn (·.payLinkID)) (compareOn (·.validator))⟩

instance : TransOrd VoteKey :=
  inferInstanceAs (TransCmp (compareLex (compareOn VoteKey.payLinkID) (compareOn (·.validator))))

instance : LawfulEqOrd VoteKey where
  eq_of_compare {a b} h := by
    obtain ⟨p, v⟩ := a
    obtain ⟨p', v'⟩ := b
    obtain ⟨h₁, h₂⟩ := compareLex_eq_eq.mp h
    rw [show p = p' from LawfulEqOrd.eq_of_compare h₁, show v = v' from LawfulEqOrd.eq_of_compare h₂]

instance : Ord OperatorKey := ⟨compareLex (compareOn (·.owner)) (compareOn (·.operator))⟩

instance : TransOrd OperatorKey :=
  inferInstanceAs (TransCmp (compareLex (compareOn OperatorKey.owner) (compareOn (·.operator))))

instance : LawfulEqOrd OperatorKey where
  eq_of_compare {a b} h := by
    obtain ⟨o, p⟩ := a
    obtain ⟨o', p'⟩ := b
    obtain ⟨h₁, h₂⟩ := compareLex_eq_eq.mp h
    rw [show o = o' from LawfulEqOrd.eq_of_compare h₁, show p = p' from LawfulEqOrd.eq_of_compare h₂]

end LinkMint.Chain

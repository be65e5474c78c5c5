import LinkMint.Lib.Process

/-!
# Idempotency keys

The two reservation stores for state-changing endpoints, `idempotency-go` and `idempotency-python`, over the part of
Redis they use.
-/

namespace LinkMint.Idem

open LinkMint.Lib

inductive RecordState where
  | pending
  | completed
deriving DecidableEq, Repr

/-- `record`; the status and the body are those of a completed one. -/
structure Record where
  state : RecordState
  fp : String
  status : Int := 0
  body : String := ""
deriving DecidableEq, Repr

structure Codec where
  marshal : Record → Option String
  unmarshal : String → Option Record
  compact : String → String
  unmarshal_marshal : ∀ r s, marshal r = some s → unmarshal s = some { r with body := compact r.body }
  unmarshal_empty : unmarshal "" = none

/-- What is written for a record: the error of `Marshal` is dropped. -/
def Codec.text (J : Codec) (r : Record) : String := (J.marshal r).getD ""

theorem Codec.unmarshal_text (J : Codec) (r : Record) {r' : Record} (h : J.unmarshal (J.text r) = some r') :
    r' = { r with body := J.compact r.body } := by
  unfold Codec.text at h
  cases hm : J.marshal r with
  | none =>
    rw [hm, Option.getD_none, J.unmarshal_empty] at h
    cases h
  | some s =>
    rw [hm, Option.getD_some, J.unmarshal_marshal r s hm] at h
    exact (Option.some.inj h).symm

def redisKey (service route key : String) : String := "idem:" ++ service ++ ":" ++ route ++ ":" ++ key

def pending (fp : String) : Record := { state := .pending, fp }

def completed (fp : String) (status : Int) (body : String) : Record := { state := .completed, fp, status, body }

/-- What a plain `SET` is for, which Redis does not see. -/
inductive Purpose where
  | reserve
  | complete
deriving DecidableEq, Repr

structure RedisLike (ι : Type) (R : ι → Type) where
  setNX (key value : String) : Prog ι R (Except String Bool)
  set (purpose : Purpose) (key value : String) : Prog ι R (Except String Unit)
  get (key : String) : Prog ι R (Except String (Option String))
  del (key : String) : Prog ι R (Except String Unit)

structure Conflict where
  reason : String
  message : String
deriving DecidableEq, Repr

def bodyMismatch : Conflict where
  reason := "body_mismatch"
  message := "Idempotency-Key was already used with a different request body"

def inFlight : Conflict where
  reason := "in_flight"
  message := "a request with this Idempotency-Key is still in progress"

inductive BeginResult where
  | cached (status : Int) (body : String)
  | owned
  | conflict (c : Conflict)
  | backend (message : String)
deriving DecidableEq, Repr

variable {ι : Type} {R : ι → Type} (redis : RedisLike ι R) (J : Codec)

/-- How `Begin` ends once it has read a record. -/
def replay (fp raw : String) : BeginResult :=
  match J.unmarshal raw with
  | none => .backend "unmarshal"
  | some rec =>
    if rec.fp ≠ fp then .conflict bodyMismatch
    else match rec.state with
      | .completed => .cached rec.status rec.body
      | .pending => .conflict inFlight

namespace Go
def acquire (rkey fp : String) : Nat → Prog ι R BeginResult
  | 0 => return .conflict inFlight
  | attempts + 1 => do
    match ← redis.setNX rkey (J.text (pending fp)) with
    | .error m => return .backend m
    | .ok true => return .owned
    | .ok false =>
      match ← redis.get rkey with
      | .error m => return .backend m
      | .ok none => acquire rkey fp attempts
      | .ok (some raw) => return replay J fp raw

def begin (rkey fp : String) : Prog ι R BeginResult := acquire redis J rkey fp 2
end Go

namespace Python
def begin (rkey fp : String) : Prog ι R BeginResult := do
  match ← redis.setNX rkey (J.text (pending fp)) with
  | .error m => return .backend m
  | .ok true => return .owned
  | .ok false =>
    match ← redis.get rkey with
    | .error m => return .backend m
    | .ok none =>
      -- the reservation is taken to have expired
      match ← redis.set .reserve rkey (J.text (pending fp)) with
      | .error m => return .backend m
      | .ok () => return .owned
    | .ok (some raw) => return replay J fp raw
end Python

def complete (rkey fp : String) (status : Int) (body : String) : Prog ι R (Except String Unit) :=
  redis.set .complete rkey (J.text (completed fp status body))

/-- `Release`; Go drops its error. -/
def release (rkey : String) : Prog ι R (Except String Unit) := redis.del rkey

end LinkMint.Idem

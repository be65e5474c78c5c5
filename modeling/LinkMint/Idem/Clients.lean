import Mathlib.Logic.Function.Basic
import LinkMint.Idem.Store
import LinkMint.Lib.Protocol

/-!
# Clients of an idempotency store

Any number of callers, each of which begins with a key, works if it owns it and then completes or releases once.
-/

namespace LinkMint.Idem

open LinkMint.Lib

inductive Client where
  | go
  | python
deriving DecidableEq, Repr

structure Deployment where
  client : Client
  service : String
  codec : Codec

structure Request where
  route : String
  key : String
  fp : String
deriving DecidableEq, Repr

inductive Outcome where
  | complete (status : Int) (body : String)
  | release
  | crash
deriving DecidableEq, Repr

inductive Op where
  | setNX (key value : String)
  | set (purpose : Purpose) (key value : String)
  | get (key : String)
  | del (key : String)
  | work (key : String)
deriving DecidableEq, Repr

def Op.Answer : Op → Type
  | .setNX _ _ => Except String Bool
  | .set _ _ _ | .del _ => Except String Unit
  | .get _ => Except String (Option String)
  | .work _ => Outcome

abbrev Proc (α : Type) := Prog Op Op.Answer α

namespace Call
abbrev setNX (key value : String) : Proc (Except String Bool) := Prog.op (Op.setNX key value)
abbrev set (purpose : Purpose) (key value : String) : Proc (Except String Unit) :=
  Prog.op (Op.set purpose key value)
abbrev get (key : String) : Proc (Except String (Option String)) := Prog.op (Op.get key)
abbrev del (key : String) : Proc (Except String Unit) := Prog.op (Op.del key)
abbrev work (key : String) : Proc Outcome := Prog.op (Op.work key)
end Call

def redis : RedisLike Op Op.Answer where
  setNX := Call.setNX
  set := Call.set
  get := Call.get
  del := Call.del

inductive Phase where
  | idle
  | missing (key : String)
  | read (key raw : String)
  | owning (key : String)
deriving DecidableEq, Repr

def Phase.next : Phase → (i : Op) → i.Answer → Phase
  | _, .setNX key _, .ok true => .owning key
  | _, .setNX _ _, _ => .idle
  | _, .set .reserve key _, .ok () => .owning key
  | _, .set _ _ _, _ => .idle
  | _, .get key, .ok (some raw) => .read key raw
  | _, .get key, .ok none => .missing key
  | _, .get _, .error _ => .idle
  | _, .del _, _ => .idle
  | _, .work _, .crash => .idle
  | t, .work _, _ => t

structure World where
  data : String → Option String := fun _ => none
  phase : Nat → Phase := fun _ => .idle
  /-- The texts that a `Complete` has stored, with the request it was for. -/
  stored : List (Request × String) := []

inductive Choice where
  | ok
  | failed (message : String)
  | lost (message : String)
  | worked (outcome : Outcome)

def command {α : Type} (old : String → Option String) (run : α × (String → Option String)) :
    Choice → Option (Except String α × (String → Option String))
  | .ok => some (.ok run.1, run.2)
  | .failed m => some (.error m, old)
  | .lost m => some (.error m, run.2)
  | .worked _ => none

def execute (data : String → Option String) : (i : Op) → Choice → Option (i.Answer × (String → Option String))
  | .setNX key value => command data
      (if (data key).isSome then (false, data) else (true, Function.update data key (some value)))
  | .set _ key value => command data ((), Function.update data key (some value))
  | .get key => command data (data key, data)
  | .del key => command data ((), Function.update data key none)
  | .work _ => fun
    | .worked outcome => some (outcome, data)
    | _ => none

def record (q : Request) (stored : List (Request × String)) : Op → Choice → List (Request × String)
  | .set .complete _ value, .ok | .set .complete _ value, .lost _ => stored ++ [(q, value)]
  | _, _ => stored

def serve (n : Nat) (q : Request) (w : World) (i : Op) (c : Choice) : Option (i.Answer × World) :=
  (execute w.data i c).map fun (a, data) =>
    (a, { data, phase := Function.update w.phase n ((w.phase n).next i a), stored := record q w.stored i c })

inductive Drift where
  | expire (key : String)
deriving DecidableEq, Repr

def drift (w : World) : Drift → World
  | .expire key => { w with data := Function.update w.data key none }

inductive Reply where
  | done (result : BeginResult)
  | finished (result : Except String Unit)
  | crashed
deriving DecidableEq

variable (D : Deployment)

def Deployment.rkey (q : Request) : String := redisKey D.service q.route q.key

def begin (q : Request) : Proc BeginResult :=
  match D.client with
  | .go => Go.begin redis D.codec (D.rkey q) q.fp
  | .python => Python.begin redis D.codec (D.rkey q) q.fp

def own (q : Request) : Proc Reply := do
  match ← Call.work (D.rkey q) with
  | .complete status body => return .finished (← complete redis D.codec (D.rkey q) q.fp status body)
  | .release => return .finished (← release redis (D.rkey q))
  | .crash => return .crashed

def handle (q : Request) : Proc Reply := do
  match ← begin D q with
  | .owned => own D q
  | result => return .done result

def system : System Op Op.Answer Request World Choice Drift Reply where
  main := handle D
  serve := serve
  drift := drift

end LinkMint.Idem

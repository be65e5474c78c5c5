import Mathlib.Algebra.GroupWithZero.Nat
import Mathlib.Data.List.MinMax
import Mathlib.Logic.Function.Basic
import LinkMint.Lib.Process

/-!
# Kafka consumers

`Consumer.Run` of `eventbus-go` and `KafkaConsumer.run` of `eventbus-python`, over a client whose fetch position moves
past every record it returns and goes back to the committed offset only when a partition is assigned.
-/

namespace LinkMint.EventBus

open LinkMint.Lib

abbrev Bytes := List UInt8

structure TopicPartition where
  topic : String
  partition : Nat
deriving DecidableEq, Repr

structure Record where
  tp : TopicPartition
  offset : Nat
  value : Bytes
deriving DecidableEq, Repr

structure Envelope where
  name : String
  payload : Bytes
deriving DecidableEq, Repr

structure World where
  log : TopicPartition → List Record := fun _ => []
  next : TopicPartition → Nat := fun _ => 0
  committed : TopicPartition → Option Nat := fun _ => none
  position : Nat → TopicPartition → Option Nat := fun _ _ => none
  handled : List (TopicPartition × Nat) := []
  failed : Nat → TopicPartition → Bool := fun _ _ => false

def World.batch (w : World) (n : Nat) (tp : TopicPartition) (k : Nat) : List Record :=
  match w.position n tp with
  | none => []
  | some x => ((w.log tp).filter fun r => x ≤ r.offset).take k

def endOf (recs : List Record) : Option Nat := recs.getLast?.map (·.offset + 1)

def World.fetched (w : World) (n : Nat) (batches : List (TopicPartition × List Record)) : World :=
  { w with position := Function.update w.position n fun tp =>
      ((batches.lookup tp).bind endOf).or (w.position n tp) }

def World.handle (w : World) (r : Record) : World :=
  { w with handled := w.handled ++ [(r.tp, r.offset)] }

/-- Only a failure before the fetch position counts: the position can have been reset since the poll. -/
def World.fail (w : World) (n : Nat) (r : Record) : World :=
  if (w.position n r.tp).any fun x => r.offset < x then
    { w with failed := Function.update w.failed n (Function.update (w.failed n) r.tp true) }
  else w

def World.commit (w : World) (offsets : List (TopicPartition × Nat)) (applied : List TopicPartition) : World :=
  { w with committed := fun tp =>
      if tp ∈ applied then (offsets.lookup tp).or (w.committed tp) else w.committed tp }

inductive Op where
  | poll (maxRecords : Nat)
  | handle (r : Record) (name : String) (payload : Bytes)
  | commit (offsets : List (TopicPartition × Nat))

def Op.Answer : Op → Type
  /- `none` once the client is closed, the context is cancelled or the poll raises -/
  | .poll _ => Option (List (TopicPartition × List Record))
  | .handle _ _ _ | .commit _ => Except String Unit

inductive Choice where
  | fetch (counts : List (TopicPartition × Nat))
  | stop
  | handled (result : Except String Unit)
  | commit (applied : List TopicPartition) (result : Except String Unit)

abbrev Proc (α : Type) := Prog Op Op.Answer α

namespace Call
abbrev poll (maxRecords : Nat) : Proc (Option (List (TopicPartition × List Record))) :=
  Prog.op (Op.poll maxRecords)
abbrev handle (r : Record) (name : String) (payload : Bytes) : Proc (Except String Unit) :=
  Prog.op (Op.handle r name payload)
abbrev commit (offsets : List (TopicPartition × Nat)) : Proc (Except String Unit) :=
  Prog.op (Op.commit offsets)
end Call

def serve {ρ : Type} (n : Nat) (_ : ρ) (w : World) : (i : Op) → Choice → Option (i.Answer × World)
  | .poll maxRecords => fun
    | .fetch counts =>
      if (counts.map Prod.fst).Nodup ∧ (counts.map Prod.snd).sum ≤ maxRecords then
        let batches := counts.map fun c => (c.1, w.batch n c.1 c.2)
        some (some batches, w.fetched n batches)
      else none
    | .stop => some (none, w)
    | _ => none
  | .handle r _ _ => fun
    | .handled (.ok ()) => some (.ok (), w.handle r)
    | .handled (.error m) => some (.error m, w.fail n r)
    | _ => none
  | .commit offsets => fun
    | .commit applied result => some (result, w.commit offsets applied)
    | _ => none

inductive Drift where
  | produce (tp : TopicPartition) (skip : Nat) (value : Bytes)
  | assign (n : Nat) (tp : TopicPartition)
  | revoke (n : Nat) (tp : TopicPartition)

def World.reset (w : World) (n : Nat) (tp : TopicPartition) (x : Option Nat) : World :=
  { w with
    position := Function.update w.position n (Function.update (w.position n) tp x)
    failed := Function.update w.failed n (Function.update (w.failed n) tp false) }

def drift (w : World) : Drift → World
  | .produce tp skip value =>
    let r : Record := { tp, offset := w.next tp + skip, value }
    { w with log := Function.update w.log tp (w.log tp ++ [r]), next := Function.update w.next tp (r.offset + 1) }
  -- a group without a committed offset starts at the earliest record
  | .assign n tp => w.reset n tp (some ((w.committed tp).getD 0))
  | .revoke n tp => w.reset n tp none

inductive Client where
  | go
  | python
deriving DecidableEq, Repr

structure Deployment where
  decode : Bytes → Option Envelope
  client : Client

def maxRecords : Nat := 256

variable (D : Deployment)

def cleanPrefix : List Record → Proc (List Record)
  | [] => return []
  | r :: rs => do
    match D.decode r.value with
    | none => return r :: (← cleanPrefix rs)
    | some env =>
      match ← Call.handle r env.name env.payload with
      | .error _ => return []
      | .ok () => return r :: (← cleanPrefix rs)

/-- `EachPartition`, with the records to commit. -/
def eachPartition : List (TopicPartition × List Record) → Proc (List Record)
  | [] => return []
  | (_, recs) :: rest => do
    let done ← cleanPrefix D recs
    return done ++ (← eachPartition rest)

/-- `CommitRecords`: the highest offset of each partition. -/
def commitRecords (recs : List Record) : List (TopicPartition × Nat) :=
  (recs.map (·.tp)).eraseDups.filterMap fun tp =>
    ((recs.filter fun r => r.tp = tp).map (·.offset + 1)).max?.map fun o => (tp, o)

/-- `Consumer.Run`. -/
def goRun : Nat → Proc Unit
  | 0 => return ()
  | k + 1 => do
    match ← Call.poll maxRecords with
    | none => return ()
    | some batches =>
      let commit ← eachPartition D batches
      if commit = [] then goRun k
      else
        let _ ← Call.commit (commitRecords commit)
        goRun k

def processPartition (tp : TopicPartition) (msgs : List Record) : Proc (Except String Unit) := do
  match endOf (← cleanPrefix D msgs) with
  | none => return .ok ()
  | some commitOffset => Call.commit [(tp, commitOffset)]

def processPartitions : List (TopicPartition × List Record) → Proc (Except String Unit)
  | [] => return .ok ()
  | (tp, msgs) :: rest => do
    match ← processPartition D tp msgs with
    | .error m => return .error m
    | .ok () => processPartitions rest

/-- `KafkaConsumer.run`. -/
def pythonRun : Nat → Proc Unit
  | 0 => return ()
  | k + 1 => do
    match ← Call.poll maxRecords with
    | none => return ()
    | some batches =>
      match ← processPartitions D batches with
      | .error _ => return ()
      | .ok () => pythonRun k

structure Request where
  rounds : Nat

def run (q : Request) : Proc Unit :=
  match D.client with
  | .go => goRun D q.rounds
  | .python => pythonRun D q.rounds

def system : System Op Op.Answer Request World Choice Drift Unit where
  main := run D
  serve := serve
  drift := drift

end LinkMint.EventBus

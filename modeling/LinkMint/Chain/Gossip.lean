import LinkMint.Chain.Node

/-!
# Gossip

`internal/p2p/libp2p_host.go`: the two loops that receive blocks and transactions from peers, `BroadcastBlock`, and
the handlers that `cmd/paylinkd/main.go` registers.
-/

namespace LinkMint.Chain

open LinkMint.Lib Std

inductive MsgType where
  | block
  | tx
  | syncRequest
  | syncResponse
  | other (text : String)
deriving DecidableEq, Repr

structure Envelope where
  type : MsgType
  data : Bytes

/-- `json.Unmarshal` and `json.Marshal` of what is on the wire. -/
structure Wire where
  envelope : Bytes → Except String Envelope
  blockMessage : Bytes → Except String (Option Block)
  txMessage : Bytes → Except String (Option Transaction)
  encodeBlock : Block → Except String Bytes

structure Message where
  receivedFrom : String
  data : Bytes

def maxTxPayloadBytes : Nat := 32 * 1024

structure LibP2PHost (env : Env) where
  node : Paylinkd env
  id : String
  seenMsgs : ExtTreeSet Hash := ∅

namespace LibP2PHost
variable {env : Env}

def hasSeen (host : LibP2PHost env) (hash : Hash) : Bool := host.seenMsgs.contains hash

/-- `markSeen`: a cache that has grown too large is dropped, the new entry with it. -/
def markSeen (host : LibP2PHost env) (hash : Hash) : LibP2PHost env :=
  let seenMsgs := host.seenMsgs.insert hash
  { host with seenMsgs := if 10000 < seenMsgs.size then ∅ else seenMsgs }

def onBlock (srt : NonceSort) (host : LibP2PHost env) (block : Block) (flush : Except String Unit) : LibP2PHost env :=
  { host with node := host.node.step srt (.process block flush) }

def onTx (srt : NonceSort) (host : LibP2PHost env) (tx : Transaction) : LibP2PHost env :=
  if maxTxPayloadBytes < tx.payload.length then host
  else match verifyTx env tx with
    | .error _ => host
    | .ok () => { host with node := host.node.step srt (.add tx) }

variable (wire : Wire) (srt : NonceSort) (host : LibP2PHost env)

def blockOf (msg : Message) : Option Block :=
  match wire.envelope msg.data with
  | .error _ => none
  | .ok e =>
    if e.type ≠ .block then none
    else match wire.blockMessage e.data with
      | .error _ => none
      | .ok block => block

def txOf (msg : Message) : Option Transaction :=
  match wire.envelope msg.data with
  | .error _ => none
  | .ok e =>
    if e.type ≠ .tx then none
    else match wire.txMessage e.data with
      | .error _ => none
      | .ok tx => tx

/-- One pass of `handleBlocks`. -/
def handleBlocks (msg : Message) (flush : Except String Unit) : LibP2PHost env :=
  if msg.receivedFrom = host.id then host
  else match blockOf wire msg with
    | none => host
    | some block =>
      let block := { block with hash := headerHash env block.header }
      if host.hasSeen block.hash then host
      else (host.markSeen block.hash).onBlock srt block flush

def handleTxs (msg : Message) : LibP2PHost env :=
  if msg.receivedFrom = host.id then host
  else match txOf wire msg with
    | none => host
    | some tx =>
      let tx := { tx with hash := env.sha256 (signableBytes env tx) }
      if host.hasSeen tx.hash then host
      else (host.markSeen tx.hash).onTx srt tx

def broadcastBlock (block : Block) : LibP2PHost env :=
  match wire.encodeBlock block with
  | .error _ => host
  | .ok _ => host.markSeen block.hash

inductive Op where
  | own (op : Paylinkd.Op)
  | block (msg : Message) (flush : Except String Unit)
  | tx (msg : Message)

def step (host : LibP2PHost env) : Op → LibP2PHost env
  | .own op =>
    let next : LibP2PHost env := { host with node := host.node.step srt op }
    match op with
    | .produce io =>
      match (host.node.toNode.produceBlock env srt io).1 with
      | none => next
      | some block => next.broadcastBlock wire block
    | _ => next
  | .block msg flush => host.handleBlocks wire srt msg flush
  | .tx msg => host.handleTxs wire srt msg
end LibP2PHost
end LinkMint.Chain

import LinkMint.Lib.MapTotal
import LinkMint.Chain.Merkle

/-!
# The chain of blocks and its store

`internal/chain/blockchain.go` over the key-value store of `internal/storage`, modelled as one map per key family; a
height is a number here.
-/

namespace LinkMint.Chain

open LinkMint.Lib Std

structure Store where
  /-- `b/{height}` -/
  blocks : ExtTreeMap Nat Bytes := ∅
  /-- `bh/{hash}` -/
  blockHashes : ExtTreeMap Hash Nat := ∅
  /-- `m/height` -/
  height : Option Nat := none
  /-- `tx/{hash}` -/
  txs : ExtTreeMap Hash Bytes := ∅
  /-- `r/{txHash}` -/
  receipts : ExtTreeMap Hash Bytes := ∅

structure Blockchain where
  store : Store := {}
  tip : Option Block := none
  height : Nat := 0

variable (env : Env)

def headerHash (header : BlockHeader) : Hash := env.sha256 (env.encode.header header)

def computeTxRoot (txs : List Transaction) : Hash :=
  if txs.length = 0 then 0 else env.sha256 (txs.flatMap fun tx => hashBytes tx.hash)

def defaultGenesisTimestamp : Int64 := 1735689600

def createGenesisBlock (g : GenesisConfig) (s : Snapshot) : Block :=
  let header : BlockHeader :=
    { height := 0
      timestamp := if g.genesisTimestamp = 0 then defaultGenesisTimestamp else g.genesisTimestamp
      previousHash := 0
      stateRoot := computeStateRoot env s
      txRoot := 0
      proposerAddr := g.adminAddress }
  { header := header, transactions := [], hash := headerHash env header }

/-- The entries a loop of `json.Marshal` and `batch.Set` adds to a batch, or the first error. -/
def marshalAll {α : Type} (encode : α → Except String Bytes) (key : α → Hash) :
    List α → Except String (List (Hash × Bytes))
  | [] => .ok []
  | a :: as =>
    match encode a with
    | .error e => .error e
    | .ok data =>
      match marshalAll encode key as with
      | .error e => .error e
      | .ok entries => .ok ((key a, data) :: entries)

def putAll (m : ExtTreeMap Hash Bytes) (entries : List (Hash × Bytes)) : ExtTreeMap Hash Bytes :=
  entries.foldl (fun m e => m.insert e.1 e.2) m

variable {entries : List (Hash × Bytes)}

theorem marshalAll_ok {α : Type} {encode : α → Except String Bytes} {key : α → Hash} {as : List α} :
    marshalAll encode key as = .ok entries ↔ List.Forall₂ (fun a e => e.1 = key a ∧ encode a = .ok e.2) as entries := by
  induction as generalizing entries with
  | nil =>
    simp only [marshalAll, Except.ok.injEq, List.forall₂_nil_left_iff]
    exact eq_comm
  | cons a as ih =>
    unfold marshalAll
    cases hdata : encode a with
    | error e => simp [List.forall₂_cons_left_iff, hdata]
    | ok data =>
      cases hrest : marshalAll encode key as with
      | error e =>
        simp only [reduceCtorEq, false_iff, List.forall₂_cons_left_iff, not_exists, not_and]
        rintro _ rest - hrest' -
        rw [ih.mpr hrest'] at hrest
        cases hrest
      | ok rest =>
        rw [List.forall₂_cons_left_iff, Except.ok.injEq]
        constructor
        · rintro rfl
          exact ⟨_, _, ⟨rfl, hdata⟩, ih.mp hrest, rfl⟩
        · rintro ⟨⟨k, data'⟩, rest', ⟨rfl, hdata'⟩, hrest', rfl⟩
          rw [ih.mpr hrest'] at hrest
          rw [hdata] at hdata'
          cases hrest
          cases hdata'
          rfl

theorem marshalAll_keys {α : Type} {encode : α → Except String Bytes} {key : α → Hash} {as : List α}
    (h : marshalAll encode key as = .ok entries) : entries.map (·.1) = as.map key := by
  have hall := marshalAll_ok.mp h
  clear h
  induction hall with
  | nil => rfl
  | cons hhead _ ih => rw [List.map_cons, List.map_cons, hhead.1, ih]

theorem marshalAll_of_forall {α : Type} {encode : α → Except String Bytes} (key : α → Hash)
    {as : List α} (h : ∀ a ∈ as, ∃ data, encode a = .ok data) : ∃ entries, marshalAll encode key as = .ok entries := by
  induction as with
  | nil => exact ⟨[], rfl⟩
  | cons a as ih =>
    obtain ⟨data, hdata⟩ := h a List.mem_cons_self
    obtain ⟨entries, hentries⟩ := ih fun b hb => h b (List.mem_cons_of_mem a hb)
    refine ⟨(key a, data) :: entries, ?_⟩
    rw [marshalAll, hdata]
    simp only [hentries]

theorem entry_of_mem {α : Type} {encode : α → Except String Bytes} {key : α → Hash} {as : List α}
    (h : marshalAll encode key as = .ok entries) {a : α} (ha : a ∈ as) : ∃ data, encode a = .ok data ∧ (key a, data) ∈ entries := by
  have hall := marshalAll_ok.mp h
  clear h
  induction hall with
  | nil => cases ha
  | @cons b e bs es hhead _ ih =>
    rcases List.mem_cons.mp ha with rfl | ha
    · refine ⟨e.2, hhead.2, ?_⟩
      rw [← hhead.1]
      exact List.mem_cons_self
    · obtain ⟨data, hdata, hmem⟩ := ih ha
      exact ⟨data, hdata, List.mem_cons_of_mem e hmem⟩

theorem putAll_cons (m : ExtTreeMap Hash Bytes) (e : Hash × Bytes) (entries : List (Hash × Bytes)) :
    putAll m (e :: entries) = putAll (m.insert e.1 e.2) entries := rfl

theorem putAll_of_not_mem {m : ExtTreeMap Hash Bytes} {k : Hash} (h : k ∉ entries.map (·.1)) : (putAll m entries)[k]? = m[k]? := by
  induction entries generalizing m with
  | nil => rfl
  | cons e entries ih =>
    rw [List.map_cons, List.mem_cons, not_or] at h
    rw [putAll_cons, ih h.2, getElem?_insert_eq, if_neg (Ne.symm h.1)]

theorem putAll_of_mem {m : ExtTreeMap Hash Bytes} (hnodup : (entries.map (·.1)).Nodup) {e : Hash × Bytes}
    (h : e ∈ entries) : (putAll m entries)[e.1]? = some e.2 := by
  induction entries generalizing m with
  | nil => cases h
  | cons e' entries ih =>
    rw [List.map_cons, List.nodup_cons] at hnodup
    rw [putAll_cons]
    rcases List.mem_cons.mp h with rfl | h
    · rw [putAll_of_not_mem hnodup.1, getElem?_insert_eq, if_pos rfl]
    · exact ih hnodup.2 h

namespace Blockchain
variable (bc : Blockchain)

/-- `storeBlock`: the block, its hash and height, its transactions and its receipts, in one batch. -/
def storeBlock (block : Block) (receipts : List TxReceipt) (flush : Except String Unit) : Except String Blockchain :=
  match env.encode.block block with
  | .error e => .error s!"marshal block: {e}"
  | .ok data =>
    match marshalAll env.encode.transaction (·.hash) block.transactions with
    | .error e => .error s!"marshal tx: {e}"
    | .ok txData =>
      match marshalAll env.encode.receipt (·.txHash) receipts with
      | .error e => .error s!"marshal receipt: {e}"
      | .ok rData =>
        match flush with
        | .error e => .error s!"store block: {e}"
        | .ok () => .ok
            { store :=
                { blocks := bc.store.blocks.insert block.header.height data
                  blockHashes := bc.store.blockHashes.insert block.hash block.header.height
                  height := some block.header.height
                  txs := putAll bc.store.txs txData
                  receipts := putAll bc.store.receipts rData }
              tip := some block
              height := block.header.height }

def checkHeightAndHash (expectedHeight : Nat) (block : Block) : Except String Unit :=
  if block.header.height ≠ expectedHeight then
    .error s!"block height mismatch: expected {expectedHeight}, got {block.header.height}"
  else if block.hash ≠ headerHash env block.header then
    .error s!"block hash mismatch: declared {hex block.hash}, computed {hex (headerHash env block.header)}"
  else .ok ()

/-- `checkLinkage`: the block extends the tip and carries its true hash. -/
def checkLinkage (block : Block) : Except String Unit :=
  match bc.tip with
  | some tip =>
    if block.header.previousHash ≠ tip.hash then
      .error s!"block previous hash mismatch: expected {hex tip.hash}, got {hex block.header.previousHash}"
    else checkHeightAndHash env (bc.height + 1) block
  | none => checkHeightAndHash env 0 block

def commitBlock (block : Block) (receipts : List TxReceipt) (flush : Except String Unit) : Except String Blockchain :=
  match bc.checkLinkage env block with
  | .error e => .error e
  | .ok () => bc.storeBlock env block receipts flush

def getBlockByHeight (height : Nat) : Except String (Option Block) :=
  match bc.store.blocks[height]? with
  | none => .ok none
  | some data => (env.decode.block data).map some

def getReceipt (txHash : Hash) : Except String (Option TxReceipt) :=
  match bc.store.receipts[txHash]? with
  | none => .ok none
  | some data => (env.decode.receipt data).map some

/-- `Init`: the tip is loaded at the stored height, or the genesis block is stored. -/
def init (genesisBlock : Block) (flush : Except String Unit) : Except String Blockchain :=
  match bc.store.height with
  | some height =>
    match bc.getBlockByHeight env height with
    | .error e => .error s!"load tip block: {e}"
    | .ok block => .ok { bc with tip := block, height := height }
  | none => bc.storeBlock env genesisBlock [] flush

/-- `StoreReceipt`, and on to the next: what was written before an error stays. -/
def storeReceiptsFrom (set : Nat → Except String Unit) :
    Nat → Blockchain → List TxReceipt → Except String Unit × Blockchain
  | _, bc, [] => (.ok (), bc)
  | i, bc, receipt :: receipts =>
    match env.encode.receipt receipt with
    | .error e => (.error e, bc)
    | .ok data =>
      match set i with
      | .error e => (.error e, bc)
      | .ok () =>
        storeReceiptsFrom set (i + 1)
          { bc with store :=
              { bc.store with receipts := bc.store.receipts.insert receipt.txHash data } }
          receipts

def storeReceipts (set : Nat → Except String Unit) (receipts : List TxReceipt) : Except String Unit × Blockchain :=
  storeReceiptsFrom env set 0 bc receipts

variable {env} {bc}

theorem checkHeightAndHash_ok {expectedHeight : Nat} {block : Block} :
    checkHeightAndHash env expectedHeight block = .ok () ↔
      block.header.height = expectedHeight ∧ block.hash = headerHash env block.header := by
  unfold checkHeightAndHash
  split
  · next h => simp [h]
  · next h =>
    split
    · next h' => simp [h']
    · next h' => simp [not_not.mp h, not_not.mp h']

structure Extends (env : Env) (bc : Blockchain) (block : Block) : Prop where
  hash : block.hash = headerHash env block.header
  height : block.header.height = if bc.tip.isSome then bc.height + 1 else 0
  previous : ∀ tip, bc.tip = some tip → block.header.previousHash = tip.hash

theorem checkLinkage_ok {block : Block} : bc.checkLinkage env block = .ok () ↔ Extends env bc block := by
  unfold checkLinkage
  cases htip : bc.tip with
  | none =>
    rw [checkHeightAndHash_ok]
    constructor
    · rintro ⟨hheight, hhash⟩
      exact ⟨hhash, by simp [htip, hheight], by simp [htip]⟩
    · intro h
      exact ⟨by simpa [htip] using h.height, h.hash⟩
  | some tip =>
    simp only
    split
    · next hprev =>
      simp only [reduceCtorEq, false_iff]
      intro h
      exact hprev (h.previous tip htip)
    · next hprev =>
      rw [checkHeightAndHash_ok]
      constructor
      · rintro ⟨hheight, hhash⟩
        refine ⟨hhash, by simp [htip, hheight], fun tip' htip' => ?_⟩
        rw [htip] at htip'
        cases htip'
        exact not_not.mp hprev
      · intro h
        exact ⟨by simpa [htip] using h.height, h.hash⟩

structure Stored (env : Env) (bc : Blockchain) (block : Block) (receipts : List TxReceipt)
    (bc' : Blockchain) : Prop where
  tip : bc'.tip = some block
  height : bc'.height = block.header.height
  storeHeight : bc'.store.height = some block.header.height
  blocks : ∃ data, env.encode.block block = .ok data ∧
    bc'.store.blocks = bc.store.blocks.insert block.header.height data
  txs : ∃ entries, marshalAll env.encode.transaction (·.hash) block.transactions = .ok entries ∧
    bc'.store.txs = putAll bc.store.txs entries
  receipts : ∃ entries, marshalAll env.encode.receipt (·.txHash) receipts = .ok entries ∧
    bc'.store.receipts = putAll bc.store.receipts entries

variable {receipts : List TxReceipt}

theorem storeBlock_ok {block : Block} {flush : Except String Unit} {bc' : Blockchain}
    (h : bc.storeBlock env block receipts flush = .ok bc') : flush = .ok () ∧ Stored env bc block receipts bc' := by
  unfold storeBlock at h
  cases hblock : env.encode.block block with
  | error e => simp [hblock] at h
  | ok data =>
    cases htxs : marshalAll env.encode.transaction (·.hash) block.transactions with
    | error e => simp [hblock, htxs] at h
    | ok txData =>
      cases hreceipts : marshalAll env.encode.receipt (·.txHash) receipts with
      | error e => simp [hblock, htxs, hreceipts] at h
      | ok rData =>
        cases hflush : flush with
        | error e => simp [hblock, htxs, hreceipts, hflush] at h
        | ok u =>
          simp only [hblock, htxs, hreceipts, hflush, Except.ok.injEq] at h
          subst h
          exact ⟨rfl, rfl, rfl, rfl, ⟨_, hblock, rfl⟩, ⟨_, htxs, rfl⟩, ⟨_, hreceipts, rfl⟩⟩

theorem commitBlock_ok {block : Block} {flush : Except String Unit} {bc' : Blockchain}
    (h : bc.commitBlock env block receipts flush = .ok bc') :
    flush = .ok () ∧ Extends env bc block ∧ Stored env bc block receipts bc' := by
  unfold commitBlock at h
  cases hlink : bc.checkLinkage env block with
  | error e => simp [hlink] at h
  | ok u =>
    simp only [hlink] at h
    obtain ⟨hflush, hstored⟩ := storeBlock_ok h
    exact ⟨hflush, checkLinkage_ok.mp hlink, hstored⟩

theorem commitBlock_of {block : Block} {data : Bytes} {txData rData : List (Hash × Bytes)}
    (hextends : Extends env bc block) (hblock : env.encode.block block = .ok data)
    (htxs : marshalAll env.encode.transaction (·.hash) block.transactions = .ok txData)
    (hreceipts : marshalAll env.encode.receipt (·.txHash) receipts = .ok rData) :
    ∃ bc', bc.commitBlock env block receipts (.ok ()) = .ok bc' := by
  rw [commitBlock, checkLinkage_ok.mpr hextends]
  simp only [storeBlock, hblock, htxs, hreceipts]
  exact ⟨_, rfl⟩

def withReceipts (bc : Blockchain) (entries : List (Hash × Bytes)) : Blockchain :=
  { bc with store := { bc.store with receipts := putAll bc.store.receipts entries } }

theorem storeReceiptsFrom_spec (env : Env) (set : Nat → Except String Unit) (i : Nat) (bc : Blockchain)
    (receipts : List TxReceipt) :
    ∃ done rest entries, receipts = done ++ rest ∧ marshalAll env.encode.receipt (·.txHash) done = .ok entries ∧
      (storeReceiptsFrom env set i bc receipts).2 = bc.withReceipts entries := by
  induction receipts generalizing i bc with
  | nil => exact ⟨[], [], [], rfl, rfl, rfl⟩
  | cons receipt receipts ih =>
    unfold storeReceiptsFrom
    cases hdata : env.encode.receipt receipt with
    | error e => exact ⟨[], _, [], rfl, rfl, rfl⟩
    | ok data =>
      cases hset : set i with
      | error e => exact ⟨[], _, [], rfl, rfl, rfl⟩
      | ok u =>
        obtain ⟨done, rest, entries, hsplit, hentries, heq⟩ := ih (i + 1) (bc.withReceipts [(receipt.txHash, data)])
        refine ⟨receipt :: done, rest, (receipt.txHash, data) :: entries, by rw [hsplit]; rfl, ?_, heq⟩
        rw [marshalAll, hdata]
        simp only [hentries]

/-- The loop gets as far as `receipt`, after those before it, and writes it. -/
def Written (env : Env) (set : Nat → Except String Unit) (i : Nat) (before : List TxReceipt)
    (receipt : TxReceipt) : Prop :=
  (∀ j ≤ before.length, set (i + j) = .ok ()) ∧
    ∀ r ∈ before ++ [receipt], ∃ data, env.encode.receipt r = .ok data

theorem written_nil {set : Nat → Except String Unit} {i : Nat} {receipt : TxReceipt} :
    Written env set i [] receipt ↔
      set i = .ok () ∧ ∃ data, env.encode.receipt receipt = .ok data := by
  simp [Written]

theorem written_cons {set : Nat → Except String Unit} {i : Nat} {r receipt : TxReceipt}
    {before : List TxReceipt} : Written env set i (r :: before) receipt ↔
      (set i = .ok () ∧ ∃ data, env.encode.receipt r = .ok data) ∧
        Written env set (i + 1) before receipt := by
  have hset : (∀ j ≤ (r :: before).length, set (i + j) = .ok ()) ↔
      set i = .ok () ∧ ∀ j ≤ before.length, set (i + 1 + j) = .ok () := by
    constructor
    · refine fun h => ⟨h 0 (Nat.zero_le _), fun j hj => ?_⟩
      rw [Nat.add_assoc, Nat.add_comm 1 j]
      exact h (j + 1) (Nat.succ_le_succ hj)
    · rintro ⟨hnow, hlater⟩ (_ | j) hj
      · exact hnow
      · rw [Nat.add_comm j 1, ← Nat.add_assoc]
        exact hlater j (Nat.le_of_succ_le_succ hj)
  unfold Written
  rw [hset, List.cons_append, List.forall_mem_cons]
  tauto

theorem storeReceiptsFrom_other {set : Nat → Except String Unit} {i : Nat} {bc : Blockchain}
    {hash : Hash} (h : hash ∉ receipts.map (·.txHash)) :
    (storeReceiptsFrom env set i bc receipts).2.store.receipts[hash]? =
      bc.store.receipts[hash]? := by
  induction receipts generalizing i bc with
  | nil => rfl
  | cons receipt receipts ih =>
    rw [List.map_cons, List.mem_cons, not_or] at h
    unfold storeReceiptsFrom
    split
    · rfl
    · split
      · rfl
      · rw [ih h.2]
        show (bc.store.receipts.insert receipt.txHash _)[hash]? = _
        rw [getElem?_insert_eq, if_neg (Ne.symm h.1)]

/-- What is stored for one of the receipts, by whether the loop gets as far. -/
theorem storeReceiptsFrom_get (env : Env) (set : Nat → Except String Unit) (i : Nat) (bc : Blockchain)
    {before after : List TxReceipt} {receipt : TxReceipt}
    (hnodup : ((before ++ receipt :: after).map (·.txHash)).Nodup) :
    (Written env set i before receipt → ∀ data, env.encode.receipt receipt = .ok data →
      (storeReceiptsFrom env set i bc (before ++ receipt :: after)).2.store.receipts[receipt.txHash]? =
        some data) ∧
    (¬ Written env set i before receipt →
      (storeReceiptsFrom env set i bc (before ++ receipt :: after)).2.store.receipts[receipt.txHash]? =
        bc.store.receipts[receipt.txHash]?) := by
  induction before generalizing i bc with
  | nil =>
    rw [List.nil_append, List.map_cons, List.nodup_cons] at hnodup
    rw [List.nil_append, written_nil, storeReceiptsFrom]
    cases hdata : env.encode.receipt receipt with
    | error e => simp
    | ok data =>
      cases hset : set i with
      | error e => simp
      | ok u =>
        dsimp only
        rw [storeReceiptsFrom_other hnodup.1]
        simp
  | cons r before ih =>
    rw [List.cons_append, List.map_cons, List.nodup_cons] at hnodup
    rw [List.cons_append, written_cons, storeReceiptsFrom]
    cases hdata : env.encode.receipt r with
    | error e => simp
    | ok data =>
      cases hset : set i with
      | error e => simp
      | ok u =>
        have hne : r.txHash ≠ receipt.txHash := fun h => hnodup.1 (h ▸ by simp)
        have hget : (bc.store.receipts.insert r.txHash data)[receipt.txHash]? =
            bc.store.receipts[receipt.txHash]? := by rw [getElem?_insert_eq, if_neg hne]
        have hrest := ih (i + 1) { bc with store :=
          { bc.store with receipts := bc.store.receipts.insert r.txHash data } } hnodup.2
        rw [hget] at hrest
        simpa using hrest
end Blockchain
end LinkMint.Chain

import LinkMint.Lib.Logs
import LinkMint.Chain.Proof.Emission
import LinkMint.Chain.Proof.Nonces

/-!
# The stream of events

What a node hands to its bus is the events of the blocks that became its tip, in that order,
each block's once and with its height (`Paylinkd.announced`).
-/

namespace LinkMint.Chain

open LinkMint.Lib Std

variable {env : Env} {cp : ChainParams}

theorem digitChar_injective : ∀ m < 16, ∀ n < 16, Nat.digitChar m = Nat.digitChar n → m = n := by
  decide

theorem hexDigits_injective {bs bs' : Bytes} (h : hexDigits bs = hexDigits bs') : bs = bs' := by
  induction bs generalizing bs' with
  | nil =>
    cases bs' with
    | nil => rfl
    | cons b' bs' => cases h
  | cons b bs ih =>
    cases bs' with
    | nil => cases h
    | cons b' bs' =>
      simp only [hexDigits, List.flatMap_cons, List.cons_append, List.nil_append, List.cons.injEq] at h
      obtain ⟨hhigh, hlow, hrest⟩ := h
      have hb := b.toNat_lt
      have hb' := b'.toNat_lt
      have hhigh := digitChar_injective _ (by omega) _ (by omega) hhigh
      have hlow := digitChar_injective _ (by omega) _ (by omega) hlow
      have hbyte : b = b' := UInt8.toNat_inj.mp (by omega)
      rw [hbyte, ih hrest]

theorem hex_injective {id id' : Hash} (h : hex id = hex id') : id = id' := by
  have hlist := String.ofList_injective h
  simp only [List.cons.injEq, true_and] at hlist
  have hbytes := hexDigits_injective hlist
  have hread (id : Hash) : beNat (beBytes 32 id.toNat) = id.toNat := beNat_beBytes id.isLt
  have hnat := congrArg beNat hbytes
  rw [hread, hread] at hnat
  exact BitVec.eq_of_toNat_eq hnat

def Event.isStatusOf (id : Hash) (evt : Event) : Bool :=
  evt.kind.changesStatus && evt.entityID == hex id

def statusMoves (id : Hash) (evts : List Event) : List (Option (FsmState × FsmState)) :=
  (evts.filter (·.isStatusOf id)).map fun evt => evt.transition.map fun tr => (tr.1, tr.2.1)

def StatusPath (id : Hash) (source : Status) (evts : List Event) (target : Status) : Prop :=
  ∃ moves, statusMoves id evts = moves.map some ∧ IsPath (statusToFSMState source) moves (statusToFSMState target)

def markMoves (id : Hash) (ms : List Mark) : List (Option (FsmState × FsmState)) :=
  (ms.filter fun m => m.kind.changesStatus && m.entityID == hex id).map fun m =>
    m.transition.map fun tr => (tr.1, tr.2.1)

theorem statusMoves_eq (id : Hash) (evts : List Event) : statusMoves id evts = markMoves id (marks evts) := by
  induction evts with
  | nil => rfl
  | cons evt evts ih =>
    unfold statusMoves markMoves at ih ⊢
    rw [marks_cons, List.filter_append, List.map_append, ← ih]
    cases hkind : evt.kind.changesStatus with
    | true =>
      by_cases hid : evt.entityID = hex id <;> simp [Event.isStatusOf, Event.mark, hkind, hid]
    | false => cases htr : evt.transition <;> simp [Event.isStatusOf, Event.mark, hkind, htr]

namespace StatusPath
variable {id : Hash} {source middle target : Status} {evts evts' : List Event}

theorem nil (id : Hash) (st : Status) : StatusPath id st [] st := ⟨[], rfl, .refl _⟩

theorem append (h : StatusPath id source evts middle) (h' : StatusPath id middle evts' target) :
    StatusPath id source (evts ++ evts') target := by
  obtain ⟨moves, hmoves, hpath⟩ := h
  obtain ⟨moves', hmoves', hpath'⟩ := h'
  refine ⟨moves ++ moves', ?_, hpath.append hpath'⟩
  rw [List.map_append, ← hmoves, ← hmoves']
  simp [statusMoves]

theorem stamped (h : StatusPath id source evts target) (height : Nat) :
    StatusPath id source (evts.map fun evt => { evt with blockHeight := height }) target := by
  obtain ⟨moves, hmoves, hpath⟩ := h
  refine ⟨moves, ?_, hpath⟩
  rw [← hmoves]
  simp [statusMoves, List.filter_map, Function.comp_def, Event.isStatusOf]

theorem aside (h : ∀ evt ∈ evts, evt.kind.changesStatus = false) (st : Status) : StatusPath id st evts st := by
  refine ⟨[], ?_, .refl _⟩
  have hnone : evts.filter (·.isStatusOf id) = [] := by
    refine List.filter_eq_nil_iff.mpr fun evt hevt => ?_
    simp [Event.isStatusOf, h evt hevt]
  simp [statusMoves, hnone]
end StatusPath

section
variable {s s' : Snapshot} {tx : Transaction} {ms : List Mark}

theorem markMoves_of_moves {id : Hash} {source target : Status} {kind : EventKind}
    {trigger : TransitionKind} (moves : MovesStatus s s' id source target)
    (hkind : kind.changesStatus = true) (id' : Hash) :
    ∃ steps, markMoves id' [payLinkMark kind id (statusToFSMState source) (statusToFSMState target)
        trigger] = steps.map some ∧
      IsPath (statusToFSMState (statusIn s id')) steps (statusToFSMState (statusIn s' id')) := by
  by_cases hid : id' = id
  · subst hid
    rw [moves.source, moves.target]
    refine ⟨[(statusToFSMState source, statusToFSMState target)], ?_, .single _ _⟩
    simp [markMoves, payLinkMark, hkind]
  · have hother : hex id ≠ hex id' := fun h => hid (hex_injective h).symm
    rw [moves.others id' hid]
    refine ⟨[], ?_, .refl _⟩
    simp [markMoves, payLinkMark, hother]

theorem markMoves_of_keeps (keeps : KeepsStatus s s') (aside : ∀ m ∈ ms, m.kind.changesStatus = false) (id : Hash) :
    ∃ steps, markMoves id ms = steps.map some ∧
      IsPath (statusToFSMState (statusIn s id)) steps (statusToFSMState (statusIn s' id)) := by
  rw [keeps]
  refine ⟨[], ?_, .refl _⟩
  have hnone : ms.filter (fun m => m.kind.changesStatus && m.entityID == hex id) = [] := by
    refine List.filter_eq_nil_iff.mpr fun m hm => ?_
    simp [aside m hm]
  simp [markMoves, hnone]

theorem Reports.markMoves (h : Reports env s tx s' ms) (id : Hash) : ∃ steps, markMoves id ms = steps.map some ∧
      IsPath (statusToFSMState (statusIn s id)) steps (statusToFSMState (statusIn s' id)) := by
  cases h with
  | opened moves => exact markMoves_of_moves moves rfl id
  | settled moves => exact markMoves_of_moves moves rfl id
  | cancelled moves => exact markMoves_of_moves moves rfl id
  | failed _ _ _ moves => exact markMoves_of_moves moves rfl id
  | transferred _ keeps => exact markMoves_of_keeps keeps (by simp [payLinkMark, EventKind.changesStatus]) id
  | quiet keeps => exact markMoves_of_keeps keeps (by simp) id
  | validator addr known keeps =>
    refine markMoves_of_keeps keeps (fun m hm => ?_) id
    have hm := known m hm
    simp only [validatorMarks, List.mem_cons, List.not_mem_nil, or_false] at hm
    rcases hm with rfl | rfl | rfl | rfl | rfl <;> rfl
  | unstaked _ keeps =>
    exact markMoves_of_keeps keeps (by simp [validatorMark, EventKind.changesStatus]) id

theorem statusPath_outcome (env : Env) (cp : ChainParams) (s : Snapshot) (tx : Transaction) (ts : Int64)
    (id : Hash) : StatusPath id (statusIn s id) (eventsOf (outcome env cp s tx ts))
      (statusIn (applyTx env cp s tx ts) id) := by
  unfold applyTx
  cases done : outcome env cp s tx ts with
  | error e => exact .nil id _
  | ok t =>
    obtain ⟨steps, hsteps, hpath⟩ := (reports_outcome done).markMoves id
    refine ⟨steps, ?_, hpath⟩
    rw [← hsteps]
    exact statusMoves_eq id t.pending

theorem statusPath_outcomes (env : Env) (cp : ChainParams) (ts : Int64) (s : Snapshot)
    (txs : List Transaction) (id : Hash) : StatusPath id (statusIn s id) ((outcomes env cp ts s txs).flatMap eventsOf)
      (statusIn (applyTxs env cp ts s txs) id) := by
  induction txs generalizing s with
  | nil => exact .nil id _
  | cons tx txs ih =>
    rw [outcomes, List.flatMap_cons]
    exact (statusPath_outcome env cp s tx ts id).append (ih (applyTx env cp s tx ts))
end

theorem flatMap_eventsOf_filter (os : List (Except String TxState)) :
    (os.filter (·.isOk)).flatMap eventsOf = os.flatMap eventsOf := by
  induction os with
  | nil => rfl
  | cons o os ih =>
    cases o with
    | error e => simpa [eventsOf, Except.isOk, Except.toBool] using ih
    | ok t => simpa [eventsOf, Except.isOk, Except.toBool] using ih

namespace Paylinkd
def announced (srt : NonceSort) (e : Paylinkd env × Op) : List Event :=
  match newBlock srt e with
  | none => []
  | some block =>
    ((e.1.exec.outcomes env block.header.timestamp block.transactions).flatMap eventsOf).map
      (fun evt => { evt with blockHeight := block.header.height }) ++
    match e.2 with
    | .produce _ => if e.1.producerBus then [NodeState.blockProduced block] else []
    | _ => []

theorem announced_of_tip {srt : NonceSort} {node : Paylinkd env} {op : Op}
    (h : (node.step srt op).chain.tip = node.chain.tip) : announced srt (node, op) = [] := by
  have hnone : newBlock srt (node, op) = none := if_pos h
  unfold announced
  rw [hnone]

theorem newBlock_of_extends {g : GenesisConfig} {srt : NonceSort} {node : Paylinkd env} {op : Op}
    {tip block : Block} (h : Persisted env g node.toNodeState tip) (hextends : Blockchain.Extends env node.chain block)
    (htip : (node.step srt op).chain.tip = some block) : newBlock srt (node, op) = some block := by
  have hheight : block.header.height = tip.header.height + 1 := by
    rw [hextends.height, h.atTip, h.height]
    rfl
  have hne : (node.step srt op).chain.tip ≠ node.chain.tip := by
    rw [htip, h.atTip]
    intro heq
    cases heq
    omega
  exact (if_neg hne).trans htip

theorem published_of_produceBlock {g : GenesisConfig} (srt : NonceSort) (node : Paylinkd env)
    (io : BlockIO) {tip : Block} (h : Persisted env g node.toNodeState tip) (bus : node.exec.eventBus = true) :
    (node.step srt (.produce io)).published = node.published ++ announced srt (node, .produce io) ∧
      (node.step srt (.produce io)).exec.eventBus = true := by
  have hcases := produceBlock_cases env srt node.toNode io
  have hstep : (node.step srt (.produce io)).toNodeState = (node.toNodeState.produceBlock env srt io).2 := rfl
  generalize node.toNodeState.produceBlock env srt io = p at hcases hstep
  -- unless a block is committed, the tip and the bus are left alone
  have hsame (htip : p.2.chain.tip = node.chain.tip) (hpublished : p.2.published = node.published)
      (hbus : p.2.exec.eventBus = true) : (node.step srt (.produce io)).published =
        node.published ++ announced srt (node, .produce io) ∧
      (node.step srt (.produce io)).exec.eventBus = true := by
    rw [announced_of_tip ((congrArg (·.chain.tip) hstep).trans htip), List.append_nil]
    exact ⟨(congrArg (·.published) hstep).trans hpublished, (congrArg (·.exec.eventBus) hstep).trans hbus⟩
  cases hcases with
  | notProposer _ => exact hsame rfl rfl bus
  | empty _ _ => exact hsame rfl rfl bus
  | aborted _ _ _ _ => exact hsame rfl rfl bus
  | allFailed _ _ =>
    refine hsame ?_ rfl bus
    obtain ⟨_, _, entries, -, -, hchain⟩ := Blockchain.storeReceiptsFrom_spec env io.set 0
      node.chain (node.receipts env io)
    exact congrArg (·.tip) hchain
  | committed _ _ block chain hok =>
    obtain ⟨hsign, hcommit⟩ := NodeState.attempt_ok.mp hok
    obtain ⟨-, hextends, hstored⟩ := Blockchain.commitBlock_ok hcommit
    have hblock := SignedBlock.of_signBlock hsign
    have hnew : newBlock srt (node, .produce io) = some block :=
      newBlock_of_extends h hextends ((congrArg (·.chain.tip) hstep).trans hstored.tip)
    -- the events of the drain are the events of what was kept of it
    have hevents : node.exec.events env io.now node.drain =
        (node.exec.outcomes env block.header.timestamp block.transactions).flatMap eventsOf := by
      obtain ⟨-, hoks⟩ := applyTxs_successTxs env node.exec.db.params io.now node.exec.db.live node.drain
      unfold Executor.events
      rw [if_pos bus, hblock.timestamp, hblock.transactions]
      exact (flatMap_eventsOf_filter _).symm.trans (congrArg _ hoks.symm)
    refine ⟨?_, (congrArg (·.exec.eventBus) hstep).trans bus⟩
    rw [congrArg (·.published) hstep]
    unfold announced
    rw [hnew]
    dsimp only
    rw [← hevents, hblock.height, ← List.append_assoc]
    rfl

theorem published_of_processBlock {g : GenesisConfig} (srt : NonceSort) (node : Paylinkd env)
    (block : Block) (flush : Except String Unit) {tip : Block}
    (h : Persisted env g node.toNodeState tip) (bus : node.exec.eventBus = true) :
    (node.step srt (.process block flush)).published = node.published ++ announced srt (node, .process block flush) ∧
      (node.step srt (.process block flush)).exec.eventBus = true := by
  have hstep : (node.step srt (.process block flush)).toNodeState =
      (node.toNodeState.processBlock env block flush).2 := rfl
  have hsame (heq : (node.toNodeState.processBlock env block flush).2 = node.toNodeState) :
      (node.step srt (.process block flush)).published = node.published ++ announced srt (node, .process block flush) ∧
      (node.step srt (.process block flush)).exec.eventBus = true := by
    rw [heq] at hstep
    rw [announced_of_tip (congrArg (·.chain.tip) hstep), List.append_nil]
    exact ⟨congrArg (·.published) hstep, (congrArg (·.exec.eventBus) hstep).trans bus⟩
  rcases processBlock_cases env node.toNode block flush with ⟨-, heq⟩ | ⟨e, heq⟩ | ⟨chain, hacc, heq⟩
  · exact hsame (congrArg Prod.snd heq)
  · exact hsame (congrArg Prod.snd heq)
  · rw [heq] at hstep
    obtain ⟨-, hextends, hstored⟩ := Blockchain.commitBlock_ok hacc.committed
    have hnew : newBlock srt (node, .process block flush) = some block :=
      newBlock_of_extends h hextends ((congrArg (·.chain.tip) hstep).trans hstored.tip)
    refine ⟨?_, (congrArg (·.exec.eventBus) hstep).trans bus⟩
    rw [congrArg (·.published) hstep]
    unfold announced
    rw [hnew]
    dsimp only
    rw [List.append_nil]
    show node.published ++ (node.exec.events env block.header.timestamp block.transactions).map _ = _
    unfold Executor.events
    rw [if_pos bus]

theorem step_published {g : GenesisConfig} (srt : NonceSort) (node : Paylinkd env) (op : Op)
    {tip : Block} (h : Persisted env g node.toNodeState tip) (bus : node.exec.eventBus = true) :
    (node.step srt op).published = node.published ++ announced srt (node, op) ∧ (node.step srt op).exec.eventBus = true := by
  cases op with
  | add tx =>
    rw [announced_of_tip rfl, List.append_nil]
    exact ⟨rfl, bus⟩
  | produce io => exact published_of_produceBlock srt node io h bus
  | process block flush => exact published_of_processBlock srt node block flush h bus

theorem statusPath_announced {g : GenesisConfig} (srt : NonceSort) (node : Paylinkd env) (op : Op)
    {tip : Block} (h : Persisted env g node.toNodeState tip) (id : Hash) :
    StatusPath id (statusIn node.exec.db.live id) (announced srt (node, op))
      (statusIn (node.step srt op).exec.db.live id) := by
  unfold announced
  rcases newBlock_cases srt node op h with ⟨hnone, hexec⟩ | ⟨block, hnew, -, hlive⟩
  · rw [hnone, hexec]
    exact .nil id _
  · rw [hnew, hlive]
    have hpath := statusPath_outcomes env node.exec.db.params block.header.timestamp
      node.exec.db.live block.transactions id
    refine (hpath.stamped block.header.height).append (.aside ?_ _)
    intro evt hevt
    cases op with
    | add tx => cases hevt
    | process block flush => cases hevt
    | produce io =>
      simp only at hevt
      split at hevt
      · rw [List.mem_singleton.mp hevt]
        rfl
      · cases hevt
end Paylinkd

structure Mirrors (g : GenesisConfig) (srt : NonceSort) (node₀ : Paylinkd env)
    (tr : List (Paylinkd env × Paylinkd.Op)) (node : Paylinkd env) : Prop where
  persisted : ∃ tip, Persisted env g node.toNodeState tip
  bus : node.exec.eventBus = true
  published : node.published = node₀.published ++ tr.flatMap (Paylinkd.announced srt)
  path : ∀ id, StatusPath id .none (tr.flatMap (Paylinkd.announced srt))
    (statusIn node.exec.db.live id)

namespace Mirrors
variable {g : GenesisConfig} {srt : NonceSort} {node₀ node : Paylinkd env}

theorem started {flush : Except String Unit} (h : Paylinkd.Started env g {} flush node₀) :
    Mirrors g srt node₀ [] node₀ where
  persisted := ⟨_, .started h⟩
  bus := by
    obtain ⟨ex, -, hexec⟩ := h.replayed
    rw [hexec]
  published := by simp
  path id := by
    have hnone : statusIn node₀.exec.db.live id = .none := by
      rw [h.fresh.2, statusIn, (TokensOnly.genesis g).same]
      simp
    rw [hnone]
    exact .nil id _

theorem step {tr : List (Paylinkd env × Paylinkd.Op)} (h : Mirrors g srt node₀ tr node)
    (op : Paylinkd.Op) : Mirrors g srt node₀ (tr ++ [(node, op)]) (node.step srt op) := by
  obtain ⟨tip, hnode⟩ := h.persisted
  obtain ⟨hstep, hbus⟩ := node.step_published srt op hnode h.bus
  refine ⟨hnode.grows (node.step_grows srt op), hbus, ?_, fun id => ?_⟩
  · rw [hstep, h.published]
    simp
  · rw [List.flatMap_append, List.flatMap_singleton]
    exact (h.path id).append (node.statusPath_announced srt op hnode id)
end Mirrors

/-- **The stream mirrors the history.** -/
theorem stream_mirrors_history (env : Env) (g : GenesisConfig) (flush : Except String Unit)
    (node₀ : Paylinkd env) (h : Paylinkd.Started env g {} flush node₀) (srt : NonceSort)
    (ops : List Paylinkd.Op) :
    let node := ops.foldl (Paylinkd.step srt) node₀
    let stream := (trace (Paylinkd.step srt) node₀ ops).flatMap (Paylinkd.announced srt)
    node.published = node₀.published ++ stream ∧
    ∀ id, ∃ moves, statusMoves id stream = moves.map some ∧
      IsPath .payLinkNone moves (statusToFSMState (statusIn node.exec.db.live id)) := by
  have hmirrors : Mirrors g srt node₀ (trace (Paylinkd.step srt) node₀ ops)
      (ops.foldl (Paylinkd.step srt) node₀) :=
    history_induction (.started h) (fun _ _ op h => h.step op) ops
  exact ⟨hmirrors.published, hmirrors.path⟩

/-- The administrator's node, its first block. -/
theorem stream_mirrors_history_firstBlock :
    let node := Localnet.firstOps.foldl (Paylinkd.step Localnet.srt) Localnet.adminNode
    let stream := (trace (Paylinkd.step Localnet.srt) Localnet.adminNode Localnet.firstOps).flatMap
      (Paylinkd.announced Localnet.srt)
    node.published = Localnet.adminNode.published ++ stream ∧
    ∀ id, ∃ moves, statusMoves id stream = moves.map some ∧
      IsPath .payLinkNone moves (statusToFSMState (statusIn node.exec.db.live id)) :=
  stream_mirrors_history Localnet.env Devnet.genesis (.ok ()) Localnet.adminNode
    Localnet.adminNode_started Localnet.srt Localnet.firstOps

end LinkMint.Chain

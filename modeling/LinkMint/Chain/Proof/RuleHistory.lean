import LinkMint.Chain.Proof.Votes
import LinkMint.Chain.Proof.Lifecycle
import LinkMint.Chain.Proof.PayLinks

/-!
# The rules of a PayLink over its whole history

A rule set guarantees how often a PayLink was transferred and to whom (`TransferRule`), and,
once it is settled, its amount and its voters (`SettleRule`).
-/

namespace LinkMint.Chain

open LinkMint.Lib Std

variable {env : Env} {cp : ChainParams} {s s' : Snapshot} {tx : Transaction} {ts : Int64}
  {id : Hash} {pl pl' : PayLink} {rule : Rule}

def ruleSetOf (env : Env) (raw : Bytes) : List Rule :=
  if noRules raw then [] else (env.decode.rules raw).toOption.getD []

theorem checkEach_ok {check : Rule → Except String Unit} {label : Nat → Rule → String}
    {rules : List Rule} {i : Nat} (h : checkEach check label i rules = .ok ()) : ∀ rule ∈ rules, check rule = .ok () := by
  induction rules generalizing i with
  | nil => simp
  | cons rule rest ih =>
    unfold checkEach at h
    split at h
    · cases h
    · next hrule => exact List.forall_mem_cons.mpr ⟨hrule, ih h⟩

theorem evaluateOne_of_evaluateRules {ctx : EvalContext} (h : evaluateRules env pl ctx = .ok ()) :
    ∀ rule ∈ ruleSetOf env pl.rules, evaluateOne env rule ctx = .ok () := by
  unfold evaluateRules at h
  unfold ruleSetOf
  split at h
  · next hnone => simp [hnone]
  · next hsome =>
    split at h
    · cases h
    · next ruleSet hdecode =>
      rw [if_neg hsome, hdecode]
      exact checkEach_ok h

theorem validateOne_of_checkNewRules {raw : Bytes} (h : checkNewRules env raw = .ok ()) :
    ∀ rule ∈ ruleSetOf env raw, validateOne env rule = .ok () := by
  unfold checkNewRules at h
  unfold ruleSetOf
  split at h
  · next hnone => simp [hnone]
  · next hsome =>
    split at h
    · cases h
    · next ruleSet hdecode =>
      rw [if_neg hsome, hdecode]
      split at h
      · cases h
      · next hvalid => exact checkEach_ok hvalid

def TransferRule (env : Env) (pl : PayLink) (rule : Rule) : Prop :=
  match rule.type with
  | .maxTransfers => ∃ p, env.decode.maxTransfers rule.params = .ok p ∧ pl.transferCount ≤ p.max
  | .receiverWhitelist => ∃ p, env.decode.receiverWhitelist rule.params = .ok p ∧
    (pl.owner = pl.creator ∨ pl.owner ∈ p.addresses)
  | _ => True

namespace TransferRule
theorem newPayLink {p : CreatePayLinkPayload} (h : validateOne env rule = .ok ()) :
    TransferRule env (newPayLink tx ts p) rule := by
  unfold TransferRule
  split
  · next htype =>
    simp only [validateOne, htype] at h
    obtain ⟨params, hdecode, -⟩ := bind_eq_ok.mp h
    exact ⟨params, hdecode, UInt64.le_iff_toNat_le.mpr (Nat.zero_le _)⟩
  · next htype =>
    simp only [validateOne, htype] at h
    obtain ⟨params, hdecode, -⟩ := bind_eq_ok.mp h
    exact ⟨params, hdecode, .inl rfl⟩
  · trivial

theorem transferred {toAddr approved : Address} (h : evaluateOne env rule
      { action := .transfer, blockTimestamp := ts, sender := tx.fromAddr, receiver := toAddr
        amount := pl.amount, transferCount := pl.transferCount } = .ok ()) :
    TransferRule env
      { pl with owner := toAddr, approved := approved, transferCount := pl.transferCount + 1 }
      rule := by
  unfold TransferRule
  split
  · next htype =>
    simp only [evaluateOne, htype] at h
    obtain ⟨params, hdecode, hcheck⟩ := bind_eq_ok.mp h
    have hlt : pl.transferCount < params.max := by
      by_contra hge
      simp [UInt64.not_lt.mp hge] at hcheck
    refine ⟨params, hdecode, ?_⟩
    have hbound := params.max.toNat_lt
    rw [UInt64.lt_iff_toNat_lt] at hlt
    rw [UInt64.le_iff_toNat_le, UInt64.toNat_add, UInt64.toNat_one, Nat.mod_eq_of_lt (by omega)]
    exact hlt
  · next htype =>
    simp only [evaluateOne, htype] at h
    obtain ⟨params, hdecode, hcheck⟩ := bind_eq_ok.mp h
    have hmem : toAddr ∈ params.addresses := by
      by_contra hnot
      simp [hnot] at hcheck
    exact ⟨params, hdecode, .inr hmem⟩
  · trivial

theorem congr (h : TransferRule env pl rule) (howner : pl'.owner = pl.owner)
    (hcreator : pl'.creator = pl.creator) (hcount : pl'.transferCount = pl.transferCount) : TransferRule env pl' rule := by
  unfold TransferRule
  rw [howner, hcreator, hcount]
  exact h

theorem touch (h : ∀ rule ∈ ruleSetOf env pl.rules, TransferRule env pl rule) (ht : Touch env s tx ts id pl pl') :
    ∀ rule ∈ ruleSetOf env pl'.rules, TransferRule env pl' rule := by
  rw [ht.fixed.1]
  intro rule hrule
  cases ht with
  | transferred _ _ _ _ rules => exact transferred (evaluateOne_of_evaluateRules rules rule hrule)
  | untouched | voted | settled | cancelled | failed | approved =>
    exact (h rule hrule).congr rfl rfl rfl
end TransferRule

def EnoughApprovals (s : Snapshot) (id : Hash) (p : MultiApprovalParams) : Prop :=
  ∃ voters : List Address, voters.Nodup ∧ p.required.toNat ≤ voters.length ∧
    ∀ v ∈ voters, v ∈ p.approvers ∧ s.hasVoted id v = true

def SettleRule (env : Env) (s : Snapshot) (id : Hash) (pl : PayLink) (rule : Rule) : Prop :=
  match rule.type with
  | .amountThreshold => ∃ p, env.decode.amountThreshold rule.params = .ok p ∧
    (0 < p.minAmount → p.minAmount ≤ pl.amount) ∧ (0 < p.maxAmount → pl.amount ≤ p.maxAmount)
  | .multiApproval => ∃ p, env.decode.multiApproval rule.params = .ok p ∧ EnoughApprovals s id p
  | _ => True

namespace SettleRule
theorem settled (h : evaluateOne env rule (settleContext s tx ts id pl) = .ok ()) : SettleRule env s id pl rule := by
  unfold SettleRule
  split
  · next htype =>
    simp only [evaluateOne, htype] at h
    obtain ⟨params, hdecode, hcheck⟩ := bind_eq_ok.mp h
    split at hcheck
    · cases hcheck
    · next hmin =>
      split at hcheck
      · cases hcheck
      · next hmax =>
        exact ⟨params, hdecode, fun hset => UInt64.not_lt.mp fun hlt => hmin ⟨hset, hlt⟩,
          fun hset => UInt64.not_lt.mp fun hlt => hmax ⟨hset, hlt⟩⟩
  · next htype =>
    simp only [evaluateOne, htype] at h
    obtain ⟨params, hdecode, hcheck⟩ := bind_eq_ok.mp h
    have hcount : params.required.toNat ≤ (s.getVoters id).countP (· ∈ params.approvers) := by
      by_contra hlt
      simp [settleContext, Nat.not_le.mp hlt] at hcheck
    rw [List.countP_eq_length_filter] at hcount
    refine ⟨params, hdecode, (s.getVoters id).filter (· ∈ params.approvers),
      (Snapshot.nodup_getVoters s id).filter _, hcount, fun v hv => ?_⟩
    obtain ⟨hvoter, happrover⟩ := List.mem_filter.mp hv
    exact ⟨of_decide_eq_true happrover, Snapshot.mem_getVoters.mp hvoter⟩
  · trivial

theorem mono (h : SettleRule env s id pl rule) (hamount : pl'.amount = pl.amount)
    (hvotes : ∀ v, s.hasVoted id v = true → s'.hasVoted id v = true) : SettleRule env s' id pl' rule := by
  unfold SettleRule at h ⊢
  rw [hamount]
  split at h
  · exact h
  · obtain ⟨params, hdecode, voters, hnodup, hcount, hall⟩ := h
    refine ⟨params, hdecode, voters, hnodup, hcount, fun v hv => ?_⟩
    exact ⟨(hall v hv).1, hvotes v (hall v hv).2⟩
  · trivial
end SettleRule

theorem Touches.hasVoted (ht : Touches env s tx ts s') {v : Address}
    (h : s.hasVoted id v = true) : s'.hasVoted id v = true := by
  unfold Snapshot.hasVoted at h ⊢
  rw [ht.votes]
  cases voteOf env tx with
  | none => exact h
  | some key => exact ExtTreeSet.contains_insert.trans (by rw [h, Bool.or_true])

theorem hasVoted_stepTx {a : TimedTx} {v : Address} (h : s.hasVoted id v = true) :
    (stepTx env cp s a).hasVoted id v = true := by
  rcases stepTx_touches env cp s a with ⟨-, -, ht⟩ | ⟨-, heq⟩
  · exact ht.hasVoted h
  · rw [heq]
    exact h

structure RulesKept (env : Env) (s : Snapshot) : Prop where
  transfers : ∀ (id : Hash) (pl : PayLink), s.paylinks[id]? = some pl →
    ∀ rule ∈ ruleSetOf env pl.rules, TransferRule env pl rule
  settled : ∀ (id : Hash) (pl : PayLink), s.paylinks[id]? = some pl → pl.status = .verified →
    ∀ rule ∈ ruleSetOf env pl.rules, SettleRule env s id pl rule

namespace RulesKept
theorem genesis (env : Env) (g : GenesisConfig) : RulesKept env (newStateDB g).live := by
  have hempty := (TokensOnly.genesis g).same
  refine ⟨fun id pl found => ?_, fun id pl found => ?_⟩
  · rw [hempty] at found
    simp at found
  · rw [hempty] at found
    simp at found

theorem touch (h : RulesKept env s) (ht : Touches env s tx ts s') (found : s.paylinks[id]? = some pl)
    (touch : Touch env s tx ts id pl pl') (hstatus : pl'.status = .verified) :
    ∀ rule ∈ ruleSetOf env pl'.rules, SettleRule env s' id pl' rule := by
  rw [touch.fixed.1]
  intro rule hrule
  have hkeep (hstatus : pl.status = .verified) : SettleRule env s' id pl' rule :=
    (h.settled id pl found hstatus rule hrule).mono touch.fixed.2.2 fun v => ht.hasVoted
  cases touch with
  | untouched => exact hkeep hstatus
  | voted _ _ ballot => exact absurd (ballot.created.symm.trans hstatus) (by decide)
  | @settled p _ target vote ballot rules =>
    subst target
    refine (SettleRule.settled (evaluateOne_of_evaluateRules rules rule hrule)).mono rfl ?_
    -- the votes the rules were shown are the votes of the state the settlement leaves
    intro v hv
    unfold Snapshot.hasVoted
    rw [ht.votes, vote]
    exact hv
  | cancelled => cases hstatus
  | failed => cases hstatus
  | transferred _ created => exact absurd (created.symm.trans hstatus) (by decide)
  | approved => exact hkeep hstatus

theorem touches (h : RulesKept env s) (ht : Touches env s tx ts s') : RulesKept env s' := by
  refine ⟨fun id pl' found' => ?_, fun id pl' found' hstatus => ?_⟩
  · cases hfound : s.paylinks[id]? with
    | none =>
      obtain ⟨-, p, -, -, hrules, rfl⟩ := ht.born id pl' hfound found'
      exact fun rule hrule => .newPayLink (validateOne_of_checkNewRules hrules rule hrule)
    | some pl =>
      obtain ⟨pl₁, found₁, touch⟩ := ht.old id pl hfound
      obtain rfl := Option.some.inj (found₁.symm.trans found')
      exact TransferRule.touch (h.transfers id pl hfound) touch
  · cases hfound : s.paylinks[id]? with
    | none =>
      obtain ⟨-, p, -, -, -, rfl⟩ := ht.born id pl' hfound found'
      cases hstatus
    | some pl =>
      obtain ⟨pl₁, found₁, touch⟩ := ht.old id pl hfound
      obtain rfl := Option.some.inj (found₁.symm.trans found')
      exact h.touch ht hfound touch hstatus

theorem run (env : Env) (g : GenesisConfig) (as : List TimedTx) :
    RulesKept env (as.foldl (stepTx env (.ofGenesis g)) (newStateDB g).live) := by
  refine history_induction (I := fun _ s => RulesKept env s) (genesis env g) ?_ as
  intro _ s a h
  rcases stepTx_touches env (.ofGenesis g) s a with ⟨-, -, ht⟩ | ⟨-, heq⟩
  · exact h.touches ht
  · rw [heq]
    exact h
end RulesKept

def EverVerified (env : Env) (g : GenesisConfig) (calls : List BlockCall) (id : Hash) : Prop :=
  (∃ e ∈ history env g calls, statusIn e.1 id = .verified) ∨ statusIn (reached env g calls) id = .verified

def SettleRulesHold (env : Env) (s : Snapshot) (id : Hash) : Prop :=
  ∃ pl, s.paylinks[id]? = some pl ∧ ∀ rule ∈ ruleSetOf env pl.rules, SettleRule env s id pl rule

theorem SettleRulesHold.stepTx (cp : ChainParams) (h : SettleRulesHold env s id) (a : TimedTx) :
    SettleRulesHold env (stepTx env cp s a) id := by
  obtain ⟨pl, found, hrules⟩ := h
  obtain ⟨pl', found', heq | touch⟩ := stepTx_record found
  · subst heq
    exact ⟨pl', found', fun rule hrule =>
      (hrules rule hrule).mono rfl fun v => hasVoted_stepTx⟩
  · refine ⟨pl', found', fun rule hrule => ?_⟩
    rw [touch.fixed.1] at hrule
    exact (hrules rule hrule).mono touch.fixed.2.2 fun v => hasVoted_stepTx

theorem RulesKept.settleRulesHold (h : RulesKept env s) (hstatus : statusIn s id = .verified) : SettleRulesHold env s id := by
  cases found : s.paylinks[id]? with
  | none =>
    rw [statusIn, found] at hstatus
    cases hstatus
  | some pl =>
    rw [statusIn_of_getElem? found] at hstatus
    exact ⟨pl, found, h.settled id pl found hstatus⟩

theorem settleRulesHold_reached {g : GenesisConfig} {calls : List BlockCall}
    (h : EverVerified env g calls id) : SettleRulesHold env (reached env g calls) id := by
  rcases h with ⟨e, he, hstatus⟩ | hstatus
  · obtain ⟨pre, post, hhistory⟩ := List.append_of_mem he
    obtain ⟨before, after, htxs, -, hstate⟩ := split_trace hhistory
    have hthen : SettleRulesHold env e.1 id := by
      rw [hstate] at hstatus ⊢
      exact (RulesKept.run env g before).settleRulesHold hstatus
    -- from there on it is an invariant of the rest of the run
    have hrest := history_induction (I := fun _ s => SettleRulesHold env s id) hthen
      (fun _ s a h => h.stepTx (.ofGenesis g) a) (e.2 :: after)
    rw [hstate, ← List.foldl_append, ← htxs] at hrest
    exact hrest
  · exact (RulesKept.run env g (timedTxs calls)).settleRulesHold hstatus

def CreatedWith (env : Env) (cp : ChainParams) (e : Snapshot × TimedTx) (id : Hash) (rules : Bytes) : Prop :=
  succeeded env cp e = true ∧ TxKind.ofCode e.2.1.type = some .createPayLink ∧
    ∃ p, env.decode.createPayLink e.2.1.payload = .ok p ∧ p.payLinkID = id ∧ p.rules = rules ∧
      checkNewRules env rules = .ok ()

theorem createdWith_reached (env : Env) (g : GenesisConfig) (calls : List BlockCall) :
    ∀ id pl, (reached env g calls).paylinks[id]? = some pl →
      ∃ e ∈ history env g calls, CreatedWith env (.ofGenesis g) e id pl.rules ∧ pl.creator = e.2.1.fromAddr := by
  refine history_induction (I := fun tr s => ∀ id pl, s.paylinks[id]? = some pl →
    ∃ e ∈ tr, CreatedWith env (.ofGenesis g) e id pl.rules ∧ pl.creator = e.2.1.fromAddr)
      ?_ ?_ (timedTxs calls)
  · intro id pl found
    rw [(TokensOnly.genesis g).same] at found
    simp at found
  · intro tr s a ih id pl' found'
    have hold (e) (he : e ∈ tr) : e ∈ tr ++ [(s, a)] := List.mem_append_left _ he
    rcases stepTx_touches env (.ofGenesis g) s a with ⟨hok, -, ht⟩ | ⟨-, heq⟩
    · cases hfound : s.paylinks[id]? with
      | none =>
        obtain ⟨kind, p, payload, hid, hrules, rfl⟩ := ht.born id pl' hfound found'
        exact ⟨(s, a), List.mem_append_right _ List.mem_cons_self, ⟨hok, kind, p, payload, hid, rfl, hrules⟩, rfl⟩
      | some pl =>
        obtain ⟨pl₁, found₁, touch⟩ := ht.old id pl hfound
        obtain rfl := Option.some.inj (found₁.symm.trans found')
        obtain ⟨e, he, hcreated, hcreator⟩ := ih id pl hfound
        refine ⟨e, hold e he, ?_, touch.fixed.2.1.trans hcreator⟩
        rw [touch.fixed.1]
        exact hcreated
    · rw [heq] at found'
      obtain ⟨e, he, hcreated⟩ := ih id pl' found'
      exact ⟨e, hold e he, hcreated⟩

/-- **The rules of a PayLink hold over its whole history.** -/
theorem rules_hold_throughout (env : Env) (g : GenesisConfig) (calls : List BlockCall) (id : Hash)
    (pl : PayLink) (found : (reached env g calls).paylinks[id]? = some pl) :
    (∃ e ∈ history env g calls, CreatedWith env (.ofGenesis g) e id pl.rules ∧ pl.creator = e.2.1.fromAddr) ∧
    (∀ rule ∈ ruleSetOf env pl.rules, TransferRule env pl rule) ∧
    (EverVerified env g calls id →
      ∀ rule ∈ ruleSetOf env pl.rules, SettleRule env (reached env g calls) id pl rule) := by
  refine ⟨createdWith_reached env g calls id pl found,
    (RulesKept.run env g (timedTxs calls)).transfers id pl found, fun hever => ?_⟩
  obtain ⟨pl', found', hrules⟩ := settleRulesHold_reached hever
  obtain rfl := Option.some.inj (found'.symm.trans found)
  exact hrules

/-- What becomes of a PayLink: its terms stay, and once it has left CREATED it can only fail or name a delegate. -/
structure Later (pl pl' : PayLink) : Prop where
  terms : pl' = { pl with owner := pl'.owner, approved := pl'.approved, status := pl'.status,
                          voteCount := pl'.voteCount, transferCount := pl'.transferCount }
  closed : pl.status ≠ .created → pl' = { pl with approved := pl'.approved, status := pl'.status } ∧
    (pl'.status = pl.status ∨ pl'.status = .failed)

theorem Later.trans {pl pl' pl'' : PayLink} (h : Later pl pl') (h' : Later pl' pl'') : Later pl pl'' := by
  refine ⟨by rw [h'.terms, h.terms], fun hleft => ?_⟩
  obtain ⟨hsame, hstatus⟩ := h.closed hleft
  obtain ⟨hsame', hstatus'⟩ := h'.closed (by grind)
  exact ⟨by rw [hsame', hsame], by grind⟩

theorem Touch.later {pl pl' : PayLink} (touch : Touch env s tx ts id pl pl') : Later pl pl' := by
  cases touch with
  | untouched | approved => exact ⟨rfl, fun _ => ⟨rfl, .inl rfl⟩⟩
  | failed => exact ⟨rfl, fun _ => ⟨rfl, .inr rfl⟩⟩
  | voted _ _ ballot => exact ⟨rfl, fun hleft => absurd ballot.created hleft⟩
  | settled _ _ _ ballot => exact ⟨rfl, fun hleft => absurd ballot.created hleft⟩
  | cancelled _ created | transferred _ created => exact ⟨rfl, fun hleft => absurd created hleft⟩

/-- **The terms of a PayLink are fixed**, whatever blocks are executed. -/
theorem terms_fixed (env : Env) (ex : Executor) (calls : List BlockCall) (id : Hash) (pl : PayLink)
    (found : ex.db.live.paylinks[id]? = some pl) :
    ∃ pl', (runBlocks env ex calls).db.live.paylinks[id]? = some pl' ∧ Later pl pl' := by
  rw [runBlocks_db]
  generalize ex.db.live = s at found
  induction timedTxs calls generalizing s pl with
  | nil => exact ⟨pl, found, rfl, fun _ => ⟨rfl, .inl rfl⟩⟩
  | cons a txs ih =>
    rcases stepTx_touches env ex.db.params s a with ⟨-, -, ht⟩ | ⟨-, heq⟩
    · obtain ⟨pl', found', touch⟩ := ht.old id pl found
      obtain ⟨pl'', found'', hlater⟩ := ih _ _ found'
      exact ⟨pl'', found'', touch.later.trans hlater⟩
    · exact ih _ _ (heq.symm ▸ found)

namespace Testnet
open Devnet

theorem decodes_self {α : Type} (text : Bytes) (value : α) : decodes text value text = .ok value := if_pos rfl

def approvalTxs : List Transaction := [stake2Tx, stake3Tx, ruledTx, vote2Tx, vote3Tx]

def approvalRun : List BlockCall :=
  [⟨1700000100, [stake2Tx, stake3Tx, ruledTx]⟩, ⟨1700000200, [vote2Tx, vote3Tx]⟩]

theorem rules_hold_throughout_approved :
    ∃ pl, (reached (Testnet.env approvalTxs) genesis approvalRun).paylinks[payLinkID]? = some pl ∧
      pl.rules = rulesJSON ∧
      EnoughApprovals (reached (Testnet.env approvalTxs) genesis approvalRun) payLinkID
        { required := 2, approvers := [secondAddress, thirdAddress] } := by
  have hrun : ((reached (Testnet.env approvalTxs) genesis approvalRun).paylinks[payLinkID]?).map
      (fun pl => (pl.rules, pl.status)) = some (rulesJSON, .verified) := by decide +kernel
  have hset : ruleSetOf (Testnet.env approvalTxs) rulesJSON = [{ type := .multiApproval, params := approvalJSON }] := by
    have hsome : noRules rulesJSON = false := by decide +kernel
    have hdecode : (Testnet.env approvalTxs).decode.rules rulesJSON =
        .ok [{ type := .multiApproval, params := approvalJSON }] := by
      simp only [Testnet.env, decoders, decodes_self]
    rw [ruleSetOf, hsome, hdecode]
    rfl
  have hparams : (Testnet.env approvalTxs).decode.multiApproval approvalJSON =
      .ok { required := 2, approvers := [secondAddress, thirdAddress] } := decodes_self approvalJSON _
  obtain ⟨pl, found, hpl⟩ := Option.map_eq_some_iff.mp hrun
  obtain ⟨hrules, hstatus⟩ := Prod.mk.inj hpl
  have hever : EverVerified (Testnet.env approvalTxs) genesis approvalRun payLinkID :=
    .inr ((statusIn_of_getElem? found).trans hstatus)
  have hkept := (rules_hold_throughout _ genesis approvalRun payLinkID pl found).2.2 hever
  rw [hrules, hset] at hkept
  obtain ⟨p, hdecode, happroved⟩ := hkept _ List.mem_cons_self
  obtain rfl := Except.ok.inj (hparams.symm.trans hdecode)
  exact ⟨pl, found, hrules, happroved⟩

def approvalMid : Executor := runBlocks (Testnet.env approvalTxs) (newExecutor genesis true) (approvalRun.take 1)

theorem terms_fixed_approved : ∃ pl ∈ approvalMid.db.live.paylinks[payLinkID]?,
    ∃ pl' ∈ (runBlocks (Testnet.env approvalTxs) approvalMid (approvalRun.drop 1)).db.live.paylinks[payLinkID]?,
      Later pl pl' := by
  obtain ⟨pl, found⟩ := Option.isSome_iff_exists.mp
    (by decide +kernel : (approvalMid.db.live.paylinks[payLinkID]?).isSome = true)
  exact ⟨pl, found, terms_fixed _ approvalMid (approvalRun.drop 1) payLinkID pl found⟩
end Testnet
end LinkMint.Chain

import LinkMint.Lib.Logs
import LinkMint.Chain.Testnet
import LinkMint.Chain.Proof.PayLinks

/-!
# Who may move a PayLink

Whoever moves a PayLink has the word of its *present* owner for it, given since the last
transfer and not taken back.
-/

namespace LinkMint.Chain

open LinkMint.Lib Std

abbrev Deed := Address × Act

def deed (env : Env) (cp : ChainParams) (e : Snapshot × TimedTx) : Option Deed :=
  if succeeded env cp e then (actOf env e.2.1).map fun act => (e.2.1.fromAddr, act) else none

def deeds (env : Env) (cp : ChainParams) (tr : List (Snapshot × TimedTx)) : List Deed :=
  tr.filterMap (deed env cp)

def Appoints (owner who : Address) (d : Deed) : Prop := ∃ granted, d = (owner, .operator who granted)

def ApprovedBy (log : List Deed) (owner : Address) (id : Hash) (who : Address) : Prop :=
  Latest (owner, .approve id who) (fun d => d.2.Concerns id) log

def OperatorOf (log : List Deed) (owner who : Address) : Prop :=
  Latest (owner, .operator who true) (Appoints owner who) log

def Authorised (log : List Deed) (id : Hash) (owner sender : Address) : Prop :=
  sender = owner ∨ ApprovedBy log owner id sender ∨ OperatorOf log owner sender

structure Rights (log : List Deed) (s : Snapshot) : Prop where
  approval : ∀ id pl, s.paylinks[id]? = some pl → pl.approved ≠ 0 → ApprovedBy log pl.owner id pl.approved
  operators : ∀ owner who, s.operatorApprovals.contains { owner := owner, operator := who } = true →
    OperatorOf log owner who

variable {env : Env} {cp : ChainParams} {s s' : Snapshot} {tx : Transaction} {ts : Int64}
  {log : List Deed}

def deedOf (env : Env) (tx : Transaction) : List Deed :=
  (actOf env tx).toList.map fun act => (tx.fromAddr, act)

theorem mem_deedOf {d : Deed} : d ∈ deedOf env tx ↔ ∃ act, actOf env tx = some act ∧ d = (tx.fromAddr, act) := by
  simp [deedOf, eq_comm]

theorem Touch.approvedBy {id : Hash} {pl pl' : PayLink} (touch : Touch env s tx ts id pl pl')
    (before : pl.approved ≠ 0 → ApprovedBy log pl.owner id pl.approved) (hset : pl'.approved ≠ 0) :
    ApprovedBy (log ++ deedOf env tx) pl'.owner id pl'.approved := by
  -- a transaction that does no act leaves the log, the owner and the approval
  have hsilent (act : actOf env tx = none) (hset : pl.approved ≠ 0) :
      ApprovedBy (log ++ deedOf env tx) pl.owner id pl.approved := by
    refine (before hset).append ?_
    simp [deedOf, act]
  cases touch with
  | untouched apart =>
    refine (before hset).append fun d hd => ?_
    obtain ⟨act, hact, rfl⟩ := mem_deedOf.mp hd
    exact apart act hact
  | voted act => exact hsilent act hset
  | settled act => exact hsilent act hset
  | cancelled act => exact hsilent act hset
  | failed act => exact hsilent act hset
  | transferred => exact absurd rfl hset
  | @approved who act owner =>
    have hlog : deedOf env tx = [(pl.owner, .approve id who)] := by simp [deedOf, act, owner]
    rw [hlog]
    exact .last _ _ log

theorem Touches.operatorOf {owner who : Address} (touches : Touches env s tx ts s')
    (before : s.operatorApprovals.contains { owner := owner, operator := who } = true → OperatorOf log owner who)
    (hset : s'.operatorApprovals.contains { owner := owner, operator := who } = true) :
    OperatorOf (log ++ deedOf env tx) owner who := by
  rw [touches.operators] at hset
  -- nothing was said about this operator by this owner
  have hkeep (hset : s.operatorApprovals.contains { owner := owner, operator := who } = true)
      (hother : ∀ granted, actOf env tx = some (.operator who granted) → tx.fromAddr ≠ owner) :
      OperatorOf (log ++ deedOf env tx) owner who := by
    refine (before hset).append fun d hd => ?_
    obtain ⟨act, hact, rfl⟩ := mem_deedOf.mp hd
    rintro ⟨granted, heq⟩
    obtain ⟨hfrom, rfl⟩ := Prod.mk.inj heq
    exact hother granted hact hfrom
  split at hset
  · next who' granted hact =>
    by_cases hsame : tx.fromAddr = owner ∧ who' = who
    · obtain ⟨rfl, rfl⟩ := hsame
      cases granted with
      | true =>
        have hlog : deedOf env tx = [(tx.fromAddr, .operator who' true)] := by simp [deedOf, hact]
        rw [hlog]
        exact .last _ _ log
      | false => simp [Snapshot.setOperatorApproval] at hset
    · refine hkeep ?_ fun granted' hact' hfrom => hsame ⟨hfrom, ?_⟩
      · have hne : ({ owner := tx.fromAddr, operator := who' } : OperatorKey) ≠
            { owner := owner, operator := who } := by
          intro heq
          obtain ⟨hfrom, hwho⟩ := OperatorKey.mk.inj heq
          exact hsame ⟨hfrom, hwho⟩
        cases granted <;> simpa [Snapshot.setOperatorApproval, hne] using hset
      · cases hact.symm.trans hact'
        rfl
  · next hnone =>
    exact hkeep hset fun granted hact => absurd hact (hnone who granted)

namespace Rights
theorem genesis (g : GenesisConfig) : Rights [] (newStateDB g).live := by
  have hempty := (TokensOnly.genesis g).same
  refine ⟨fun id pl found => ?_, fun owner who h => ?_⟩
  · rw [hempty] at found
    simp at found
  · rw [hempty] at h
    simp at h

theorem touches (h : Rights log s) (ht : Touches env s tx ts s') : Rights (log ++ deedOf env tx) s' := by
  refine ⟨fun id pl' found' hset => ?_, fun owner who => ht.operatorOf (h.operators owner who)⟩
  cases hfound : s.paylinks[id]? with
  | none =>
    -- a new PayLink has nobody approved
    obtain ⟨_, p, _, _, _, rfl⟩ := ht.born id pl' hfound found'
    exact absurd rfl hset
  | some pl =>
    obtain ⟨pl₁, found₁, touch⟩ := ht.old id pl hfound
    obtain rfl := Option.some.inj (found₁.symm.trans found')
    exact touch.approvedBy (h.approval id pl hfound) hset

theorem step {tr : List (Snapshot × TimedTx)} (h : Rights (deeds env cp tr) s) (a : TimedTx) :
    Rights (deeds env cp (tr ++ [(s, a)])) (stepTx env cp s a) := by
  rw [deeds, List.filterMap_append]
  rcases stepTx_touches env cp s a with ⟨hok, -, ht⟩ | ⟨hfail, heq⟩
  · have hlog : [(s, a)].filterMap (deed env cp) = deedOf env a.1 := by
      cases hact : actOf env a.1 <;> simp [deed, deedOf, hok, hact]
    rw [hlog]
    exact h.touches ht
  · rw [heq]
    simpa [deeds, deed, hfail] using h

theorem history (env : Env) (g : GenesisConfig) (as : List TimedTx) :
    Rights (deeds env (.ofGenesis g) (trace (stepTx env (.ofGenesis g)) (newStateDB g).live as))
      (as.foldl (stepTx env (.ofGenesis g)) (newStateDB g).live) := by
  have hinit : Rights (deeds env (.ofGenesis g) []) (newStateDB g).live := genesis g
  exact history_induction (I := fun tr s => Rights (deeds env (.ofGenesis g) tr) s) hinit (fun tr s a h => h.step a) as

theorem authorised (h : Rights log s) {id : Hash} {pl : PayLink} {sender : Address}
    (found : s.paylinks[id]? = some pl) (hsender : sender ≠ 0)
    (allowed : s.isApprovedOrOwner id sender = true) : Authorised log id pl.owner sender := by
  simp only [Snapshot.isApprovedOrOwner, found, Bool.or_eq_true, beq_iff_eq] at allowed
  rcases allowed with (howner | happroved) | hoperator
  · exact .inl howner
  · subst happroved
    exact .inr (.inl (h.approval id pl found hsender))
  · exact .inr (.inr (h.operators _ _ hoperator))
end Rights

def ownerIn (s : Snapshot) (id : Hash) : Option Address := (s.paylinks[id]?).map (·.owner)

theorem owner_of_ownerIn {id : Hash} {pl : PayLink} {owner : Address} (h : ownerIn s id = some owner)
    (found : s.paylinks[id]? = some pl) : pl.owner = owner := by
  rw [ownerIn, found] at h
  exact Option.some.inj h

def ownerMoved (env : Env) (cp : ChainParams) (id : Hash) (e : Snapshot × TimedTx) : Bool :=
  (ownerIn e.1 id).any fun owner => ownerIn (stepTx env cp e.1 e.2) id != some owner

def transferCountIn (s : Snapshot) (id : Hash) : UInt64 := (s.paylinks[id]?).elim 0 (·.transferCount)

theorem Touch.transferCount {id : Hash} {pl pl' : PayLink} (touch : Touch env s tx ts id pl pl') :
    pl'.transferCount = if pl'.owner = pl.owner then pl.transferCount else pl.transferCount + 1 := by
  cases touch with
  | transferred _ _ moves => simp [moves]
  | untouched | voted | settled | cancelled | failed | approved => simp

theorem transferCountIn_stepTx (env : Env) (cp : ChainParams) (s : Snapshot) (a : TimedTx)
    (id : Hash) : transferCountIn (stepTx env cp s a) id =
      if ownerMoved env cp id (s, a) then transferCountIn s id + 1 else transferCountIn s id := by
  rcases stepTx_touches env cp s a with ⟨-, -, ht⟩ | ⟨-, heq⟩
  · cases hfound : s.paylinks[id]? with
    | none =>
      have hstill : ownerMoved env cp id (s, a) = false := by simp [ownerMoved, ownerIn, hfound]
      rw [hstill]
      cases hnew : (stepTx env cp s a).paylinks[id]? with
      | none => simp [transferCountIn, hfound, hnew]
      | some pl =>
        obtain ⟨_, p, _, _, _, rfl⟩ := ht.born id pl hfound hnew
        simp [transferCountIn, hfound, hnew, newPayLink]
    | some pl =>
      obtain ⟨pl', found', touch⟩ := ht.old id pl hfound
      simp only [transferCountIn, ownerMoved, ownerIn, hfound, found', Option.elim_some,
        Option.map_some, Option.any_some, touch.transferCount]
      by_cases howner : pl'.owner = pl.owner <;> simp [howner]
  · have hstill : ownerMoved env cp id (s, a) = false := by
      cases hfound : s.paylinks[id]? <;> simp [ownerMoved, ownerIn, heq, hfound]
    rw [hstill, heq]
    rfl

theorem transferCountIn_reached (env : Env) (g : GenesisConfig) (calls : List BlockCall) (id : Hash) :
    transferCountIn (reached env g calls) id =
      UInt64.ofNat ((history env g calls).countP (ownerMoved env (.ofGenesis g) id)) := by
  refine history_induction (I := fun tr s => transferCountIn s id =
    UInt64.ofNat (tr.countP (ownerMoved env (.ofGenesis g) id))) ?_ ?_ (timedTxs calls)
  · rw [(TokensOnly.genesis g).same]
    simp [transferCountIn]
  · intro tr s a ih
    rw [transferCountIn_stepTx, List.countP_append, ih]
    cases hmoved : ownerMoved env (.ofGenesis g) id (s, a) <;> simp [hmoved, UInt64.ofNat_add]

def NoZeroKey (env : Env) (calls : List BlockCall) : Prop :=
  ∀ a ∈ timedTxs calls, ∀ pub, unmarshalPublicKey env a.1.pubKey = .ok pub → pubkeyToAddress env pub ≠ 0

theorem address_of_verifyTx (h : verifyTx env tx = .ok ()) :
    ∃ pub, unmarshalPublicKey env tx.pubKey = .ok pub ∧ pubkeyToAddress env pub = tx.fromAddr := by
  unfold verifyTx at h
  split at h
  · cases h
  · split at h
    · cases h
    · next pub hpub =>
      split at h
      · cases h
      · next haddr => exact ⟨pub, hpub, not_not.mp haddr⟩

/-- **Ownership is authorised over whole runs.** -/
theorem ownership_authorised (env : Env) (g : GenesisConfig) (calls : List BlockCall)
    (keys : NoZeroKey env calls) (id : Hash) :
    (∀ pre e post, history env g calls = pre ++ e :: post → ∀ pl, e.1.paylinks[id]? = some pl →
        ∃ pl', (stepTx env (.ofGenesis g) e.1 e.2).paylinks[id]? = some pl' ∧ (pl'.owner ≠ pl.owner →
            deed env (.ofGenesis g) e = some (e.2.1.fromAddr, .transfer id pl'.owner) ∧
            Authorised (deeds env (.ofGenesis g) pre) id pl.owner e.2.1.fromAddr ∧
            pl.status = .created ∧ pl'.status = .created)) ∧
    ∀ pl, (reached env g calls).paylinks[id]? = some pl → pl.transferCount =
        UInt64.ofNat ((history env g calls).countP (ownerMoved env (.ofGenesis g) id)) := by
  refine ⟨fun pre e post hhistory pl found => ?_, fun pl found => ?_⟩
  · obtain ⟨s, a⟩ := e
    obtain ⟨before, after, htxs, rfl, rfl⟩ := split_trace hhistory
    have hrights := Rights.history env g before
    rcases stepTx_touches env (.ofGenesis g) _ a with ⟨hok, hsigned, ht⟩ | ⟨-, heq⟩
    · obtain ⟨pl', found', touch⟩ := ht.old id pl found
      refine ⟨pl', found', fun hmoved => ?_⟩
      cases touch with
      | @transferred toAddr act created _ allowed _ =>
        have hsender : a.1.fromAddr ≠ 0 := by
          obtain ⟨pub, hpub, haddr⟩ := address_of_verifyTx hsigned
          have hmem : a ∈ timedTxs calls := by
            rw [htxs]
            exact List.mem_append_right _ List.mem_cons_self
          rw [← haddr]
          exact keys a hmem pub hpub
        refine ⟨?_, hrights.authorised found hsender allowed, created, created⟩
        simp only [deed, hok, act, if_true, Option.map_some]
      | untouched | voted | settled | cancelled | failed | approved => exact absurd rfl hmoved
    · rw [heq]
      exact ⟨pl, found, fun hmoved => absurd rfl hmoved⟩
  · have hcount := transferCountIn_reached env g calls id
    rw [transferCountIn, found] at hcount
    exact hcount

namespace Testnet
open Devnet

def approveJSON : Bytes :=
  jsonText "\x7b\"paylinkId\":" ++ jsonHex payLinkID ++ jsonText ",\"approved\":"
    ++ jsonHex validatorAddress ++ jsonText "\x7d"

def claimJSON : Bytes :=
  jsonText "\x7b\"paylinkId\":" ++ jsonHex payLinkID ++ jsonText ",\"to\":"
    ++ jsonHex validatorAddress ++ jsonText "\x7d"

def approveTx : Transaction := signedBy admin adminAddress 14 1 approveJSON
  0x982977c9ab36d7e04ac137d8cae52b1d8f1bcbead5070e3f009916ff9d082232
  0xb78c30d9f418a7cb6935639798bb6570d0f275bbf7cfa975b194ae81d8b1e159
  0x8bcdf7d0afaa2c9603a80133ae0889ac229646a69078e125cc85a6ea25cc0850

def claimTx : Transaction := signedBy validator validatorAddress 13 0 claimJSON
  0x3680d4b9af54a78f55adc6e1e0616b967dd3fb5498d059ace9d0872a98a9e68d
  0xe25386f39a05318d2743f3c0b36ec712896032a72c3670dd772fc0cc9a77f14a
  0x884cedad51dcbc61ed96d731fb2824181b9cd48c13f0006087af861c10871eab

def handoverEnv : Env :=
  { Testnet.env [createTx, approveTx, claimTx] with
    decode :=
      { decoders with
        approvePayLink := decodes approveJSON
          { payLinkID := payLinkID, approved := validatorAddress }
        transferPayLink := decodes claimJSON
          { payLinkID := payLinkID, toAddr := validatorAddress } } }

def approvedRun : List BlockCall := [⟨1700000100, [createTx, approveTx]⟩]

def handoverRun : List BlockCall := [⟨1700000100, [createTx, approveTx, claimTx]⟩]

theorem history_handoverRun : history handoverEnv genesis handoverRun = history handoverEnv genesis approvedRun ++
      [(reached handoverEnv genesis approvedRun, claimTx, 1700000100)] :=
  trace_append _ _ [(createTx, 1700000100), (approveTx, 1700000100)] [(claimTx, 1700000100)]

theorem ownership_authorised_handover : NoZeroKey handoverEnv handoverRun ∧
    ownerIn (reached handoverEnv genesis approvedRun) payLinkID = some adminAddress ∧
    ownerIn (stepTx handoverEnv (.ofGenesis genesis) (reached handoverEnv genesis approvedRun)
      (claimTx, 1700000100)) payLinkID = some validatorAddress ∧
    Authorised (deeds handoverEnv (.ofGenesis genesis) (history handoverEnv genesis approvedRun))
      payLinkID adminAddress validatorAddress := by
  have hkeys : NoZeroKey handoverEnv handoverRun := by
    have hall : ∀ a ∈ timedTxs handoverRun, (unmarshalPublicKey handoverEnv a.1.pubKey).toOption.all
        (fun pub => pubkeyToAddress handoverEnv pub ≠ 0) = true := by decide +kernel
    intro a ha pub hpub
    have := hall a ha
    rw [hpub] at this
    simpa [Except.toOption] using this
  have hbefore : ownerIn (reached handoverEnv genesis approvedRun) payLinkID = some adminAddress := by
    decide +kernel
  have hafter : ownerIn (stepTx handoverEnv (.ofGenesis genesis)
      (reached handoverEnv genesis approvedRun) (claimTx, 1700000100)) payLinkID =
        some validatorAddress := by decide +kernel
  obtain ⟨pl, found, howner⟩ := Option.map_eq_some_iff.mp hbefore
  obtain ⟨pl', found', hlaw⟩ := (ownership_authorised handoverEnv genesis handoverRun hkeys
    payLinkID).1 _ _ _ history_handoverRun pl found
  dsimp only at found'
  have howner' : pl'.owner = validatorAddress := owner_of_ownerIn hafter found'
  have hmoved : pl'.owner ≠ pl.owner := by
    rw [howner, howner']
    decide
  refine ⟨hkeys, hbefore, hafter, ?_⟩
  rw [← howner]
  exact (hlaw hmoved).2.1
end Testnet
end LinkMint.Chain

import LinkMint.Chain.Merkle
import LinkMint.Chain.Testnet
import LinkMint.Chain.Proof.Change

/-!
# The state root binds

Equal state roots mean equal accounts, PayLinks (up to compact rules), validators, used proofs,
operator approvals and processed evidence.
-/

namespace LinkMint.Chain

open LinkMint.Lib Std

structure Encodes (env : Env) (compact : Bytes → Bytes) (s s' : Snapshot) : Prop where
  account : ∀ e ∈ s.accounts.toList ++ s'.accounts.toList, ∀ e' ∈ s.accounts.toList ++ s'.accounts.toList,
      accountLeaf env e = accountLeaf env e' → e = e'
  payLink : ∀ e ∈ s.paylinks.toList ++ s'.paylinks.toList, ∀ e' ∈ s.paylinks.toList ++ s'.paylinks.toList,
      payLinkLeaf env e = payLinkLeaf env e' → e.2.compacted compact = e'.2.compacted compact
  validator : ∀ e ∈ s.validators.toList ++ s'.validators.toList, ∀ e' ∈ s.validators.toList ++ s'.validators.toList,
      validatorLeaf env e = validatorLeaf env e' → e.2 = e'.2
  operator : ∀ k ∈ s.operatorApprovals.toList ++ s'.operatorApprovals.toList,
    ∀ k' ∈ s.operatorApprovals.toList ++ s'.operatorApprovals.toList,
      env.encode.operator k = env.encode.operator k' → k = k'
  sizes : ∀ data ∈ (s.accounts.toList ++ s'.accounts.toList).map (accountLeaf env) ++
      (s.paylinks.toList ++ s'.paylinks.toList).map (payLinkLeaf env) ++
      (s.validators.toList ++ s'.validators.toList).map (validatorLeaf env) ++
      (s.operatorApprovals.toList ++ s'.operatorApprovals.toList).map env.encode.operator,
    data.length ≠ 64

section Tree

variable {env : Env} {data data' : List Bytes}

theorem treeRoot_eq (data : List Bytes) : treeRoot env data = Merkle.root (merkleNode env) 0 (data.map env.sha256) := by
  unfold treeRoot merkleRoot
  split
  · next h =>
    rw [List.length_eq_zero_iff.mp h]
    rfl
  · rfl

theorem treeRoot_injective (free : CollisionFree env (treeHashed env data ++ treeHashed env data'))
    (sizes : ∀ d ∈ data ++ data', d.length ≠ 64) (hd : data.Nodup) (hd' : data'.Nodup)
    (h : treeRoot env data = treeRoot env data') : data = data' := by
  rw [treeRoot_eq, treeRoot_eq] at h
  -- what is hashed: the data…
  have hleaf : ∀ d ∈ data ++ data', d ∈ treeHashed env data ++ treeHashed env data' := by
    intro d hmem
    rcases List.mem_append.mp hmem with hmem | hmem
    · exact List.mem_append_left _ (List.mem_append_left _ hmem)
    · exact List.mem_append_right _ (List.mem_append_left _ hmem)
  -- …and the joins
  have hjoin : ∀ p ∈ Merkle.joins (merkleNode env) (data.map env.sha256) ++
      Merkle.joins (merkleNode env) (data'.map env.sha256),
      nodeBytes p ∈ treeHashed env data ++ treeHashed env data' := by
    intro p hmem
    rcases List.mem_append.mp hmem with hmem | hmem
    · exact List.mem_append_left _ (List.mem_append_right _ (List.mem_map_of_mem hmem))
    · exact List.mem_append_right _ (List.mem_append_right _ (List.mem_map_of_mem hmem))
  have hinj : ∀ l : List Bytes, (∀ d ∈ l, d ∈ data ++ data') → l.Nodup → (l.map env.sha256).Nodup := by
    intro l hsub hl
    refine List.Nodup.map_on (fun d hm d' hm' heq => ?_) hl
    exact free.injective (hleaf d (hsub d hm)) (hleaf d' (hsub d' hm')) heq
  have hleaves : data.map env.sha256 = data'.map env.sha256 := by
    refine Merkle.root_injective ?_ ?_ ?_ (hinj data (fun _ => List.mem_append_left _) hd)
      (hinj data' (fun _ => List.mem_append_right _) hd') h
    · intro p hp q hq heq
      exact nodeBytes_injective (free.injective (hjoin p hp) (hjoin q hq) heq)
    · intro x hx
      obtain ⟨d, hmem, rfl⟩ : ∃ d ∈ data ++ data', env.sha256 d = x := by
        rcases hx with hx | hx
        · obtain ⟨d, hd, rfl⟩ := List.mem_map.mp hx
          exact ⟨d, List.mem_append_left _ hd, rfl⟩
        · obtain ⟨d, hd, rfl⟩ := List.mem_map.mp hx
          exact ⟨d, List.mem_append_right _ hd, rfl⟩
      refine ⟨free.nonzero d (hleaf d hmem), fun p hp heq => ?_⟩
      have hsame : d = nodeBytes p := free.injective (hleaf d hmem) (hjoin p hp) heq
      exact sizes d hmem (by rw [hsame, length_nodeBytes])
    · intro p hp
      exact free.nonzero _ (hjoin p hp)
  refine Merkle.map_injOn (free.injective.mono ?_) hleaves
  intro d hmem
  exact hleaf d (List.mem_append.mpr hmem)

theorem treeRoot_entries {α β : Type} {encode : α → Bytes} {keep : α → β} {es es' : List α}
    (free : CollisionFree env
      (treeHashed env (es.map encode) ++ treeHashed env (es'.map encode)))
    (sizes : ∀ d ∈ (es ++ es').map encode, d.length ≠ 64)
    (inj : ∀ e ∈ es ++ es', ∀ e' ∈ es ++ es', encode e = encode e' → keep e = keep e')
    (hn : (es.map keep).Nodup) (hn' : (es'.map keep).Nodup)
    (h : treeRoot env (es.map encode) = treeRoot env (es'.map encode)) : es.map keep = es'.map keep := by
  have hnodup : ∀ l : List α, (∀ e ∈ l, e ∈ es ++ es') → (l.map keep).Nodup → (l.map encode).Nodup := by
    intro l hsub hl
    unfold List.Nodup at hl ⊢
    rw [List.pairwise_map] at hl ⊢
    exact hl.imp_of_mem fun hm hm' hne heq => hne (inj _ (hsub _ hm) _ (hsub _ hm') heq)
  rw [List.map_append] at sizes
  have hdata := treeRoot_injective free sizes (hnodup es (fun _ => List.mem_append_left _) hn)
    (hnodup es' (fun _ => List.mem_append_right _) hn') h
  exact Merkle.map_eq_map_of_determines hdata fun e he e' he' =>
    inj e (List.mem_append_left _ he) e' (List.mem_append_right _ he')

theorem treeRoot_determines {α : Type} {encode : α → Bytes} {es es' : List α}
    (free : CollisionFree env
      (treeHashed env (es.map encode) ++ treeHashed env (es'.map encode)))
    (sizes : ∀ d ∈ (es ++ es').map encode, d.length ≠ 64)
    (inj : ∀ e ∈ es ++ es', ∀ e' ∈ es ++ es', encode e = encode e' → e = e') (hn : es.Nodup) (hn' : es'.Nodup)
    (h : treeRoot env (es.map encode) = treeRoot env (es'.map encode)) : es = es' := by
  have hids : es.map id = es'.map id := treeRoot_entries free sizes inj (by rwa [List.map_id]) (by rwa [List.map_id]) h
  rwa [List.map_id, List.map_id] at hids
end Tree

def vrfKeyOf (validators : ExtTreeMap Address ValidatorInfo) (addr : Address) : Bytes :=
  (validators[addr]?).elim [] (·.vrfPublicKey)

structure Keyed (s : Snapshot) : Prop where
  paylinks : ∀ (id : Hash) (pl : PayLink), s.paylinks[id]? = some pl → pl.id = id
  validators : ∀ (addr : Address) (v : ValidatorInfo), s.validators[addr]? = some v → v.address = addr
  vrfKeys : ∀ (addr : Address) (key : Bytes), s.vrfKeys[addr]? = some key ↔ key ≠ [] ∧ vrfKeyOf s.validators addr = key

namespace Keyed
variable {env : Env} {cp : ChainParams} {s : Snapshot} {a : TimedTx}

section Maps

variable {α β : Type} [Ord α] [TransOrd α] [LawfulEqOrd α] [DecidableEq α] {key : β → α}
  {m : ExtTreeMap α β} {k : α}

theorem insert {r : β} (h : ∀ (k : α) (r : β), m[k]? = some r → key r = k) (hkey : key r = k) :
    ∀ (k' : α) (r' : β), (m.insert k r)[k']? = some r' → key r' = k' := by
  intro k' r' found
  rw [getElem?_insert_eq] at found
  split at found
  · next heq =>
    cases found
    exact hkey.trans heq
  · exact h k' r' found

theorem put {r r' : β} (h : ∀ (k : α) (r : β), m[k]? = some r → key r = k)
    (found : m[k]? = some r) (hkey : key r' = key r) :
    ∀ (k' : α) (r'' : β), (m.insert k r')[k']? = some r'' → key r'' = k' :=
  insert h (hkey.trans (h k r found))
end Maps

theorem payLinkChange {paylinks : ExtTreeMap Hash PayLink} (h : Keyed s)
    (hc : PayLinkChange env cp s a.1 a.2 paylinks) : ∀ (id : Hash) (pl : PayLink), paylinks[id]? = some pl → pl.id = id := by
  have hold := h.paylinks
  cases hc with
  | same => exact hold
  | opened => exact insert hold rfl
  | voted _ ballot => exact put hold ballot.found rfl
  | settled _ ballot => exact put hold ballot.found rfl
  | cancelled _ found => exact put hold found rfl
  | failed _ _ _ found => exact put hold found rfl
  | transferred _ found => exact put hold found rfl
  | approved _ found => exact put hold found rfl

theorem vrfKeyOf_insert (validators : ExtTreeMap Address ValidatorInfo) (who addr : Address)
    (v : ValidatorInfo) : vrfKeyOf (validators.insert who v) addr =
      if who = addr then v.vrfPublicKey else vrfKeyOf validators addr := by
  unfold vrfKeyOf
  rw [getElem?_insert_eq]
  split <;> rfl

theorem vrfKeyOf_of_found {who : Address} {v : ValidatorInfo}
    (found : s.validators[who]? = some v) : v.vrfPublicKey = vrfKeyOf s.validators who := by
  rw [vrfKeyOf, found]
  rfl

theorem putValidator {who : Address} {v : ValidatorInfo} (h : Keyed s) (hwho : v.address = who)
    (hkey : v.vrfPublicKey = vrfKeyOf s.validators who) :
    (∀ (addr : Address) (v' : ValidatorInfo), (s.validators.insert who v)[addr]? = some v' → v'.address = addr) ∧
    ∀ (addr : Address) (key : Bytes), s.vrfKeys[addr]? = some key ↔
      key ≠ [] ∧ vrfKeyOf (s.validators.insert who v) addr = key := by
  refine ⟨insert h.validators hwho, fun addr key => ?_⟩
  rw [vrfKeyOf_insert, h.vrfKeys]
  split
  · next heq => rw [hkey, heq]
  · rfl

theorem updateValidator {who : Address} {v v' : ValidatorInfo} (h : Keyed s)
    (found : s.validators[who]? = some v) (hwho : v'.address = v.address) (hkey : v'.vrfPublicKey = v.vrfPublicKey) :
    (∀ (addr : Address) (v'' : ValidatorInfo), (s.validators.insert who v')[addr]? = some v'' → v''.address = addr) ∧
    ∀ (addr : Address) (key : Bytes), s.vrfKeys[addr]? = some key ↔
      key ≠ [] ∧ vrfKeyOf (s.validators.insert who v') addr = key :=
  h.putValidator (hwho.trans (h.validators who v found)) (hkey.trans (vrfKeyOf_of_found found))

variable (cp) in
theorem staked_names (v : ValidatorInfo) (amount : UInt64) : (Snapshot.staked cp v amount).address = v.address ∧
      (Snapshot.staked cp v amount).vrfPublicKey = v.vrfPublicKey := by
  unfold Snapshot.staked
  simp only
  split <;> exact ⟨rfl, rfl⟩

theorem validatorChange {validators : ExtTreeMap Address ValidatorInfo}
    {vrfKeys : ExtTreeMap Address Bytes} (h : Keyed s) (hc : ValidatorChange env cp s a.1 a.2 validators vrfKeys) :
    (∀ (addr : Address) (v : ValidatorInfo), validators[addr]? = some v → v.address = addr) ∧
    ∀ (addr : Address) (key : Bytes), vrfKeys[addr]? = some key ↔ key ≠ [] ∧ vrfKeyOf validators addr = key := by
  cases hc with
  | same => exact ⟨h.validators, h.vrfKeys⟩
  | @stake p _ _ _ =>
    obtain ⟨hname, hkey⟩ := staked_names cp (s.stakeTarget a.1.fromAddr a.2) p.amount
    -- the target of a stake is the record that is there, or a blank one
    have htarget : (s.stakeTarget a.1.fromAddr a.2).address = a.1.fromAddr ∧
        (s.stakeTarget a.1.fromAddr a.2).vrfPublicKey = vrfKeyOf s.validators a.1.fromAddr := by
      unfold Snapshot.stakeTarget vrfKeyOf
      cases found : s.validators[a.1.fromAddr]? with
      | none => exact ⟨rfl, rfl⟩
      | some v => exact ⟨h.validators _ v found, rfl⟩
    exact h.putValidator (hname.trans htarget.1) (hkey.trans htarget.2)
  | initiate _ found => exact h.updateValidator found rfl rfl
  | complete _ found => exact h.updateValidator found rfl rfl
  | slash _ _ found => exact h.updateValidator found rfl rfl
  | reward _ found => exact h.updateValidator found rfl rfl
  | @key v vrfKey _ found size =>
    refine ⟨put h.validators found rfl, fun addr key => ?_⟩
    rw [getElem?_insert_eq, vrfKeyOf_insert]
    split
    · constructor
      · intro heq
        cases heq
        refine ⟨fun hnil => ?_, rfl⟩
        rw [hnil] at size
        cases size
      · intro heq
        rw [← heq.2]
    · exact h.vrfKeys addr key

theorem step (h : Keyed s) : Keyed (stepTx env cp s a) := by
  rcases stepTx_cases env cp s a with ⟨-, s₁, hs, heq⟩ | ⟨-, heq⟩
  · have hchanges := hs.effect.changes
    rw [heq]
    obtain ⟨hvalidators, hkeys⟩ := h.validatorChange hchanges.validators
    exact ⟨h.payLinkChange hchanges.paylinks, hvalidators, hkeys⟩
  · rw [heq]
    exact h

theorem genesis (g : GenesisConfig) : Keyed (newStateDB g).live := by
  have hframe := TokensOnly.genesis g
  constructor
  · rw [hframe.paylinks]
    simp
  · rw [hframe.validators]
    simp
  · rw [hframe.validators, hframe.vrfKeys]
    intro addr key
    simp [vrfKeyOf]

theorem of_reachable {g : GenesisConfig} (h : Reachable env g s) : Keyed s := h.invariant (genesis g) fun _ _ => step
end Keyed

structure SameHashed (compact : Bytes → Bytes) (s s' : Snapshot) : Prop where
  accounts : s.accounts = s'.accounts
  paylinks : s.paylinks.map (fun _ pl => pl.compacted compact) = s'.paylinks.map (fun _ pl => pl.compacted compact)
  validators : s.validators = s'.validators
  usedProofs : s.usedProofs = s'.usedProofs
  operatorApprovals : s.operatorApprovals = s'.operatorApprovals
  processedEvidence : s.processedEvidence = s'.processedEvidence

section Root

variable {env : Env} {compact : Bytes → Bytes} {s s' : Snapshot}

theorem stateRoots_eq (free : CollisionFree env (rootHashed env s ++ rootHashed env s'))
    (h : computeStateRoot env s = computeStateRoot env s') : stateRoots env s = stateRoots env s' := by
  have hlast : ∀ s, (stateRoots env s).flatMap hashBytes ∈ rootHashed env s := fun s =>
    List.mem_append_right _ (List.mem_singleton_self _)
  have hbytes := free.injective (List.mem_append_left _ (hlast s)) (List.mem_append_right _ (hlast s')) h
  exact flatMap_hashBytes_injective rfl hbytes

theorem nodup_map_keyed {α β γ : Type} [Ord α] [TransOrd α] [LawfulEqOrd α] (m : ExtTreeMap α β)
    {keep : α × β → γ} (hkeep : ∀ e e', keep e = keep e' → e.1 = e'.1) : (m.toList.map keep).Nodup := by
  unfold List.Nodup
  rw [List.pairwise_map]
  refine m.distinct_keys_toList.imp fun hne heq => hne ?_
  rw [hkeep _ _ heq]
  exact ReflCmp.compare_self

theorem nodup_toList_set {α : Type} [Ord α] [TransOrd α] [LawfulEqOrd α] (t : ExtTreeSet α) : t.toList.Nodup := by
  refine t.distinct_toList.imp fun hne heq => hne ?_
  rw [heq]
  exact ReflCmp.compare_self

theorem proofRoot_injective {t t' : ExtTreeSet Hash}
    (free : CollisionFree env (treeHashed env (t.toList.map hashBytes) ++ treeHashed env (t'.toList.map hashBytes)))
    (h : computeProofRoot env t = computeProofRoot env t') : t = t' := by
  refine ExtTreeSet.toList_inj.mp (treeRoot_determines free (fun d hd => ?_)
    (fun _ _ _ _ heq => hashBytes_injective heq) (nodup_toList_set t) (nodup_toList_set t') h)
  obtain ⟨x, -, rfl⟩ := List.mem_map.mp hd
  simp

theorem CollisionFree.tree {data data' : List Bytes} (free : CollisionFree env (rootHashed env s ++ rootHashed env s'))
    (h : ∀ d ∈ treeHashed env data, d ∈ rootHashed env s) (h' : ∀ d ∈ treeHashed env data', d ∈ rootHashed env s') :
    CollisionFree env (treeHashed env data ++ treeHashed env data') := by
  refine free.mono fun d hd => ?_
  rcases List.mem_append.mp hd with hd | hd
  · exact List.mem_append_left _ (h d hd)
  · exact List.mem_append_right _ (h' d hd)

variable (env s) in
theorem rootHashed_trees : (∀ d ∈ treeHashed env (s.accounts.toList.map (accountLeaf env)), d ∈ rootHashed env s) ∧
    (∀ d ∈ treeHashed env (s.paylinks.toList.map (payLinkLeaf env)), d ∈ rootHashed env s) ∧
    (∀ d ∈ treeHashed env (s.validators.toList.map (validatorLeaf env)), d ∈ rootHashed env s) ∧
    (∀ d ∈ treeHashed env (s.usedProofs.toList.map hashBytes), d ∈ rootHashed env s) ∧
    (∀ d ∈ treeHashed env (s.operatorApprovals.toList.map env.encode.operator), d ∈ rootHashed env s) ∧
    (∀ d ∈ treeHashed env (s.processedEvidence.toList.map hashBytes), d ∈ rootHashed env s) := by
  simp only [rootHashed, List.mem_append]
  refine ⟨?_, ?_, ?_, ?_, ?_, ?_⟩ <;> (intro d hd; simp only [hd, true_or, or_true])

theorem payLinkRoot_injective {m m' : ExtTreeMap Hash PayLink}
    (hm : ∀ (id : Hash) (pl : PayLink), m[id]? = some pl → pl.id = id)
    (hm' : ∀ (id : Hash) (pl : PayLink), m'[id]? = some pl → pl.id = id)
    (free : CollisionFree env (treeHashed env (m.toList.map (payLinkLeaf env)) ++
      treeHashed env (m'.toList.map (payLinkLeaf env))))
    (sizes : ∀ d ∈ (m.toList ++ m'.toList).map (payLinkLeaf env), d.length ≠ 64)
    (inj : ∀ e ∈ m.toList ++ m'.toList, ∀ e' ∈ m.toList ++ m'.toList,
      payLinkLeaf env e = payLinkLeaf env e' → e.2.compacted compact = e'.2.compacted compact)
    (h : computePayLinkRoot env m = computePayLinkRoot env m') :
    m.map (fun _ pl => pl.compacted compact) = m'.map (fun _ pl => pl.compacted compact) := by
  have hkeyed : ∀ e ∈ m.toList ++ m'.toList, (e.2.compacted compact).id = e.1 := by
    intro e he
    rcases List.mem_append.mp he with he | he
    · exact hm e.1 e.2 (ExtTreeMap.mem_toList_iff_getElem?_eq_some.mp he)
    · exact hm' e.1 e.2 (ExtTreeMap.mem_toList_iff_getElem?_eq_some.mp he)
  rw [← ExtTreeMap.toList_inj, ExtTreeMap.toList_map, ExtTreeMap.toList_map]
  refine treeRoot_entries free sizes (fun e he e' he' heq => ?_) (nodup_map_keyed _ fun _ _ => congrArg Prod.fst)
    (nodup_map_keyed _ fun _ _ => congrArg Prod.fst) h
  have hpl := inj e he e' he' heq
  rw [← hkeyed e he, ← hkeyed e' he', hpl]

theorem validatorRoot_injective {m m' : ExtTreeMap Address ValidatorInfo}
    (hm : ∀ (addr : Address) (v : ValidatorInfo), m[addr]? = some v → v.address = addr)
    (hm' : ∀ (addr : Address) (v : ValidatorInfo), m'[addr]? = some v → v.address = addr)
    (free : CollisionFree env (treeHashed env (m.toList.map (validatorLeaf env)) ++
      treeHashed env (m'.toList.map (validatorLeaf env))))
    (sizes : ∀ d ∈ (m.toList ++ m'.toList).map (validatorLeaf env), d.length ≠ 64)
    (inj : ∀ e ∈ m.toList ++ m'.toList, ∀ e' ∈ m.toList ++ m'.toList,
      validatorLeaf env e = validatorLeaf env e' → e.2 = e'.2)
    (h : computeValidatorRoot env m = computeValidatorRoot env m') : m = m' := by
  have hkeyed : ∀ e ∈ m.toList ++ m'.toList, e.2.address = e.1 := by
    intro e he
    rcases List.mem_append.mp he with he | he
    · exact hm _ _ (ExtTreeMap.mem_toList_iff_getElem?_eq_some.mp he)
    · exact hm' _ _ (ExtTreeMap.mem_toList_iff_getElem?_eq_some.mp he)
  refine ExtTreeMap.toList_inj.mp (treeRoot_determines free sizes (fun e he e' he' heq => ?_)
    (nodup_toList m) (nodup_toList m') h)
  have hv := inj e he e' he' heq
  refine Prod.ext ?_ hv
  rw [← hkeyed e he, ← hkeyed e' he', hv]

theorem sameHashed_of_root (hs : Keyed s) (hs' : Keyed s')
    (free : CollisionFree env (rootHashed env s ++ rootHashed env s'))
    (json : Encodes env compact s s') (h : computeStateRoot env s = computeStateRoot env s') : SameHashed compact s s' := by
  have hroots := stateRoots_eq free h
  simp only [stateRoots, List.cons.injEq, and_true] at hroots
  obtain ⟨haccounts, hpaylinks, hvalidators, hproofs, hoperators, hevidence⟩ := hroots
  obtain ⟨ta, tp, tv, tu, tk, te⟩ := rootHashed_trees env s
  obtain ⟨ta', tp', tv', tu', tk', te'⟩ := rootHashed_trees env s'
  have hsizes := json.sizes
  simp only [List.mem_append, or_imp, forall_and] at hsizes
  obtain ⟨⟨⟨saccounts, spaylinks⟩, svalidators⟩, soperators⟩ := hsizes
  exact {
    accounts := ExtTreeMap.toList_inj.mp (treeRoot_determines (free.tree ta ta') saccounts
      json.account (nodup_toList _) (nodup_toList _) haccounts)
    paylinks := payLinkRoot_injective hs.paylinks hs'.paylinks (free.tree tp tp') spaylinks
      json.payLink hpaylinks
    validators := validatorRoot_injective hs.validators hs'.validators (free.tree tv tv')
      svalidators json.validator hvalidators
    usedProofs := proofRoot_injective (free.tree tu tu') hproofs
    operatorApprovals := ExtTreeSet.toList_inj.mp (treeRoot_determines (free.tree tk tk') soperators
      json.operator (nodup_toList_set _) (nodup_toList_set _) hoperators)
    processedEvidence := proofRoot_injective (free.tree te te') hevidence }
end Root

/-- **The state root is binding.** -/
theorem stateRoot_binding (env : Env) (compact : Bytes → Bytes) (g g' : GenesisConfig)
    (s s' : Snapshot) (hs : Reachable env g s) (hs' : Reachable env g' s')
    (free : CollisionFree env (rootHashed env s ++ rootHashed env s'))
    (json : Encodes env compact s s') (h : computeStateRoot env s = computeStateRoot env s') :
    SameHashed compact s s' :=
  sameHashed_of_root (.of_reachable hs) (.of_reachable hs') free json h

theorem collisionFree_withDigests {env : Env} {digests : List (Bytes × Hash)} {inputs : List Bytes}
    (hnodup : (digests.map (·.2)).Nodup) (hzero : 0 ∉ digests.map (·.2))
    (hin : (inputs.all fun data => (digests.find? (·.1 = data)).isSome) = true) :
    CollisionFree (Testnet.withDigests env digests) inputs := by
  have hlook : ∀ data ∈ inputs, ∃ e ∈ digests, e.1 = data ∧ (Testnet.withDigests env digests).sha256 data = e.2 := by
    intro data hmem
    obtain ⟨e, he⟩ := Option.isSome_iff_exists.mp (List.all_eq_true.mp hin data hmem)
    refine ⟨e, List.mem_of_find?_eq_some he, ?_, ?_⟩
    · have hkey := List.find?_some he
      exact of_decide_eq_true hkey
    · show (digests.find? (·.1 = data)).elim _ _ = _
      rw [he]
      rfl
  constructor
  · intro data hmem data' hmem' heq
    obtain ⟨e, he, rfl, hsha⟩ := hlook data hmem
    obtain ⟨e', he', rfl, hsha'⟩ := hlook data' hmem'
    rw [hsha, hsha'] at heq
    rw [List.inj_on_of_nodup_map hnodup he he' heq]
  · intro data hmem hz
    obtain ⟨e, he, -, hsha⟩ := hlook data hmem
    rw [hsha] at hz
    exact hzero (List.mem_map.mpr ⟨e, he, hz⟩)

def stakedEnv : Env :=
  Testnet.withDigests (Testnet.env [Devnet.stakeTx, Testnet.stake2Tx]) Testnet.stakedDigests

def stakedState (calls : List BlockCall) : Snapshot :=
  (runBlocks stakedEnv (newExecutor Testnet.genesis true) calls).db.live

theorem encoded_apart {α β : Type} {encode : α → β} {l : List α} (h : (l.map encode).Nodup) :
    ∀ e ∈ l ++ l, ∀ e' ∈ l ++ l, encode e = encode e' → e = e' := by
  intro e he e' he'
  have hmem : ∀ e ∈ l ++ l, e ∈ l := fun e he => (List.mem_append.mp he).elim id id
  exact List.inj_on_of_nodup_map h (hmem e he) (hmem e' he')

/-- The order of two stakes shows in the list of validators and not in the root. -/
theorem stateRoot_binding_stakes : SameHashed Testnet.compact (stakedState Testnet.stakedRun)
      (stakedState Testnet.stakedBackRun) := by
  have hsame : (stakedState Testnet.stakedBackRun).accounts.toList = (stakedState Testnet.stakedRun).accounts.toList ∧
      (stakedState Testnet.stakedBackRun).validators.toList = (stakedState Testnet.stakedRun).validators.toList ∧
      (stakedState Testnet.stakedBackRun).paylinks.toList = [] ∧
      (stakedState Testnet.stakedRun).paylinks.toList = [] ∧
      (stakedState Testnet.stakedBackRun).operatorApprovals.toList = [] ∧
      (stakedState Testnet.stakedRun).operatorApprovals.toList = [] := by
    decide +kernel
  obtain ⟨haccounts, hvalidators, hpaylinks, hpaylinks', hoperators, hoperators'⟩ := hsame
  refine stateRoot_binding stakedEnv Testnet.compact Testnet.genesis Testnet.genesis _ _
    ⟨true, Testnet.stakedRun, rfl⟩ ⟨true, Testnet.stakedBackRun, rfl⟩
    (collisionFree_withDigests (by decide +kernel) (by decide +kernel) (by decide +kernel))
    ?_ (by decide +kernel)
  constructor
  · rw [haccounts]
    exact encoded_apart (by decide +kernel)
  · rw [hpaylinks, hpaylinks']
    simp
  · rw [hvalidators]
    intro e he e' he' heq
    have hnodup : ((stakedState Testnet.stakedRun).validators.toList.map
        (validatorLeaf stakedEnv)).Nodup := by
      decide +kernel
    rw [encoded_apart hnodup e he e' he' heq]
  · rw [hoperators, hoperators']
    simp
  · rw [haccounts, hvalidators, hpaylinks, hpaylinks', hoperators, hoperators']
    decide +kernel

end LinkMint.Chain

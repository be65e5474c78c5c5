import LinkMint.Lib.Index
import LinkMint.Chain.Proof.Change

/-!
# The query indexes

Four indexes of the PayLinks and the list of validators, kept by hand beside the maps they
index.
-/

namespace LinkMint.Chain

open LinkMint.Lib Std

def listed {κ : Type} [Ord κ] [TransOrd κ] (m : ExtTreeMap κ (List Hash)) (k : κ) : List Hash :=
  (m[k]?).getD []

section
variable {κ : Type} [Ord κ] [TransOrd κ] [LawfulEqOrd κ] [DecidableEq κ]

theorem listed_appendIndex (m : ExtTreeMap κ (List Hash)) (k : κ) (id : Hash) (k' : κ) :
    listed (appendIndex m k id) k' = if k = k' then listed m k' ++ [id] else listed m k' := by
  unfold listed appendIndex
  rw [getElem?_insert_eq]
  split
  · next hk => rw [hk]; rfl
  · rfl

theorem listed_removeFromIndex (m : ExtTreeMap κ (List Hash)) (k : κ) (id : Hash) (k' : κ) :
    listed (removeFromIndex m k id) k' = if k = k' then (listed m k').erase id else listed m k' := by
  unfold listed removeFromIndex
  split
  · rw [getElem?_insert_eq]
    split
    · next hk => rw [hk]; rfl
    · rfl
  · next hnot =>
    split
    · next hk => rw [← hk, List.erase_of_not_mem hnot]
    · rfl
end

def IndexedBy {κ : Type} [Ord κ] [TransOrd κ] (key : PayLink → κ) (paylinks : ExtTreeMap Hash PayLink)
    (m : ExtTreeMap κ (List Hash)) : Prop :=
  Indexes key (fun id : Hash => paylinks[id]?) (listed m)

namespace IndexedBy
variable {κ : Type} [Ord κ] [TransOrd κ] [LawfulEqOrd κ] [DecidableEq κ] {key : PayLink → κ}
  {paylinks : ExtTreeMap Hash PayLink} {m : ExtTreeMap κ (List Hash)} {id : Hash} {pl pl' : PayLink}

theorem append (h : IndexedBy key paylinks m) (fresh : paylinks[id]? = none) :
    IndexedBy key (paylinks.insert id pl) (appendIndex m (key pl) id) :=
  Indexes.append h fresh (fun id' => getElem?_insert_eq paylinks id id' pl)
    (listed_appendIndex m (key pl) id)

omit [LawfulEqOrd κ] [DecidableEq κ] in
theorem keep (h : IndexedBy key paylinks m) (found : paylinks[id]? = some pl)
    (hkey : key pl' = key pl) : IndexedBy key (paylinks.insert id pl') m :=
  Indexes.keep h found (fun id' => getElem?_insert_eq paylinks id id' pl') hkey

theorem move (h : IndexedBy key paylinks m) (found : paylinks[id]? = some pl) : IndexedBy key (paylinks.insert id pl')
      (appendIndex (removeFromIndex m (key pl) id) (key pl') id) :=
  Indexes.move h found (listed_removeFromIndex m (key pl) id)
    (fun id' => getElem?_insert_eq paylinks id id' pl')
    (listed_appendIndex (removeFromIndex m (key pl) id) (key pl') id)
end IndexedBy

structure PayLinksIndexed (paylinks : ExtTreeMap Hash PayLink)
    (byCreator byReceiver byOwner : ExtTreeMap Address (List Hash))
    (byStatus : ExtTreeMap Status (List Hash)) : Prop where
  creator : IndexedBy PayLink.creator paylinks byCreator
  receiver : IndexedBy PayLink.receiver paylinks byReceiver
  owner : IndexedBy PayLink.owner paylinks byOwner
  status : IndexedBy PayLink.status paylinks byStatus

structure ValidatorsListed (validators : ExtTreeMap Address ValidatorInfo) (list : List Address) : Prop where
  nodup : list.Nodup
  mem : ∀ addr, addr ∈ list ↔ addr ∈ validators

namespace ValidatorsListed
variable {validators : ExtTreeMap Address ValidatorInfo} {list : List Address} {addr : Address}

theorem keep {v v' : ValidatorInfo} (h : ValidatorsListed validators list)
    (found : validators[addr]? = some v) : ValidatorsListed (validators.insert addr v') list := by
  refine ⟨h.nodup, fun addr' => ?_⟩
  have hold : addr ∈ validators := by
    rw [ExtTreeMap.mem_iff_isSome_getElem?, found]
    rfl
  rw [h.mem, ExtTreeMap.mem_insert, LawfulEqCmp.compare_eq_iff_eq]
  constructor
  · exact .inr
  · rintro (rfl | hmem)
    · exact hold
    · exact hmem

theorem stake {v : ValidatorInfo} (h : ValidatorsListed validators list) : ValidatorsListed (validators.insert addr v)
      (if validators.contains addr then list else list ++ [addr]) := by
  split
  · next hold =>
    rw [ExtTreeMap.contains_eq_isSome_getElem?] at hold
    obtain ⟨v', found⟩ := Option.isSome_iff_exists.mp hold
    exact h.keep found
  · next hnew =>
    have hnot : addr ∉ list := fun hmem => hnew (ExtTreeMap.contains_iff_mem.mpr ((h.mem addr).mp hmem))
    refine ⟨nodup_snoc h.nodup hnot, fun addr' => ?_⟩
    rw [List.mem_append, List.mem_singleton, h.mem, ExtTreeMap.mem_insert,
      LawfulEqCmp.compare_eq_iff_eq, or_comm, eq_comm]
end ValidatorsListed

def Indexed (s : Snapshot) : Prop :=
  PayLinksIndexed s.paylinks s.paylinksByCreator s.paylinksByReceiver s.paylinksByOwner
    s.paylinksByStatus ∧
  ValidatorsListed s.validators s.validatorList

namespace Indexed
variable {env : Env} {cp : ChainParams} {s s' : Snapshot} {tx : Transaction} {ts : Int64}

theorem tokensOnly (h : Indexed s) (hsame : TokensOnly s s') : Indexed s' := by
  rw [hsame.same]
  exact h

theorem subBalance {addr : Address} {amount : UInt64} (h : Indexed s)
    (done : s.subBalance addr amount = .ok s') : Indexed s' := by
  obtain ⟨_, -, -, rfl⟩ := Snapshot.subBalance_ok.mp done
  exact h

theorem putPayLink {id : Hash} {pl pl' : PayLink} (h : Indexed s) (found : s.paylinks[id]? = some pl)
    (hkeys : (pl'.creator, pl'.receiver, pl'.owner, pl'.status) =
      (pl.creator, pl.receiver, pl.owner, pl.status)) : Indexed (s.putPayLink id pl') := by
  simp only [Prod.mk.injEq] at hkeys
  obtain ⟨hcreator, hreceiver, howner, hstatus⟩ := hkeys
  obtain ⟨⟨creator, receiver, owner, status⟩, validators⟩ := h
  exact ⟨⟨creator.keep found hcreator, receiver.keep found hreceiver, owner.keep found howner,
    status.keep found hstatus⟩, validators⟩

theorem setPayLinkStatus {id : Hash} {status : Status} (h : Indexed s)
    (done : s.setPayLinkStatus id status = .ok s') : Indexed s' := by
  obtain ⟨pl, found, rfl⟩ := Snapshot.setPayLinkStatus_ok.mp done
  obtain ⟨⟨creator, receiver, owner, status⟩, validators⟩ := h
  exact ⟨⟨creator.keep found rfl, receiver.keep found rfl, owner.keep found rfl, status.move found⟩, validators⟩

theorem putValidator {addr : Address} {v : ValidatorInfo} (v' : ValidatorInfo) (h : Indexed s)
    (found : s.validators[addr]? = some v) : Indexed (s.putValidator addr v') :=
  ⟨h.1, h.2.keep found⟩

theorem slash {addr : Address} {amount : UInt64} (h : Indexed s) (done : s.slash cp addr amount = .ok s') : Indexed s' := by
  obtain ⟨v, found, -, rfl⟩ := Snapshot.slash_ok.mp done
  exact h.putValidator (Snapshot.slashed cp v amount) found

theorem effect (h : Indexed s) (he : Effect env cp s tx ts s') : Indexed s' := by
  cases he with
  | createPayLink _ _ _ _ _ _ done =>
    obtain ⟨fresh, rfl⟩ := Snapshot.createPayLink_ok.mp done
    obtain ⟨⟨creator, receiver, owner, status⟩, validators⟩ := h
    exact ⟨⟨creator.append fresh, receiver.append fresh, owner.append fresh, status.append fresh⟩, validators⟩
  | vote _ ballot _ => exact h.putPayLink ballot.found rfl
  | settle _ ballot _ _ done =>
    have hcounted : Indexed (counted s tx _ _) := h.putPayLink ballot.found rfl
    have hsettled := hcounted.setPayLinkStatus done
    exact tokensOnly (s := Snapshot.markProofUsed _ _) hsettled (.feeState cp _ _ _)
  | cancelPayLink _ _ _ _ _ _ done => exact h.setPayLinkStatus done
  | failPayLink _ _ _ _ done => exact h.setPayLinkStatus done
  | transferPayLink _ _ _ _ _ _ _ _ done =>
    obtain ⟨pl, found, rfl⟩ := Snapshot.setPayLinkOwner_ok.mp done
    obtain ⟨⟨creator, receiver, owner, status⟩, validators⟩ := h
    exact ⟨⟨creator.keep found rfl, receiver.keep found rfl, owner.move found, status.keep found rfl⟩, validators⟩
  | approvePayLink _ _ _ _ _ done =>
    obtain ⟨pl, found, rfl⟩ := Snapshot.setPayLinkApproval_ok.mp done
    exact h.putPayLink found rfl
  | setApprovalForAll _ _ _ _ => exact h
  | transfer _ _ _ _ done =>
    obtain ⟨s₁, debit, rfl⟩ := Snapshot.transfer_ok.mp done
    have hdebited := h.subBalance debit
    exact hdebited
  | stake _ _ _ debit done =>
    have hdebited := h.subBalance debit
    obtain ⟨-, rfl⟩ := Snapshot.stake_ok.mp done
    exact ⟨hdebited.1, hdebited.2.stake⟩
  | initiateUnstake _ _ _ done =>
    obtain ⟨v, found, -, -, -, rfl⟩ := Snapshot.initiateWithdrawal_ok.mp done
    exact h.putValidator _ found
  | completeUnstake _ done =>
    obtain ⟨v, found, -, -, rfl, rfl⟩ := Snapshot.completeWithdrawal_ok.mp done
    exact h.putValidator (Snapshot.withdrawn v) found
  | slash _ _ _ done => exact h.slash done
  | distributeReward _ _ _ debit done =>
    have hdebited := h.subBalance debit
    obtain ⟨v, found, -, rfl⟩ := Snapshot.distributeReward_ok.mp done
    exact ⟨hdebited.1, hdebited.2.keep found⟩
  | registerVRFKey _ _ _ _ done =>
    obtain ⟨v, found, -, rfl⟩ := Snapshot.setVRFPublicKey_ok.mp done
    exact ⟨h.1, h.2.keep found⟩
  | submitEvidence _ _ _ _ done => exact slash (s := s.markEvidenceProcessed _) h done

theorem genesis (g : GenesisConfig) : Indexed (newStateDB g).live := by
  have hempty : Indexed {} := ⟨⟨.empty _, .empty _, .empty _, .empty _⟩, ⟨List.nodup_nil, by simp⟩⟩
  exact hempty.tokensOnly (.genesis g)

theorem reached (env : Env) (g : GenesisConfig) (calls : List BlockCall) : Indexed (reached env g calls) := by
  refine history_induction (I := fun _ s => Indexed s) (genesis g) ?_ (timedTxs calls)
  intro _ s a h
  rcases stepTx_cases env (.ofGenesis g) s a with ⟨-, s₁, hstep, heq⟩ | ⟨-, heq⟩
  · rw [heq]
    exact (h.effect hstep.effect).tokensOnly (.incrementNonce s₁ a.1.fromAddr)
  · rw [heq]
    exact h
end Indexed

/-- **The query indexes are exact**: each lists under a key exactly the stored PayLinks with that key, each once. -/
theorem indexes_exact (env : Env) (g : GenesisConfig) (eventBus : Bool) (calls : List BlockCall) :
    let s := (runBlocks env (newExecutor g eventBus) calls).db.live
    (∀ creator, (listed s.paylinksByCreator creator).Nodup ∧ ∀ id, id ∈ listed s.paylinksByCreator creator ↔
        ∃ pl, s.paylinks[id]? = some pl ∧ pl.creator = creator) ∧
    (∀ receiver, (listed s.paylinksByReceiver receiver).Nodup ∧ ∀ id, id ∈ listed s.paylinksByReceiver receiver ↔
        ∃ pl, s.paylinks[id]? = some pl ∧ pl.receiver = receiver) ∧
    (∀ owner, (listed s.paylinksByOwner owner).Nodup ∧ ∀ id, id ∈ listed s.paylinksByOwner owner ↔
        ∃ pl, s.paylinks[id]? = some pl ∧ pl.owner = owner) ∧
    (∀ status, (listed s.paylinksByStatus status).Nodup ∧ ∀ id, id ∈ listed s.paylinksByStatus status ↔
        ∃ pl, s.paylinks[id]? = some pl ∧ pl.status = status) ∧
    s.validatorList.Nodup ∧ ∀ addr, addr ∈ s.validatorList ↔ addr ∈ s.validators := by
  rw [runBlocks_live]
  obtain ⟨⟨creator, receiver, owner, status⟩, validators⟩ := Indexed.reached env g calls
  exact ⟨fun k => ⟨creator.nodup k, creator.mem k⟩, fun k => ⟨receiver.nodup k, receiver.mem k⟩,
    fun k => ⟨owner.nodup k, owner.mem k⟩, fun k => ⟨status.nodup k, status.mem k⟩,
    validators.nodup, validators.mem⟩

end LinkMint.Chain

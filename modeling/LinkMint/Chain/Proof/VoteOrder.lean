import LinkMint.Chain.Proof.Lifecycle

/-!
# The order of votes

`vote_order_irrelevant`: for the votes of distinct active validators on one unused proof, the
outcome is the same in every order of the block if and only if `OrderFree` holds. `settled_iff` is
the shape behind it: the votes before the quorum are recorded, and then any vote of the rest may
settle. What the votes of several blocks or of several proofs do is not said here.
-/

namespace LinkMint.Chain

open LinkMint.Lib Std

section Election

variable (env : Env) (cp : ChainParams) (s : Snapshot) (ts : Int64) (plId proofHash : Hash)
  (pl : PayLink)

/-- `tx` is an admitted vote of an active validator that has not voted on the PayLink yet. -/
structure Casts (tx : Transaction) : Prop where
  kind : TxKind.ofCode tx.type = some .submitValidation
  payload : env.decode.submitValidation tx.payload = .ok { payLinkID := plId, proofHash := proofHash }
  admitted : Admitted env s tx
  active : s.isActiveValidator tx.fromAddr = true
  first : s.hasVoted plId tx.fromAddr = false

/-- Votes of distinct validators for one unused proof on an open PayLink. -/
structure Election (txs : List Transaction) : Prop where
  found : s.paylinks[plId]? = some pl
  created : pl.status = .created
  unexpired : ts ≤ pl.expiry
  accepted : checkNewRules env pl.rules = .ok ()
  unused : s.isProofUsed proofHash = false
  casts : ∀ tx ∈ txs, Casts env s plId proofHash tx
  distinct : (txs.map (·.fromAddr)).Nodup

def Quorate (n : Nat) : Prop :=
  cp.requiredValidations ≤ pl.voteCount + UInt64.ofNat n + 1

instance (n : Nat) : Decidable (Quorate cp pl n) := inferInstanceAs (Decidable (_ ≤ _))

def QuorumAt (n : Nat) : Prop := Quorate cp pl n ∧ ∀ m < n, ¬ Quorate cp pl m

def polled (txs : List Transaction) : ExtTreeSet VoteKey :=
  txs.foldl (fun votes tx => votes.insert { payLinkID := plId, validator := tx.fromAddr }) s.votes

def Settles (before : List Transaction) (tx : Transaction) : Prop :=
  evaluateRules env pl
    (settleContext { s with votes := polled s plId (before ++ [tx]) } tx ts plId pl) = .ok ()

/-- Unless another proof is already submitted: at every choice of the votes recorded before the
    quorum some remaining vote passes the rules, or at none does any. -/
def OrderFree (txs : List Transaction) : Prop :=
  (∀ h, s.submittedProofs[plId]? = some h → h = proofHash) →
    (∀ before rest, (before ++ rest).Perm txs → QuorumAt cp pl before.length →
      ∃ tx ∈ rest, Settles env s ts plId pl before tx) ∨
    (∀ before rest, (before ++ rest).Perm txs → QuorumAt cp pl before.length →
      ∀ tx ∈ rest, ¬ Settles env s ts plId pl before tx)
end Election

section Poll

variable {env : Env} {cp : ChainParams} {s₀ s : Snapshot} {ts : Int64} {plId proofHash : Hash}
  {pl : PayLink} {before : List Transaction} {tx : Transaction}

variable (s₀ plId proofHash pl) in
structure Polled (before : List Transaction) (s : Snapshot) : Prop where
  found : s.paylinks[plId]? = some { pl with voteCount := pl.voteCount + UInt64.ofNat before.length }
  votes : s.votes = polled s₀ plId before
  agrees : ∀ h, s.submittedProofs[plId]? = some h → h = proofHash
  usedProofs : s.usedProofs = s₀.usedProofs
  validators : s.validators = s₀.validators
  nonces : ∀ addr ∉ before.map (·.fromAddr), s.getNonce addr = s₀.getNonce addr

theorem polled_concat (before : List Transaction) (tx : Transaction) : polled s plId (before ++ [tx]) =
      (polled s plId before).insert { payLinkID := plId, validator := tx.fromAddr } := by
  simp [polled]

theorem contains_polled {v : Address} : (polled s plId before).contains { payLinkID := plId, validator := v } = true ↔
      v ∈ before.map (·.fromAddr) ∨ s.hasVoted plId v = true := by
  induction before using List.reverseRecOn with
  | nil => simp [polled, Snapshot.hasVoted]
  | append_singleton before tx ih =>
    rw [polled_concat, ExtTreeSet.contains_insert, Bool.or_eq_true, ih, beq_iff_eq, LawfulEqCmp.compare_eq_iff_eq]
    simp only [VoteKey.mk.injEq, true_and, List.map_append, List.map_cons, List.map_nil,
      List.mem_append, List.mem_singleton]
    constructor
    · rintro (rfl | h | h)
      · exact .inl (.inr rfl)
      · exact .inl (.inl h)
      · exact .inr h
    · rintro ((h | rfl) | h)
      · exact .inr (.inl h)
      · exact .inl rfl
      · exact .inr (.inr h)

theorem Polled.ballot (h : Polled s₀ plId proofHash pl before s)
    (created : pl.status = .created) (unexpired : ts ≤ pl.expiry)
    (unused : s₀.isProofUsed proofHash = false) (hcast : Casts env s₀ plId proofHash tx)
    (fresh : tx.fromAddr ∉ before.map (·.fromAddr)) :
    Ballot env s tx ts { payLinkID := plId, proofHash := proofHash }
      { pl with voteCount := pl.voteCount + UInt64.ofNat before.length } where
  payload := hcast.payload
  active := by
    unfold Snapshot.isActiveValidator
    rw [h.validators]
    exact hcast.active
  unused := by
    unfold Snapshot.isProofUsed
    rw [h.usedProofs]
    exact unused
  found := h.found
  created := created
  unexpired := unexpired
  first := by
    rw [← Bool.not_eq_true]
    unfold Snapshot.hasVoted
    rw [h.votes, contains_polled, not_or, hcast.first]
    exact ⟨fresh, Bool.false_ne_true⟩
  agrees := h.agrees

theorem Polled.admitted (h : Polled s₀ plId proofHash pl before s)
    (hcast : Casts env s₀ plId proofHash tx) (fresh : tx.fromAddr ∉ before.map (·.fromAddr)) : Admitted env s tx := by
  refine ⟨hcast.admitted.1, ?_⟩
  rw [h.nonces _ fresh]
  exact hcast.admitted.2

theorem Polled.counts (h : Polled s₀ plId proofHash pl before s)
    (hballot : Ballot env s tx ts { payLinkID := plId, proofHash := proofHash }
      { pl with voteCount := pl.voteCount + UInt64.ofNat before.length })
    (hcast : Casts env s₀ plId proofHash tx) (fresh : tx.fromAddr ∉ before.map (·.fromAddr))
    (short : ¬ Quorate cp pl before.length) :
    Polled s₀ plId proofHash pl (before ++ [tx]) (applyTx env cp s tx ts) := by
  obtain ⟨hsigned, hnonce⟩ := h.admitted hcast fresh
  have hstep : Step env cp s tx ts (counted s tx { payLinkID := plId, proofHash := proofHash }
      { pl with voteCount := pl.voteCount + UInt64.ofNat before.length }) :=
    ⟨hsigned, hnonce, .vote hcast.kind hballot short⟩
  rw [applyTx_of_step hstep]
  refine ⟨?_, ?_, ?_, h.usedProofs, h.validators, ?_⟩
  · show (s.paylinks.insert plId _)[plId]? = _
    rw [ExtTreeMap.getElem?_insert_self, List.length_append, List.length_singleton,
      UInt64.ofNat_add, ← UInt64.add_assoc]
    rfl
  · show s.votes.insert _ = _
    rw [h.votes, polled_concat]
  · show ∀ h', (s.submittedProofs.insert plId proofHash)[plId]? = some h' → _
    rw [ExtTreeMap.getElem?_insert_self]
    intro h' heq
    exact (Option.some.inj heq).symm
  · intro addr hnot
    rw [List.map_append, List.mem_append, not_or] at hnot
    have hne : tx.fromAddr ≠ addr := by
      rintro rfl
      exact hnot.2 (by simp)
    rw [getNonce_incrementNonce, if_neg hne, ← h.nonces addr hnot.1]
    exact KeepsNonces.of_accounts rfl addr

theorem Effect.ballot {s' : Snapshot} (he : Effect env cp s tx ts s')
    (kind : TxKind.ofCode tx.type = some .submitValidation) :
    ∃ p pl, Ballot env s tx ts p pl ∧ (cp.requiredValidations ≤ pl.voteCount + 1 →
      evaluateRules env pl (settleContext (counted s tx p pl) tx ts p.payLinkID pl) = .ok ()) := by
  have hleads : Leads (dispatch env cp tx ts) { state := s } s' := leads_dispatch.mpr he
  unfold dispatch at hleads
  rw [kind] at hleads
  obtain ⟨p, pl, hballot, hrest⟩ := leads_submitValidation.mp hleads
  refine ⟨p, pl, hballot, fun quorum => ?_⟩
  rw [if_pos quorum] at hrest
  exact hrest.1

theorem applyTx_of_no_ballot (hcast : Casts env s₀ plId proofHash tx)
    (hno : ∀ pl, Ballot env s tx ts { payLinkID := plId, proofHash := proofHash } pl →
      cp.requiredValidations ≤ pl.voteCount + 1 ∧
      evaluateRules env pl (settleContext (counted s tx
        { payLinkID := plId, proofHash := proofHash } pl) tx ts plId pl) ≠ .ok ()) :
    applyTx env cp s tx ts = s := by
  rcases applyTx_cases env cp s tx ts with ⟨s₁, hstep, -⟩ | ⟨-, heq⟩
  · obtain ⟨p, pl, hballot, hrules⟩ := hstep.effect.ballot hcast.kind
    obtain rfl : p = { payLinkID := plId, proofHash := proofHash } :=
      Except.ok.inj (hballot.payload.symm.trans hcast.payload)
    obtain ⟨quorum, hrejected⟩ := hno pl hballot
    exact absurd (hrules quorum) hrejected
  · exact heq

theorem Polled.settles_iff (h : Polled s₀ plId proofHash pl before s) : Settles env s₀ ts plId pl before tx ↔
      evaluateRules env { pl with voteCount := pl.voteCount + UInt64.ofNat before.length }
        (settleContext (counted s tx { payLinkID := plId, proofHash := proofHash }
          { pl with voteCount := pl.voteCount + UInt64.ofNat before.length }) tx ts plId
          { pl with voteCount := pl.voteCount + UInt64.ofNat before.length }) = .ok () := by
  unfold Settles settleContext counted Snapshot.getVoters
  rw [polled_concat, h.votes]
  rfl

theorem Polled.settled (h : Polled s₀ plId proofHash pl before s)
    (hballot : Ballot env s tx ts { payLinkID := plId, proofHash := proofHash }
      { pl with voteCount := pl.voteCount + UInt64.ofNat before.length })
    (hcast : Casts env s₀ plId proofHash tx) (fresh : tx.fromAddr ∉ before.map (·.fromAddr))
    (quorum : Quorate cp pl before.length) (hsettles : Settles env s₀ ts plId pl before tx) :
    statusIn (applyTx env cp s tx ts) plId = .verified := by
  obtain ⟨hsigned, hnonce⟩ := h.admitted hcast fresh
  obtain ⟨s', done, hput⟩ : ∃ s', (counted s tx { payLinkID := plId, proofHash := proofHash }
      { pl with voteCount := pl.voteCount + UInt64.ofNat before.length }).setPayLinkStatus plId
        .verified = .ok s' ∧ statusIn s' plId = .verified := by
    refine ⟨_, Snapshot.setPayLinkStatus_ok.mpr ⟨_, ExtTreeMap.getElem?_insert_self, rfl⟩, ?_⟩
    simp [statusIn, Snapshot.putPayLink]
  have hstep : Step env cp s tx ts (feeState cp plId pl.amount (s'.markProofUsed proofHash)) :=
    ⟨hsigned, hnonce, .settle hcast.kind hballot quorum (h.settles_iff.mp hsettles) done⟩
  rw [applyTx_of_step hstep]
  show ((feeState cp plId pl.amount (s'.markProofUsed proofHash)).paylinks[plId]?).elim _ _ = _
  rw [(TokensOnly.feeState cp plId pl.amount (s'.markProofUsed proofHash)).paylinks]
  exact hput

theorem Polled.rejected (h : Polled s₀ plId proofHash pl before s)
    (hcast : Casts env s₀ plId proofHash tx) (quorum : Quorate cp pl before.length)
    (hsettles : ¬ Settles env s₀ ts plId pl before tx) : applyTx env cp s tx ts = s := by
  refine applyTx_of_no_ballot hcast fun pl' hballot => ?_
  obtain rfl := Option.some.inj (h.found.symm.trans hballot.found)
  rw [h.settles_iff] at hsettles
  exact ⟨quorum, hsettles⟩

theorem applyTx_of_verified (hcast : Casts env s₀ plId proofHash tx)
    (hverified : statusIn s plId = .verified) : applyTx env cp s tx ts = s := by
  refine applyTx_of_no_ballot hcast fun pl' hballot => ?_
  rw [statusIn_of_getElem? hballot.found, hballot.created] at hverified
  cases hverified

variable {txs : List Transaction}

theorem applyTxs_of_verified (hcasts : ∀ tx ∈ txs, Casts env s₀ plId proofHash tx)
    (hverified : statusIn s plId = .verified) : statusIn (applyTxs env cp ts s txs) plId = .verified := by
  induction txs with
  | nil => exact hverified
  | cons tx txs ih =>
    show statusIn (applyTxs env cp ts (applyTx env cp s tx ts) txs) plId = _
    rw [applyTx_of_verified (hcasts tx List.mem_cons_self) hverified]
    exact ih fun tx' h => hcasts tx' (List.mem_cons_of_mem _ h)

structure Coming (env : Env) (s₀ : Snapshot) (plId proofHash : Hash)
    (before txs : List Transaction) : Prop where
  casts : ∀ tx ∈ txs, Casts env s₀ plId proofHash tx
  distinct : ((before ++ txs).map (·.fromAddr)).Nodup

theorem Coming.fresh (h : Coming env s₀ plId proofHash before (tx :: txs)) : tx.fromAddr ∉ before.map (·.fromAddr) := by
  have hd := h.distinct
  rw [List.map_append, List.map_cons, List.nodup_append] at hd
  intro hmem
  exact hd.2.2 _ hmem _ List.mem_cons_self rfl

theorem Coming.counted (h : Coming env s₀ plId proofHash before (tx :: txs)) :
    Coming env s₀ plId proofHash (before ++ [tx]) txs where
  casts := fun tx' h' => h.casts tx' (List.mem_cons_of_mem _ h')
  distinct := by
    rw [List.append_assoc]
    exact h.distinct

theorem Coming.skip (h : Coming env s₀ plId proofHash before (tx :: txs)) :
    Coming env s₀ plId proofHash before txs where
  casts := fun tx' h' => h.casts tx' (List.mem_cons_of_mem _ h')
  distinct := by
    refine h.distinct.sublist (List.Sublist.map _ ?_)
    exact List.Sublist.append_left (List.sublist_cons_self tx txs) before

variable (created : pl.status = .created) (unexpired : ts ≤ pl.expiry)
  (unused : s₀.isProofUsed proofHash = false)

include created unexpired unused

theorem Polled.verified_iff_of_quorate (h : Polled s₀ plId proofHash pl before s)
    (hcoming : Coming env s₀ plId proofHash before txs) (quorum : Quorate cp pl before.length) :
    statusIn (applyTxs env cp ts s txs) plId = .verified ↔ ∃ tx ∈ txs, Settles env s₀ ts plId pl before tx := by
  induction txs with
  | nil =>
    show statusIn s plId = .verified ↔ _
    rw [statusIn_of_getElem? h.found, created]
    simp
  | cons tx txs ih =>
    have hcast := hcoming.casts tx List.mem_cons_self
    have hballot := h.ballot created unexpired unused hcast hcoming.fresh
    show statusIn (applyTxs env cp ts (applyTx env cp s tx ts) txs) plId = _ ↔ _
    by_cases hs : Settles env s₀ ts plId pl before tx
    · have hverified := h.settled hballot hcast hcoming.fresh quorum hs
      exact iff_of_true (applyTxs_of_verified hcoming.skip.casts hverified) ⟨tx, List.mem_cons_self, hs⟩
    · rw [h.rejected hcast quorum hs, ih hcoming.skip]
      simp [hs]

omit created unexpired unused in
theorem QuorumAt.unique {n m : Nat} (h : QuorumAt cp pl n) (h' : QuorumAt cp pl m) : n = m := by
  rcases Nat.lt_trichotomy n m with hlt | heq | hlt
  · exact absurd h.1 (h'.2 n hlt)
  · exact heq
  · exact absurd h'.1 (h.2 m hlt)

theorem Polled.verified_iff (h : Polled s₀ plId proofHash pl before s)
    (hcoming : Coming env s₀ plId proofHash before txs) (short : ∀ m < before.length, ¬ Quorate cp pl m) :
    statusIn (applyTxs env cp ts s txs) plId = .verified ↔
      ∃ more rest, txs = more ++ rest ∧ QuorumAt cp pl (before ++ more).length ∧
        ∃ tx ∈ rest, Settles env s₀ ts plId pl (before ++ more) tx := by
  induction txs generalizing before s with
  | nil =>
    show statusIn s plId = .verified ↔ _
    rw [statusIn_of_getElem? h.found, created]
    simp
  | cons tx txs ih =>
    by_cases quorum : Quorate cp pl before.length
    · rw [h.verified_iff_of_quorate created unexpired unused hcoming quorum]
      constructor
      · intro hex
        refine ⟨[], tx :: txs, rfl, ?_⟩
        rw [List.append_nil]
        exact ⟨⟨quorum, short⟩, hex⟩
      · rintro ⟨more, rest, heq, hat, hex⟩
        have hlen := hat.unique ⟨quorum, short⟩
        rw [List.length_append, Nat.add_eq_left, List.length_eq_zero_iff] at hlen
        subst hlen
        rw [List.append_nil] at hex
        rw [heq]
        exact hex
    · have hcast := hcoming.casts tx List.mem_cons_self
      have hballot := h.ballot created unexpired unused hcast hcoming.fresh
      have hshort : ∀ m < (before ++ [tx]).length, ¬ Quorate cp pl m := by
        intro m hm
        rw [List.length_append, List.length_singleton, Nat.lt_succ_iff_lt_or_eq] at hm
        rcases hm with hm | rfl
        · exact short m hm
        · exact quorum
      have hnext := ih (h.counts hballot hcast hcoming.fresh quorum) hcoming.counted hshort
      show statusIn (applyTxs env cp ts (applyTx env cp s tx ts) txs) plId = _ ↔ _
      rw [hnext]
      constructor
      · rintro ⟨more, rest, rfl, hat⟩
        rw [List.append_assoc] at hat
        exact ⟨tx :: more, rest, rfl, hat⟩
      · rintro ⟨more, rest, heq, hat⟩
        cases more with
        | nil =>
          rw [List.append_nil] at hat
          exact absurd hat.1.1 quorum
        | cons tx' more =>
          rw [List.cons_append, List.cons.injEq] at heq
          obtain ⟨rfl, heq⟩ := heq
          refine ⟨more, rest, heq, ?_⟩
          rw [List.append_assoc]
          exact hat
end Poll

section Order

variable {env : Env} {cp : ChainParams} {s : Snapshot} {ts : Int64} {plId proofHash : Hash}
  {pl : PayLink} {txs txs' : List Transaction}

namespace Election
theorem perm (h : Election env s ts plId proofHash pl txs) (hperm : txs'.Perm txs) :
    Election env s ts plId proofHash pl txs' :=
  { h with
    casts := fun tx htx => h.casts tx (hperm.mem_iff.mp htx)
    distinct := (hperm.map _).nodup_iff.mpr h.distinct }

theorem settled_iff (h : Election env s ts plId proofHash pl txs)
    (agrees : ∀ h', s.submittedProofs[plId]? = some h' → h' = proofHash) :
    statusIn (applyTxs env cp ts s txs) plId = .verified ↔
      ∃ before rest, txs = before ++ rest ∧ QuorumAt cp pl before.length ∧
        ∃ tx ∈ rest, Settles env s ts plId pl before tx := by
  have hstart : Polled s plId proofHash pl [] s := ⟨by simpa using h.found, rfl, agrees, rfl, rfl, fun _ _ => rfl⟩
  have hcoming : Coming env s plId proofHash [] txs := ⟨h.casts, h.distinct⟩
  have hshort : ∀ m < ([] : List Transaction).length, ¬ Quorate cp pl m := fun m hm =>
    absurd hm (Nat.not_lt_zero m)
  have hiff := hstart.verified_iff h.created h.unexpired h.unused hcoming hshort
  simpa only [List.nil_append] using hiff

theorem unchanged_of_disagrees {h' : Hash} (h : Election env s ts plId proofHash pl txs)
    (submitted : s.submittedProofs[plId]? = some h') (hne : h' ≠ proofHash) : applyTxs env cp ts s txs = s := by
  have hcasts := h.casts
  clear h
  induction txs with
  | nil => rfl
  | cons tx txs ih =>
    have hsame : applyTx env cp s tx ts = s :=
      applyTx_of_no_ballot (hcasts tx List.mem_cons_self) fun pl' hballot =>
        absurd (hballot.agrees h' submitted) hne
    show applyTxs env cp ts (applyTx env cp s tx ts) txs = s
    rw [hsame]
    exact ih fun tx' htx => hcasts tx' (List.mem_cons_of_mem _ htx)

theorem settled_iff_exists (h : Election env s ts plId proofHash pl txs)
    (agrees : ∀ h', s.submittedProofs[plId]? = some h' → h' = proofHash)
    (hall : ∀ before rest, (before ++ rest).Perm txs → QuorumAt cp pl before.length →
      ∃ tx ∈ rest, Settles env s ts plId pl before tx) :
    statusIn (applyTxs env cp ts s txs) plId = .verified ↔ ∃ n ≤ txs.length, QuorumAt cp pl n := by
  rw [h.settled_iff agrees]
  constructor
  · rintro ⟨before, rest, rfl, hat, -⟩
    exact ⟨before.length, by simp, hat⟩
  · rintro ⟨n, hn, hat⟩
    have hat' : QuorumAt cp pl (txs.take n).length := by
      rw [List.length_take, Nat.min_eq_left hn]
      exact hat
    have hsplit : txs.take n ++ txs.drop n = txs := List.take_append_drop n txs
    exact ⟨txs.take n, txs.drop n, hsplit.symm, hat', hall _ _ (by rw [hsplit]) hat'⟩
end Election
end Order

/-- Without order the outcome at one choice of the recorded votes is the outcome at every choice. -/
theorem Election.orderFree {env : Env} {cp : ChainParams} {s : Snapshot} {ts : Int64}
    {plId proofHash : Hash} {pl : PayLink} {txs : List Transaction}
    (h : Election env s ts plId proofHash pl txs)
    (hsame : ∀ txs', txs'.Perm txs → (statusIn (applyTxs env cp ts s txs) plId = .verified ↔
      statusIn (applyTxs env cp ts s txs') plId = .verified)) :
    OrderFree env cp s ts plId proofHash pl txs := by
  intro agrees
  by_cases hverified : statusIn (applyTxs env cp ts s txs) plId = .verified
  · refine .inl fun before rest hp hat => ?_
    obtain ⟨before', rest', hsplit, hat', hex⟩ :=
      ((h.perm hp).settled_iff agrees).mp ((hsame _ hp).mp hverified)
    -- the votes recorded before the quorum are as many in every order
    obtain ⟨rfl, rfl⟩ := List.append_inj hsplit (hat.unique hat')
    exact hex
  · refine .inr fun before rest hp hat tx htx hs => hverified ((hsame _ hp).mpr ?_)
    exact ((h.perm hp).settled_iff agrees).mpr ⟨before, rest, rfl, hat, tx, htx, hs⟩

theorem Election.same_outcome {env : Env} {cp : ChainParams} {s : Snapshot} {ts : Int64}
    {plId proofHash : Hash} {pl : PayLink} {txs txs' : List Transaction} (hperm : txs'.Perm txs)
    (election : Election env s ts plId proofHash pl txs)
    (orderFree : OrderFree env cp s ts plId proofHash pl txs) :
    statusIn (applyTxs env cp ts s txs) plId = .verified ↔
      statusIn (applyTxs env cp ts s txs') plId = .verified := by
  have election' := election.perm hperm
  by_cases agrees : ∀ h', s.submittedProofs[plId]? = some h' → h' = proofHash
  · rcases orderFree agrees with hall | hnone
    · have hall' : ∀ before rest, (before ++ rest).Perm txs' → QuorumAt cp pl before.length →
          ∃ tx ∈ rest, Settles env s ts plId pl before tx :=
        fun before rest hp => hall before rest (hp.trans hperm)
      rw [election.settled_iff_exists agrees hall, election'.settled_iff_exists agrees hall',
        hperm.length_eq]
    · rw [election.settled_iff agrees, election'.settled_iff agrees]
      refine iff_of_false ?_ ?_
      · rintro ⟨before, rest, rfl, hat, tx, htx, hs⟩
        exact hnone before rest (.refl _) hat tx htx hs
      · rintro ⟨before, rest, rfl, hat, tx, htx, hs⟩
        exact hnone before rest hperm hat tx htx hs
  · rw [not_forall] at agrees
    obtain ⟨h', hdisagrees⟩ := agrees
    rw [Classical.not_imp] at hdisagrees
    obtain ⟨submitted, hne⟩ := hdisagrees
    rw [election.unchanged_of_disagrees submitted hne, election'.unchanged_of_disagrees submitted hne]

/-- **When the order of votes does not matter**: for one unused proof and votes of distinct active
    validators, exactly if the rules do not tell apart the choices of who votes before
    the quorum. -/
theorem vote_order_irrelevant (env : Env) (ex : Executor) (ts : Int64) (plId proofHash : Hash)
    (pl : PayLink) (txs : List Transaction)
    (election : Election env ex.db.live ts plId proofHash pl txs) :
    (∀ txs', txs'.Perm txs →
      (statusIn (ex.executeBlock env ts txs).2.db.live plId = .verified ↔
        statusIn (ex.executeBlock env ts txs').2.db.live plId = .verified)) ↔
      OrderFree env ex.db.params ex.db.live ts plId proofHash pl txs := by
  have hblock : ∀ txs, (ex.executeBlock env ts txs).2.db.live =
      applyTxs env ex.db.params ts ex.db.live txs := by
    intro txs
    obtain ⟨-, hdb, -, -⟩ := executeBlock_spec env ex ts txs
    rw [hdb]
  simp only [hblock]
  exact ⟨election.orderFree, fun h _ hperm => election.same_outcome hperm h⟩

def electionTxs : List Transaction :=
  [Devnet.stakeTx, Testnet.stake2Tx, Testnet.stake3Tx, Devnet.createTx, Testnet.ruledTx,
    Devnet.voteTx, Testnet.vote2Tx, Testnet.vote3Tx]

def opened (createTx : Transaction) : Executor :=
  runBlocks (Testnet.env electionTxs) (newExecutor Testnet.genesis true)
    [⟨1700000100, [Devnet.stakeTx, Testnet.stake2Tx, Testnet.stake3Tx, createTx]⟩]

def openedPayLink (rules : Bytes) : PayLink where
  id := Devnet.payLinkID
  creator := Devnet.adminAddress
  receiver := Devnet.adminAddress
  owner := Devnet.adminAddress
  amount := 10000
  expiry := 1700086400
  status := .created
  metadataHash := Devnet.metadataHash
  createdAt := 1700000100
  rules := rules

instance (env : Env) (s : Snapshot) (plId proofHash : Hash) (tx : Transaction) :
    Decidable (Casts env s plId proofHash tx) :=
  decidable_of_iff (TxKind.ofCode tx.type = some .submitValidation ∧ (env.decode.submitValidation tx.payload).toOption =
      some { payLinkID := plId, proofHash := proofHash } ∧
    Admitted env s tx ∧ s.isActiveValidator tx.fromAddr = true ∧
    s.hasVoted plId tx.fromAddr = false) <| by
    constructor
    · rintro ⟨kind, payload, admitted, active, first⟩
      refine ⟨kind, ?_, admitted, active, first⟩
      cases hp : env.decode.submitValidation tx.payload with
      | error e => simp [hp, Except.toOption] at payload
      | ok p =>
        rw [hp] at payload
        exact congrArg Except.ok (Option.some.inj payload)
    · rintro ⟨kind, payload, admitted, active, first⟩
      exact ⟨kind, by rw [payload]; rfl, admitted, active, first⟩

instance (env : Env) (s : Snapshot) (ts : Int64) (plId proofHash : Hash) (pl : PayLink)
    (txs : List Transaction) : Decidable (Election env s ts plId proofHash pl txs) :=
  decidable_of_iff (s.paylinks[plId]? = some pl ∧ pl.status = .created ∧ ts ≤ pl.expiry ∧
    checkNewRules env pl.rules = .ok () ∧ s.isProofUsed proofHash = false ∧
    (∀ tx ∈ txs, Casts env s plId proofHash tx) ∧ (txs.map (·.fromAddr)).Nodup)
    ⟨fun ⟨h₁, h₂, h₃, h₄, h₅, h₆, h₇⟩ => ⟨h₁, h₂, h₃, h₄, h₅, h₆, h₇⟩,
      fun h => ⟨h.found, h.created, h.unexpired, h.accepted, h.unused, h.casts, h.distinct⟩⟩

def ballotTxs : List Transaction := [Devnet.voteTx, Testnet.vote2Tx, Testnet.vote3Tx]

def lateBallotTxs : List Transaction := [Testnet.vote2Tx, Testnet.vote3Tx, Devnet.voteTx]

theorem perm_ballotTxs : lateBallotTxs.Perm ballotTxs := ((List.Perm.swap _ _ _).cons _).trans (List.Perm.swap _ _ _)

/-- Without rules every vote is accepted, and the order does not matter. -/
theorem vote_order_irrelevant_plain :
    statusIn ((opened Devnet.createTx).executeBlock (Testnet.env electionTxs) 1700000200
        ballotTxs).2.db.live Devnet.payLinkID = .verified ↔
      statusIn ((opened Devnet.createTx).executeBlock (Testnet.env electionTxs) 1700000200
        lateBallotTxs).2.db.live Devnet.payLinkID = .verified :=
  (vote_order_irrelevant (Testnet.env electionTxs) (opened Devnet.createTx) 1700000200
    Devnet.payLinkID Devnet.proofHash (openedPayLink []) ballotTxs (by decide +kernel)).mpr (by
    refine fun _ => .inl fun before rest hp hat => ?_
    have hone : QuorumAt (opened Devnet.createTx).db.params (openedPayLink []) 1 := by
      unfold QuorumAt
      decide +kernel
    have hlen := hp.length_eq
    rw [List.length_append, hat.unique hone] at hlen
    cases rest with
    | nil => exact absurd hlen (by decide)
    | cons tx rest => exact ⟨tx, List.mem_cons_self, rfl⟩) lateBallotTxs perm_ballotTxs

/-- **The order of votes decides**: an early third vote keeps two particular approvals from
    completing. -/
theorem vote_order_decides : ¬ ∀ (env : Env) (ex : Executor) (ts : Int64) (plId proofHash : Hash) (pl : PayLink)
      (txs txs' : List Transaction), txs'.Perm txs →
      Election env ex.db.live ts plId proofHash pl txs →
      (statusIn (ex.executeBlock env ts txs).2.db.live plId = .verified ↔
        statusIn (ex.executeBlock env ts txs').2.db.live plId = .verified) := by
  intro h
  have hiff := h (Testnet.env electionTxs) (opened Testnet.ruledTx) 1700000200 Devnet.payLinkID
    Devnet.proofHash (openedPayLink Testnet.rulesJSON) ballotTxs lateBallotTxs perm_ballotTxs
    (by decide +kernel)
  have hruns : statusIn ((opened Testnet.ruledTx).executeBlock (Testnet.env electionTxs) 1700000200
        ballotTxs).2.db.live Devnet.payLinkID ≠ .verified ∧
      statusIn ((opened Testnet.ruledTx).executeBlock (Testnet.env electionTxs) 1700000200
        lateBallotTxs).2.db.live Devnet.payLinkID = .verified := by
    decide +kernel
  exact hruns.1 (hiff.mpr hruns.2)

end LinkMint.Chain

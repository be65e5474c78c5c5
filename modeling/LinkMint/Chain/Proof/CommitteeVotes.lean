import LinkMint.Chain.Consensus
import LinkMint.Chain.Devnet

/-!
# What a quorum of votes says

`committee_quorum_sound`: a quorum is one of distinct members who voted validly for one hash.
`quorum_any_order`: that hash is the one of the first valid vote, as the repository's own test asks,
and so the order matters exactly where some voted hash has a quorum and another has not
(`quorum_depends_on_order`). The VRF proofs themselves are the environment's.
-/

namespace LinkMint.Chain

open Std LinkMint.Lib

section
variable (env : Env) (seed : Hash) (committee : List CommitteeMember)

/-- A vote that passes every check against the committee record `member`. -/
structure VoteOf (vote : Vote) (member : CommitteeMember) : Prop where
  address : vote.validator = member.address
  key : vrfProofPublicKey vote.vrfProof = .ok member.vrfPublicKey
  registered : member.vrfPublicKey.length ≠ 0
  proof : verifyVRFProof env (hashBytes seed) vote.vrfOutput vote.vrfProof = true
  output : vote.vrfOutput = member.vrfOutput

def validVote (vote : Vote) : Bool :=
  ((memberSet committee)[vote.validator]?).any fun member =>
    decide (vrfProofPublicKey vote.vrfProof = .ok member.vrfPublicKey) && decide (member.vrfPublicKey.length ≠ 0) &&
      verifyVRFProof env (hashBytes seed) vote.vrfOutput vote.vrfProof && decide (vote.vrfOutput = member.vrfOutput)

/-- The distinct validators of the valid votes for `hash`. -/
def supporters (votes : List Vote) (hash : Hash) : List Address :=
  ((votes.filter fun v => validVote env seed committee v && v.proofHash == hash).map (·.validator)).dedup
end

variable {env : Env} {seed : Hash} {committee : List CommitteeMember} {votes : List Vote}

theorem memberSet_eq_some {addr : Address} {member : CommitteeMember} (h : (memberSet committee)[addr]? = some member) :
    member ∈ committee ∧ member.address = addr := by
  have hfold : ∀ (l : List CommitteeMember) (set : ExtTreeMap Address CommitteeMember),
      (l.foldl (fun set m => set.insert m.address m) set)[addr]? = some member →
        (member ∈ l ∧ member.address = addr) ∨ set[addr]? = some member := by
    intro l
    induction l with
    | nil => exact fun _ => .inr
    | cons m l ih =>
      intro set hset
      rcases ih _ hset with ⟨hmem, haddr⟩ | hset
      · exact .inl ⟨List.mem_cons_of_mem m hmem, haddr⟩
      · rw [getElem?_insert_eq] at hset
        split at hset
        · next haddr =>
          cases hset
          exact .inl ⟨List.mem_cons_self, haddr⟩
        · exact .inr hset
  rcases hfold committee ∅ h with hmem | hnone
  · exact hmem
  · simp at hnone

theorem validVote_iff {vote : Vote} : validVote env seed committee vote = true ↔
    ∃ member, (memberSet committee)[vote.validator]? = some member ∧ VoteOf env seed vote member := by
  unfold validVote
  rw [Option.any_eq_true]
  simp only [Bool.and_eq_true, decide_eq_true_eq]
  constructor
  · rintro ⟨member, hfound, ⟨⟨hkey, hregistered⟩, hproof⟩, houtput⟩
    exact ⟨member, hfound, (memberSet_eq_some hfound).2.symm, hkey, hregistered, hproof, houtput⟩
  · rintro ⟨member, hfound, hvote⟩
    exact ⟨member, hfound, ⟨⟨hvote.key, hvote.registered⟩, hvote.proof⟩, hvote.output⟩

theorem next_eq (t : Tallying) (vote : Vote) : t.next env seed (memberSet committee) vote =
      if vote.validator ∉ t.seen ∧ validVote env seed committee vote = true ∧
          (t.validVotes = 0 ∨ vote.proofHash = t.consensusProof) then
        { validVotes := t.validVotes + 1, seen := t.seen.insert vote.validator, consensusProof := vote.proofHash }
      else t := by
  unfold Tallying.next validVote
  by_cases hseen : vote.validator ∈ t.seen
  · simp [hseen]
  · cases hmember : (memberSet committee)[vote.validator]? with
    | none => simp [hseen]
    | some member =>
      cases hkey : vrfProofPublicKey vote.vrfProof with
      | error e => simp [hseen]
      | ok votePub =>
        by_cases hzero : t.validVotes = 0
        · simp only [hseen, hzero]
          grind
        · simp only [hseen, hzero]
          grind

section Tally

variable {t : Tallying}

theorem validVotes_fold (h : t.validVotes = t.seen.size) :
    (votes.foldl (Tallying.next env seed (memberSet committee)) t).validVotes =
      (votes.foldl (Tallying.next env seed (memberSet committee)) t).seen.size := by
  induction votes generalizing t with
  | nil => exact h
  | cons vote votes ih =>
    rw [List.foldl_cons]
    apply ih
    rw [next_eq]
    split
    · next hcounts =>
      have hnew : t.seen.contains vote.validator = false := by
        rw [Bool.eq_false_iff]
        exact fun hseen => hcounts.1 (ExtTreeSet.mem_iff_contains.mpr hseen)
      show t.validVotes + 1 = (t.seen.insert vote.validator).size
      rw [ExtTreeSet.size_insert, hnew, h]
      rfl
    · exact h

theorem mem_seen_fold (hstarted : t.validVotes ≠ 0) (addr : Address) :
    addr ∈ (votes.foldl (Tallying.next env seed (memberSet committee)) t).seen ↔
      addr ∈ t.seen ∨ ∃ v ∈ votes, validVote env seed committee v = true ∧ v.proofHash = t.consensusProof ∧
        v.validator = addr := by
  induction votes generalizing t with
  | nil => simp
  | cons vote votes ih =>
    rw [List.foldl_cons, next_eq]
    split
    · next hcounts =>
      obtain ⟨-, hvalid, hhash⟩ := hcounts
      replace hhash := hhash.resolve_left hstarted
      rw [ih (Nat.succ_ne_zero _), ExtTreeSet.mem_insert, LawfulEqCmp.compare_eq_iff_eq, hhash]
      grind
    · next hskipped =>
      rw [ih hstarted]
      grind

theorem mem_supporters {hash : Hash} {addr : Address} :
    addr ∈ supporters env seed committee votes hash ↔
      ∃ v ∈ votes, validVote env seed committee v = true ∧ v.proofHash = hash ∧
        v.validator = addr := by
  simp [supporters, and_assoc]

/-- The first valid vote decides whose supporters are counted. -/
theorem seen_fold (env : Env) (seed : Hash) (committee : List CommitteeMember) (votes : List Vote) :
    (votes.find? (validVote env seed committee) = none ∧
      (votes.foldl (Tallying.next env seed (memberSet committee)) {}).seen = ∅) ∨
    ∃ first, votes.find? (validVote env seed committee) = some first ∧ ∀ addr,
      addr ∈ (votes.foldl (Tallying.next env seed (memberSet committee)) {}).seen ↔
        addr ∈ supporters env seed committee votes first.proofHash := by
  simp only [mem_supporters]
  induction votes with
  | nil => exact .inl ⟨rfl, rfl⟩
  | cons vote votes ih =>
    rw [List.foldl_cons, next_eq]
    cases hvalid : validVote env seed committee vote with
    | false =>
      rw [List.find?_cons_of_neg (by simp [hvalid])]
      simp only [Bool.false_eq_true, false_and, and_false, if_false]
      grind
    | true =>
      refine .inr ⟨vote, List.find?_cons_of_pos hvalid, fun addr => ?_⟩
      rw [if_pos ⟨by simp, rfl, .inl rfl⟩, mem_seen_fold (Nat.succ_ne_zero _), ExtTreeSet.mem_insert,
        LawfulEqCmp.compare_eq_iff_eq]
      grind
end Tally

theorem checkQuorum_eq (env : Env) (qc : QuorumChecker) (seed : Hash) (votes : List Vote)
    (hne : committee ≠ []) :
    ∃ n : Nat, qc.checkQuorum env seed committee votes =
        .ok (decide (qc.requiredVotes committee.length ≤ n)) ∧
      ((votes.find? (validVote env seed committee) = none ∧ n = 0) ∨
        ∃ first, votes.find? (validVote env seed committee) = some first ∧
          n = (supporters env seed committee votes first.proofHash).length) := by
  have hsize : (votes.foldl (Tallying.next env seed (memberSet committee)) {}).validVotes = _ :=
    validVotes_fold rfl
  refine ⟨_, if_neg fun hlen => hne (List.length_eq_zero_iff.mp hlen), ?_⟩
  rw [hsize]
  rcases seen_fold env seed committee votes with ⟨hnone, hseen⟩ | ⟨first, hfirst, hseen⟩
  · refine .inl ⟨hnone, ?_⟩
    rw [hseen]
    rfl
  · refine .inr ⟨first, hfirst, ?_⟩
    rw [← ExtTreeSet.length_toList]
    refine ((List.perm_ext_iff_of_nodup ?_ (List.nodup_dedup _)).mpr fun addr => ?_).length_eq
    · exact ExtTreeSet.distinct_toList.imp fun hne heq =>
        hne (LawfulEqCmp.compare_eq_iff_eq.mpr heq)
    · rw [ExtTreeSet.mem_toList]
      exact hseen addr

theorem one_le_requiredVotes (qc : QuorumChecker) (n : Nat) : 1 ≤ qc.requiredVotes n := by
  unfold QuorumChecker.requiredVotes
  simp only
  split
  · exact le_rfl
  · next h => exact Int.not_lt.mp h

/-- **A quorum is one of distinct members for one hash.** -/
theorem committee_quorum_sound (env : Env) (qc : QuorumChecker) (seed : Hash) (committee : List CommitteeMember) (votes : List Vote)
    (h : qc.checkQuorum env seed committee votes = .ok true) :
    ∃ (hash : Hash) (members : List CommitteeMember), (members.map (·.address)).Nodup ∧ (∀ m ∈ members, m ∈ committee) ∧
      qc.requiredVotes committee.length ≤ members.length ∧
      ∀ m ∈ members, ∃ vote ∈ votes, vote.proofHash = hash ∧ VoteOf env seed vote m := by
  have hne : committee ≠ [] := by
    rintro rfl
    cases h
  obtain ⟨n, hverdict, hn⟩ := checkQuorum_eq env qc seed votes hne
  rw [hverdict] at h
  have hrequired : qc.requiredVotes committee.length ≤ n := of_decide_eq_true (Except.ok.inj h)
  have hone := one_le_requiredVotes qc committee.length
  rcases hn with ⟨-, rfl⟩ | ⟨first, -, rfl⟩
  · omega
  -- each supporter's record in the committee
  have hrecord : ∀ addr ∈ supporters env seed committee votes first.proofHash,
      ∃ member ∈ committee, (memberSet committee)[addr]? = some member ∧ member.address = addr ∧
        ∃ vote ∈ votes, vote.proofHash = first.proofHash ∧ VoteOf env seed vote member := by
    intro addr haddr
    simp only [supporters, List.mem_dedup, List.mem_map, List.mem_filter, Bool.and_eq_true, beq_iff_eq] at haddr
    obtain ⟨vote, ⟨hvote, hcounts, hhash⟩, rfl⟩ := haddr
    obtain ⟨member, hfound, hof⟩ := validVote_iff.mp hcounts
    exact ⟨member, (memberSet_eq_some hfound).1, hfound, hof.address.symm, vote, hvote, hhash, hof⟩
  generalize hs : supporters env seed committee votes first.proofHash = s at hrequired hrecord
  have haddresses : (s.filterMap ((memberSet committee)[·]?)).map (·.address) = s := by
    rw [List.map_filterMap]
    refine (List.filterMap_congr fun addr haddr => ?_).trans List.filterMap_some
    obtain ⟨member, -, hfound, hsame, -⟩ := hrecord addr haddr
    rw [hfound, Option.map_some, hsame]
  refine ⟨first.proofHash, s.filterMap ((memberSet committee)[·]?), ?_, ?_, ?_, ?_⟩
  · rw [haddresses, ← hs]
    exact List.nodup_dedup _
  · intro m hm
    obtain ⟨addr, -, hfound⟩ := List.mem_filterMap.mp hm
    exact (memberSet_eq_some hfound).1
  · have hlength := congrArg List.length haddresses
    rw [List.length_map] at hlength
    rw [hlength]
    exact hrequired
  · intro m hm
    obtain ⟨addr, haddr, hfound⟩ := List.mem_filterMap.mp hm
    obtain ⟨member, -, hfound', -, hvote⟩ := hrecord addr haddr
    obtain rfl := Option.some.inj (hfound.symm.trans hfound')
    exact hvote

/-- The hashes that valid votes name all have a quorum of supporters, or none of them has. -/
def Alike (env : Env) (qc : QuorumChecker) (seed : Hash) (committee : List CommitteeMember)
    (votes : List Vote) : Prop :=
  ∀ v ∈ votes, ∀ v' ∈ votes, validVote env seed committee v = true →
    validVote env seed committee v' = true →
    qc.requiredVotes committee.length ≤ (supporters env seed committee votes v.proofHash).length →
      qc.requiredVotes committee.length ≤ (supporters env seed committee votes v'.proofHash).length

instance (env : Env) (qc : QuorumChecker) (seed : Hash) (committee : List CommitteeMember)
    (votes : List Vote) : Decidable (Alike env qc seed committee votes) :=
  inferInstanceAs (Decidable (∀ v ∈ votes, ∀ v' ∈ votes, _ → _ → _ → _))

/-- The verdict is the one on the hash of the first valid vote. -/
theorem checkQuorum_iff (env : Env) (qc : QuorumChecker) (seed : Hash)
    (committee : List CommitteeMember) (votes : List Vote) :
    qc.checkQuorum env seed committee votes = .ok true ↔
      ∃ first ∈ votes.find? (validVote env seed committee), qc.requiredVotes committee.length ≤
        (supporters env seed committee votes first.proofHash).length := by
  have hone := one_le_requiredVotes qc committee.length
  by_cases hne : committee = []
  · subst hne
    refine iff_of_false (fun hok => by cases hok) ?_
    rintro ⟨first, hfirst, -⟩
    obtain ⟨member, hfound, -⟩ := validVote_iff.mp (List.find?_some hfirst)
    cases (memberSet_eq_some hfound).1
  · obtain ⟨n, hverdict, hn⟩ := checkQuorum_eq env qc seed votes hne
    rw [hverdict, Except.ok.injEq, decide_eq_true_eq]
    rcases hn with ⟨hnone, rfl⟩ | ⟨first, hfirst, rfl⟩
    · rw [hnone]
      refine iff_of_false (by omega) ?_
      rintro ⟨first, hfirst, -⟩
      cases hfirst
    · rw [hfirst]
      simp

/-- Whoever has supporters is named by a valid vote. -/
theorem exists_vote {qc : QuorumChecker} {hash : Hash} (hquorum : qc.requiredVotes committee.length ≤
      (supporters env seed committee votes hash).length) :
    ∃ v ∈ votes, validVote env seed committee v = true ∧ v.proofHash = hash := by
  have hone := one_le_requiredVotes qc committee.length
  obtain ⟨addr, haddr⟩ :=
    List.exists_mem_of_length_pos (l := supporters env seed committee votes hash) (by omega)
  obtain ⟨v, hv, hvalid, hhash, -⟩ := mem_supporters.mp haddr
  exact ⟨v, hv, hvalid, hhash⟩

theorem Alike.quorum_iff {qc : QuorumChecker} (h : Alike env qc seed committee votes) :
    qc.checkQuorum env seed committee votes = .ok true ↔
      ∃ hash, qc.requiredVotes committee.length ≤
        (supporters env seed committee votes hash).length := by
  rw [checkQuorum_iff]
  constructor
  · rintro ⟨first, -, hquorum⟩
    exact ⟨_, hquorum⟩
  · rintro ⟨hash, hquorum⟩
    obtain ⟨v, hv, hvalid, rfl⟩ := exists_vote hquorum
    obtain ⟨first, hfirst⟩ := Option.isSome_iff_exists.mp (List.find?_isSome.mpr ⟨v, hv, hvalid⟩)
    exact ⟨first, hfirst, h v hv first (List.mem_of_find?_eq_some hfirst) hvalid
      (List.find?_some hfirst) hquorum⟩

theorem length_supporters_perm {votes' : List Vote} (h : votes'.Perm votes) (hash : Hash) :
    (supporters env seed committee votes' hash).length =
      (supporters env seed committee votes hash).length :=
  ((h.filter _).map _).dedup.length_eq

theorem Alike.perm {qc : QuorumChecker} {votes' : List Vote} (h : Alike env qc seed committee votes)
    (hperm : votes'.Perm votes) : Alike env qc seed committee votes' := by
  intro v hv v' hv' hvalid hvalid'
  rw [length_supporters_perm hperm, length_supporters_perm hperm]
  exact h v (hperm.mem_iff.mp hv) v' (hperm.mem_iff.mp hv') hvalid hvalid'

/-- Any valid vote is first in some order. -/
theorem quorum_voted_first (qc : QuorumChecker) {v : Vote} (hv : v ∈ votes)
    (hvalid : validVote env seed committee v = true) :
    ∃ votes', votes'.Perm votes ∧ (qc.checkQuorum env seed committee votes' = .ok true ↔
      qc.requiredVotes committee.length ≤
        (supporters env seed committee votes v.proofHash).length) := by
  obtain ⟨l, l', rfl⟩ := List.append_of_mem hv
  have hperm : (v :: (l ++ l')).Perm (l ++ v :: l') := List.perm_middle.symm
  refine ⟨_, hperm, ?_⟩
  rw [checkQuorum_iff, List.find?_cons_of_pos hvalid]
  simp [length_supporters_perm hperm]

/-- **The first valid vote locks the hash**: the verdict is whether that hash has a quorum. So the
    order does not matter, and the verdict is that some hash has a quorum, exactly where the hashes
    voted for are alike. -/
theorem quorum_any_order (env : Env) (qc : QuorumChecker) (seed : Hash)
    (committee : List CommitteeMember) (votes : List Vote) :
    (qc.checkQuorum env seed committee votes = .ok true ↔
      ∃ first ∈ votes.find? (validVote env seed committee), qc.requiredVotes committee.length ≤
        (supporters env seed committee votes first.proofHash).length) ∧
    (Alike env qc seed committee votes → (qc.checkQuorum env seed committee votes = .ok true ↔
      ∃ hash, qc.requiredVotes committee.length ≤
        (supporters env seed committee votes hash).length)) ∧
    ((∀ votes', votes'.Perm votes → qc.checkQuorum env seed committee votes' =
        qc.checkQuorum env seed committee votes) ↔ Alike env qc seed committee votes) := by
  refine ⟨checkQuorum_iff env qc seed committee votes, Alike.quorum_iff, ?_, ?_⟩
  · intro hsame v hv v' hv' hvalid hvalid' hquorum
    obtain ⟨l, hl, hfirst⟩ := quorum_voted_first qc hv hvalid
    obtain ⟨l', hl', hfirst'⟩ := quorum_voted_first qc hv' hvalid'
    rw [← hfirst', hsame l' hl', ← hsame l hl, hfirst]
    exact hquorum
  · intro halike votes' hperm
    by_cases hne : committee = []
    · subst hne
      rfl
    · have hiff : qc.checkQuorum env seed committee votes' = .ok true ↔
          qc.checkQuorum env seed committee votes = .ok true := by
        rw [halike.quorum_iff, (halike.perm hperm).quorum_iff]
        simp only [length_supporters_perm hperm]
      obtain ⟨n, hverdict, -⟩ := checkQuorum_eq env qc seed votes hne
      obtain ⟨n', hverdict', -⟩ := checkQuorum_eq env qc seed votes' hne
      rw [hverdict, hverdict', Except.ok.injEq, Except.ok.injEq, decide_eq_true_eq,
        decide_eq_true_eq] at hiff
      rw [hverdict, hverdict', decide_eq_decide.mpr hiff]

namespace Committee
def vrfs : List (Nat × Nat × Hash) :=
  [(0x8a88e3dd7409f195fd52db2d3cba5d72ca6709bf1d94121bf3748801b40f6f5c,
    0x277c81cb095a17c8e11921cc9046a728fe2e3b02fef4d6f90b3baf1fad2dc07950f003c7521c896a013395457ac44b1f3eaee019db43d09c3d0be42ab0cd350e,
    0x822f587b972373b8781c68ce4678d5bb8b237c8efec76680e442cea6556d627a),
   (0x8139770ea87d175f56a35466c34c7ecccb8d8a91b4ee37a25df60f5b8fc9b394,
    0x275e77ac4f3c520bac2298a6890d529e47b5b9af201a530adc4d4e93bac6b5f70de236bcebec5ada51607a66f1ed2a5926b8b29189d9355c63fc1218482f880e,
    0x83bd860d1bf5afdb2465160c1efa8832dff904f17f7ee17b31ce6cc2fa1c16bd),
   (0xed4928c628d1c2c6eae90338905995612959273a5c63f93636c14614ac8737d1,
    0xdf4db08949cd1ea7a2fc9ecc5999a895878e8a1500bb8c0288cdf136c75b6745ef14741fbec17861d1063b3b9ad29d3d40e28701edcf792666120cbfd93a5c05,
    0x22ce3e66b0c9f99dd3d548ea4a8bd39fea5aee65fd1e3729dd3fe5ae0ca6bc74)]

def vrfEnv : Env :=
  { Devnet.env with
    ed25519Verify := fun key message signature => vrfs.any fun e =>
      key == beBytes 32 e.1 && message == vrfTagInput (hashBytes 7) && signature == beBytes 64 e.2.1
    sha256 := fun data => ((vrfs.find? fun e => data == beBytes 64 e.2.1).map (·.2.2)).getD 0 }

def members : List CommitteeMember :=
  vrfs.zipIdx.map fun (e, i) => ⟨i, e.2.2, beBytes 32 e.1 ++ beBytes 64 e.2.1, 1, beBytes 32 e.1⟩

def ballots (hashes : List Hash) : List Vote :=
  (members.zip hashes).map fun (m, hash) => ⟨m.address, hash, m.vrfOutput, m.vrfProof⟩

def checker : QuorumChecker := ⟨fun n => if n = 3 then 2 else 1⟩
end Committee

open Committee in
theorem committee_quorum_sound_three : ∃ (hash : Hash) (ms : List CommitteeMember), (ms.map (·.address)).Nodup ∧
    (∀ m ∈ ms, m ∈ members) ∧ checker.requiredVotes members.length ≤ ms.length ∧
    ∀ m ∈ ms, ∃ vote ∈ ballots [1, 2, 1], vote.proofHash = hash ∧ VoteOf vrfEnv 7 vote m :=
  committee_quorum_sound vrfEnv checker 7 members (ballots [1, 2, 1]) (by decide +kernel)

open Committee in
/-- **Two votes of three are a quorum, unless the third comes first.** -/
theorem quorum_depends_on_order : checker.checkQuorum vrfEnv 7 members (ballots [1, 2, 2]) = .ok false ∧
      ∃ votes', votes'.Perm (ballots [1, 2, 2]) ∧ checker.checkQuorum vrfEnv 7 members votes' = .ok true :=
  ⟨by decide +kernel, (ballots [1, 2, 2]).reverse, List.reverse_perm _, by decide +kernel⟩

end LinkMint.Chain

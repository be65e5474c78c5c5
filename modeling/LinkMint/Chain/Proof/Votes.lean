import LinkMint.Chain.Effect

/-!
# Who voted

`getVoters` filters the vote set and so lists every voter of a PayLink exactly once.
-/

namespace LinkMint.Chain

open Std

namespace Snapshot
variable {s : Snapshot} {plId : Hash} {v : Address}

theorem nodup_votes (s : Snapshot) : s.votes.toList.Nodup := by
  refine s.votes.distinct_toList.imp ?_
  intro a b hne heq
  subst heq
  exact hne ReflCmp.compare_self

theorem mem_getVoters : v ∈ s.getVoters plId ↔ s.hasVoted plId v = true := by
  unfold getVoters hasVoted
  rw [List.mem_map]
  constructor
  · intro h
    obtain ⟨⟨p, w⟩, hk, rfl⟩ := h
    obtain ⟨hmem, hp⟩ := List.mem_filter.mp hk
    rw [decide_eq_true_eq] at hp
    subst hp
    exact ExtTreeSet.mem_iff_contains.mp (ExtTreeSet.mem_toList.mp hmem)
  · intro h
    refine ⟨⟨plId, v⟩, List.mem_filter.mpr ⟨?_, by simp⟩, rfl⟩
    exact ExtTreeSet.mem_toList.mpr (ExtTreeSet.mem_iff_contains.mpr h)

theorem nodup_getVoters (s : Snapshot) (plId : Hash) : (s.getVoters plId).Nodup := by
  unfold getVoters
  refine List.Nodup.map_on ?_ ((nodup_votes s).filter _)
  intro a ha b hb hab
  have hpa := (List.mem_filter.mp ha).2
  have hpb := (List.mem_filter.mp hb).2
  rw [decide_eq_true_eq] at hpa hpb
  obtain ⟨pa, va⟩ := a
  obtain ⟨pb, vb⟩ := b
  simp only at hpa hpb hab
  rw [hpa, hpb, hab]

theorem hasVoted_recordVote {plId' : Hash} {v' : Address} : (s.recordVote plId v).hasVoted plId' v' = true ↔
      (plId' = plId ∧ v' = v) ∨ s.hasVoted plId' v' = true := by
  unfold recordVote hasVoted
  rw [ExtTreeSet.contains_insert, Bool.or_eq_true, beq_iff_eq, LawfulEqCmp.compare_eq_iff_eq]
  simp only [VoteKey.mk.injEq]
  constructor
  · intro h
    rcases h with ⟨rfl, rfl⟩ | h
    · exact .inl ⟨rfl, rfl⟩
    · exact .inr h
  · intro h
    rcases h with ⟨rfl, rfl⟩ | h
    · exact .inl ⟨rfl, rfl⟩
    · exact .inr h

theorem getVoters_recordVote (h : s.hasVoted plId v = false) :
    ((s.recordVote plId v).getVoters plId).Perm (v :: s.getVoters plId) := by
  have hv : v ∉ s.getVoters plId := by
    rw [mem_getVoters, h]
    simp
  refine (List.perm_ext_iff_of_nodup (nodup_getVoters _ _) (List.nodup_cons.mpr ⟨hv, nodup_getVoters _ _⟩)).mpr ?_
  intro w
  rw [List.mem_cons, mem_getVoters, mem_getVoters, hasVoted_recordVote]
  simp

theorem getVoters_recordVote_of_ne {plId' : Hash} (h : plId' ≠ plId) :
    ((s.recordVote plId v).getVoters plId').Perm (s.getVoters plId') := by
  refine (List.perm_ext_iff_of_nodup (nodup_getVoters _ _) (nodup_getVoters _ _)).mpr ?_
  intro w
  rw [mem_getVoters, mem_getVoters, hasVoted_recordVote]
  simp [h]
end Snapshot
end LinkMint.Chain

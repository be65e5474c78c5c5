import LinkMint.Settle.Adapter

/-!
# What a call can do

The results below are about two parts of the world: the log and the proof rows.
-/

namespace LinkMint.Settle

open LinkMint.Lib LinkMint.Chain

inductive Touches (n : Nat) (s : World) : Op → World → Prop
  | nothing {i : Op} {s' : World} (log : s'.log = s.log) (proofs : s'.proofs = s.proofs) : Touches n s i s'
  | correlated {id : String} (rec : Correlation) : Touches n s (.correlationGet id) (s.note n (.correlated rec))
  | proofUsed {h : Hash} (b : Bool) : Touches n s (.isProofUsed h) (s.note n (.proofUsed h b))
  | answered {resp : Response} : Touches n s (.respond resp) (s.note n (.answered resp))
  | sent {tx : SettlementTx} (accepted : Bool) : Touches n s (.sendTransaction tx) (s.note n (.sent tx accepted))
  | stored {rec : ProofRecord} {s' : World} (absent : s.proofs rec.proofHash = none)
      (log : s'.log = s.log ∨ s'.log = (n, .inserted rec.proofHash) :: s.log)
      (proofs : s'.proofs = Function.update s.proofs rec.proofHash (some rec)) :
      Touches n s (.insertProof rec) s'
  | marked {h : Hash} {txHash : String} {status : ProofStatus} {s' : World} (rec : ProofRecord)
      (row : s.proofs h = some rec) (log : s'.log = s.log)
      (proofs : s'.proofs = Function.update s.proofs h (some { rec with txHash := txHash, status := status })) :
      Touches n s (.markBroadcast h txHash status) s'

variable {ρ : Type} {n : Nat} {r : ρ} {s s' : World}

theorem read_world {α : Type} {v : α} {c : Choice} {a : Except String α}
    (h : read s v c = some (a, s')) : s' = s ∧ (a = .ok v ∨ ∃ m, a = .error m) := by
  cases c with
  | ok =>
    cases h
    exact ⟨rfl, .inl rfl⟩
  | failed m =>
    cases h
    exact ⟨rfl, .inr ⟨m, rfl⟩⟩
  | _ => cases h

theorem write_world {t : World} {c : Choice} {a : Except String Unit} (h : write s t c = some (a, s')) : s' = s ∨ s' = t := by
  cases c with
  | ok => exact .inr (Prod.mk.inj (Option.some.inj h)).2.symm
  | failed m => exact .inl (Prod.mk.inj (Option.some.inj h)).2.symm
  | lost m => exact .inr (Prod.mk.inj (Option.some.inj h)).2.symm
  | _ => cases h

theorem always_world {α : Type} {v a : α} {t : World} {c : Choice} (h : always v t c = some (a, s')) : s' = t := by
  cases c with
  | ok => exact (Prod.mk.inj (Option.some.inj h)).2.symm
  | _ => cases h

theorem serveInsertProof_cases {rec : ProofRecord} {c : Choice} {a : Inserted}
    (h : serveInsertProof n s rec c = some (a, s')) :
    (s' = s ∧ a ≠ .ok) ∨ (s.proofs rec.proofHash = none ∧
        s'.proofs = Function.update s.proofs rec.proofHash (some rec) ∧
        ((a = .ok ∧ s'.log = (n, .inserted rec.proofHash) :: s.log) ∨ (a ≠ .ok ∧ s'.log = s.log))) := by
  cases c with
  | ok =>
    simp only [serveInsertProof] at h
    split at h
    · rename_i habsent
      cases h
      exact .inr ⟨habsent, rfl, .inl ⟨rfl, rfl⟩⟩
    · cases h
      exact .inl ⟨rfl, by simp⟩
  | failed m =>
    cases h
    exact .inl ⟨rfl, by simp⟩
  | lost m =>
    simp only [serveInsertProof] at h
    split at h
    · rename_i habsent
      cases h
      exact .inr ⟨habsent, rfl, .inr ⟨by simp, rfl⟩⟩
    · cases h
  | _ => cases h

theorem serve_cases {i : Op} {c : Choice} {a : i.Answer} (h : serve n r s i c = some (a, s')) : Touches n s i s' := by
  cases i with
  | correlationGet id =>
    cases c with
    | ok =>
      simp only [serve, serveCorrelationGet] at h
      split at h
      · cases h
        exact .correlated _
      · cases h
        exact .nothing rfl rfl
    | failed m =>
      cases h
      exact .nothing rfl rfl
    | _ => cases h
  | now =>
    cases c with
    | time t =>
      cases h
      exact .nothing rfl rfl
    | _ => cases h
  | sign p =>
    cases c with
    | text t =>
      cases h
      exact .nothing rfl rfl
    | failed m =>
      cases h
      exact .nothing rfl rfl
    | _ => cases h
  | request =>
    rw [(read_world h).1]
    exact .nothing rfl rfl
  | respond resp =>
    cases c with
    | delivered d =>
      cases d with
      | unreachable m =>
        cases h
        exact .nothing rfl rfl
      | _ =>
        cases h
        exact .answered
    | _ => cases h
  | setNX key fp =>
    cases c with
    | ok =>
      simp only [serve, serveSetNX] at h
      split at h
      · cases h
        exact .nothing rfl rfl
      · cases h
        exact .nothing rfl rfl
    | failed m =>
      cases h
      exact .nothing rfl rfl
    | lost m =>
      simp only [serve, serveSetNX] at h
      split at h
      · cases h
        exact .nothing rfl rfl
      · cases h
    | _ => cases h
  | slotGet key attempt =>
    rw [(read_world h).1]
    exact .nothing rfl rfl
  | slotSet key rec =>
    rcases write_world h with rfl | rfl
    · exact .nothing rfl rfl
    · exact .nothing rfl rfl
  | slotDel key =>
    rcases write_world h with rfl | rfl
    · exact .nothing rfl rfl
    · exact .nothing rfl rfl
  | isProofUsed k =>
    cases c with
    | used reply =>
      cases reply with
      | result b =>
        cases h
        exact .proofUsed b
      | _ =>
        cases h
        exact .nothing rfl rfl
    | _ => cases h
  | getPayLink id =>
    cases c with
    | payLink reply =>
      cases h
      exact .nothing rfl rfl
    | _ => cases h
  | insertProof rec =>
    rcases serveInsertProof_cases h with ⟨rfl, -⟩ | ⟨habsent, hproofs, ⟨-, hlog⟩ | ⟨-, hlog⟩⟩
    · exact .nothing rfl rfl
    · exact .stored habsent (.inr hlog) hproofs
    · exact .stored habsent (.inl hlog) hproofs
  | getByProofHash k =>
    rw [(read_world h).1]
    exact .nothing rfl rfl
  | markBroadcast k txHash status =>
    simp only [serve, serveMarkBroadcast] at h
    split at h
    · rename_i rec hrow
      rcases write_world h with rfl | rfl
      · exact .nothing rfl rfl
      · exact .marked rec hrow rfl rfl
    · cases c with
      | ok =>
        cases h
        exact .nothing rfl rfl
      | failed m =>
        cases h
        exact .nothing rfl rfl
      | _ => cases h
  | lockNonce =>
    cases c with
    | ok =>
      simp only [serve, serveLockNonce] at h
      split at h
      · cases h
      · cases h
        exact .nothing rfl rfl
    | _ => cases h
  | getNonce a =>
    cases c with
    | nonce reply =>
      cases h
      exact .nothing rfl rfl
    | _ => cases h
  | localNonce a =>
    rw [always_world h]
    exact .nothing rfl rfl
  | commitNonce a next =>
    rw [always_world h]
    cases next with
    | none => exact .nothing rfl rfl
    | some m => exact .nothing rfl rfl
  | signTx tx =>
    rw [(read_world h).1]
    exact .nothing rfl rfl
  | sendTransaction tx =>
    cases c with
    | sent reply accepted =>
      simp only [serve, serveSendTransaction] at h
      split at h
      · cases h
        exact .sent accepted
      · cases h
    | _ => cases h

def own (n : Nat) (s : World) : List Event :=
  s.log.filterMap fun e => if e.1 = n then some e.2 else none

theorem mem_own {e : Event} : e ∈ own n s ↔ (n, e) ∈ s.log := by
  constructor
  · intro h
    obtain ⟨⟨m, e'⟩, hmem, hsome⟩ := List.mem_filterMap.mp h
    by_cases hm : m = n
    · rw [if_pos hm] at hsome
      cases hsome
      rw [← hm]
      exact hmem
    · rw [if_neg hm] at hsome
      cases hsome
  · intro h
    exact List.mem_filterMap.mpr ⟨(n, e), h, if_pos rfl⟩

structure Others (n : Nat) (s s' : World) : Prop where
  own : own n s' = own n s
  grows : s.log ⊆ s'.log

theorem Others.refl (n : Nat) (s : World) : Others n s s := ⟨rfl, List.Subset.refl _⟩

theorem Others.trans {s'' : World} (h : Others n s s') (h' : Others n s' s'') : Others n s s'' :=
  ⟨h'.own.trans h.own, List.Subset.trans h.grows h'.grows⟩

theorem own_congr (h : s'.log = s.log) : own n s' = own n s := by
  simp only [own, h]

theorem own_cons {m : Nat} {e : Event} (h : s'.log = (m, e) :: s.log) :
    own n s' = if m = n then e :: own n s else own n s := by
  simp only [own, h, List.filterMap_cons]
  split
  · rename_i hnone
    rw [if_neg (by intro hm; simp [hm] at hnone)]
  · rename_i hsome
    by_cases hm : m = n
    · simp only [if_pos hm, Option.some.injEq] at hsome ⊢
      rw [hsome]
    · simp [hm] at hsome

theorem Touches.log {i : Op} (h : Touches n s i s') : s'.log = s.log ∨ ∃ e, s'.log = (n, e) :: s.log := by
  cases h with
  | nothing log _ => exact .inl log
  | correlated rec => exact .inr ⟨_, rfl⟩
  | proofUsed b => exact .inr ⟨_, rfl⟩
  | answered => exact .inr ⟨_, rfl⟩
  | sent accepted => exact .inr ⟨_, rfl⟩
  | stored _ log _ =>
    rcases log with hlog | hlog
    · exact .inl hlog
    · exact .inr ⟨_, hlog⟩
  | marked _ _ log _ => exact .inl log

theorem Touches.grows {i : Op} (h : Touches n s i s') : s.log ⊆ s'.log := by
  rcases h.log with hlog | ⟨e, hlog⟩
  · rw [hlog]
    exact List.Subset.refl _
  · rw [hlog]
    exact List.subset_cons_self _ _

theorem Touches.others {i : Op} {m : Nat} (h : Touches n s i s') (hm : m ≠ n) : Others m s s' := by
  refine ⟨?_, h.grows⟩
  rcases h.log with hlog | ⟨e, hlog⟩
  · exact own_congr hlog
  · rw [own_cons hlog, if_neg (Ne.symm hm)]

theorem drift_others (s : World) (w : Drift) (n : Nat) : Others n s (drift s w) := by
  cases w with
  | correlate id rec => exact ⟨rfl, List.Subset.refl _⟩
  | expireCorrelation id => exact ⟨rfl, List.Subset.refl _⟩
  | expireSlot key => exact ⟨rfl, List.Subset.refl _⟩
  | restart => exact ⟨rfl, List.Subset.refl _⟩

theorem drift_proofs (s : World) (w : Drift) : (drift s w).proofs = s.proofs := by
  cases w <;> rfl

theorem drift_log (s : World) (w : Drift) : (drift s w).log = s.log := by
  cases w <;> rfl

end LinkMint.Settle

import LinkMint.Lib.Process

/-!
# Processes that follow a protocol

A protocol is an automaton over calls and their answers.
-/

namespace LinkMint.Lib

variable {ι : Type} {R : ι → Type} {ρ σ ε ω α β τ : Type}

/-- The calls a process may make for its request in a phase, and the phase after an answer. -/
structure Protocol (ι : Type) (R : ι → Type) (ρ τ : Type) where
  allowed : ρ → τ → ι → Prop
  next : τ → (i : ι) → R i → τ

/-- From a phase, the program makes only allowed calls, and returns with `post`. -/
def Prog.Follows (P : Protocol ι R ρ τ) (r : ρ) : Prog ι R α → (α → τ → Prop) → τ → Prop
  | .ret a, post, t => post a t
  | .call i k, post, t => P.allowed r t i ∧ ∀ a, (k a).Follows P r post (P.next t i a)

namespace Prog.Follows
variable {P : Protocol ι R ρ τ} {r : ρ} {t : τ}

theorem bind {p : Prog ι R α} {f : α → Prog ι R β} {mid : α → τ → Prop} {post : β → τ → Prop}
    (hp : p.Follows P r mid t) (hf : ∀ a t, mid a t → (f a).Follows P r post t) : (p >>= f).Follows P r post t := by
  induction p generalizing t with
  | ret a => exact hf a t hp
  | call i k ih => exact ⟨hp.1, fun a => ih a (hp.2 a)⟩
end Prog.Follows

structure Protocol.Tracked (P : Protocol ι R ρ τ) (S : System ι R ρ σ ε ω α) (phase : σ → Nat → τ) : Prop where
  own : ∀ {n r s i e a s'}, S.serve n r s i e = some (a, s') → phase s' n = P.next (phase s n) i a
  other : ∀ {n r s i e a s' m}, S.serve n r s i e = some (a, s') → m ≠ n → phase s' m = phase s m
  drift : ∀ s w n, phase (S.drift s w) n = phase s n

structure Following (P : Protocol ι R ρ τ) (phase : σ → Nat → τ) (t₀ : τ) (post : ρ → α → τ → Prop)
    (c : Config ι R ρ σ α) : Prop where
  fresh : ∀ n, c.procs.length ≤ n → phase c.shared n = t₀
  procs : ∀ (n : Nat) (r : ρ) (p : Prog ι R α), c.procs[n]? = some (r, p) → p.Follows P r (post r) (phase c.shared n)

section
variable {P : Protocol ι R ρ τ} {S : System ι R ρ σ ε ω α} {phase : σ → Nat → τ} {t₀ : τ}
  {post : ρ → α → τ → Prop}

theorem Following.step (tracked : P.Tracked S phase) (begins : ∀ r, (S.main r).Follows P r (post r) t₀)
    {c : Config ι R ρ σ α} (h : Following P phase t₀ post c) (m : Move ρ ε ω) : Following P phase t₀ post (S.step c m) := by
  rcases S.step_cases c m with
    ⟨r, -, hstep⟩ | ⟨n, e, r, i, k, a, s, -, hn, hs, hstep⟩ | ⟨w, -, hstep⟩ | hstep
  · rw [hstep]
    refine ⟨fun n hn => h.fresh n (Nat.le_trans (by simp) hn), fun n r' p hp => ?_⟩
    by_cases hlt : n < c.procs.length
    · rw [List.getElem?_append_left hlt] at hp
      exact h.procs n r' p hp
    · rw [List.getElem?_append_right (Nat.not_lt.mp hlt)] at hp
      obtain ⟨_, heq⟩ := List.getElem?_eq_some_iff.mp hp
      rw [List.getElem_singleton] at heq
      obtain ⟨rfl, rfl⟩ := Prod.mk.inj heq
      show (S.main r).Follows P r (post r) (phase c.shared n)
      rw [h.fresh n (Nat.not_lt.mp hlt)]
      exact begins r
  · rw [hstep]
    have hlen : n < c.procs.length := (List.getElem?_eq_some_iff.mp hn).1
    refine ⟨fun m hm => ?_, fun m r' p hp => ?_⟩
    · rw [List.length_set] at hm
      rw [tracked.other hs (Nat.ne_of_gt (Nat.lt_of_lt_of_le hlen hm))]
      exact h.fresh m hm
    · by_cases hmn : n = m
      · subst hmn
        rw [List.getElem?_set_self hlen] at hp
        cases hp
        rw [tracked.own hs]
        exact (h.procs n r _ hn).2 a
      · rw [List.getElem?_set_ne hmn] at hp
        rw [tracked.other hs (Ne.symm hmn)]
        exact h.procs m r' p hp
  · rw [hstep]
    refine ⟨fun n hn => ?_, fun n r p hp => ?_⟩
    · rw [tracked.drift]
      exact h.fresh n hn
    · rw [tracked.drift]
      exact h.procs n r p hp
  · rw [hstep]
    exact h

theorem System.follows (tracked : P.Tracked S phase) (begins : ∀ r, (S.main r).Follows P r (post r) t₀)
    {s₀ : σ} (init : ∀ n, phase s₀ n = t₀) (moves : List (Move ρ ε ω)) : Following P phase t₀ post (S.exec s₀ moves) := by
  have h₀ : Following P phase t₀ post ({ shared := s₀ } : Config ι R ρ σ α) :=
    ⟨fun n _ => init n, fun n r p hp => nomatch hp⟩
  exact history_induction (I := fun _ c => Following P phase t₀ post c) h₀
    (fun _ _ m h => h.step tracked begins m) moves

theorem Following.next {c : Config ι R ρ σ α} (h : Following P phase t₀ post c) {n : Nat} {i : ι}
    (hn : c.next? n = some i) : ∃ r, P.allowed r (phase c.shared n) i := by
  obtain ⟨r, k, hproc⟩ := Config.next?_eq_some hn
  exact ⟨r, (h.procs n r _ hproc).1⟩

theorem System.following_of_mem (tracked : P.Tracked S phase)
    (begins : ∀ r, (S.main r).Follows P r (post r) t₀) {s₀ : σ} (init : ∀ n, phase s₀ n = t₀)
    {moves : List (Move ρ ε ω)} {c : Config ι R ρ σ α} {m : Move ρ ε ω}
    (h : (c, m) ∈ trace S.step { shared := s₀ } moves) : Following P phase t₀ post c := by
  obtain ⟨pre, later, hsplit⟩ := List.append_of_mem h
  obtain ⟨before, after, -, -, hc⟩ := split_trace hsplit
  dsimp only at hc
  subst hc
  exact System.follows tracked begins init before

theorem Following.allowed {c : Config ι R ρ σ α} (h : Following P phase t₀ post c) (m : Move ρ ε ω) :
    Allowed (fun n r s i _ => P.allowed r (phase s n) i) c m := by
  cases m with
  | start r => trivial
  | drift w => trivial
  | run n x =>
    intro r i k hn
    exact (h.procs n r _ hn).1
end
end LinkMint.Lib

import Mathlib.Algebra.BigOperators.Group.Finset.Basic
import Mathlib.Algebra.Order.BigOperators.Group.Finset
import LinkMint.Lib.Process

/-!
# Budgets

"At most once" over interleaved requests: something is *spent* only by a process that has *earned* the right to, and
the world gives that right away once.
-/

namespace LinkMint.Lib

variable {ι : Type} {R : ι → Type} {ρ σ ε ω α β : Type}

structure Budget (ι ρ σ ε : Type) where
  inv : σ → Prop
  guard : Nat → ρ → σ → ι → ε → Prop
  spent : σ → Nat
  earned : σ → Nat

/-- Holding `b`, process `n` can run the program: it never spends what it has not earned, and returns
    with `post`. -/
def Affords (serve : Nat → ρ → σ → (i : ι) → ε → Option (R i × σ)) (B : Budget ι ρ σ ε) (n : Nat)
    (r : ρ) : Prog ι R β → (β → Nat → Prop) → Nat → Prop
  | .ret a, post, b => post a b
  | .call i k, post, b => ∀ s e, B.inv s → B.guard n r s i e → ∀ a s', serve n r s i e = some (a, s') →
      ∃ b', b' + B.spent s' + B.earned s ≤ b + B.spent s + B.earned s' ∧ Affords serve B n r (k a) post b'

namespace Affords
variable {serve : Nat → ρ → σ → (i : ι) → ε → Option (R i × σ)} {B : Budget ι ρ σ ε} {n : Nat} {r : ρ}

theorem ret {a : α} {post : α → Nat → Prop} {b : Nat} (h : post a b) : Affords serve B n r (pure a : Prog ι R α) post b :=
  h

theorem bind {p : Prog ι R α} {f : α → Prog ι R β} {mid : α → Nat → Prop} {post : β → Nat → Prop}
    {b : Nat} (h : Affords serve B n r p mid b) (hf : ∀ a b, mid a b → Affords serve B n r (f a) post b) :
    Affords serve B n r (p >>= f) post b := by
  induction p generalizing b with
  | ret a => exact hf a b h
  | call i k ih =>
    intro s e hinv hguard a s' hserve
    obtain ⟨b', hb, hk⟩ := h s e hinv hguard a s' hserve
    exact ⟨b', hb, ih a hk⟩

theorem more {p : Prog ι R α} {post : α → Nat → Prop} {b b' : Nat} (h : Affords serve B n r p post b)
    (hb : b ≤ b') (hpost : ∀ a b b', b ≤ b' → post a b → post a b') : Affords serve B n r p post b' := by
  cases p with
  | ret a => exact hpost a b b' hb h
  | call i k =>
    intro s e hinv hguard a s' hserve
    obtain ⟨b₁, hb₁, hk⟩ := h s e hinv hguard a s' hserve
    exact ⟨b₁, by omega, hk⟩

theorem op {i : ι} {post : R i → Nat → Prop} {b : Nat}
    (h : ∀ s e, B.inv s → B.guard n r s i e → ∀ a s', serve n r s i e = some (a, s') →
      ∃ b', b' + B.spent s' + B.earned s ≤ b + B.spent s + B.earned s' ∧ post a b') :
    Affords serve B n r (Prog.op i) post b :=
  h
end Affords

/-- The processes hold what `held` says, and all together no more than was earned and not spent. -/
structure Solvent (S : System ι R ρ σ ε ω α) (B : Budget ι ρ σ ε) (post : α → Nat → Prop)
    (held : Nat → Nat) (c : Config ι R ρ σ α) : Prop where
  inv : B.inv c.shared
  total : ∑ n ∈ Finset.range c.procs.length, held n + B.spent c.shared ≤ B.earned c.shared
  procs : ∀ n r p, c.procs[n]? = some (r, p) → Affords S.serve B n r p post (held n)

theorem Solvent.step {S : System ι R ρ σ ε ω α} {B : Budget ι ρ σ ε} {post : α → Nat → Prop}
    {held : Nat → Nat} {c : Config ι R ρ σ α} {m : Move ρ ε ω}
    (served : ∀ n r s i e a s', B.inv s → B.guard n r s i e → S.serve n r s i e = some (a, s') → B.inv s')
    (drifts : ∀ s w, B.inv s → B.inv (S.drift s w) ∧
      B.spent (S.drift s w) + B.earned s ≤ B.spent s + B.earned (S.drift s w))
    (begins : ∀ n r, Affords S.serve B n r (S.main r) post 0) (h : Solvent S B post held c) (hm : Allowed B.guard c m) :
    ∃ held', Solvent S B post held' (S.step c m) := by
  obtain ⟨hinv, htotal, hprocs⟩ := h
  rcases S.step_cases c m with
    ⟨r, -, hstep⟩ | ⟨n, e, r, i, k, a, s, rfl, hn, hs, hstep⟩ | ⟨w, -, hstep⟩ | hstep
  · -- a new process holds nothing
    refine ⟨Function.update held c.procs.length 0, ?_⟩
    rw [hstep]
    refine ⟨hinv, ?_, fun n r' p hn => ?_⟩
    · have hsame : ∑ n ∈ Finset.range c.procs.length, Function.update held c.procs.length 0 n =
          ∑ n ∈ Finset.range c.procs.length, held n :=
        Finset.sum_congr rfl fun n hn => Function.update_of_ne (Finset.mem_range.mp hn).ne _ _
      simp only [List.length_append, List.length_singleton, Finset.sum_range_succ, hsame, Function.update_self]
      simpa using htotal
    · by_cases hlt : n < c.procs.length
      · rw [List.getElem?_append_left hlt] at hn
        rw [Function.update_of_ne hlt.ne]
        exact hprocs n r' p hn
      · rw [List.getElem?_append_right (Nat.not_lt.mp hlt)] at hn
        obtain ⟨hlen, heq⟩ := List.getElem?_eq_some_iff.mp hn
        rw [List.length_singleton] at hlen
        rw [List.getElem_singleton] at heq
        obtain ⟨rfl, rfl⟩ := Prod.mk.inj heq
        obtain rfl : n = c.procs.length := by omega
        rw [Function.update_self]
        exact begins _ r
  · -- a served call: what the process holds changes with what the call earns and spends
    obtain ⟨b', hb, hk⟩ := hprocs n r _ hn c.shared e hinv (hm r i k hn) a s hs
    have hlt : n < c.procs.length := (List.getElem?_eq_some_iff.mp hn).1
    refine ⟨Function.update held n b', ?_⟩
    rw [hstep]
    refine ⟨served n r c.shared i e a s hinv (hm r i k hn) hs, ?_, fun n' r' p hn' => ?_⟩
    · have hmem : n ∈ Finset.range c.procs.length := Finset.mem_range.mpr hlt
      have hold := Finset.add_sum_erase (Finset.range c.procs.length) held hmem
      have hnew := Finset.add_sum_erase (Finset.range c.procs.length) (Function.update held n b') hmem
      have hrest : ∑ x ∈ (Finset.range c.procs.length).erase n, Function.update held n b' x =
          ∑ x ∈ (Finset.range c.procs.length).erase n, held x :=
        Finset.sum_congr rfl fun x hx => Function.update_of_ne (Finset.ne_of_mem_erase hx) _ _
      rw [Function.update_self, hrest] at hnew
      rw [List.length_set]
      dsimp only
      omega
    · by_cases hnn : n = n'
      · subst hnn
        rw [List.getElem?_set_self hlt] at hn'
        obtain ⟨rfl, rfl⟩ := Prod.mk.inj (Option.some.inj hn')
        rw [Function.update_self]
        exact hk
      · rw [List.getElem?_set_ne hnn] at hn'
        rw [Function.update_of_ne (Ne.symm hnn)]
        exact hprocs n' r' p hn'
  · obtain ⟨hinv', hle⟩ := drifts c.shared w hinv
    refine ⟨held, ?_⟩
    rw [hstep]
    exact ⟨hinv', by dsimp only; omega, hprocs⟩
  · rw [hstep]
    exact ⟨held, hinv, htotal, hprocs⟩

theorem System.within_budget (S : System ι R ρ σ ε ω α) (B : Budget ι ρ σ ε) {post : α → Nat → Prop} {s₀ : σ}
    (served : ∀ n r s i e a s', B.inv s → B.guard n r s i e → S.serve n r s i e = some (a, s') → B.inv s')
    (drifts : ∀ s w, B.inv s → B.inv (S.drift s w) ∧
      B.spent (S.drift s w) + B.earned s ≤ B.spent s + B.earned (S.drift s w))
    (begins : ∀ n r, Affords S.serve B n r (S.main r) post 0)
    (inv₀ : B.inv s₀) (spent₀ : B.spent s₀ ≤ B.earned s₀) (moves : List (Move ρ ε ω))
    (met : ∀ e ∈ trace S.step { shared := s₀ } moves, Allowed B.guard e.1 e.2) :
    B.spent (S.exec s₀ moves).shared ≤ B.earned (S.exec s₀ moves).shared := by
  have init : ∃ held, Solvent S B post held { shared := s₀ } :=
    ⟨fun _ => 0, inv₀, by simpa using spent₀, fun n r p hn => by simp at hn⟩
  obtain ⟨held, hsolvent⟩ := run_invariant (I := fun c => ∃ held, Solvent S B post held c) init
    (fun c m ⟨_, h⟩ hm => h.step served drifts begins hm) moves met
  have htotal := hsolvent.total
  exact (Nat.le_add_left _ _).trans htotal

end LinkMint.Lib

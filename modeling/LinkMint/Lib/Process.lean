import Mathlib.Data.List.Basic
import LinkMint.Lib.Runs

/-!
# Interleaved requests over a shared world

A service handles many requests at once; the world serves one call at a time and other requests run in between.
-/

namespace LinkMint.Lib

/-- A program over calls `ι` with answers `R`: it returns, or calls and goes on. -/
inductive Prog (ι : Type) (R : ι → Type) (α : Type) : Type
  | ret (a : α)
  | call (i : ι) (k : R i → Prog ι R α)

namespace Prog
variable {ι : Type} {R : ι → Type} {α β : Type}

def bind : Prog ι R α → (α → Prog ι R β) → Prog ι R β
  | .ret a, f => f a
  | .call i k, f => .call i fun r => (k r).bind f

instance : Monad (Prog ι R) where
  pure := .ret
  bind := Prog.bind

def op (i : ι) : Prog ι R (R i) := .call i .ret
end Prog

/-- How requests `ρ` are handled over a world `σ`. -/
structure System (ι : Type) (R : ι → Type) (ρ σ ε ω α : Type) where
  main : ρ → Prog ι R α
  serve : Nat → ρ → σ → (i : ι) → ε → Option (R i × σ)
  drift : σ → ω → σ

structure Config (ι : Type) (R : ι → Type) (ρ σ α : Type) where
  shared : σ
  procs : List (ρ × Prog ι R α) := []

inductive Move (ρ ε ω : Type) where
  | start (r : ρ)
  | run (n : Nat) (e : ε)
  | drift (w : ω)

variable {ι : Type} {R : ι → Type} {ρ σ ε ω α β : Type}

def System.step (S : System ι R ρ σ ε ω α) (c : Config ι R ρ σ α) : Move ρ ε ω → Config ι R ρ σ α
  | .start r => { c with procs := c.procs ++ [(r, S.main r)] }
  | .run n e =>
    match c.procs[n]? with
    | some (r, .call i k) =>
      match S.serve n r c.shared i e with
      | some (a, s) => { shared := s, procs := c.procs.set n (r, k a) }
      | none => c
    | _ => c
  | .drift w => { c with shared := S.drift c.shared w }

def System.exec (S : System ι R ρ σ ε ω α) (s : σ) (moves : List (Move ρ ε ω)) : Config ι R ρ σ α :=
  moves.foldl S.step { shared := s }

theorem System.exec_append (S : System ι R ρ σ ε ω α) (s : σ) (moves more : List (Move ρ ε ω)) :
    S.exec s (moves ++ more) = more.foldl S.step (S.exec s moves) :=
  List.foldl_append

theorem System.exec_snoc (S : System ι R ρ σ ε ω α) (s : σ) (moves : List (Move ρ ε ω)) (m : Move ρ ε ω) :
    S.exec s (moves ++ [m]) = S.step (S.exec s moves) m :=
  S.exec_append s moves [m]

/-- Request `n` and its result, once it has returned. -/
def Config.returned? (c : Config ι R ρ σ α) (n : Nat) : Option (ρ × α) :=
  match c.procs[n]? with
  | some (r, .ret a) => some (r, a)
  | _ => none

variable {c : Config ι R ρ σ α}

theorem Config.returned?_eq_some {n : Nat} {r : ρ} {a : α} (h : c.returned? n = some (r, a)) : c.procs[n]? = some (r, .ret a) := by
  unfold Config.returned? at h
  split at h
  · rename_i hproc
    cases h
    exact hproc
  · cases h

/-- The call process `n` is about to make. -/
def Config.next? (c : Config ι R ρ σ α) (n : Nat) : Option ι :=
  match c.procs[n]? with
  | some (_, .call i _) => some i
  | _ => none

theorem Config.next?_eq_some {n : Nat} {i : ι} (h : c.next? n = some i) : ∃ r k, c.procs[n]? = some (r, .call i k) := by
  unfold Config.next? at h
  split at h
  · rename_i r j k hproc
    cases h
    exact ⟨r, k, hproc⟩
  · cases h

theorem System.step_cases (S : System ι R ρ σ ε ω α) (c : Config ι R ρ σ α) (m : Move ρ ε ω) :
    (∃ r, m = .start r ∧ S.step c m = { c with procs := c.procs ++ [(r, S.main r)] }) ∨
    (∃ n e r i k a s, m = .run n e ∧ c.procs[n]? = some (r, .call i k) ∧ S.serve n r c.shared i e = some (a, s) ∧
      S.step c m = { shared := s, procs := c.procs.set n (r, k a) }) ∨
    (∃ w, m = .drift w ∧ S.step c m = { c with shared := S.drift c.shared w }) ∨
    S.step c m = c := by
  cases m with
  | start r => exact .inl ⟨r, rfl, rfl⟩
  | drift w => exact .inr (.inr (.inl ⟨w, rfl, rfl⟩))
  | run n e =>
    cases hn : c.procs[n]? with
    | none => exact .inr (.inr (.inr (by simp only [System.step, hn])))
    | some rp =>
      obtain ⟨r, p⟩ := rp
      cases p with
      | ret a => exact .inr (.inr (.inr (by simp only [System.step, hn])))
      | call i k =>
        cases hs : S.serve n r c.shared i e with
        | none => exact .inr (.inr (.inr (by simp only [System.step, hn, hs])))
        | some as =>
          obtain ⟨a, s⟩ := as
          exact .inr (.inl ⟨n, e, r, i, k, a, s, rfl, hn, hs, by simp only [System.step, hn, hs]⟩)

def Allowed (guard : Nat → ρ → σ → ι → ε → Prop) (c : Config ι R ρ σ α) : Move ρ ε ω → Prop
  | .run n e => ∀ r i k, c.procs[n]? = some (r, .call i k) → guard n r c.shared i e
  | _ => True

instance (guard : Nat → ρ → σ → ι → ε → Prop) [∀ n r s i e, Decidable (guard n r s i e)]
    (c : Config ι R ρ σ α) (m : Move ρ ε ω) : Decidable (Allowed guard c m) :=
  match m with
  | .start _ | .drift _ => .isTrue trivial
  | .run n e =>
    match h : c.procs[n]? with
    | none => .isTrue (by simp [Allowed, h])
    | some (r, .ret a) => .isTrue (by simp [Allowed, h])
    | some (r, .call i k) =>
      decidable_of_iff (guard n r c.shared i e) (by
        constructor
        · intro hguard r' i' k' heq
          obtain ⟨rfl, hcall⟩ := Prod.mk.inj (Option.some.inj (h.symm.trans heq))
          obtain ⟨rfl, -⟩ := Prog.call.inj hcall
          exact hguard
        · intro hmeets
          exact hmeets r i k h)

def Calm (calm : σ → ω → Prop) (c : Config ι R ρ σ α) : Move ρ ε ω → Prop
  | .drift w => calm c.shared w
  | _ => True

/-- What every served call, whoever makes it, and every drift keep of the world, every run keeps. -/
theorem System.calm_invariant (S : System ι R ρ σ ε ω α) {guard : Nat → ρ → σ → ι → ε → Prop} {calm : σ → ω → Prop}
    {I : σ → Prop} (served : ∀ n r s i e a s', I s → guard n r s i e → S.serve n r s i e = some (a, s') → I s')
    (drifts : ∀ s w, I s → calm s w → I (S.drift s w)) (init : I c.shared) (moves : List (Move ρ ε ω))
    (met : ∀ e ∈ trace S.step c moves, Allowed guard e.1 e.2 ∧ Calm calm e.1 e.2) : I (moves.foldl S.step c).shared := by
  have hnext : ∀ (c : Config ι R ρ σ α) m, I c.shared → Allowed guard c m ∧ Calm calm c m → I (S.step c m).shared := by
    intro c m h hm
    rcases S.step_cases c m with
      ⟨r, -, hstep⟩ | ⟨n, e, r, i, k, a, s, rfl, hn, hs, hstep⟩ | ⟨w, rfl, hstep⟩ | hstep
    · rw [hstep]
      exact h
    · rw [hstep]
      exact served n r c.shared i e a s h (hm.1 r i k hn) hs
    · rw [hstep]
      exact drifts c.shared w h hm.2
    · rw [hstep]
      exact h
  exact run_invariant (I := fun (c : Config ι R ρ σ α) => I c.shared) init hnext moves met

theorem System.world_invariant (S : System ι R ρ σ ε ω α) {guard : Nat → ρ → σ → ι → ε → Prop} {I : σ → Prop}
    (served : ∀ n r s i e a s', I s → guard n r s i e → S.serve n r s i e = some (a, s') → I s')
    (drifts : ∀ s w, I s → I (S.drift s w)) (init : I c.shared) (moves : List (Move ρ ε ω))
    (met : ∀ e ∈ trace S.step c moves, Allowed guard e.1 e.2) : I (moves.foldl S.step c).shared := by
  have hcalm : ∀ e ∈ trace S.step c moves, Allowed guard e.1 e.2 ∧ Calm (fun _ _ => True) e.1 e.2 := by
    rintro ⟨c, m⟩ he
    exact ⟨met _ he, by cases m <;> trivial⟩
  exact S.calm_invariant served (fun s w h _ => drifts s w h) init moves hcalm

/-- What holds of every process's program, depending on its number, and stays true of what is left of
    it after a call, holds throughout a run. -/
theorem System.procs_invariant (S : System ι R ρ σ ε ω α) {P : Nat → ρ → Prog ι R α → Prop}
    (begins : ∀ n r, c.procs.length ≤ n → P n r (S.main r)) (calls : ∀ n r i k a, P n r (.call i k) → P n r (k a))
    (procs : ∀ (n : Nat) (r : ρ) (p : Prog ι R α), c.procs[n]? = some (r, p) → P n r p) (moves : List (Move ρ ε ω))
    (n : Nat) (r : ρ) (p : Prog ι R α) (h : (moves.foldl S.step c).procs[n]? = some (r, p)) : P n r p := by
  have hrun : c.procs.length ≤ (moves.foldl S.step c).procs.length ∧
      ∀ n r p, (moves.foldl S.step c).procs[n]? = some (r, p) → P n r p := by
    refine history_induction (I := fun _ (c' : Config ι R ρ σ α) =>
        c.procs.length ≤ c'.procs.length ∧ ∀ n r p, c'.procs[n]? = some (r, p) → P n r p)
      ⟨Nat.le_refl _, procs⟩ (fun _ c' m h => ?_) moves
    obtain ⟨hlen, hprocs⟩ := h
    rcases S.step_cases c' m with
      ⟨r', -, hstep⟩ | ⟨n', x, r', i, k, a, s, -, hn', -, hstep⟩ | ⟨w, -, hstep⟩ | hstep
    · rw [hstep]
      refine ⟨Nat.le_trans hlen (by simp), fun n r p hn => ?_⟩
      by_cases hlt : n < c'.procs.length
      · rw [List.getElem?_append_left hlt] at hn
        exact hprocs n r p hn
      · rw [List.getElem?_append_right (Nat.not_lt.mp hlt)] at hn
        obtain ⟨_, heq⟩ := List.getElem?_eq_some_iff.mp hn
        rw [List.getElem_singleton] at heq
        obtain ⟨rfl, rfl⟩ := Prod.mk.inj heq
        exact begins n r' (Nat.le_trans hlen (Nat.not_lt.mp hlt))
    · rw [hstep]
      refine ⟨by simpa using hlen, fun n r p hn => ?_⟩
      by_cases hnn : n' = n
      · subst hnn
        rw [List.getElem?_set_self (List.getElem?_eq_some_iff.mp hn').1] at hn
        cases hn
        exact calls n' r' i k a (hprocs n' r' _ hn')
      · rw [List.getElem?_set_ne hnn] at hn
        exact hprocs n r p hn
    · rw [hstep]
      exact ⟨hlen, hprocs⟩
    · rw [hstep]
      exact ⟨hlen, hprocs⟩
  exact hrun.2 n r p h

/-! ### Which calls are made -/

def Prog.Only (P : ι → Prop) : Prog ι R α → Prop
  | .ret _ => True
  | .call i k => P i ∧ ∀ a, (k a).Only P

namespace Prog.Only
variable {P : ι → Prop}

theorem ret (a : α) : (pure a : Prog ι R α).Only P := trivial

theorem op {i : ι} (h : P i) : (Prog.op i : Prog ι R (R i)).Only P := ⟨h, fun _ => trivial⟩

theorem bind {p : Prog ι R α} {f : α → Prog ι R β} (hp : p.Only P) (hf : ∀ a, (f a).Only P) : (p >>= f).Only P := by
  induction p with
  | ret a => exact hf a
  | call i k ih => exact ⟨hp.1, fun a => ih a (hp.2 a)⟩

theorem mono {Q : ι → Prop} {p : Prog ι R α} (hp : p.Only P) (h : ∀ i, P i → Q i) : p.Only Q := by
  induction p with
  | ret a => trivial
  | call i k ih => exact ⟨h i hp.1, fun a => ih a (hp.2 a)⟩
end Prog.Only

theorem System.allowed_of_only (S : System ι R ρ σ ε ω α) {P : ι → Prop} (only : ∀ r, (S.main r).Only P)
    (procs : ∀ (n : Nat) (r : ρ) (p : Prog ι R α), c.procs[n]? = some (r, p) → p.Only P) (moves : List (Move ρ ε ω)) :
    ∀ e ∈ trace S.step c moves, Allowed (fun _ _ _ i _ => P i) e.1 e.2 := by
  rintro ⟨c', m⟩ he
  obtain ⟨pre, post, hsplit⟩ := List.append_of_mem he
  obtain ⟨before, after, -, -, hc'⟩ := split_trace hsplit
  cases m with
  | start r => trivial
  | drift w => trivial
  | run n x =>
    intro r i k hn
    dsimp only at hc' hn
    rw [hc'] at hn
    have honly := S.procs_invariant (P := fun _ _ p => p.Only P) (fun _ r _ => only r)
      (fun _ _ _ _ a h => h.2 a) procs before n r _ hn
    exact honly.1

/-! ## Simulation -/

variable {S : System ι R ρ σ ε ω α}

/-- **Two worlds behind the same programs.** If related worlds serve every call alike, and stay related, then every
    schedule leads to related worlds, with the same requests in the same places. -/
theorem System.simulates {σ' : Type} {S' : System ι R ρ σ' ε ω α} {rel : σ → σ' → Prop} (main : S.main = S'.main)
    (serve : ∀ n r s s' i e, rel s s' →
      Option.Rel (fun x x' => x.1 = x'.1 ∧ rel x.2 x'.2) (S.serve n r s i e) (S'.serve n r s' i e))
    (drift : ∀ s s' w, rel s s' → rel (S.drift s w) (S'.drift s' w)) {s₀ : σ} {s₀' : σ'} (init : rel s₀ s₀')
    (moves : List (Move ρ ε ω)) :
    rel (S.exec s₀ moves).shared (S'.exec s₀' moves).shared ∧ (S.exec s₀ moves).procs = (S'.exec s₀' moves).procs := by
  induction moves using List.reverseRecOn with
  | nil => exact ⟨init, rfl⟩
  | append_singleton moves m ih =>
    obtain ⟨hrel, hprocs⟩ := ih
    rw [S.exec_snoc, S'.exec_snoc]
    generalize S.exec s₀ moves = c at hrel hprocs ⊢
    generalize S'.exec s₀' moves = c' at hrel hprocs ⊢
    cases m with
    | start r => exact ⟨hrel, by simp only [System.step, hprocs, main]⟩
    | drift w => exact ⟨drift _ _ w hrel, hprocs⟩
    | run n e =>
      simp only [System.step, hprocs]
      split
      · next r i k _ =>
        have halike := serve n r _ _ i e hrel
        revert halike
        rcases S.serve n r c.shared i e with _ | ⟨a, t⟩ <;> rcases S'.serve n r c'.shared i e with _ | ⟨a', t'⟩ <;>
          intro halike
        · exact ⟨hrel, hprocs⟩
        · nomatch halike
        · nomatch halike
        · cases halike with
          | some h =>
            obtain ⟨rfl, ht⟩ : a = a' ∧ rel t t' := h
            exact ⟨ht, rfl⟩
      · exact ⟨hrel, hprocs⟩

/-! ## Contracts -/

structure Contract (ι ρ σ ε : Type) where
  inv : σ → Prop
  guard : Nat → ρ → σ → ι → ε → Prop
  rely : Nat → σ → σ → Prop
  fresh : Nat → σ → Prop
  always : Nat → ρ → σ → Prop

structure Contract.Stable (T : Contract ι ρ σ ε) (drift : σ → ω → σ) : Prop where
  refl : ∀ n s, T.rely n s s
  trans : ∀ n s s' s'', T.rely n s s' → T.rely n s' s'' → T.rely n s s''
  fresh : ∀ n s s', T.fresh n s → T.rely n s s' → T.fresh n s'
  always : ∀ n r s s', T.always n r s → T.rely n s s' → T.always n r s'
  drift : ∀ s w, T.inv s → T.inv (drift s w) ∧ ∀ n, T.rely n s (drift s w)

/-- Program `p` of process `n` keeps the contract from `s` on, and returns with `post`. -/
def Holds (serve : Nat → ρ → σ → (i : ι) → ε → Option (R i × σ)) (T : Contract ι ρ σ ε) (n : Nat)
    (r : ρ) : Prog ι R β → (β → σ → Prop) → σ → Prop
  | .ret a, post, s => post a s
  | .call i k, post, s => ∀ s₁, T.rely n s s₁ → T.inv s₁ →
      ∀ e, T.guard n r s₁ i e → ∀ a s₂, serve n r s₁ i e = some (a, s₂) →
        T.inv s₂ ∧ (∀ m, m ≠ n → T.rely m s₁ s₂) ∧ T.always n r s₂ ∧ Holds serve T n r (k a) post s₂

namespace Holds
variable {serve : Nat → ρ → σ → (i : ι) → ε → Option (R i × σ)} {T : Contract ι ρ σ ε} {n : Nat}
  {r : ρ}

theorem bind {p : Prog ι R α} {f : α → Prog ι R β} {mid : α → σ → Prop} {post : β → σ → Prop}
    {s : σ} (h : Holds serve T n r p mid s) (hf : ∀ a s, mid a s → Holds serve T n r (f a) post s) :
    Holds serve T n r (p >>= f) post s := by
  induction p generalizing s with
  | ret a => exact hf a s h
  | call i k ih =>
    intro s₁ hrely hinv e hguard a s₂ hserve
    obtain ⟨h₁, h₂, h₃, h₄⟩ := h s₁ hrely hinv e hguard a s₂ hserve
    exact ⟨h₁, h₂, h₃, ih a h₄⟩

theorem mono {p : Prog ι R α} {post post' : α → σ → Prop} {s : σ}
    (h : Holds serve T n r p post s) (hpost : ∀ a s, post a s → post' a s) : Holds serve T n r p post' s := by
  induction p generalizing s with
  | ret a => exact hpost a s h
  | call i k ih =>
    intro s₁ hrely hinv e hguard a s₂ hserve
    obtain ⟨h₁, h₂, h₃, h₄⟩ := h s₁ hrely hinv e hguard a s₂ hserve
    exact ⟨h₁, h₂, h₃, ih a h₄⟩

theorem stable {p : Prog ι R α} {post : α → σ → Prop} {s s' : σ}
    (trans : ∀ s s' s'', T.rely n s s' → T.rely n s' s'' → T.rely n s s'')
    (hpost : ∀ a s s', post a s → T.rely n s s' → post a s')
    (h : Holds serve T n r p post s) (hrely : T.rely n s s') : Holds serve T n r p post s' := by
  cases p with
  | ret a => exact hpost a s s' h hrely
  | call i k =>
    intro s₁ hrely₁
    exact h s₁ (trans s s' s₁ hrely hrely₁)
end Holds

/-! ### Framed specifications

Most calls of a program leave most of what it knows alone. `Ensures` carries such a frame, a preorder on
worlds, along with the postcondition. -/

section Framed

variable {serve : Nat → ρ → σ → (i : ι) → ε → Option (R i × σ)} {T : Contract ι ρ σ ε} {n : Nat}
  {r : ρ} {frame : σ → σ → Prop}

/-- From `s`, `p` ends in a world that `frame` relates to `s` and where `post` holds. -/
def Ensures (serve : Nat → ρ → σ → (i : ι) → ε → Option (R i × σ)) (T : Contract ι ρ σ ε) (n : Nat)
    (r : ρ) (frame : σ → σ → Prop) (p : Prog ι R β) (s : σ) (post : β → σ → Prop) : Prop :=
  Holds serve T n r p (fun a s' => frame s s' ∧ post a s') s

namespace Ensures
theorem ret [Std.Refl frame] {a : α} {s : σ} {post : α → σ → Prop} (h : post a s) :
    Ensures serve T n r frame (pure a : Prog ι R α) s post :=
  ⟨Std.Refl.refl s, h⟩

theorem bind [IsTrans σ frame] {p : Prog ι R α} {f : α → Prog ι R β} {s : σ}
    {mid : α → σ → Prop} {post : β → σ → Prop} (h : Ensures serve T n r frame p s mid)
    (hf : ∀ a s', frame s s' → mid a s' → Ensures serve T n r frame (f a) s' post) :
    Ensures serve T n r frame (p >>= f) s post := by
  apply Holds.bind h
  intro a s' hmid
  apply Holds.mono (hf a s' hmid.1 hmid.2)
  intro b s'' hpost
  exact ⟨IsTrans.trans _ _ _ hmid.1 hpost.1, hpost.2⟩

theorem mono {p : Prog ι R α} {s : σ} {post post' : α → σ → Prop}
    (h : Ensures serve T n r frame p s post) (hpost : ∀ a s', frame s s' → post a s' → post' a s') :
    Ensures serve T n r frame p s post' :=
  Holds.mono h fun a s' ha => ⟨ha.1, hpost a s' ha.1 ha.2⟩

theorem op [IsTrans σ frame] {i : ι} {s : σ} {post : R i → σ → Prop} (hrely : ∀ s', T.rely n s s' → frame s s')
    (h : ∀ s₁, frame s s₁ → T.inv s₁ → ∀ e, T.guard n r s₁ i e → ∀ a s₂, serve n r s₁ i e = some (a, s₂) →
        T.inv s₂ ∧ (∀ m, m ≠ n → T.rely m s₁ s₂) ∧ T.always n r s₂ ∧ frame s₁ s₂ ∧ post a s₂) :
    Ensures serve T n r frame (Prog.op i) s post := by
  intro s₁ hr hinv e hguard a s₂ hserve
  obtain ⟨h₁, h₂, h₃, h₄, h₅⟩ := h s₁ (hrely s₁ hr) hinv e hguard a s₂ hserve
  exact ⟨h₁, h₂, h₃, IsTrans.trans _ _ _ (hrely s₁ hr) h₄, h₅⟩
end Ensures
end Framed

/-! ## Soundness -/

def Meets (T : Contract ι ρ σ ε) (c : Config ι R ρ σ α) : Move ρ ε ω → Prop
  | .run n e => ∀ r i k, c.procs[n]? = some (r, .call i k) → T.guard n r c.shared i e
  | _ => True

instance (T : Contract ι ρ σ ε) [∀ n r s i e, Decidable (T.guard n r s i e)]
    (c : Config ι R ρ σ α) (m : Move ρ ε ω) : Decidable (Meets T c m) :=
  match m with
  | .start _ | .drift _ => .isTrue trivial
  | .run n e => inferInstanceAs (Decidable (Allowed T.guard c (.run n e : Move ρ ε ω)))

structure Sound (S : System ι R ρ σ ε ω α) (T : Contract ι ρ σ ε) (post : Nat → ρ → α → σ → Prop)
    (c : Config ι R ρ σ α) : Prop where
  inv : T.inv c.shared
  fresh : ∀ n, c.procs.length ≤ n → T.fresh n c.shared
  procs : ∀ n r p, c.procs[n]? = some (r, p) → T.always n r c.shared ∧ Holds S.serve T n r p (post n r) c.shared

variable {post : Nat → ρ → α → σ → Prop}

theorem Sound.step {T : Contract ι ρ σ ε} {m : Move ρ ε ω} (stable : T.Stable S.drift)
    (hpost : ∀ n r a s s', post n r a s → T.rely n s s' → post n r a s') (begins : ∀ n r s, T.inv s → T.fresh n s →
      T.always n r s ∧ Holds S.serve T n r (S.main r) (post n r) s) (h : Sound S T post c) (hm : Meets T c m) : Sound S T post (S.step c m) := by
  obtain ⟨hinv, hfresh, hprocs⟩ := h
  -- a process that has not moved itself
  have others : ∀ n r p s', c.procs[n]? = some (r, p) → T.rely n c.shared s' →
      T.always n r s' ∧ Holds S.serve T n r p (post n r) s' := by
    intro n r p s' hn hrely
    obtain ⟨ha, hh⟩ := hprocs n r p hn
    exact ⟨stable.always n r _ _ ha hrely, hh.stable (stable.trans n) (hpost n r) hrely⟩
  rcases S.step_cases c m with ⟨r, rfl, hstep⟩ | ⟨n, e, r, i, k, a, s', rfl, hn, hs, hstep⟩ | ⟨w, rfl, hstep⟩ | hstep
  · rw [hstep]
    refine ⟨hinv, fun n hn => hfresh n ?_, fun n r' p hn => ?_⟩
    · rw [List.length_append, List.length_singleton] at hn
      omega
    · by_cases hlt : n < c.procs.length
      · rw [List.getElem?_append_left hlt] at hn
        exact hprocs n r' p hn
      · rw [List.getElem?_append_right (Nat.not_lt.mp hlt)] at hn
        obtain ⟨_, heq⟩ := List.getElem?_eq_some_iff.mp hn
        rw [List.getElem_singleton] at heq
        obtain ⟨rfl, rfl⟩ := Prod.mk.inj heq
        exact begins n r c.shared hinv (hfresh n (Nat.not_lt.mp hlt))
  · obtain ⟨-, hh⟩ := hprocs n r _ hn
    obtain ⟨hinv', hrely, halways, hgo⟩ := hh c.shared (stable.refl n _) hinv e (hm r i k hn) a s' hs
    have hlen : n < c.procs.length := (List.getElem?_eq_some_iff.mp hn).1
    rw [hstep]
    refine ⟨hinv', fun m hlen' => ?_, fun m r' p' hm' => ?_⟩
    · rw [List.length_set] at hlen'
      exact stable.fresh m _ _ (hfresh m hlen') (hrely m (by omega))
    · by_cases hmn : n = m
      · subst hmn
        rw [List.getElem?_set_self hlen] at hm'
        obtain ⟨rfl, rfl⟩ := Prod.mk.inj (Option.some.inj hm')
        exact ⟨halways, hgo⟩
      · rw [List.getElem?_set_ne hmn] at hm'
        exact others m r' p' s' hm' (hrely m (Ne.symm hmn))
  · obtain ⟨hinv', hrely⟩ := stable.drift c.shared w hinv
    rw [hstep]
    exact ⟨hinv', fun n hn => stable.fresh n _ _ (hfresh n hn) (hrely n), fun n r p hn => others n r p _ hn (hrely n)⟩
  · rw [hstep]
    exact ⟨hinv, hfresh, hprocs⟩

theorem Sound.rely_step {T : Contract ι ρ σ ε} {m : Move ρ ε ω} (stable : T.Stable S.drift) (h : Sound S T post c)
    (hm : Meets T c m) {n : Nat} (hn : c.procs.length ≤ n) : T.rely n c.shared (S.step c m).shared := by
  rcases S.step_cases c m with ⟨r, rfl, hstep⟩ | ⟨n', e, r, i, k, a, s', rfl, hn', hs, hstep⟩ | ⟨w, rfl, hstep⟩ | hstep
  · rw [hstep]
    exact stable.refl n _
  · have hlt : n' < c.procs.length := (List.getElem?_eq_some_iff.mp hn').1
    obtain ⟨-, hh⟩ := h.procs n' r _ hn'
    obtain ⟨-, hothers, -⟩ := hh c.shared (stable.refl n' _) h.inv e (hm r i k hn') a s' hs
    rw [hstep]
    exact hothers n (Nat.ne_of_gt (Nat.lt_of_lt_of_le hlt hn))
  · rw [hstep]
    exact (stable.drift c.shared w h.inv).2 n
  · rw [hstep]
    exact stable.refl n _

theorem Sound.follow {T : Contract ι ρ σ ε} (stable : T.Stable S.drift)
    (step : ∀ c m, Sound S T post c → Meets T c m → Sound S T post (S.step c m)) {n : Nat} {r : ρ} {ends : α → σ → Prop}
    (hends : ∀ a s s', ends a s → T.rely n s s' → ends a s') (h : Sound S T post c)
    (hfollowed : ∃ p, c.procs[n]? = some (r, p) ∧ Holds S.serve T n r p ends c.shared) (moves : List (Move ρ ε ω))
    (met : ∀ e ∈ trace S.step c moves, Meets T e.1 e.2) :
    ∃ p, (moves.foldl S.step c).procs[n]? = some (r, p) ∧ Holds S.serve T n r p ends (moves.foldl S.step c).shared := by
  induction moves generalizing c with
  | nil => exact hfollowed
  | cons m moves ih =>
    have hm : Meets T c m := met _ List.mem_cons_self
    refine ih (step c m h hm) ?_ fun e he => met e (List.mem_cons_of_mem _ he)
    obtain ⟨p, hn, hp⟩ := hfollowed
    have hlen : n < c.procs.length := (List.getElem?_eq_some_iff.mp hn).1
    rcases S.step_cases c m with ⟨r', rfl, hstep⟩ | ⟨n', e, r', i, k, a, s', rfl, hn', hs, hstep⟩ | ⟨w, rfl, hstep⟩ | hstep
    · rw [hstep]
      exact ⟨p, by rw [List.getElem?_append_left hlen, hn], hp⟩
    · rw [hstep]
      by_cases hsame : n' = n
      · subst hsame
        obtain ⟨rfl, rfl⟩ := Prod.mk.inj (Option.some.inj (hn'.symm.trans hn))
        obtain ⟨-, -, -, hgo⟩ := hp c.shared (stable.refl n' _) h.inv e (hm r' i k hn') a s' hs
        exact ⟨k a, List.getElem?_set_self hlen, hgo⟩
      · obtain ⟨-, hh⟩ := h.procs n' r' _ hn'
        obtain ⟨-, hothers, -⟩ := hh c.shared (stable.refl n' _) h.inv e (hm r' i k hn') a s' hs
        exact ⟨p, by rw [List.getElem?_set_ne hsame, hn], hp.stable (stable.trans n) hends (hothers n (Ne.symm hsame))⟩
    · rw [hstep]
      exact ⟨p, hn, hp.stable (stable.trans n) hends ((stable.drift c.shared w h.inv).2 n)⟩
    · rw [hstep]
      exact ⟨p, hn, hp⟩

/-- **Rely–guarantee.** If every request's program keeps the contract from a fresh start, then after
    every schedule whose served calls met the guard, every process does. -/
theorem System.sound (S : System ι R ρ σ ε ω α) (T : Contract ι ρ σ ε) {s₀ : σ} (stable : T.Stable S.drift)
    (hpost : ∀ n r a s s', post n r a s → T.rely n s s' → post n r a s') (begins : ∀ n r s, T.inv s → T.fresh n s →
      T.always n r s ∧ Holds S.serve T n r (S.main r) (post n r) s) (inv₀ : T.inv s₀) (fresh₀ : ∀ n, T.fresh n s₀)
    (moves : List (Move ρ ε ω)) (met : ∀ e ∈ trace S.step { shared := s₀ } moves, Meets T e.1 e.2) :
    Sound S T post (S.exec s₀ moves) := by
  have init : Sound S T post { shared := s₀ } := ⟨inv₀, fun n _ => fresh₀ n, fun n r p hn => by simp at hn⟩
  exact run_invariant init (fun _ _ h hm => h.step stable hpost begins hm) moves met

end LinkMint.Lib

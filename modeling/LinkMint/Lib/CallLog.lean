import LinkMint.Lib.Process

/-!
# What a process has called so far

`System.events` lists the calls of one process that a schedule has served.
-/

namespace LinkMint.Lib

variable {ι : Type} {R : ι → Type} {ρ σ ε ω α β : Type}

/-! ## Paths -/

namespace Prog
/-- Making these calls and getting these answers leads from the first program to the second. -/
inductive Path : Prog ι R α → List (Σ i, R i) → Prog ι R α → Prop
  | nil (p : Prog ι R α) : Path p [] p
  | cons {i : ι} {k : R i → Prog ι R α} {a : R i} {log : List (Σ i, R i)} {p : Prog ι R α}
      (h : Path (k a) log p) : Path (.call i k) (⟨i, a⟩ :: log) p

namespace Path
variable {p : Prog ι R α}

theorem snoc {log : List (Σ i, R i)} {i : ι} {k : R i → Prog ι R α} (h : Path p log (.call i k)) (a : R i) : Path p (log ++ [⟨i, a⟩]) (k a) := by
  generalize hq : Prog.call i k = q at h
  induction h with
  | nil p =>
    subst hq
    exact .cons (.nil (k a))
  | cons _ ih => exact .cons (ih hq)

theorem of_ret {a : α} {log : List (Σ i, R i)} (h : Path (pure a : Prog ι R α) log p) : log = [] ∧ p = .ret a := by
  cases h
  exact ⟨rfl, rfl⟩

theorem of_op {i : ι} {f : R i → Prog ι R α} {log : List (Σ i, R i)} (h : Path (Prog.op i >>= f) log p) :
    (log = [] ∧ p = .call i f) ∨ ∃ a log', log = ⟨i, a⟩ :: log' ∧ Path (f a) log' p := by
  cases h with
  | nil => exact .inl ⟨rfl, rfl⟩
  | cons h => exact .inr ⟨_, _, rfl, h⟩

theorem of_bind {f : α → Prog ι R β} {log : List (Σ i, R i)} {q : Prog ι R β} (h : Path (p >>= f) log q) :
    (∃ p', Path p log p' ∧ q = (p' >>= f)) ∨
      ∃ a log₁ log₂, log = log₁ ++ log₂ ∧ Path p log₁ (.ret a) ∧ Path (f a) log₂ q := by
  induction p generalizing log with
  | ret a => exact .inr ⟨a, [], log, rfl, .nil _, h⟩
  | call i k ih =>
    rcases of_op (i := i) (f := fun r => k r >>= f) h with ⟨rfl, rfl⟩ | ⟨a, log', rfl, h'⟩
    · exact .inl ⟨.call i k, .nil _, rfl⟩
    · rcases ih a h' with ⟨p', hp', rfl⟩ | ⟨b, log₁, log₂, rfl, h₁, h₂⟩
      · exact .inl ⟨p', .cons hp', rfl⟩
      · exact .inr ⟨b, ⟨i, a⟩ :: log₁, log₂, rfl, .cons h₁, h₂⟩

theorem of_bind_ret {f : α → Prog ι R β} {log : List (Σ i, R i)} {b : β} (h : Path (p >>= f) log (.ret b)) :
    ∃ a log₁ log₂, log = log₁ ++ log₂ ∧ Path p log₁ (.ret a) ∧ Path (f a) log₂ (.ret b) := by
  rcases of_bind h with ⟨p', hp', heq⟩ | h
  · cases p' with
    | ret a => exact ⟨a, log, [], (List.append_nil _).symm, hp', heq ▸ .nil _⟩
    | call i k => cases heq
  · exact h

theorem of_bind_made {f : α → Prog ι R β} {before after : List (Σ i, R i)} {x : Σ i, R i} {q : Prog ι R β}
    (h : Path (p >>= f) (before ++ x :: after) q) : (∃ after' p', Path p (before ++ x :: after') p') ∨
      ∃ a first rest, before = first ++ rest ∧ Path p first (.ret a) ∧ Path (f a) (rest ++ x :: after) q := by
  rcases of_bind h with ⟨p', hp', -⟩ | ⟨a, log₁, log₂, hlog, h₁, h₂⟩
  · exact .inl ⟨after, p', hp'⟩
  · rcases List.append_eq_append_iff.mp hlog with ⟨m, hm, hrest⟩ | ⟨m, hm, hrest⟩
    · cases m with
      | nil =>
        rw [List.append_nil] at hm
        exact .inr ⟨a, log₁, [], by rw [hm, List.append_nil], h₁, by rw [List.nil_append]; exact hrest ▸ h₂⟩
      | cons y m =>
        obtain ⟨rfl, -⟩ := List.cons.inj hrest
        exact .inl ⟨m, .ret a, hm ▸ h₁⟩
    · exact .inr ⟨a, log₁, m, hm, h₁, hrest ▸ h₂⟩

theorem only {P : ι → Prop} {q : Prog ι R α} {log : List (Σ i, R i)} (h : Path p log q) (hp : p.Only P) :
    ∀ x ∈ log, P x.1 := by
  induction h with
  | nil => simp
  | cons _ ih =>
    intro x hx
    rcases List.mem_cons.mp hx with rfl | hx
    · exact hp.1
    · exact ih (hp.2 _) x hx
end Path
end Prog

/-! ## Events -/

structure Event (ι : Type) (R : ι → Type) (σ ε : Type) where
  before : σ
  call : ι
  choice : ε
  answer : R call
  after : σ

def Event.made (e : Event ι R σ ε) : Σ i, R i := ⟨e.call, e.answer⟩

theorem Event.of_made {e : Event ι R σ ε} {i : ι} {a : R i} (h : e.made = ⟨i, a⟩) :
    ∃ before choice after, e = ⟨before, i, choice, a, after⟩ := by
  obtain ⟨before, call, choice, answer, after⟩ := e
  cases h
  exact ⟨before, choice, after, rfl⟩

/-- The call of process `n` that a move serves. -/
def System.event? (S : System ι R ρ σ ε ω α) (n : Nat) (c : Config ι R ρ σ α) : Move ρ ε ω → Option (Event ι R σ ε)
  | .run m e =>
    if m = n then
      match c.procs[m]? with
      | some (r, .call i _) => (S.serve m r c.shared i e).map fun x => ⟨c.shared, i, e, x.1, x.2⟩
      | _ => none
    else none
  | _ => none

/-- The calls of process `n` in a run. -/
def System.events (S : System ι R ρ σ ε ω α) (n : Nat) (s : σ) (moves : List (Move ρ ε ω)) : List (Event ι R σ ε) :=
  (trace S.step { shared := s } moves).filterMap fun x => S.event? n x.1 x.2

section
variable {S : System ι R ρ σ ε ω α} {n : Nat} {c : Config ι R ρ σ α}

theorem System.event?_eq_some {m : Move ρ ε ω} {ev : Event ι R σ ε} (h : S.event? n c m = some ev) :
    m = .run n ev.choice ∧ ev.before = c.shared ∧ ∃ r k, c.procs[n]? = some (r, .call ev.call k) ∧
        S.serve n r ev.before ev.call ev.choice = some (ev.answer, ev.after) := by
  unfold System.event? at h
  split at h
  · split at h
    · next hm =>
      subst hm
      split at h
      · next r i k hn =>
        obtain ⟨⟨a, s⟩, hserve, rfl⟩ := Option.map_eq_some_iff.mp h
        exact ⟨rfl, rfl, r, k, hn, hserve⟩
      · cases h
    · cases h
  · cases h

/-- The moves up to a call of process `n`, in which it made the calls before it. -/
theorem System.of_events_eq {s : σ} {moves : List (Move ρ ε ω)} {ev : Event ι R σ ε} {pre post : List (Event ι R σ ε)}
    (h : S.events n s moves = pre ++ ev :: post) :
    ∃ before after, moves = before ++ .run n ev.choice :: after ∧ S.events n s before = pre ∧
      ev.before = (S.exec s before).shared ∧
      ∃ r k, (S.exec s before).procs[n]? = some (r, .call ev.call k) ∧
        S.serve n r ev.before ev.call ev.choice = some (ev.answer, ev.after) := by
  obtain ⟨l₁, l₂, hl, hpre, hrest⟩ := List.filterMap_eq_append_iff.mp h
  obtain ⟨l₃, ⟨c, m⟩, l₄, rfl, hquiet, hev, -⟩ := List.filterMap_eq_cons_iff.mp hrest
  obtain ⟨before, after, hmoves, htrace, hc⟩ := split_trace (hl.trans (List.append_assoc l₁ l₃ _).symm)
  obtain ⟨hm, hbefore, r, k, hn, hserve⟩ := System.event?_eq_some hev
  dsimp only at hm hc hmoves hbefore hn
  subst hm
  subst hc
  refine ⟨before, after, hmoves, ?_, hbefore, r, k, hn, hserve⟩
  rw [System.events, ← htrace, List.filterMap_append, hpre, List.filterMap_eq_nil_iff.mpr hquiet, List.append_nil]

theorem System.of_mem_events {s : σ} {moves : List (Move ρ ε ω)} {ev : Event ι R σ ε} (h : ev ∈ S.events n s moves) :
    ∃ before after, moves = before ++ .run n ev.choice :: after ∧ ev.before = (S.exec s before).shared ∧
      ∃ r k, (S.exec s before).procs[n]? = some (r, .call ev.call k) ∧
        S.serve n r ev.before ev.call ev.choice = some (ev.answer, ev.after) := by
  obtain ⟨pre, post, hsplit⟩ := List.append_of_mem h
  obtain ⟨before, after, hmoves, -, hrest⟩ := System.of_events_eq hsplit
  exact ⟨before, after, hmoves, hrest⟩

theorem System.of_made {s : σ} {moves : List (Move ρ ε ω)} {i : ι} {a : R i}
    (h : ⟨i, a⟩ ∈ (S.events n s moves).map Event.made) :
    ∃ before choice after r w, moves = before ++ .run n choice :: after ∧
      S.serve n r (S.exec s before).shared i choice = some (a, w) ∧
      (⟨(S.exec s before).shared, i, choice, a, w⟩ : Event ι R σ ε) ∈ S.events n s moves := by
  obtain ⟨ev, hmem, hmade⟩ := List.mem_map.mp h
  obtain ⟨world, choice, w, rfl⟩ := Event.of_made hmade
  obtain ⟨before, after, hmoves, hbefore, r, k, -, hserve⟩ := System.of_mem_events hmem
  dsimp only at hmoves hbefore hserve
  subst hbefore
  exact ⟨before, choice, after, r, w, hmoves, hserve, hmem⟩

theorem System.events_snoc (s : σ) (moves : List (Move ρ ε ω)) (m : Move ρ ε ω) :
    S.events n s (moves ++ [m]) = S.events n s moves ++ (S.event? n (S.exec s moves) m).toList := by
  simp only [System.events, trace_append, List.filterMap_append, System.exec, trace]
  cases h : S.event? n (moves.foldl S.step { shared := s }) m <;> simp [h]
end

/-- **Where a process stands.** After every schedule, what is left of a process's program is the end of
    the path its calls and their answers describe. -/
theorem System.path (S : System ι R ρ σ ε ω α) (s : σ) (moves : List (Move ρ ε ω)) (n : Nat) :
    (∀ r p, (S.exec s moves).procs[n]? = some (r, p) → (S.main r).Path ((S.events n s moves).map Event.made) p) ∧
    ((S.exec s moves).procs[n]? = none → S.events n s moves = []) := by
  induction moves using List.reverseRecOn with
  | nil => exact ⟨fun r p h => by simp [System.exec] at h, fun _ => rfl⟩
  | append_singleton moves m ih =>
    rw [S.exec_snoc, System.events_snoc]
    generalize S.exec s moves = c at ih
    generalize S.events n s moves = evs at ih
    -- a move that serves no call of this process adds nothing
    have hquiet : S.event? n c m = none → ((S.step c m).procs[n]? = c.procs[n]?) →
        (∀ r p, (S.step c m).procs[n]? = some (r, p) →
          (S.main r).Path ((evs ++ (S.event? n c m).toList).map Event.made) p) ∧
        ((S.step c m).procs[n]? = none → evs ++ (S.event? n c m).toList = []) := by
      intro hev hprocs
      rw [hev, hprocs]
      simpa using ih
    cases hev : S.event? n c m with
    | some ev =>
      obtain ⟨rfl, hbefore, r, k, hn, hserve⟩ := System.event?_eq_some hev
      rw [hbefore] at hserve
      have hlt := (List.getElem?_eq_some_iff.mp hn).1
      have hstep : (S.step c (.run n ev.choice)).procs[n]? = some (r, k ev.answer) := by
        simp only [System.step, hn, hserve, List.getElem?_set_self hlt]
      rw [hstep]
      refine ⟨fun r' p h => ?_, fun h => by cases h⟩
      cases h
      simpa [Event.made] using (ih.1 r _ hn).snoc ev.answer
    | none =>
      rw [← hev]
      rcases S.step_cases c m with
        ⟨r, rfl, hstep⟩ | ⟨n', e, r, i, k, a, s', rfl, hn', hs, hstep⟩ | ⟨w, -, hstep⟩ | hstep
      · by_cases hlt : n < c.procs.length
        · exact hquiet hev (by rw [hstep, List.getElem?_append_left hlt])
        · -- the new process, or one still to come
          have hnone : c.procs[n]? = none := List.getElem?_eq_none (Nat.not_lt.mp hlt)
          rw [hev, hstep, ih.2 hnone]
          refine ⟨fun r' p h => ?_, fun _ => rfl⟩
          rw [List.getElem?_append_right (Nat.not_lt.mp hlt)] at h
          obtain ⟨_, heq⟩ := List.getElem?_eq_some_iff.mp h
          rw [List.getElem_singleton] at heq
          obtain ⟨rfl, rfl⟩ := Prod.mk.inj heq
          exact .nil _
      · have hne : n' ≠ n := by
          rintro rfl
          simp [System.event?, hn', hs] at hev
        exact hquiet hev (by rw [hstep, List.getElem?_set_ne hne])
      · exact hquiet hev (by rw [hstep])
      · exact hquiet hev (by rw [hstep])

end LinkMint.Lib

import Mathlib.Data.List.Induction

/-!
# Runs and their histories

`step s a` is the state after action `a` in state `s`, a run is `List.foldl step`, and its *trace* is the list of
the steps it took, each with the state it was taken in.
-/

namespace LinkMint.Lib

variable {σ α : Type} (step : σ → α → σ)

def trace : σ → List α → List (σ × α)
  | _, [] => []
  | s, a :: as => (s, a) :: trace (step s a) as

theorem trace_append (s : σ) (as bs : List α) :
    trace step s (as ++ bs) = trace step s as ++ trace step (as.foldl step s) bs := by
  induction as generalizing s with
  | nil => rfl
  | cons a as ih => simp [trace, ih]

variable {step}

theorem action_of_trace {s : σ} {as : List α} {e : σ × α} (h : e ∈ trace step s as) : e.2 ∈ as := by
  induction as generalizing s with
  | nil => cases h
  | cons a as ih =>
    rcases List.mem_cons.mp h with rfl | h
    · exact List.mem_cons_self
    · exact List.mem_cons_of_mem a (ih h)

theorem split_trace {s : σ} {as : List α} {pre post : List (σ × α)} {e : σ × α}
    (h : trace step s as = pre ++ e :: post) :
    ∃ before after, as = before ++ e.2 :: after ∧ pre = trace step s before ∧ e.1 = before.foldl step s := by
  induction pre generalizing s as with
  | nil =>
    cases as with
    | nil => cases h
    | cons a as =>
      obtain ⟨rfl, -⟩ := List.cons_eq_cons.mp h
      exact ⟨[], as, rfl, rfl, rfl⟩
  | cons e' pre ih =>
    cases as with
    | nil => cases h
    | cons a as =>
      obtain ⟨rfl, hrest⟩ := List.cons_eq_cons.mp h
      obtain ⟨before, after, rfl, rfl, he⟩ := ih hrest
      exact ⟨a :: before, after, rfl, rfl, he⟩

/-- **Induction on a run.** A relation that holds of the empty trace and the initial state, and is
    kept by every step that meets the guard, holds of the trace and the final state of every run
    whose steps all meet it. -/
theorem trace_induction {I : List (σ × α) → σ → Prop} {guard : σ → α → Prop} {s₀ : σ} (init : I [] s₀)
    (next : ∀ tr s a, I tr s → guard s a → I (tr ++ [(s, a)]) (step s a))
    (as : List α) (met : ∀ e ∈ trace step s₀ as, guard e.1 e.2) : I (trace step s₀ as) (as.foldl step s₀) := by
  induction as using List.reverseRecOn with
  | nil => exact init
  | append_singleton as a ih =>
    rw [trace_append] at met ⊢
    rw [List.foldl_append]
    have before := ih fun e he => met e (List.mem_append_left _ he)
    have last : (as.foldl step s₀, a) ∈ trace step (as.foldl step s₀) [a] := by simp [trace]
    exact next _ _ a before (met _ (List.mem_append_right _ last))

theorem history_induction {I : List (σ × α) → σ → Prop} {s₀ : σ} (init : I [] s₀)
    (next : ∀ tr s a, I tr s → I (tr ++ [(s, a)]) (step s a)) (as : List α) : I (trace step s₀ as) (as.foldl step s₀) := by
  have next' : ∀ tr s a, I tr s → True → I (tr ++ [(s, a)]) (step s a) := fun tr s a h _ => next tr s a h
  exact trace_induction init next' as fun _ _ => trivial

theorem run_invariant {I : σ → Prop} {guard : σ → α → Prop} {s₀ : σ} (init : I s₀)
    (next : ∀ s a, I s → guard s a → I (step s a)) (as : List α)
    (met : ∀ e ∈ trace step s₀ as, guard e.1 e.2) : I (as.foldl step s₀) :=
  trace_induction (I := fun _ s => I s) init (fun _ s a => next s a) as met

end LinkMint.Lib

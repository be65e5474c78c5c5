import Mathlib.Data.List.Basic

/-!
# Logs

A log lists what has happened, oldest first, and grows at the end.
-/

namespace LinkMint.Lib

variable {α σ : Type}

/-! ## The last word -/

/-- `d` is in the log, and nothing after it supersedes it. -/
def Latest (d : α) (supersedes : α → Prop) (log : List α) : Prop :=
  ∃ before after, log = before ++ d :: after ∧ ∀ x ∈ after, ¬ supersedes x

namespace Latest
variable {d : α} {supersedes : α → Prop} {log : List α}

theorem last (d : α) (supersedes : α → Prop) (log : List α) : Latest d supersedes (log ++ [d]) := by
  refine ⟨log, [], rfl, ?_⟩
  simp

theorem append {more : List α} (h : Latest d supersedes log) (hmore : ∀ x ∈ more, ¬ supersedes x) :
    Latest d supersedes (log ++ more) := by
  obtain ⟨before, after, rfl, hafter⟩ := h
  refine ⟨before, after ++ more, by simp, fun x hx => ?_⟩
  rcases List.mem_append.mp hx with hx | hx
  · exact hafter x hx
  · exact hmore x hx
end Latest

/-! ## Paths -/

/-- The moves lead from the one state to the other, each from where the one before it went. -/
def IsPath : σ → List (σ × σ) → σ → Prop
  | a, [], b => a = b
  | a, (source, target) :: moves, b => source = a ∧ IsPath target moves b

namespace IsPath
variable {a b c : σ} {moves moves' : List (σ × σ)}

theorem refl (a : σ) : IsPath a [] a := rfl

theorem single (a b : σ) : IsPath a [(a, b)] b := ⟨rfl, rfl⟩

theorem append (h : IsPath a moves b) (h' : IsPath b moves' c) : IsPath a (moves ++ moves') c := by
  induction moves generalizing a with
  | nil =>
    cases h
    exact h'
  | cons m moves ih => exact ⟨h.1, ih h.2⟩
end IsPath
end LinkMint.Lib

import Mathlib.Data.List.Induction
import Mathlib.Data.Set.Function

/-!
# Hash chains

The link of an entry is computed from the link of the entry before it and its own content.
-/

namespace LinkMint.Lib

variable {H C : Type} (node : H → C → H)

/-- What the links of a log are computed from, the log starting at `seed`. -/
def inputs : H → List C → List (H × C)
  | _, [] => []
  | seed, c :: cs => (seed, c) :: inputs (node seed c) cs

theorem inputs_append (seed : H) (cs ds : List C) :
    inputs node seed (cs ++ ds) = inputs node seed cs ++ inputs node (cs.foldl node seed) ds := by
  induction cs generalizing seed with
  | nil => rfl
  | cons c cs ih => simp [inputs, ih]

theorem last_mem_inputs (seed : H) (cs : List C) (c : C) : (cs.foldl node seed, c) ∈ inputs node seed (cs ++ [c]) := by
  simp [inputs_append, inputs]

variable {node}

theorem foldl_injective {seed : H} {js : List (H × C)} {cs ds : List C}
    (inj : Set.InjOn (fun p : H × C => node p.1 p.2) {p | p ∈ js}) (apart : ∀ p ∈ js, node p.1 p.2 ≠ seed)
    (hcs : ∀ p ∈ inputs node seed cs, p ∈ js) (hds : ∀ p ∈ inputs node seed ds, p ∈ js)
    (h : cs.foldl node seed = ds.foldl node seed) : cs = ds := by
  -- from the end: the last links give the last contents and the links before them
  induction cs using List.reverseRecOn generalizing ds with
  | nil =>
    induction ds using List.reverseRecOn with
    | nil => rfl
    | append_singleton ds d _ =>
      rw [List.foldl_nil, List.foldl_append] at h
      exact absurd h.symm (apart _ (hds _ (last_mem_inputs node seed ds d)))
  | append_singleton cs c ih =>
    have hc := hcs _ (last_mem_inputs node seed cs c)
    induction ds using List.reverseRecOn with
    | nil =>
      rw [List.foldl_nil, List.foldl_append] at h
      exact absurd h (apart _ hc)
    | append_singleton ds d _ =>
      rw [List.foldl_append, List.foldl_append] at h
      have hlast := inj hc (hds _ (last_mem_inputs node seed ds d)) h
      obtain ⟨hlink, rfl⟩ := Prod.mk.inj hlast
      have hfront : cs = ds := by
        refine ih (fun p hp => hcs p ?_) (fun p hp => hds p ?_) hlink
        · rw [inputs_append]
          exact List.mem_append_left _ hp
        · rw [inputs_append]
          exact List.mem_append_left _ hp
      rw [hfront]

end LinkMint.Lib

import Mathlib.Data.List.Nodup

/-!
# Indexes

An index lists, under each value of a key, the identifiers of the entries that have it, and is changed by hand
whenever they are.
-/

namespace LinkMint.Lib

variable {α κ ι : Type}

structure Indexes (key : α → κ) (entry : ι → Option α) (list : κ → List ι) : Prop where
  nodup : ∀ k, (list k).Nodup
  mem : ∀ k id, id ∈ list k ↔ ∃ a, entry id = some a ∧ key a = k

theorem nodup_snoc {l : List ι} {id : ι} (h : l.Nodup) (hnot : id ∉ l) : (l ++ [id]).Nodup := by
  rw [← List.concat_eq_append]
  exact h.concat hnot

namespace Indexes
variable {key : α → κ} {entry entry' : ι → Option α} {list list' removed : κ → List ι} {id : ι}
  {a a' : α}

theorem empty (key : α → κ) : Indexes key (fun _ : ι => none) fun _ => [] := by
  constructor
  · simp
  · simp

theorem key_eq (h : Indexes key entry list) (found : entry id = some a) {k : κ} : id ∈ list k ↔ key a = k := by
  rw [h.mem]
  constructor
  · rintro ⟨b, hb, hk⟩
    cases found.symm.trans hb
    exact hk
  · intro hk
    exact ⟨a, found, hk⟩

variable [DecidableEq ι]

theorem keep (h : Indexes key entry list) (found : entry id = some a)
    (hentry : ∀ id', entry' id' = if id = id' then some a' else entry id')
    (hkey : key a' = key a) : Indexes key entry' list := by
  refine ⟨h.nodup, fun k id' => ?_⟩
  rw [hentry]
  split
  · next heq =>
    subst heq
    simp [h.key_eq found, hkey]
  · exact h.mem k id'

variable [DecidableEq κ]

theorem append (h : Indexes key entry list) (fresh : entry id = none)
    (hentry : ∀ id', entry' id' = if id = id' then some a else entry id')
    (hlist : ∀ k, list' k = if key a = k then list k ++ [id] else list k) : Indexes key entry' list' := by
  have hnot : ∀ k, id ∉ list k := by
    intro k hmem
    obtain ⟨b, hb, -⟩ := (h.mem k id).mp hmem
    rw [fresh] at hb
    cases hb
  constructor
  · intro k
    rw [hlist]
    split
    · exact nodup_snoc (h.nodup k) (hnot k)
    · exact h.nodup k
  · intro k id'
    rw [hlist, hentry]
    by_cases hid : id = id'
    · subst hid
      by_cases hk : key a = k
      · simp [hk]
      · simp [hk, hnot k]
    · have hmem := h.mem k id'
      by_cases hk : key a = k
      · simp [hk, hid, Ne.symm hid, hmem]
      · simp [hk, hid, hmem]

/-- An entry moves to another key: it is dropped from its list, which leaves an exact index of the
    others, and appended to the new one. -/
theorem move (h : Indexes key entry list) (found : entry id = some a)
    (hremoved : ∀ k, removed k = if key a = k then (list k).erase id else list k)
    (hentry : ∀ id', entry' id' = if id = id' then some a' else entry id')
    (hlist : ∀ k, list' k = if key a' = k then removed k ++ [id] else removed k) : Indexes key entry' list' := by
  let others : ι → Option α := fun id' => if id = id' then none else entry id'
  have hothers : Indexes key others removed := by
    constructor
    · intro k
      rw [hremoved]
      split
      · exact (h.nodup k).erase id
      · exact h.nodup k
    · intro k id'
      have hmem := h.mem k id'
      rw [hremoved]
      by_cases hid : id = id'
      · subst hid
        by_cases hk : key a = k
        · simp [others, hk, (h.nodup k).mem_erase_iff]
        · simp [others, hk, h.key_eq found]
      · by_cases hk : key a = k
        · simp [others, hid, Ne.symm hid, hk, (h.nodup k).mem_erase_iff, hmem]
        · simp [others, hid, hk, hmem]
  refine hothers.append (by simp [others]) (fun id' => ?_) hlist
  rw [hentry]
  by_cases hid : id = id'
  · simp [hid]
  · simp [others, hid]
end Indexes
end LinkMint.Lib

import Mathlib

/-!
# Totals over a finite map

`total f m` adds `f v` over the values of a finite map, in `Nat`.
-/

namespace LinkMint.Lib

open Std

variable {α β : Type} {cmp : α → α → Ordering} [TransCmp cmp]

/-- The sum of `f` over the values of `m`. -/
def total (f : β → Nat) (m : ExtTreeMap α β cmp) : Nat :=
  (m.toList.map fun e => f e.2).sum

/-- The share of key `k` in a total: `f` of its value, nothing if it has none. -/
def share (f : β → Nat) (m : ExtTreeMap α β cmp) (k : α) : Nat := (m[k]?).elim 0 f

theorem nodup_toList (m : ExtTreeMap α β cmp) : m.toList.Nodup := by
  have h := m.nodup_keys
  rw [← ExtTreeMap.map_fst_toList_eq_keys] at h
  exact h.of_map

@[simp] theorem total_empty (f : β → Nat) : total f (∅ : ExtTreeMap α β cmp) = 0 := rfl

variable [LawfulEqCmp cmp]

theorem toList_insert_perm (m : ExtTreeMap α β cmp) (k : α) (v : β) :
    (m.insert k v).toList.Perm ((k, v) :: (m.erase k).toList) := by
  have hk : (k, v) ∉ (m.erase k).toList := by
    rw [ExtTreeMap.mem_toList_iff_getElem?_eq_some, ExtTreeMap.getElem?_erase_self]
    simp
  refine (List.perm_ext_iff_of_nodup (nodup_toList _) (List.nodup_cons.mpr ⟨hk, nodup_toList _⟩)).mpr ?_
  rintro ⟨k', v'⟩
  rw [List.mem_cons, ExtTreeMap.mem_toList_iff_getElem?_eq_some,
    ExtTreeMap.mem_toList_iff_getElem?_eq_some, ExtTreeMap.getElem?_insert,
    ExtTreeMap.getElem?_erase]
  by_cases hkk : k = k'
  · subst hkk
    simp [ReflCmp.compare_self, eq_comm]
  · have hkk' : ¬ k' = k := fun h => hkk h.symm
    simp [LawfulEqCmp.compare_eq_iff_eq, hkk, hkk']

theorem insert_getElem? {m : ExtTreeMap α β cmp} {k : α} {v : β} (h : m[k]? = some v) : m.insert k v = m := by
  refine ExtTreeMap.ext_getElem? fun {k'} => ?_
  rw [ExtTreeMap.getElem?_insert]
  split
  · next hkk =>
    rw [LawfulEqCmp.compare_eq_iff_eq] at hkk
    rw [← hkk, h]
  · rfl

theorem insert_insert_self (m : ExtTreeMap α β cmp) (k : α) (v w : β) : (m.insert k v).insert k w = m.insert k w := by
  refine ExtTreeMap.ext_getElem? fun {k'} => ?_
  rw [ExtTreeMap.getElem?_insert, ExtTreeMap.getElem?_insert, ExtTreeMap.getElem?_insert]
  split
  · rfl
  · rfl

theorem getElem?_insert_eq [DecidableEq α] (m : ExtTreeMap α β cmp) (k k' : α) (v : β) :
    (m.insert k v)[k']? = if k = k' then some v else m[k']? := by
  rw [ExtTreeMap.getElem?_insert]
  by_cases h : k = k'
  · rw [if_pos h, if_pos (LawfulEqCmp.compare_eq_iff_eq.mpr h)]
  · rw [if_neg h, if_neg (fun hc => h (LawfulEqCmp.compare_eq_iff_eq.mp hc))]

theorem erase_of_getElem?_none {m : ExtTreeMap α β cmp} {k : α} (h : m[k]? = none) : m.erase k = m := by
  refine ExtTreeMap.ext_getElem? fun {k'} => ?_
  rw [ExtTreeMap.getElem?_erase]
  split
  · next hkk =>
    rw [LawfulEqCmp.compare_eq_iff_eq] at hkk
    rw [← hkk, h]
  · rfl

theorem total_insert_erase (f : β → Nat) (m : ExtTreeMap α β cmp) (k : α) (v : β) :
    total f (m.insert k v) = f v + total f (m.erase k) := by
  have h := ((toList_insert_perm m k v).map fun e => f e.2).sum_eq
  simpa [total] using h

theorem total_eq_share_add (f : β → Nat) (m : ExtTreeMap α β cmp) (k : α) :
    total f m = share f m k + total f (m.erase k) := by
  cases h : m[k]? with
  | none => simp [share, h, erase_of_getElem?_none h]
  | some v =>
    have hi := total_insert_erase f m k v
    rw [insert_getElem? h] at hi
    simpa [share, h] using hi

theorem total_insert (f : β → Nat) (m : ExtTreeMap α β cmp) (k : α) (v : β) :
    total f (m.insert k v) + share f m k = total f m + f v := by
  rw [total_insert_erase, total_eq_share_add f m k]
  omega

theorem share_le_total (f : β → Nat) (m : ExtTreeMap α β cmp) (k : α) : share f m k ≤ total f m := by
  rw [total_eq_share_add f m k]
  omega

theorem share_erase_of_ne (f : β → Nat) (m : ExtTreeMap α β cmp) {k k' : α} (h : k ≠ k') :
    share f (m.erase k) k' = share f m k' := by
  have hc : ¬ cmp k k' = .eq := fun hc => h (LawfulEqCmp.eq_of_compare hc)
  simp [share, ExtTreeMap.getElem?_erase, hc]

theorem sum_share_le_total (f : β → Nat) {ks : List α} (h : ks.Nodup)
    (m : ExtTreeMap α β cmp) : (ks.map (share f m)).sum ≤ total f m := by
  induction ks generalizing m with
  | nil => simp
  | cons k ks ih =>
    obtain ⟨hk, hks⟩ := List.nodup_cons.mp h
    have hrest : ks.map (share f m) = ks.map (share f (m.erase k)) := by
      refine List.map_congr_left fun k' hk' => (share_erase_of_ne f m ?_).symm
      rintro rfl
      exact hk hk'
    rw [List.map_cons, List.sum_cons, hrest, total_eq_share_add f m k]
    exact Nat.add_le_add_left (ih hks (m.erase k)) _

end LinkMint.Lib

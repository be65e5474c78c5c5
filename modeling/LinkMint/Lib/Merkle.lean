import Mathlib.Data.List.Nodup
import Mathlib.Data.Set.Function
import Mathlib.Logic.Function.Iterate

/-!
# Merkle trees that double their last leaf

A root over a list of leaves, where a level of odd length joins its last element with itself: `[a, b, c]` and `[a,
b, c, c]` have the same one.
-/

namespace LinkMint.Lib.Merkle

variable {H : Type} (node : H → H → H)

/-! ## The tree -/

def pairs : List H → List (H × H)
  | [] => []
  | [x] => [(x, x)]
  | x :: y :: rest => (x, y) :: pairs rest

def level (xs : List H) : List H := (pairs xs).map fun p => node p.1 p.2

/-- The root, by at most `fuel` levels. -/
def rootWithin (empty : H) : Nat → List H → H
  | _, [] => empty
  | _, [x] => x
  | 0, x :: _ => x
  | fuel + 1, x :: y :: rest => rootWithin empty fuel (level node (x :: y :: rest))

def root (empty : H) (xs : List H) : H := rootWithin node empty xs.length xs

/-- What is joined on the way up, by at most `fuel` levels. -/
def joinsWithin : Nat → List H → List (H × H)
  | fuel + 1, x :: y :: rest =>
    pairs (x :: y :: rest) ++ joinsWithin fuel (level node (x :: y :: rest))
  | _, _ => []

def joins (xs : List H) : List (H × H) := joinsWithin node xs.length xs

/-! ## One level -/

@[simp] theorem pairs_nil : pairs ([] : List H) = [] := rfl

@[simp] theorem pairs_cons_cons (x y : H) (rest : List H) : pairs (x :: y :: rest) = (x, y) :: pairs rest := rfl

theorem length_pairs (xs : List H) : (pairs xs).length = (xs.length + 1) / 2 := by
  induction xs using pairs.induct with
  | case1 => simp
  | case2 x => simp [pairs]
  | case3 x y rest ih =>
    simp only [pairs_cons_cons, List.length_cons, ih]
    omega

theorem mem_of_mem_pairs {xs : List H} {p : H × H} (h : p ∈ pairs xs) : p.1 ∈ xs := by
  induction xs using pairs.induct with
  | case1 => cases h
  | case2 x =>
    rw [List.mem_singleton.mp h]
    exact List.mem_singleton_self x
  | case3 x y rest ih =>
    rcases List.mem_cons.mp h with rfl | hrest
    · exact List.mem_cons_self
    · exact List.mem_cons_of_mem _ (List.mem_cons_of_mem _ (ih hrest))

theorem nodup_pairs {xs : List H} (h : xs.Nodup) : (pairs xs).Nodup := by
  induction xs using pairs.induct with
  | case1 => exact List.nodup_nil
  | case2 x => exact List.nodup_singleton _
  | case3 x y rest ih =>
    rw [List.nodup_cons, List.nodup_cons] at h
    refine List.nodup_cons.mpr ⟨fun hmem => ?_, ih h.2.2⟩
    exact h.1 (List.mem_cons_of_mem _ (mem_of_mem_pairs hmem))

/-- Without repetition the pairs determine the level: a doubled element would be repeated. -/
theorem pairs_injective {xs ys : List H} (hx : xs.Nodup) (hy : ys.Nodup) (h : pairs xs = pairs ys) : xs = ys := by
  induction xs using pairs.induct generalizing ys with
  | case1 =>
    cases ys with
    | nil => rfl
    | cons y ys => cases ys <;> cases h
  | case2 x =>
    match ys, h with
    | [y], h =>
      cases h
      rfl
    | [y, y'], h =>
      cases h
      simp at hy
    | y :: y' :: y'' :: [], h => cases h
  | case3 x x' rest ih =>
    match ys, h with
    | [y], h =>
      obtain ⟨hpair, hrest⟩ := List.cons.inj h
      cases hpair
      simp at hx
    | y :: y' :: ys, h =>
      obtain ⟨hpair, hrest⟩ := List.cons.inj h
      cases hpair
      rw [List.nodup_cons, List.nodup_cons] at hx hy
      rw [ih hx.2.2 hy.2.2 hrest]

theorem level_ne_nil {xs : List H} (h : xs ≠ []) : level node xs ≠ [] := by
  match xs with
  | [x] => simp [level, pairs]
  | x :: y :: rest => simp [level]

def JoinsApart (js : List (H × H)) : Prop := Set.InjOn (fun p => node p.1 p.2) {p | p ∈ js}

variable {node}

theorem nodup_level {xs : List H} (h : xs.Nodup) (apart : JoinsApart node (pairs xs)) : (level node xs).Nodup :=
  List.Nodup.map_on (fun _ hp _ hq heq => apart hp hq heq) (nodup_pairs h)

theorem map_eq_map_of_determines {α β γ : Type} {f : α → β} {g : α → γ} {as bs : List α}
    (h : as.map f = bs.map f) (hfg : ∀ a ∈ as, ∀ b ∈ bs, f a = f b → g a = g b) : as.map g = bs.map g := by
  induction as generalizing bs with
  | nil =>
    cases bs with
    | nil => rfl
    | cons b bs => cases h
  | cons a as ih =>
    cases bs with
    | nil => cases h
    | cons b bs =>
      obtain ⟨hhead, htail⟩ := List.cons.inj h
      have hab : g a = g b := hfg a List.mem_cons_self b List.mem_cons_self hhead
      have hrest : as.map g = bs.map g :=
        ih htail fun a' ha b' hb => hfg a' (List.mem_cons_of_mem _ ha) b' (List.mem_cons_of_mem _ hb)
      rw [List.map_cons, List.map_cons, hab, hrest]

theorem map_injOn {α β : Type} {f : α → β} {as bs : List α}
    (inj : Set.InjOn f {a | a ∈ as ∨ a ∈ bs}) (h : as.map f = bs.map f) : as = bs := by
  have hid : as.map id = bs.map id := map_eq_map_of_determines h fun a ha b hb heq => inj (.inl ha) (.inr hb) heq
  rwa [List.map_id, List.map_id] at hid

/-! ## All levels -/

variable (node) in
theorem exists_levels (empty : H) {fuel : Nat} {xs : List H} (hne : xs ≠ []) (hfuel : xs.length ≤ fuel + 1) :
    ∃ k, (level node)^[k] xs = [rootWithin node empty fuel xs] ∧
      ∀ j < k, ∀ p ∈ pairs ((level node)^[j] xs), p ∈ joinsWithin node fuel xs := by
  induction fuel generalizing xs with
  | zero =>
    match xs with
    | [x] => exact ⟨0, rfl, fun j hj => absurd hj (Nat.not_lt_zero j)⟩
    | x :: y :: rest => simp at hfuel
  | succ fuel ih =>
    match xs with
    | [x] => exact ⟨0, rfl, fun j hj => absurd hj (Nat.not_lt_zero j)⟩
    | x :: y :: rest =>
      have hlen : (level node (x :: y :: rest)).length ≤ fuel + 1 := by
        rw [level, List.length_map, length_pairs]
        simp only [List.length_cons] at hfuel ⊢
        omega
      obtain ⟨k, hroot, hjoins⟩ := ih (level_ne_nil node (List.cons_ne_nil x _)) hlen
      refine ⟨k + 1, hroot, fun j hj p hp => List.mem_append.mpr ?_⟩
      cases j with
      | zero => exact .inl hp
      | succ j => exact .inr (hjoins j (Nat.lt_of_succ_lt_succ hj) p hp)

variable (node) in
theorem head?_level {xs : List H} {x : H} (h : xs.head? = some x) :
    ∃ y, (x, y) ∈ pairs xs ∧ (level node xs).head? = some (node x y) := by
  match xs, h with
  | [x], rfl => exact ⟨x, List.mem_singleton_self _, rfl⟩
  | x :: y :: rest, rfl => exact ⟨y, List.mem_cons_self, rfl⟩

theorem head?_levels {xs : List H} (hne : xs ≠ []) (k : Nat) : ∃ x, ((level node)^[k] xs).head? = some x := by
  have hk : (level node)^[k] xs ≠ [] := by
    induction k with
    | zero => exact hne
    | succ k ih =>
      rw [Function.iterate_succ_apply']
      exact level_ne_nil node ih
  exact ⟨_, List.head?_eq_some_head hk⟩

variable {js : List (H × H)} {xs ys : List H}

variable (node js) in
/-- The first `k` levels join what is listed. -/
def JoinsListed (k : Nat) (xs : List H) : Prop :=
  ∀ j < k, ∀ p ∈ pairs ((level node)^[j] xs), p ∈ js

theorem JoinsListed.spine {k : Nat} (h : JoinsListed node js (k + 1) xs) (hne : xs ≠ []) :
    ∃ x y, ((level node)^[k] xs).head? = some x ∧ (x, y) ∈ js ∧ ((level node)^[k + 1] xs).head? = some (node x y) := by
  obtain ⟨x, hx⟩ := head?_levels hne k
  obtain ⟨y, hmem, hnext⟩ := head?_level node hx
  refine ⟨x, y, hx, h k (Nat.lt_succ_self k) _ hmem, ?_⟩
  rw [Function.iterate_succ_apply']
  exact hnext

/-- **Trees that meet have the same height**: on the left spines a leaf of the lower would be a
    join of the higher. -/
theorem height_unique (apart : JoinsApart node js) (hx : xs ≠ []) (hy : ys ≠ [])
    (leaves : ∀ x, x ∈ xs ∨ x ∈ ys → ∀ p ∈ js, x ≠ node p.1 p.2) {k m : Nat}
    (hk : JoinsListed node js k xs) (hm : JoinsListed node js m ys)
    (h : ((level node)^[k] xs).head? = ((level node)^[m] ys).head?) : k = m := by
  induction k generalizing m with
  | zero =>
    cases m with
    | zero => rfl
    | succ m =>
      obtain ⟨y, z, -, hmem, hhead⟩ := hm.spine hy
      have hleaf : node y z ∈ xs := List.mem_of_head? (h.trans hhead)
      exact absurd rfl (leaves _ (.inl hleaf) _ hmem)
  | succ k ih =>
    obtain ⟨x, z, hxhead, hmem, hhead⟩ := hk.spine hx
    cases m with
    | zero =>
      have hleaf : node x z ∈ ys := List.mem_of_head? (h.symm.trans hhead)
      exact absurd rfl (leaves _ (.inr hleaf) _ hmem)
    | succ m =>
      obtain ⟨y, z', hyhead, hmem', hhead'⟩ := hm.spine hy
      rw [hhead, hhead'] at h
      obtain ⟨rfl, -⟩ := Prod.mk.inj (apart hmem hmem' (Option.some.inj h))
      rw [ih (fun j hj => hk j (Nat.lt_succ_of_lt hj)) (fun j hj => hm j (Nat.lt_succ_of_lt hj))
        (hxhead.trans hyhead.symm)]

theorem eq_of_levels_eq (apart : JoinsApart node js) {k : Nat} (hx : xs.Nodup) (hy : ys.Nodup)
    (hk : JoinsListed node js k xs) (hk' : JoinsListed node js k ys)
    (h : (level node)^[k] xs = (level node)^[k] ys) : xs = ys := by
  induction k generalizing xs ys with
  | zero => exact h
  | succ k ih =>
    have hpx : ∀ p ∈ pairs xs, p ∈ js := hk 0 (Nat.succ_pos k)
    have hpy : ∀ p ∈ pairs ys, p ∈ js := hk' 0 (Nat.succ_pos k)
    have hnx := nodup_level hx (apart.mono hpx)
    have hny := nodup_level hy (apart.mono hpy)
    have hlevel : level node xs = level node ys := ih hnx hny (fun j hj => hk (j + 1) (Nat.succ_lt_succ hj))
        (fun j hj => hk' (j + 1) (Nat.succ_lt_succ hj)) h
    refine pairs_injective hx hy (map_injOn (apart.mono ?_) hlevel)
    rintro p (hp | hp)
    · exact hpx p hp
    · exact hpy p hp

theorem root_nil (empty : H) : root node empty [] = empty := rfl

theorem root_ne_empty {empty : H} (hne : xs ≠ []) (leaves : ∀ x ∈ xs, x ≠ empty)
    (joined : ∀ p ∈ joins node xs, node p.1 p.2 ≠ empty) : root node empty xs ≠ empty := by
  obtain ⟨k, hroot, hk⟩ := exists_levels node empty hne (Nat.le_succ xs.length)
  have hhead : ((level node)^[k] xs).head? = some (root node empty xs) := by
    rw [hroot]
    rfl
  cases k with
  | zero => exact leaves _ (List.mem_of_head? hhead)
  | succ k =>
    have hlisted : JoinsListed node (joins node xs) (k + 1) xs := hk
    obtain ⟨x, y, -, hmem, hjoin⟩ := hlisted.spine hne
    rw [← Option.some.inj (hjoin.symm.trans hhead)]
    exact joined _ hmem

/-- **The root binds.** Between lists without repetition, if nothing that is joined on the way up
    collides, no leaf is a join, and the root of the empty tree is neither. -/
theorem root_injective {empty : H} (apart : JoinsApart node (joins node xs ++ joins node ys))
    (leaves : ∀ x, x ∈ xs ∨ x ∈ ys → x ≠ empty ∧ ∀ p ∈ joins node xs ++ joins node ys, x ≠ node p.1 p.2)
    (joined : ∀ p ∈ joins node xs ++ joins node ys, node p.1 p.2 ≠ empty)
    (hx : xs.Nodup) (hy : ys.Nodup) (h : root node empty xs = root node empty ys) : xs = ys := by
  have hroot_xs (hne : xs ≠ []) : root node empty xs ≠ empty :=
    root_ne_empty hne (fun x hx => (leaves x (.inl hx)).1) fun p hp =>
      joined p (List.mem_append_left _ hp)
  have hroot_ys (hne : ys ≠ []) : root node empty ys ≠ empty :=
    root_ne_empty hne (fun y hy => (leaves y (.inr hy)).1) fun p hp =>
      joined p (List.mem_append_right _ hp)
  by_cases hnx : xs = []
  · by_cases hny : ys = []
    · rw [hnx, hny]
    · rw [hnx, root_nil] at h
      exact absurd h.symm (hroot_ys hny)
  · by_cases hny : ys = []
    · rw [hny, root_nil] at h
      exact absurd h (hroot_xs hnx)
    · obtain ⟨k, hxs, hk⟩ := exists_levels node empty hnx (Nat.le_succ xs.length)
      obtain ⟨m, hys, hm⟩ := exists_levels node empty hny (Nat.le_succ ys.length)
      have hlisted : JoinsListed node (joins node xs ++ joins node ys) k xs :=
        fun j hj p hp => List.mem_append_left _ (hk j hj p hp)
      have hlisted' : JoinsListed node (joins node xs ++ joins node ys) m ys :=
        fun j hj p hp => List.mem_append_right _ (hm j hj p hp)
      have htops : (level node)^[k] xs = (level node)^[m] ys := by
        rw [hxs, hys]
        exact congrArg (fun r => [r]) h
      obtain rfl := height_unique apart hnx hny (fun x hx => (leaves x hx).2) hlisted hlisted'
        (congrArg List.head? htops)
      exact eq_of_levels_eq apart hx hy hlisted hlisted' htops

end LinkMint.Lib.Merkle

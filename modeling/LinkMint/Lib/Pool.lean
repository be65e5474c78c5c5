import LinkMint.Lib.MapTotal

/-!
# Pools

A pool keeps its items by key, and in one queue per group, ordered by rank.
-/

namespace LinkMint.Lib

open Std

structure RankSort {α : Type} (rank : α → Nat) where
  sort : List α → List α
  perm : ∀ l, (sort l).Perm l
  sorted : ∀ l, (sort l).Pairwise fun a b => rank a ≤ rank b

def RankSort.insertion {α : Type} (rank : α → Nat) : RankSort rank where
  sort l := l.insertionSort fun a b => rank a ≤ rank b
  perm l := List.perm_insertionSort _ l
  sorted l :=
    haveI : Std.Total fun a b : α => rank a ≤ rank b := ⟨fun a b => Nat.le_total (rank a) (rank b)⟩
    haveI : IsTrans α fun a b => rank a ≤ rank b := ⟨fun _ _ _ => Nat.le_trans⟩
    List.pairwise_insertionSort _ l

set_option linter.unusedSectionVars false

variable {α κ γ : Type} [Ord κ] [TransOrd κ] [LawfulEqOrd κ] [DecidableEq κ]
  [Ord γ] [TransOrd γ] [LawfulEqOrd γ] [DecidableEq γ]

def queueOf (queues : ExtTreeMap γ (List α)) (g : γ) : List α := (queues[g]?).getD []

structure Pool (key : α → κ) (group : α → γ) (rank : α → Nat) where
  items : ExtTreeMap κ α
  queues : ExtTreeMap γ (List α)
  filed : ∀ (k : κ) (a : α), items[k]? = some a → key a = k ∧ a ∈ queueOf queues (group a)
  held : ∀ (g : γ) (a : α), a ∈ queueOf queues g → group a = g ∧ items[key a]? = some a
  distinct : ∀ g : γ, ((queueOf queues g).map key).Nodup
  ordered : ∀ g : γ, (queueOf queues g).Pairwise fun a b => rank a ≤ rank b

theorem getElem?_erase_eq {β : Type} (m : ExtTreeMap κ β) (k k' : κ) :
    (m.erase k)[k']? = if k = k' then none else m[k']? := by
  rw [ExtTreeMap.getElem?_erase]
  simp only [LawfulEqCmp.compare_eq_iff_eq]

theorem eraseP_key {key : α → κ} {k : κ} {l : List α} (h : (l.map key).Nodup) :
    l.eraseP (fun a => key a = k) = l.filter fun a => key a ≠ k := by
  induction l with
  | nil => rfl
  | cons a l ih =>
    rw [List.map_cons, List.nodup_cons] at h
    by_cases hk : key a = k
    · have hrest : ∀ b ∈ l, decide (key b ≠ k) = true := by
        intro b hb
        refine decide_eq_true fun hkb => h.1 ?_
        rw [hk, ← hkb]
        exact List.mem_map_of_mem hb
      rw [List.eraseP_cons_of_pos (by simpa using hk), List.filter_cons_of_neg (by simpa using hk),
        List.filter_eq_self.mpr hrest]
    · rw [List.eraseP_cons_of_neg (by simpa using hk), List.filter_cons_of_pos (by simpa using hk), ih h.2]

theorem mem_front_of_rank_lt {rank : α → Nat} {front l : List α} {a b : α}
    (hl : l.Pairwise fun a b => rank a ≤ rank b) (hfront : front <+: l) (ha : a ∈ front)
    (hb : b ∈ l) (hlt : rank b < rank a) : b ∈ front := by
  obtain ⟨rest, rfl⟩ := hfront
  rcases List.mem_append.mp hb with hb | hb
  · exact hb
  · have hle := (List.pairwise_append.mp hl).2.2 a ha b hb
    exact absurd hlt (Nat.not_lt.mpr hle)

namespace Pool
variable {key : α → κ} {group : α → γ} {rank : α → Nat}

def queue (p : Pool key group rank) (g : γ) : List α := queueOf p.queues g

def empty : Pool key group rank where
  items := ∅
  queues := ∅
  filed k a h := by simp at h
  held g a h := by simp [queueOf] at h
  distinct g := by simp [queueOf]
  ordered g := by simp [queueOf]

section Insert

variable (p : Pool key group rank) (srt : RankSort rank) (a : α)

theorem queueOf_insert (queues : ExtTreeMap γ (List α)) (g g' : γ) (l : List α) :
    queueOf (queues.insert g l) g' = if g = g' then l else queueOf queues g' := by
  unfold queueOf
  rw [getElem?_insert_eq]
  split <;> rfl

theorem mem_sorted {l : List α} {b : α} : b ∈ srt.sort (l ++ [a]) ↔ b ∈ l ∨ b = a := by
  rw [(srt.perm _).mem_iff, List.mem_append, List.mem_singleton]

def insert (fresh : p.items[key a]? = none) : Pool key group rank where
  items := p.items.insert (key a) a
  queues := p.queues.insert (group a) (srt.sort (queueOf p.queues (group a) ++ [a]))
  filed k b hb := by
    rw [getElem?_insert_eq] at hb
    rw [queueOf_insert]
    split at hb
    · next hk =>
      cases hb
      refine ⟨hk, ?_⟩
      rw [if_pos rfl, mem_sorted]
      exact .inr rfl
    · obtain ⟨hkey, hmem⟩ := p.filed k b hb
      refine ⟨hkey, ?_⟩
      split
      · next hg =>
        rw [mem_sorted, hg]
        exact .inl hmem
      · exact hmem
  held g b hb := by
    rw [queueOf_insert] at hb
    -- an old item is not hidden by the new one: it has another key
    have hold : ∀ g, b ∈ queueOf p.queues g → group b = g ∧ (p.items.insert (key a) a)[key b]? = some b := by
      intro g hmem
      obtain ⟨hgroup, hfound⟩ := p.held g b hmem
      refine ⟨hgroup, ?_⟩
      rw [getElem?_insert_eq, if_neg, hfound]
      intro hkey
      rw [← hkey, fresh] at hfound
      cases hfound
    split at hb
    · next hg =>
      rw [mem_sorted] at hb
      rcases hb with hb | rfl
      · exact hg ▸ hold _ hb
      · refine ⟨hg, ?_⟩
        rw [getElem?_insert_eq, if_pos rfl]
    · exact hold g hb
  distinct g := by
    rw [queueOf_insert]
    split
    · rw [((srt.perm _).map key).nodup_iff, List.map_append, List.nodup_append]
      refine ⟨p.distinct _, by simp, ?_⟩
      intro k hk k' hk' hkk
      obtain ⟨b, hb, rfl⟩ := List.mem_map.mp hk
      have hfound := (p.held _ b hb).2
      have hka : k' = key a := by simpa using hk'
      rw [hkk, hka, fresh] at hfound
      cases hfound
    · exact p.distinct g
  ordered g := by
    rw [queueOf_insert]
    split
    · exact srt.sorted _
    · exact p.ordered g

variable (fresh : p.items[key a]? = none)

theorem items_insert (k : κ) : (p.insert srt a fresh).items[k]? = if key a = k then some a else p.items[k]? :=
  getElem?_insert_eq ..

theorem mem_queue_insert {g : γ} {b : α} : b ∈ (p.insert srt a fresh).queue g ↔ b ∈ p.queue g ∨ (b = a ∧ group a = g) := by
  show b ∈ queueOf (p.queues.insert _ _) g ↔ _
  rw [queueOf_insert]
  split
  · next hg =>
    rw [mem_sorted, hg]
    simp [queue]
  · next hg => simp [queue, hg]

theorem size_insert : (p.insert srt a fresh).items.size = p.items.size + 1 := by
  have hnot : p.items.contains (key a) = false := by
    rw [ExtTreeMap.contains_eq_isSome_getElem?, fresh]
    rfl
  show (p.items.insert _ _).size = _
  rw [ExtTreeMap.size_insert, hnot]
  rfl
end Insert

section Remove

variable (key) in
def dropKey (queues : ExtTreeMap γ (List α)) (g : γ) (k : κ) : ExtTreeMap γ (List α) :=
  let rest := (queueOf queues g).eraseP fun a => key a = k
  if rest.length = 0 then queues.erase g else queues.insert g rest

theorem queueOf_dropKey (queues : ExtTreeMap γ (List α)) (g g' : γ) (k : κ) (h : ((queueOf queues g).map key).Nodup) :
    queueOf (dropKey key queues g k) g' =
      if g = g' then (queueOf queues g').filter (fun a => key a ≠ k) else queueOf queues g' := by
  unfold dropKey
  simp only [eraseP_key h]
  split
  · next hlen =>
    rw [List.length_eq_zero_iff] at hlen
    unfold queueOf at hlen ⊢
    rw [getElem?_erase_eq]
    split
    · next hg =>
      rw [← hg, hlen]
      rfl
    · rfl
  · rw [queueOf_insert]
    split
    · next hg => rw [hg]
    · rfl

variable (p : Pool key group rank) (k : κ)

theorem filter_other {a : α} {g : γ} (found : p.items[k]? = some a) (hg : group a ≠ g) :
    (p.queue g).filter (fun b => key b ≠ k) = p.queue g := by
  refine List.filter_eq_self.mpr fun b hb => decide_eq_true fun hkb => hg ?_
  obtain ⟨hgroup, hfound⟩ := p.held g b hb
  rw [hkb, found] at hfound
  cases hfound
  exact hgroup

theorem queueOf_dropped {a : α} (found : p.items[k]? = some a) (g : γ) :
    queueOf (dropKey key p.queues (group a) k) g = (p.queue g).filter fun b => key b ≠ k := by
  rw [queueOf_dropKey _ _ _ _ (p.distinct _)]
  split
  · rfl
  · next hg => exact (p.filter_other k found hg).symm

def remove : Pool key group rank :=
  match found : p.items[k]? with
  | none => p
  | some a =>
    { items := p.items.erase k
      queues := dropKey key p.queues (group a) k
      filed := by
        intro k' b hb
        rw [getElem?_erase_eq] at hb
        split at hb
        · cases hb
        · next hne =>
          obtain ⟨hkey, hmem⟩ := p.filed k' b hb
          refine ⟨hkey, ?_⟩
          rw [p.queueOf_dropped k found, List.mem_filter]
          exact ⟨hmem, decide_eq_true fun hkb => hne (hkb.symm.trans hkey)⟩
      held := by
        intro g b hb
        rw [p.queueOf_dropped k found, List.mem_filter, decide_eq_true_eq] at hb
        obtain ⟨hgroup, hfound⟩ := p.held g b hb.1
        refine ⟨hgroup, ?_⟩
        rw [getElem?_erase_eq, if_neg fun hkb => hb.2 hkb.symm]
        exact hfound
      distinct := by
        intro g
        rw [p.queueOf_dropped k found]
        exact (p.distinct g).sublist (List.filter_sublist.map key)
      ordered := by
        intro g
        rw [p.queueOf_dropped k found]
        exact (p.ordered g).sublist List.filter_sublist }

theorem items_remove (k' : κ) : (p.remove k).items[k']? = if k = k' then none else p.items[k']? := by
  unfold remove
  split
  · next found =>
    split
    · next hk => rw [← hk, found]
    · rfl
  · exact getElem?_erase_eq ..

theorem queue_remove (g : γ) : (p.remove k).queue g = (p.queue g).filter fun b => key b ≠ k := by
  unfold remove
  split
  · next found =>
    refine (List.filter_eq_self.mpr fun b hb => decide_eq_true ?_).symm
    intro hkb
    have hfound := (p.held g b hb).2
    rw [hkb, found] at hfound
    cases hfound
  · next a found => exact p.queueOf_dropped k found g

theorem size_remove {a : α} (found : p.items[k]? = some a) : (p.remove k).items.size + 1 = p.items.size := by
  have hmem : k ∈ p.items := by
    rw [ExtTreeMap.mem_iff_isSome_getElem?, found]
    rfl
  have hpos : p.items.size ≠ 0 := by
    intro hzero
    rw [ExtTreeMap.eq_empty_iff_size_eq_zero.mpr hzero] at hmem
    simp at hmem
  unfold remove
  split
  · next hnone =>
    rw [found] at hnone
    cases hnone
  · show (p.items.erase k).size + 1 = p.items.size
    rw [ExtTreeMap.size_erase, if_pos (ExtTreeMap.mem_iff_contains.mp hmem)]
    omega

theorem size_remove_le : (p.remove k).items.size ≤ p.items.size := by
  cases found : p.items[k]? with
  | none =>
    have hsame : p.remove k = p := by
      unfold remove
      split
      · rfl
      · next hsome =>
        rw [found] at hsome
        cases hsome
    rw [hsame]
  | some a =>
    have hsize := p.size_remove k found
    omega
end Remove

/-! ## Batches -/

section Batch

variable (p : Pool key group rank)

def removeAll (l : List α) : Pool key group rank := l.foldl (fun p a => p.remove (key a)) p

theorem queue_removeAll (l : List α) (g : γ) : (p.removeAll l).queue g = (p.queue g).filter fun b => key b ∉ l.map key := by
  unfold removeAll
  induction l generalizing p with
  | nil => simp
  | cons a l ih =>
    rw [List.foldl_cons, ih, queue_remove, List.filter_filter]
    refine List.filter_congr fun b _ => ?_
    simp only [List.map_cons, List.mem_cons, not_or, ne_eq, Bool.decide_and, Bool.and_comm]

theorem items_removeAll (l : List α) (k : κ) : (p.removeAll l).items[k]? = if k ∈ l.map key then none else p.items[k]? := by
  unfold removeAll
  induction l generalizing p with
  | nil => simp
  | cons a l ih =>
    rw [List.foldl_cons, ih, items_remove, List.map_cons]
    by_cases hl : k ∈ l.map key
    · simp [hl]
    · by_cases ha : key a = k
      · simp [ha]
      · simp [hl, ha, Ne.symm ha]

theorem size_removeAll {l : List α} (hl : ∀ a ∈ l, p.items[key a]? = some a)
    (hn : (l.map key).Nodup) : (p.removeAll l).items.size + l.length = p.items.size := by
  unfold removeAll
  induction l generalizing p with
  | nil => rfl
  | cons a l ih =>
    rw [List.map_cons, List.nodup_cons] at hn
    have hrest : ∀ b ∈ l, (p.remove (key a)).items[key b]? = some b := by
      intro b hb
      have hne : key a ≠ key b := fun hk => hn.1 (hk ▸ List.mem_map_of_mem hb)
      rw [items_remove, if_neg hne]
      exact hl b (List.mem_cons_of_mem a hb)
    have hsize := p.size_remove (key a) (hl a List.mem_cons_self)
    have hih := ih (p.remove (key a)) hrest hn.2
    rw [List.foldl_cons, List.length_cons]
    omega

def inOrder : List α := p.queues.toList.flatMap (·.2)

theorem mem_inOrder {a : α} (h : a ∈ p.inOrder) : p.items[key a]? = some a := by
  obtain ⟨⟨g, l⟩, hentry, ha⟩ := List.mem_flatMap.mp h
  have hfound := ExtTreeMap.mem_toList_iff_getElem?_eq_some.mp hentry
  refine (p.held g a ?_).2
  rw [queueOf, hfound]
  exact ha

theorem queue_of_entry {g : γ} {l : List α} (h : (g, l) ∈ p.queues.toList) : p.queue g = l := by
  rw [queue, queueOf, ExtTreeMap.mem_toList_iff_getElem?_eq_some.mp h]
  rfl

theorem nodup_inOrder : (p.inOrder.map key).Nodup := by
  unfold inOrder
  rw [List.map_flatMap, List.nodup_flatMap]
  constructor
  · rintro ⟨g, l⟩ hentry
    have hdistinct := p.distinct g
    rw [← queue, p.queue_of_entry hentry] at hdistinct
    exact hdistinct
  · refine p.queues.distinct_keys_toList.imp_of_mem ?_
    rintro ⟨g, l⟩ ⟨g', l'⟩ hentry hentry' hne k hk hk'
    obtain ⟨a, ha, rfl⟩ := List.mem_map.mp hk
    obtain ⟨b, hb, hkey⟩ := List.mem_map.mp hk'
    rw [← p.queue_of_entry hentry] at ha
    rw [← p.queue_of_entry hentry'] at hb
    obtain ⟨hgroup, hfound⟩ := p.held g a ha
    obtain ⟨hgroup', hfound'⟩ := p.held g' b hb
    rw [hkey, hfound] at hfound'
    cases hfound'
    exact hne (LawfulEqCmp.compare_eq_iff_eq.mpr (hgroup.symm.trans hgroup'))

theorem flatMap_absent {g : γ} {L : List (γ × List α)} (h : ∀ e ∈ L, e.1 ≠ g) :
    (L.flatMap fun e => if e.1 = g then e.2 else []) = [] := by
  rw [List.flatMap_eq_nil_iff]
  intro e he
  rw [if_neg (h e he)]

theorem flatMap_present {g : γ} {l : List α} {L : List (γ × List α)}
    (hd : L.Pairwise fun e e' => e.1 ≠ e'.1) (h : (g, l) ∈ L) : (L.flatMap fun e => if e.1 = g then e.2 else []) = l := by
  induction L with
  | nil => cases h
  | cons e L ih =>
    rw [List.pairwise_cons] at hd
    rw [List.flatMap_cons]
    rcases List.mem_cons.mp h with rfl | hmem
    · rw [if_pos rfl, flatMap_absent fun e he heq => hd.1 e he heq.symm, List.append_nil]
    · rw [if_neg (hd.1 _ hmem), ih hd.2 hmem, List.nil_append]

theorem filter_inOrder (g : γ) : p.inOrder.filter (fun a => group a = g) = p.queue g := by
  have hentries : p.inOrder.filter (fun a => group a = g) =
      p.queues.toList.flatMap fun e => if e.1 = g then e.2 else [] := by
    unfold inOrder
    rw [List.filter_flatMap]
    refine List.flatMap_congr fun e he => ?_
    have hgroup : ∀ a ∈ e.2, group a = e.1 := by
      intro a ha
      rw [← p.queue_of_entry he] at ha
      exact (p.held e.1 a ha).1
    split
    · next hg => exact List.filter_eq_self.mpr fun a ha => decide_eq_true ((hgroup a ha).trans hg)
    · next hg =>
      refine List.filter_eq_nil_iff.mpr fun a ha => ?_
      rw [decide_eq_true_eq, hgroup a ha]
      exact hg
  rw [hentries]
  cases hfound : p.queues[g]? with
  | none =>
    rw [flatMap_absent, queue, queueOf, hfound]
    · rfl
    · rintro ⟨g', l⟩ he rfl
      rw [ExtTreeMap.mem_toList_iff_getElem?_eq_some, hfound] at he
      cases he
  | some l =>
    have hentry := ExtTreeMap.mem_toList_iff_getElem?_eq_some.mpr hfound
    rw [p.queue_of_entry hentry]
    refine flatMap_present (p.queues.distinct_keys_toList.imp fun hne heq => hne ?_) hentry
    exact LawfulEqCmp.compare_eq_iff_eq.mpr heq

theorem mem_inOrder_iff {a : α} : a ∈ p.inOrder ↔ p.items[key a]? = some a := by
  refine ⟨p.mem_inOrder, fun h => ?_⟩
  have hqueue : a ∈ p.queue (group a) := (p.filed (key a) a h).2
  rw [← p.filter_inOrder, List.mem_filter] at hqueue
  exact hqueue.1

theorem length_inOrder : p.inOrder.length = p.items.size := by
  have hperm : (p.inOrder.map key).Perm p.items.keys := by
    refine (List.perm_ext_iff_of_nodup p.nodup_inOrder p.items.nodup_keys).mpr fun k => ?_
    rw [ExtTreeMap.mem_keys, ExtTreeMap.mem_iff_isSome_getElem?, List.mem_map, Option.isSome_iff_exists]
    constructor
    · rintro ⟨a, ha, rfl⟩
      exact ⟨a, p.mem_inOrder ha⟩
    · rintro ⟨a, ha⟩
      obtain rfl := (p.filed k a ha).1
      exact ⟨a, p.mem_inOrder_iff.mpr ha, rfl⟩
  rw [← ExtTreeMap.length_keys, ← hperm.length_eq, List.length_map]

theorem sorted_inOrder : (p.inOrder.map group).Pairwise fun g g' => g = g' ∨ compare g g' = .lt := by
  have hgroup : ∀ e ∈ p.queues.toList, ∀ a ∈ e.2, group a = e.1 := by
    intro e he a ha
    rw [← p.queue_of_entry he] at ha
    exact (p.held e.1 a ha).1
  unfold inOrder
  rw [List.pairwise_map, List.pairwise_flatMap]
  constructor
  · intro e he
    refine List.pairwise_of_forall_mem_list fun a ha b hb => .inl ?_
    rw [hgroup e he a ha, hgroup e he b hb]
  · refine p.queues.ordered_keys_toList.imp_of_mem ?_
    intro e e' he he' hlt a ha b hb
    rw [hgroup e he a ha, hgroup e' he' b hb]
    exact .inr hlt
end Batch

section NoEmptyQueue

def NoEmptyQueue (p : Pool key group rank) : Prop := ∀ (g : γ) (l : List α), p.queues[g]? = some l → l ≠ []

variable {p : Pool key group rank}

theorem noEmptyQueue_empty : (empty : Pool key group rank).NoEmptyQueue := by
  intro g l h
  simp [empty] at h

theorem NoEmptyQueue.insert (h : p.NoEmptyQueue) (srt : RankSort rank) (a : α) (fresh : p.items[key a]? = none) :
    (p.insert srt a fresh).NoEmptyQueue := by
  intro g l hl
  change (p.queues.insert _ _)[g]? = some l at hl
  rw [getElem?_insert_eq] at hl
  split at hl
  · cases hl
    refine List.ne_nil_of_mem (a := a) ?_
    rw [mem_sorted]
    exact .inr rfl
  · exact h g l hl

theorem NoEmptyQueue.remove (h : p.NoEmptyQueue) (k : κ) : (p.remove k).NoEmptyQueue := by
  unfold Pool.remove
  split
  · exact h
  · next a found =>
    intro g l hl
    change (dropKey key p.queues (group a) k)[g]? = some l at hl
    unfold dropKey at hl
    simp only at hl
    split at hl
    · rw [getElem?_erase_eq] at hl
      split at hl
      · cases hl
      · exact h g l hl
    · next hlen =>
      rw [getElem?_insert_eq] at hl
      split at hl
      · cases hl
        exact fun hnil => hlen (by rw [hnil]; rfl)
      · exact h g l hl

theorem NoEmptyQueue.removeAll (h : p.NoEmptyQueue) (l : List α) : (p.removeAll l).NoEmptyQueue := by
  unfold Pool.removeAll
  induction l generalizing p with
  | nil => exact h
  | cons a l ih => exact ih (h.remove (key a))
end NoEmptyQueue
end Pool
end LinkMint.Lib

import Mathlib.Data.List.Nodup
import Mathlib.Data.List.Pairwise
import Mathlib.Logic.Relation
import LinkMint.Lib.Process

/-!
# Transactions on READ COMMITTED storage

A database is a set of rows under unique keys, and an outbox.
-/

namespace LinkMint.Lib

inductive Write (κ ρ ε : Type) where
  | insert (k : κ) (r : ρ)
  /-- `UPDATE` of some columns. -/
  | update (k : κ) (f : ρ → ρ)
  | delete (k : κ)
  | emit (e : ε)

structure Db (κ ρ ε : Type) where
  rows : List (κ × ρ) := []
  outbox : List ε := []
  history : List (Nat × List (Write κ ρ ε)) := []

variable {κ ρ ε : Type} [DecidableEq κ]

namespace Db
def find? (d : Db κ ρ ε) (k : κ) : Option ρ := (d.rows.find? fun r => r.1 = k).map (·.2)

def Keyed (d : Db κ ρ ε) : Prop := (d.rows.map Prod.fst).Nodup

omit [DecidableEq κ] in
theorem keyed_empty : ({} : Db κ ρ ε).Keyed := List.nodup_nil

theorem mem_of_find? {d : Db κ ρ ε} {k : κ} {r : ρ} (h : d.find? k = some r) : (k, r) ∈ d.rows := by
  obtain ⟨⟨k', r'⟩, hfound, rfl⟩ := Option.map_eq_some_iff.mp h
  have hk : k' = k := by simpa using List.find?_some hfound
  subst hk
  exact List.mem_of_find?_eq_some hfound

theorem find?_eq_none {d : Db κ ρ ε} {k : κ} : d.find? k = none ↔ ∀ r, (k, r) ∉ d.rows := by
  simp only [find?, Option.map_eq_none_iff, List.find?_eq_none, decide_eq_true_eq]
  constructor
  · exact fun h r hmem => h (k, r) hmem rfl
  · rintro h ⟨k', r⟩ hmem rfl
    exact h r hmem

theorem Keyed.find?_of_mem {d : Db κ ρ ε} (h : d.Keyed) {k : κ} {r : ρ} (hmem : (k, r) ∈ d.rows) : d.find? k = some r := by
  cases hfound : d.find? k with
  | none => exact absurd hmem (find?_eq_none.mp hfound r)
  | some r' =>
    have hsame := List.inj_on_of_nodup_map h (mem_of_find? hfound) hmem rfl
    rw [(Prod.mk.inj hsame).2]
end Db

namespace Write
def key? : Write κ ρ ε → Option κ
  | .insert k _ | .update k _ | .delete k => some k
  | .emit _ => none

def apply : Write κ ρ ε → Db κ ρ ε → Db κ ρ ε
  | .insert k r, d => { d with rows := d.rows ++ [(k, r)] }
  | .update k f, d => { d with rows := d.rows.map fun r => if r.1 = k then (r.1, f r.2) else r }
  | .delete k, d => { d with rows := d.rows.filter fun r => r.1 ≠ k }
  | .emit e, d => { d with outbox := d.outbox ++ [e] }

/-- An `INSERT` finds no row with its key, an `UPDATE` finds its row. -/
def allowed : Write κ ρ ε → Db κ ρ ε → Bool
  | .insert k _, d => (d.find? k).isNone
  | .update k _, d => (d.find? k).isSome
  | _, _ => true

variable {w : Write κ ρ ε} {d : Db κ ρ ε} {k : κ}

/-- What it does to the row with key `k`. -/
def effect (k : κ) : Write κ ρ ε → Option ρ → Option ρ
  | .insert k' r, row => if k' = k then some (row.getD r) else row
  | .update k' f, row => if k' = k then row.map f else row
  | .delete k', row => if k' = k then none else row
  | .emit _, row => row

theorem find?_insert {k' : κ} {r : ρ} :
    ((insert k' r).apply d).find? k = if k' = k then some ((d.find? k).getD r) else d.find? k := by
  simp only [Db.find?, apply, List.find?_append]
  by_cases hk : k' = k
  · cases d.rows.find? fun r => decide (r.1 = k) <;> simp [hk]
  · simp [hk]

theorem find?_update {k' : κ} {f : ρ → ρ} :
    ((update k' f).apply d).find? k = if k' = k then (d.find? k).map f else d.find? k := by
  simp only [Db.find?, apply]
  induction d.rows with
  | nil => simp
  | cons r rows ih =>
    by_cases hr : r.1 = k <;> by_cases hr' : r.1 = k'
    · simp [hr, ← hr']
    · have hne : ¬ k' = k := fun heq => hr' (hr.trans heq.symm)
      simp [hr, hne, Ne.symm hne]
    · have hne : ¬ k' = k := fun heq => hr (hr'.trans heq)
      simpa [hr, hr', hne] using ih
    · simpa [hr, hr'] using ih

theorem find?_delete {k' : κ} : ((delete k').apply d).find? k = if k' = k then none else d.find? k := by
  split
  · subst k'
    rw [Db.find?_eq_none]
    simp [apply]
  · simp only [Db.find?, apply, List.find?_filter]
    congr 2
    funext r
    by_cases hr : r.1 = k
    · simp [hr, Ne.symm ‹_›]
    · simp [hr]

theorem find?_apply : (w.apply d).find? k = w.effect k (d.find? k) := by
  cases w with
  | insert k' r => exact find?_insert
  | update k' f => exact find?_update
  | delete k' => exact find?_delete
  | emit e => rfl

theorem find?_apply_of_ne (h : w.key? ≠ some k) : (w.apply d).find? k = d.find? k := by
  rw [find?_apply]
  cases w with
  | insert k' r => exact if_neg fun heq => h (congrArg some heq)
  | update k' f => exact if_neg fun heq => h (congrArg some heq)
  | delete k' => exact if_neg fun heq => h (congrArg some heq)
  | emit e => rfl

theorem keyed_apply (h : d.Keyed) (hallowed : w.allowed d = true) : (w.apply d).Keyed := by
  cases w with
  | insert k r =>
    have habsent := Db.find?_eq_none.mp (Option.isNone_iff_eq_none.mp hallowed)
    simp only [Db.Keyed, apply, List.map_append, List.map_cons, List.map_nil]
    refine List.nodup_append.mpr ⟨h, List.nodup_singleton k, ?_⟩
    intro k' hk' k'' hk''
    obtain ⟨⟨_, r'⟩, hmem, rfl⟩ := List.mem_map.mp hk'
    rw [List.mem_singleton.mp hk'']
    rintro rfl
    exact habsent r' hmem
  | update k f =>
    have hkeys : (d.rows.map fun r => if r.1 = k then (r.1, f r.2) else r).map Prod.fst = d.rows.map Prod.fst := by
      rw [List.map_map]
      refine List.map_congr_left fun r _ => ?_
      simp only [Function.comp]
      split_ifs <;> rfl
    rw [Db.Keyed, apply, hkeys]
    exact h
  | delete k => exact h.sublist (List.filter_sublist.map _)
  | emit e => exact h

theorem allowed_congr {d' : Db κ ρ ε} (h : ∀ k, w.key? = some k → d'.find? k = d.find? k) : w.allowed d' = w.allowed d := by
  cases w with
  | insert k r => rw [allowed, allowed, h k rfl]
  | update k f => rw [allowed, allowed, h k rfl]
  | delete k => rfl
  | emit e => rfl
end Write

/-! ## Several writes -/

def applyAll (ws : List (Write κ ρ ε)) (d : Db κ ρ ε) : Db κ ρ ε := ws.foldl (fun d w => w.apply d) d

def allowedAll : List (Write κ ρ ε) → Db κ ρ ε → Bool
  | [], _ => true
  | w :: ws, d => w.allowed d && allowedAll ws (w.apply d)

def Write.event? : Write κ ρ ε → Option ε
  | .emit e => some e
  | _ => none

def emitted (ws : List (Write κ ρ ε)) : List ε := ws.filterMap Write.event?

/-- Request `n` commits its writes. -/
def Db.transact (d : Db κ ρ ε) (n : Nat) (ws : List (Write κ ρ ε)) : Db κ ρ ε :=
  { applyAll ws d with history := d.history ++ [(n, ws)] }

section
variable {ws : List (Write κ ρ ε)} {d d' : Db κ ρ ε} {k : κ}

theorem applyAll_append (ws ws' : List (Write κ ρ ε)) (d : Db κ ρ ε) :
    applyAll (ws ++ ws') d = applyAll ws' (applyAll ws d) :=
  List.foldl_append

theorem allowedAll_append (ws ws' : List (Write κ ρ ε)) (d : Db κ ρ ε) :
    allowedAll (ws ++ ws') d = (allowedAll ws d && allowedAll ws' (applyAll ws d)) := by
  induction ws generalizing d with
  | nil => rfl
  | cons w ws ih => simp only [List.cons_append, allowedAll, ih, applyAll, List.foldl_cons, Bool.and_assoc]

theorem applyAll_emit (es : List ε) (d : Db κ ρ ε) :
    applyAll (es.map .emit) d = { d with outbox := d.outbox ++ es } := by
  induction es generalizing d with
  | nil => simp [applyAll]
  | cons e es ih =>
    rw [List.map_cons, applyAll, List.foldl_cons, ← applyAll, ih]
    simp [Write.apply]

omit [DecidableEq κ] in
theorem emitted_append (ws ws' : List (Write κ ρ ε)) : emitted (ws ++ ws') = emitted ws ++ emitted ws' :=
  List.filterMap_append

theorem outbox_applyAll : (applyAll ws d).outbox = d.outbox ++ emitted ws := by
  induction ws generalizing d with
  | nil => simp [applyAll, emitted]
  | cons w ws ih =>
    rw [applyAll, List.foldl_cons, ← applyAll, ih]
    cases w <;> simp [Write.apply, emitted, Write.event?, List.filterMap_cons]

theorem find?_applyAll : (applyAll ws d).find? k = ws.foldl (fun row w => w.effect k row) (d.find? k) := by
  induction ws generalizing d with
  | nil => rfl
  | cons w ws ih => rw [applyAll, List.foldl_cons, ← applyAll, ih, Write.find?_apply, List.foldl_cons]

theorem find?_applyAll_keeps {P : ρ → Prop}
    (h : ∀ w ∈ ws, ∀ row, P row → ∃ row', w.effect k (some row) = some row' ∧ P row') {row : ρ}
    (hfound : d.find? k = some row) (hrow : P row) : ∃ row', (applyAll ws d).find? k = some row' ∧ P row' := by
  induction ws generalizing d row with
  | nil => exact ⟨row, hfound, hrow⟩
  | cons w ws ih =>
    obtain ⟨row₁, heffect, hrow₁⟩ := h w List.mem_cons_self row hrow
    have hfound₁ : (w.apply d).find? k = some row₁ := by rw [Write.find?_apply, hfound, heffect]
    exact ih (fun w' hw' => h w' (List.mem_cons_of_mem _ hw')) hfound₁ hrow₁

theorem find?_applyAll_reaches {P P' : ρ → Prop}
    (h : ∀ w ∈ ws, ∀ row, P row → ∃ row', w.effect k (some row) = some row' ∧ P row')
    (h' : ∀ w ∈ ws, ∀ row, P' row → ∃ row', w.effect k (some row) = some row' ∧ P' row') {w : Write κ ρ ε} (hw : w ∈ ws)
    (hturns : ∀ row, P row → ∃ row', w.effect k (some row) = some row' ∧ P' row') {row : ρ}
    (hfound : d.find? k = some row) (hrow : P row) : ∃ row', (applyAll ws d).find? k = some row' ∧ P' row' := by
  obtain ⟨before, after, rfl⟩ := List.append_of_mem hw
  obtain ⟨row₁, hfound₁, hrow₁⟩ := find?_applyAll_keeps (fun x hx => h x (List.mem_append_left _ hx)) hfound hrow
  obtain ⟨row₂, heffect, hrow₂⟩ := hturns row₁ hrow₁
  have hfound₂ : (w.apply (applyAll before d)).find? k = some row₂ := by rw [Write.find?_apply, hfound₁, heffect]
  have hrest : ∃ row', (applyAll after (w.apply (applyAll before d))).find? k = some row' ∧ P' row' :=
    find?_applyAll_keeps (fun x hx => h' x (List.mem_append_right _ (List.mem_cons_of_mem _ hx))) hfound₂ hrow₂
  rw [applyAll_append]
  exact hrest

theorem find?_applyAll_eq_none (h : ∀ row, .insert k row ∉ ws) (hd : d.find? k = none) : (applyAll ws d).find? k = none := by
  induction ws generalizing d with
  | nil => exact hd
  | cons w ws ih =>
    refine ih (fun row hmem => h row (List.mem_cons_of_mem _ hmem)) ?_
    rw [Write.find?_apply, hd]
    cases w with
    | insert k' row =>
      have hne : k' ≠ k := fun heq => h row (heq ▸ List.mem_cons_self)
      exact if_neg hne
    | update k' f => exact ite_self none
    | delete k' => exact ite_self none
    | emit e => rfl

@[simp] theorem find?_transact {n : Nat} : (d.transact n ws).find? k = (applyAll ws d).find? k := rfl

theorem find?_applyAll_of_ne (h : ∀ w ∈ ws, w.key? ≠ some k) : (applyAll ws d).find? k = d.find? k := by
  induction ws generalizing d with
  | nil => rfl
  | cons w ws ih =>
    rw [applyAll, List.foldl_cons, ← applyAll, ih fun w' hw' => h w' (List.mem_cons_of_mem _ hw')]
    exact Write.find?_apply_of_ne (h w List.mem_cons_self)

theorem keyed_applyAll (hkeyed : d.Keyed) (hallowed : allowedAll ws d = true) : (applyAll ws d).Keyed := by
  induction ws generalizing d with
  | nil => exact hkeyed
  | cons w ws ih =>
    rw [allowedAll, Bool.and_eq_true] at hallowed
    exact ih (Write.keyed_apply hkeyed hallowed.1) hallowed.2

theorem allowedAll_congr (h : ∀ w ∈ ws, ∀ k, w.key? = some k → d'.find? k = d.find? k) :
    allowedAll ws d' = allowedAll ws d := by
  induction ws generalizing d d' with
  | nil => rfl
  | cons w ws ih =>
    have hrest : allowedAll ws (w.apply d') = allowedAll ws (w.apply d) := by
      refine ih fun w' hw' k hk => ?_
      rw [Write.find?_apply, Write.find?_apply, h w' (List.mem_cons_of_mem _ hw') k hk]
    rw [allowedAll, allowedAll, hrest, Write.allowed_congr fun k hk => h w List.mem_cons_self k hk]
end

/-! ## The store -/

/-- What is committed, and what the open transactions have written, each under its request's number. -/
structure Store (κ ρ ε : Type) where
  committed : Db κ ρ ε := {}
  pending : List (Nat × Write κ ρ ε) := []

namespace Store
def own (s : Store κ ρ ε) (n : Nat) : List (Write κ ρ ε) := (s.pending.filter fun p => p.1 = n).map (·.2)

/-- What request `n` sees. -/
def view (s : Store κ ρ ε) (n : Nat) : Db κ ρ ε := applyAll (s.own n) s.committed

def unlocked (s : Store κ ρ ε) (n : Nat) (w : Write κ ρ ε) : Bool :=
  s.pending.all fun p => p.1 = n || w.key?.isNone || p.2.key? != w.key?

def rollback (s : Store κ ρ ε) (n : Nat) : Store κ ρ ε :=
  { s with pending := s.pending.filter fun p => p.1 ≠ n }

def commit (s : Store κ ρ ε) (n : Nat) : Store κ ρ ε :=
  { s.rollback n with committed := s.committed.transact n (s.own n) }

def flushed (s : Store κ ρ ε) (n : Nat) (ws : List (Write κ ρ ε)) : Store κ ρ ε :=
  { s with pending := s.pending ++ ws.map fun w => (n, w) }

/-- The statements wait for the rows they lock; a constraint that fails ends the transaction. -/
def flush (s : Store κ ρ ε) (n : Nat) (ws : List (Write κ ρ ε)) : Option (Except String Unit × Store κ ρ ε) :=
  if ws.all (s.unlocked n) then
    if allowedAll ws (s.view n) then some (.ok (), s.flushed n ws) else some (.error "constraint", s.rollback n)
  else none

structure Sound (s : Store κ ρ ε) : Prop where
  keyed : s.committed.Keyed
  exclusive : ∀ p ∈ s.pending, ∀ q ∈ s.pending, ∀ k, p.2.key? = some k → q.2.key? = some k → p.1 = q.1
  possible : ∀ n, allowedAll (s.own n) s.committed = true

section
variable {s : Store κ ρ ε} {n m : Nat} {ws : List (Write κ ρ ε)}

omit [DecidableEq κ] in
theorem mem_own {w : Write κ ρ ε} : w ∈ s.own n ↔ (n, w) ∈ s.pending := by
  simp [own]

omit [DecidableEq κ] in
@[simp] theorem own_flushed_self : (s.flushed n ws).own n = s.own n ++ ws := by
  simp [own, flushed, List.filter_append, List.filter_map, Function.comp_def]

omit [DecidableEq κ] in
theorem own_flushed_ne (h : m ≠ n) : (s.flushed n ws).own m = s.own m := by
  simp [own, flushed, List.filter_append, List.filter_map, Function.comp_def, Ne.symm h]

omit [DecidableEq κ] in
@[simp] theorem own_rollback_self : (s.rollback n).own n = [] := by
  simp [own, rollback]

omit [DecidableEq κ] in
theorem own_rollback_ne (h : m ≠ n) : (s.rollback n).own m = s.own m := by
  simp only [own, rollback, List.filter_filter]
  congr 1
  refine List.filter_congr fun p _ => ?_
  by_cases hp : p.1 = m
  · simp [hp, h]
  · simp [hp]

@[simp] theorem own_commit_self : (s.commit n).own n = [] := own_rollback_self

theorem own_commit_ne (h : m ≠ n) : (s.commit n).own m = s.own m := own_rollback_ne h

@[simp] theorem committed_commit : (s.commit n).committed = s.committed.transact n (s.own n) := rfl

theorem flush_cases {r : Except String Unit} {s' : Store κ ρ ε} (h : s.flush n ws = some (r, s')) :
    (r = .ok () ∧ s' = s.flushed n ws ∧ ws.all (s.unlocked n) = true ∧ allowedAll ws (s.view n) = true) ∨
      (r ≠ .ok () ∧ s' = s.rollback n) := by
  unfold flush at h
  split at h
  · next hfree =>
    split at h
    · next hallowed =>
      cases h
      exact .inl ⟨rfl, rfl, hfree, hallowed⟩
    · cases h
      exact .inr ⟨by simp, rfl⟩
  · cases h

theorem sound_of_idle {d : Db κ ρ ε} (h : d.Keyed) : ({ committed := d } : Store κ ρ ε).Sound where
  keyed := h
  exclusive x hx := by cases hx
  possible _ := rfl

theorem Sound.find?_commit (h : s.Sound) (hm : m ≠ n) {w : Write κ ρ ε} (hw : w ∈ s.own n) {k : κ}
    (hk : w.key? = some k) : (s.commit m).committed.find? k = s.committed.find? k := by
  rw [committed_commit, find?_transact]
  refine find?_applyAll_of_ne fun w' hw' hk' => ?_
  exact hm (h.exclusive _ (mem_own.mp hw') _ (mem_own.mp hw) k hk' hk)

theorem Sound.rollback (h : s.Sound) (n : Nat) : (s.rollback n).Sound where
  keyed := h.keyed
  exclusive p hp q hq := h.exclusive p (List.mem_filter.mp hp).1 q (List.mem_filter.mp hq).1
  possible m := by
    by_cases hm : m = n
    · subst hm
      rw [own_rollback_self]
      rfl
    · rw [own_rollback_ne hm]
      exact h.possible m

theorem Sound.commit (h : s.Sound) (n : Nat) : (s.commit n).Sound where
  keyed := keyed_applyAll h.keyed (h.possible n)
  exclusive := (h.rollback n).exclusive
  possible m := by
    by_cases hm : m = n
    · subst hm
      rw [own_commit_self]
      rfl
    · rw [own_commit_ne hm, allowedAll_congr fun w hw k hk => h.find?_commit (Ne.symm hm) hw hk]
      exact h.possible m

theorem Sound.flushed (h : s.Sound) (hfree : ws.all (s.unlocked n) = true)
    (hallowed : allowedAll ws (s.view n) = true) : (s.flushed n ws).Sound where
  keyed := h.keyed
  exclusive := by
    have hnew : ∀ w ∈ ws, ∀ p ∈ s.pending, ∀ k, w.key? = some k → p.2.key? = some k → p.1 = n := by
      intro w hw p hp k hk hpk
      have hp' := List.all_eq_true.mp (List.all_eq_true.mp hfree w hw) p hp
      simpa [hk, hpk] using hp'
    intro p hp q hq k hpk hqk
    simp only [Store.flushed, List.mem_append, List.mem_map] at hp hq
    rcases hp with hp | ⟨w, hw, rfl⟩
    · rcases hq with hq | ⟨w', hw', rfl⟩
      · exact h.exclusive p hp q hq k hpk hqk
      · exact hnew w' hw' p hp k hqk hpk
    · rcases hq with hq | ⟨w', hw', rfl⟩
      · exact (hnew w hw q hq k hpk hqk).symm
      · rfl
  possible m := by
    by_cases hm : m = n
    · subst hm
      rw [own_flushed_self, allowedAll_append, Bool.and_eq_true]
      exact ⟨h.possible m, hallowed⟩
    · rw [own_flushed_ne hm]
      exact h.possible m
end
end Store

/-! ## Programs over a store -/

inductive TxOp (Q X κ ρ ε : Type) where
  | query (q : Q)
  | flush (ws : List (Write κ ρ ε))
  | commit
  | ask (x : X)

def TxOp.Answer {Q X κ ρ ε : Type} (A : Q → Type) (B : X → Type) : TxOp Q X κ ρ ε → Type
  | .query q => Except String (A q)
  | .flush _ | .commit => Except String Unit
  | .ask x => B x

abbrev TxProg {Q X : Type} (A : Q → Type) (B : X → Type) (κ ρ ε α : Type) : Type :=
  Prog (TxOp Q X κ ρ ε) (TxOp.Answer A B) α

namespace TxProg
variable {Q X : Type} {A : Q → Type} {B : X → Type} {κ ρ ε : Type}

def query (q : Q) : TxProg A B κ ρ ε (Except String (A q)) := .call (.query q) .ret

def flush (ws : List (Write κ ρ ε)) : TxProg A B κ ρ ε (Except String Unit) := .call (.flush ws) .ret

def commit : TxProg A B κ ρ ε (Except String Unit) := .call .commit .ret

def ask (x : X) : TxProg A B κ ρ ε (B x) := .call (.ask x) .ret
end TxProg

/-- Why a request has no result: its service raised `e`, or a statement failed. -/
inductive Failure (E : Type) where
  | raised (e : E)
  | statement (message : String)
  deriving DecidableEq

abbrev TxAct {Q X : Type} (A : Q → Type) (B : X → Type) (κ ρ ε E α : Type) : Type :=
  ExceptT (Failure E) (TxProg A B κ ρ ε) α

namespace TxAct
variable {Q X : Type} {A : Q → Type} {B : X → Type} {κ ρ ε E α : Type}

def statement (p : TxProg A B κ ρ ε (Except String α)) : TxAct A B κ ρ ε E α :=
  ExceptT.mk (p >>= fun a => pure (a.mapError .statement))

def query (q : Q) : TxAct A B κ ρ ε E (A q) := statement (.query q)

def flush (ws : List (Write κ ρ ε)) : TxAct A B κ ρ ε E Unit := statement (.flush ws)

def commit : TxAct A B κ ρ ε E Unit := statement .commit

def ask (x : X) : TxAct A B κ ρ ε E (B x) := ExceptT.lift (.ask x)

def raise (e : E) : TxAct A B κ ρ ε E α := throw (.raised e)

def require (p : Prop) [Decidable p] (e : E) : TxAct A B κ ρ ε E Unit := if p then pure () else raise e

def onError (p : TxAct A B κ ρ ε E α) (cleanup : TxAct A B κ ρ ε E Unit) : TxAct A B κ ρ ε E α :=
  ExceptT.mk do
    match ← p.run with
    | .ok a => return .ok a
    | .error e =>
      match ← cleanup.run with
      | .ok _ => return .error e
      | .error e => return .error e
end TxAct

inductive TxChoice (γ : Type) where
  | ok
  | failed (message : String)
  | lost (message : String)
  | env (c : γ)

structure TxWorld (κ ρ ε τ : Type) where
  store : Store κ ρ ε := {}
  gone : List Nat := []
  rest : τ

/-- The process of request `n` crashes: the server rolls its transaction back. -/
def TxWorld.crash {κ ρ ε τ : Type} (w : TxWorld κ ρ ε τ) (n : Nat) : TxWorld κ ρ ε τ :=
  { w with store := w.store.rollback n, gone := n :: w.gone }

structure Backend {Q X : Type} (A : Q → Type) (B : X → Type) (κ ρ ε τ γ : Type) where
  read : (q : Q) → Db κ ρ ε → A q
  ask : Nat → τ → (x : X) → γ → Option (B x × τ)

section Programs

variable {Q X : Type} {A : Q → Type} {B : X → Type} {τ γ π α : Type}

def serveQuery {β : Type} (w : TxWorld κ ρ ε τ) (n : Nat) (read : Db κ ρ ε → β) :
    TxChoice γ → Option (Except String β × TxWorld κ ρ ε τ)
  | .ok => some (.ok (read (w.store.view n)), w)
  | .failed m | .lost m => some (.error m, { w with store := w.store.rollback n })
  | .env _ => none

def serveFlush (w : TxWorld κ ρ ε τ) (n : Nat) (ws : List (Write κ ρ ε)) :
    TxChoice γ → Option (Except String Unit × TxWorld κ ρ ε τ)
  | .ok => (w.store.flush n ws).map fun x => (x.1, { w with store := x.2 })
  | .failed m | .lost m => some (.error m, { w with store := w.store.rollback n })
  | .env _ => none

def serveCommit (w : TxWorld κ ρ ε τ) (n : Nat) : TxChoice γ → Option (Except String Unit × TxWorld κ ρ ε τ)
  | .ok => some (.ok (), { w with store := w.store.commit n })
  | .failed m => some (.error m, { w with store := w.store.rollback n })
  | .lost m => some (.error m, { w with store := w.store.commit n })
  | .env _ => none

def serveAsk {β : Type} (w : TxWorld κ ρ ε τ) (ask : γ → Option (β × τ)) : TxChoice γ → Option (β × TxWorld κ ρ ε τ)
  | .env c => (ask c).map fun x => (x.1, { w with rest := x.2 })
  | _ => none

/-- Serves a call of request `n`, whose process has not crashed. -/
def serveLive (P : Backend A B κ ρ ε τ γ) (n : Nat) (w : TxWorld κ ρ ε τ) :
    (i : TxOp Q X κ ρ ε) → TxChoice γ → Option (i.Answer A B × TxWorld κ ρ ε τ)
  | .query q => serveQuery w n (P.read q)
  | .flush ws => serveFlush w n ws
  | .commit => serveCommit w n
  | .ask x => serveAsk w (P.ask n w.rest x)

def serveTx (P : Backend A B κ ρ ε τ γ) (n : Nat) (_ : π) (w : TxWorld κ ρ ε τ) (i : TxOp Q X κ ρ ε)
    (c : TxChoice γ) : Option (i.Answer A B × TxWorld κ ρ ε τ) :=
  if n ∈ w.gone then none else serveLive P n w i c

theorem serveTx_eq_some {P : Backend A B κ ρ ε τ γ} {n : Nat} {r : π} {w : TxWorld κ ρ ε τ}
    {i : TxOp Q X κ ρ ε} {c : TxChoice γ} {x : i.Answer A B × TxWorld κ ρ ε τ} (h : serveTx P n r w i c = some x) :
    n ∉ w.gone ∧ serveLive P n w i c = some x := by
  rw [serveTx] at h
  split at h
  · cases h
  · exact ⟨‹_›, h⟩

def txSystem {E : Type} (P : Backend A B κ ρ ε τ γ) (handle : π → TxAct A B κ ρ ε E α) :
    System (TxOp Q X κ ρ ε) (TxOp.Answer A B) π (TxWorld κ ρ ε τ) (TxChoice γ) Nat (Except (Failure E) α) where
  main r := (handle r).run
  serve := serveTx P
  drift := TxWorld.crash

/-- What is kept true of the committed rows and the rest of the world, the transactions a request may commit, and
    conditions on the commits and on the questions of a run. -/
structure TxContract (X κ ρ ε τ π : Type) where
  inv : Db κ ρ ε → τ → Prop
  does : π → List (Write κ ρ ε) → Prop
  commits : π → List (Write κ ρ ε) → Db κ ρ ε → Prop
  asks : π → X → Db κ ρ ε → τ → Prop := fun _ _ _ _ => True

inductive TxContract.Transaction (T : TxContract X κ ρ ε τ π) (d : Db κ ρ ε) : Db κ ρ ε → Prop
  | of (n : Nat) {r : π} {ws : List (Write κ ρ ε)} (does : T.does r ws) (commits : T.commits r ws d)
      (keyed : d.Keyed) (allowed : allowedAll ws d = true) : Transaction T d (d.transact n ws)

abbrev TxContract.Evolves (T : TxContract X κ ρ ε τ π) : Db κ ρ ε → Db κ ρ ε → Prop :=
  Relation.ReflTransGen T.Transaction

/-- Request `n` is holding back `ws`, unless it has crashed, and has done nothing else than it may. -/
structure TxContract.Holding (T : TxContract X κ ρ ε τ π) (n : Nat) (r : π) (ws : List (Write κ ρ ε))
    (w : TxWorld κ ρ ε τ) : Prop where
  own : n ∉ w.gone → w.store.own n = ws
  did : ∀ ws', (n, ws') ∈ w.store.committed.history → T.does r ws'

/-- What request `n` can count on while others move. -/
structure TxContract.Rely (T : TxContract X κ ρ ε τ π) (n : Nat) (w w' : TxWorld κ ρ ε τ) : Prop where
  gone : n ∈ w.gone → n ∈ w'.gone
  own : n ∉ w'.gone → w'.store.own n = w.store.own n
  grows : T.Evolves w.store.committed w'.store.committed
  mine : ∀ ws, (n, ws) ∈ w'.store.committed.history → (n, ws) ∈ w.store.committed.history
  locked : n ∉ w'.gone → ∀ x ∈ w.store.own n, ∀ k, x.key? = some k →
    w'.store.committed.find? k = w.store.committed.find? k

def TxContract.contract (T : TxContract X κ ρ ε τ π) : Contract (TxOp Q X κ ρ ε) π (TxWorld κ ρ ε τ) (TxChoice γ) where
  inv w := w.store.Sound ∧ T.inv w.store.committed w.rest
  guard n r w i _ :=
    match i with
    | .commit => T.commits r (w.store.own n) w.store.committed
    | .ask x => T.asks r x w.store.committed w.rest
    | _ => True
  rely := T.Rely
  fresh n w := (n ∉ w.gone → w.store.own n = []) ∧ ∀ ws, (n, ws) ∉ w.store.committed.history
  always n r w := ∀ ws, (n, ws) ∈ w.store.committed.history → T.does r ws

/-- The request that is about to commit, if process `n` is at a commit. -/
def atCommit? (c : Config (TxOp Q X κ ρ ε) (TxOp.Answer A B) π (TxWorld κ ρ ε τ) α) (n : Nat) : Option π :=
  match c.procs[n]? with
  | some (r, .call .commit _) => some r
  | _ => none

def CommitsMeet (cond : π → List (Write κ ρ ε) → Db κ ρ ε → Prop)
    (c : Config (TxOp Q X κ ρ ε) (TxOp.Answer A B) π (TxWorld κ ρ ε τ) α) : Move π (TxChoice γ) Nat → Prop
  | .run n _ => ∀ r ∈ atCommit? c n, cond r (c.shared.store.own n) c.shared.store.committed
  | _ => True

instance (cond : π → List (Write κ ρ ε) → Db κ ρ ε → Prop) [∀ r ws d, Decidable (cond r ws d)]
    (c : Config (TxOp Q X κ ρ ε) (TxOp.Answer A B) π (TxWorld κ ρ ε τ) α) (m : Move π (TxChoice γ) Nat) :
    Decidable (CommitsMeet cond c m) :=
  match m with
  | .start _ | .drift _ => .isTrue trivial
  | .run n _ => inferInstanceAs
      (Decidable (∀ r ∈ atCommit? c n, cond r (c.shared.store.own n) c.shared.store.committed))

/-- The request and its question, if process `n` is at one. -/
def atAsk? (c : Config (TxOp Q X κ ρ ε) (TxOp.Answer A B) π (TxWorld κ ρ ε τ) α) (n : Nat) : Option (π × X) :=
  match c.procs[n]? with
  | some (r, .call (.ask x) _) => some (r, x)
  | _ => none

def AsksMeet (cond : π → X → Db κ ρ ε → τ → Prop)
    (c : Config (TxOp Q X κ ρ ε) (TxOp.Answer A B) π (TxWorld κ ρ ε τ) α) : Move π (TxChoice γ) Nat → Prop
  | .run n _ => ∀ rx ∈ atAsk? c n, cond rx.1 rx.2 c.shared.store.committed c.shared.rest
  | _ => True

instance (cond : π → X → Db κ ρ ε → τ → Prop) [∀ r x d t, Decidable (cond r x d t)]
    (c : Config (TxOp Q X κ ρ ε) (TxOp.Answer A B) π (TxWorld κ ρ ε τ) α) (m : Move π (TxChoice γ) Nat) :
    Decidable (AsksMeet cond c m) :=
  match m with
  | .start _ | .drift _ => .isTrue trivial
  | .run n _ => inferInstanceAs
      (Decidable (∀ rx ∈ atAsk? c n, cond rx.1 rx.2 c.shared.store.committed c.shared.rest))

/-- Program `p` keeps the contract from `w` on, and what it returns without a failure meets `post`. -/
def TxYields {E : Type} (P : Backend A B κ ρ ε τ γ) (T : TxContract X κ ρ ε τ π) (n : Nat) (r : π)
    (p : TxAct A B κ ρ ε E α) (post : α → TxWorld κ ρ ε τ → Prop) (w : TxWorld κ ρ ε τ) : Prop :=
  Holds (serveTx P) T.contract n r p.run (fun a w' => ∀ v, a = .ok v → post v w') w

namespace TxContract
theorem Evolves.invariant {T : TxContract X κ ρ ε τ π} {I : Db κ ρ ε → Prop} {d d' : Db κ ρ ε}
    (step : ∀ n r ws d, I d → T.does r ws → T.commits r ws d → d.Keyed → allowedAll ws d = true → I (d.transact n ws))
    (h : T.Evolves d d') (init : I d) : I d' := by
  induction h with
  | refl => exact init
  | tail _ hlast ih =>
    obtain ⟨n, hdoes, hcommits, hkeyed, hallowed⟩ := hlast
    exact step n _ _ _ ih hdoes hcommits hkeyed hallowed

theorem Evolves.history {T : TxContract X κ ρ ε τ π} {d d' : Db κ ρ ε} (h : T.Evolves d d') : d.history <+: d'.history :=
  h.invariant (I := fun x => d.history <+: x.history)
    (fun _ _ _ _ hx _ _ _ _ => hx.trans (List.prefix_append _ _)) (List.prefix_refl _)

structure Consumes {β : Type} (T : TxContract X κ ρ ε τ π) (uses? : List (Write κ ρ ε) → Option β)
    (spent : Db κ ρ ε → β → Prop) : Prop where
  keeps : ∀ d d' b, T.Transaction d d' → spent d b → spent d' b
  spends : ∀ n r ws d b, T.does r ws → T.commits r ws d → allowedAll ws d = true → uses? ws = some b →
    spent (d.transact n ws) b
  unspent : ∀ r ws d b, T.does r ws → T.commits r ws d → uses? ws = some b → ¬ spent d b

namespace Consumes
variable {β : Type} {T : TxContract X κ ρ ε τ π} {uses? : List (Write κ ρ ε) → Option β} {spent : Db κ ρ ε → β → Prop}
  {d d' : Db κ ρ ε}

theorem kept (h : T.Consumes uses? spent) (hevolves : T.Evolves d d') {b : β} (hb : spent d b) : spent d' b := by
  induction hevolves with
  | refl => exact hb
  | tail _ hlast ih => exact h.keeps _ _ b hlast ih

theorem not_again (h : T.Consumes uses? spent) (hevolves : T.Evolves d d') {b : β} (hb : spent d b) :
    ∀ x ∈ d'.history.drop d.history.length, uses? x.2 ≠ some b := by
  induction hevolves with
  | refl => simp
  | @tail d₁ _ hbefore hlast ih =>
    have hlength : d.history.length ≤ d₁.history.length := (Evolves.history hbefore).length_le
    obtain @⟨n, r, ws, hdoes, hcommits, -, -⟩ := hlast
    intro x hx huses
    rw [Db.transact, List.drop_append_of_le_length hlength, List.mem_append, List.mem_singleton] at hx
    rcases hx with hx | rfl
    · exact ih x hx huses
    · exact h.unspent r ws d₁ b hdoes hcommits huses (h.kept hbefore hb)

theorem once (h : T.Consumes uses? spent) (hevolves : T.Evolves d d') (hd : d.history = []) :
    (∀ x ∈ d'.history, ∀ b, uses? x.2 = some b → spent d' b) ∧
      d'.history.Pairwise fun x y => ∀ b, uses? x.2 = some b → uses? y.2 ≠ some b := by
  induction hevolves with
  | refl => simp [hd]
  | @tail d₁ d₂ _ hlast ih =>
    have hkeeps := fun b => h.keeps d₁ d₂ b hlast
    obtain ⟨hspent, hpairwise⟩ := ih
    obtain @⟨n, r, ws, hdoes, hcommits, -, hallowed⟩ := hlast
    constructor
    · intro x hx b huses
      rw [Db.transact, List.mem_append, List.mem_singleton] at hx
      rcases hx with hx | rfl
      · exact hkeeps b (hspent x hx b huses)
      · exact h.spends n r ws d₁ b hdoes hcommits hallowed huses
    · rw [Db.transact, List.pairwise_append]
      refine ⟨hpairwise, List.pairwise_singleton _ _, ?_⟩
      intro x hx y hy b hxb hyb
      obtain rfl := List.mem_singleton.mp hy
      exact h.unspent r ws d₁ b hdoes hcommits hyb (hspent x hx b hxb)

theorem unique (h : T.Consumes uses? spent) (hevolves : T.Evolves d d') (hd : d.history = [])
    {x y : Nat × List (Write κ ρ ε)} (hx : x ∈ d'.history) (hy : y ∈ d'.history) {b : β}
    (hxb : uses? x.2 = some b) (hyb : uses? y.2 = some b) : x = y := by
  by_contra hne
  have : Std.Symm fun x y : Nat × List (Write κ ρ ε) => ∀ b, uses? x.2 = some b → uses? y.2 ≠ some b :=
    ⟨fun x y hxy b hy hx => hxy b hx hy⟩
  exact (h.once hevolves hd).2.forall hx hy hne b hxb hyb
end Consumes

variable {T : TxContract X κ ρ ε τ π} {n m : Nat} {w w' w'' : TxWorld κ ρ ε τ} {r : π} {ws : List (Write κ ρ ε)}

theorem Rely.refl (T : TxContract X κ ρ ε τ π) (n : Nat) (w : TxWorld κ ρ ε τ) : T.Rely n w w :=
  ⟨id, fun _ => rfl, .refl, fun _ => id, fun _ _ _ _ _ => rfl⟩

theorem Rely.live (h : T.Rely n w w') (hn : n ∉ w'.gone) : n ∉ w.gone := fun hgone => hn (h.gone hgone)

theorem Rely.trans (h : T.Rely n w w') (h' : T.Rely n w' w'') : T.Rely n w w'' where
  gone := h'.gone ∘ h.gone
  own hn := (h'.own hn).trans (h.own (h'.live hn))
  grows := h.grows.trans h'.grows
  mine ws := h.mine ws ∘ h'.mine ws
  locked hn x hx k hk := by
    have hx' : x ∈ w'.store.own n := by
      rw [h.own (h'.live hn)]
      exact hx
    exact (h'.locked hn x hx' k hk).trans (h.locked (h'.live hn) x hx k hk)

theorem Rely.holding (h : T.Rely n w w') (hold : T.Holding n r ws w) : T.Holding n r ws w' :=
  ⟨fun hn => (h.own hn).trans (hold.own (h.live hn)), fun ws' hws' => hold.did ws' (h.mine ws' hws')⟩

theorem rely_rollback (hm : m ≠ n) : T.Rely m w { w with store := w.store.rollback n } :=
  ⟨id, fun _ => Store.own_rollback_ne hm, .refl, fun _ => id, fun _ _ _ _ _ => rfl⟩

theorem rely_flushed (hm : m ≠ n) (ws : List (Write κ ρ ε)) : T.Rely m w { w with store := w.store.flushed n ws } :=
  ⟨id, fun _ => Store.own_flushed_ne hm, .refl, fun _ => id, fun _ _ _ _ _ => rfl⟩

theorem rely_rest (x : τ) : T.Rely m w { w with rest := x } :=
  ⟨id, fun _ => rfl, .refl, fun _ => id, fun _ _ _ _ _ => rfl⟩

theorem rely_commit (hm : m ≠ n) (hsound : w.store.Sound)
    (hgrows : T.Evolves w.store.committed (w.store.committed.transact n (w.store.own n))) :
    T.Rely m w { w with store := w.store.commit n } where
  gone := id
  own _ := Store.own_commit_ne hm
  grows := hgrows
  mine ws hws := by
    rw [Store.committed_commit, Db.transact, List.mem_append, List.mem_singleton] at hws
    exact hws.resolve_right fun heq => hm (congrArg Prod.fst heq)
  locked _ _ hx _ hk := hsound.find?_commit (Ne.symm hm) hx hk

theorem rely_crash (m n : Nat) : T.Rely m w (w.crash n) where
  gone := List.mem_cons_of_mem n
  own hm := Store.own_rollback_ne fun h => hm (h ▸ List.mem_cons_self)
  grows := .refl
  mine _ := id
  locked _ _ _ _ _ := rfl

theorem stable (T : TxContract X κ ρ ε τ π) : (T.contract (Q := Q) (γ := γ)).Stable TxWorld.crash where
  refl := Rely.refl T
  trans _ _ _ _ h h' := h.trans h'
  fresh _ _ _ h hrely := ⟨fun hn => (hrely.own hn).trans (h.1 (hrely.live hn)), fun ws hws => h.2 ws (hrely.mine ws hws)⟩
  always _ _ _ _ h hrely ws hws := h ws (hrely.mine ws hws)
  drift _ n h := ⟨⟨h.1.rollback n, h.2⟩, fun m => rely_crash m n⟩

variable (P : Backend A B κ ρ ε τ γ)

theorem holds_query {q : Q} (hold : T.Holding n r ws w) :
    Holds (serveTx P) T.contract n r (TxProg.query q) (fun a w' => ∀ v, a = .ok v → T.Rely n w w' ∧
      w'.store.Sound ∧ T.inv w'.store.committed w'.rest ∧ v = P.read q (applyAll ws w'.store.committed)) w := by
  intro w₁ hrely hinv c _ a w₂ hserve
  obtain ⟨hn, hserve⟩ := serveTx_eq_some hserve
  have hold₁ := hrely.holding hold
  change serveQuery w₁ n (P.read q) c = some (a, w₂) at hserve
  cases c with
  | env c => cases hserve
  | ok =>
    cases hserve
    refine ⟨hinv, fun m _ => .refl T m _, hold₁.did, fun v hv => ⟨hrely, hinv.1, hinv.2, ?_⟩⟩
    obtain rfl := Except.ok.inj hv
    rw [Store.view, hold₁.own hn]
  | failed m =>
    cases hserve
    exact ⟨⟨hinv.1.rollback n, hinv.2⟩, fun m hm => rely_rollback hm, hold₁.did, fun v hv => by cases hv⟩
  | lost m =>
    cases hserve
    exact ⟨⟨hinv.1.rollback n, hinv.2⟩, fun m hm => rely_rollback hm, hold₁.did, fun v hv => by cases hv⟩

theorem holds_flush {new : List (Write κ ρ ε)} (hold : T.Holding n r ws w) :
    Holds (serveTx P) T.contract n r (TxProg.flush new) (fun a w' => a = .ok () →
      T.Holding n r (ws ++ new) w' ∧ T.Evolves w.store.committed w'.store.committed) w := by
  intro w₁ hrely hinv c _ a w₂ hserve
  obtain ⟨hn, hserve⟩ := serveTx_eq_some hserve
  have hold₁ := hrely.holding hold
  change serveFlush w₁ n new c = some (a, w₂) at hserve
  cases c with
  | env c => cases hserve
  | ok =>
    obtain ⟨⟨a', s⟩, hflush, heq⟩ := Option.map_eq_some_iff.mp hserve
    cases heq
    rcases Store.flush_cases hflush with ⟨-, rfl, hfree, hallowed⟩ | ⟨hne, rfl⟩
    · refine ⟨⟨hinv.1.flushed hfree hallowed, hinv.2⟩, fun m hm => rely_flushed hm new, hold₁.did, fun _ => ?_⟩
      exact ⟨⟨fun _ => by rw [Store.own_flushed_self, hold₁.own hn], hold₁.did⟩, hrely.grows⟩
    · exact ⟨⟨hinv.1.rollback n, hinv.2⟩, fun m hm => rely_rollback hm, hold₁.did, fun h => absurd h hne⟩
  | failed m =>
    cases hserve
    exact ⟨⟨hinv.1.rollback n, hinv.2⟩, fun m hm => rely_rollback hm, hold₁.did, fun h => by cases h⟩
  | lost m =>
    cases hserve
    exact ⟨⟨hinv.1.rollback n, hinv.2⟩, fun m hm => rely_rollback hm, hold₁.did, fun h => by cases h⟩

theorem holds_commit {post : Db κ ρ ε → Prop} (hold : T.Holding n r ws w) (hdoes : T.does r ws)
    (h : ∀ w₁, n ∉ w₁.gone → T.Rely n w w₁ → w₁.store.Sound → T.inv w₁.store.committed w₁.rest →
      T.commits r ws w₁.store.committed → allowedAll ws w₁.store.committed = true →
        T.inv (w₁.store.committed.transact n ws) w₁.rest ∧ post (w₁.store.committed.transact n ws)) :
    Holds (serveTx P) T.contract n r TxProg.commit
      (fun a w' => a = .ok () → T.Holding n r [] w' ∧ post w'.store.committed) w := by
  intro w₁ hrely hinv c hguard a w₂ hserve
  obtain ⟨hn, hserve⟩ := serveTx_eq_some hserve
  have hold₁ := hrely.holding hold
  have hown := hold₁.own hn
  have hpossible := hinv.1.possible n
  change T.commits r (w₁.store.own n) w₁.store.committed at hguard
  rw [hown] at hguard hpossible
  obtain ⟨hinv', hpost⟩ := h w₁ hn hrely hinv.1 hinv.2 hguard hpossible
  have hgrows : T.Evolves w₁.store.committed (w₁.store.committed.transact n ws) :=
    .single (.of n hdoes hguard hinv.1.keyed hpossible)
  have hdid : ∀ ws', (n, ws') ∈ (w₁.store.committed.transact n ws).history → T.does r ws' := by
    intro ws' hws'
    rw [Db.transact, List.mem_append, List.mem_singleton] at hws'
    rcases hws' with hws' | heq
    · exact hold₁.did ws' hws'
    · exact (Prod.mk.inj heq).2 ▸ hdoes
  rw [← hown] at hinv' hgrows hpost hdid
  change serveCommit w₁ n c = some (a, w₂) at hserve
  cases c with
  | env c => cases hserve
  | ok =>
    cases hserve
    exact ⟨⟨hinv.1.commit n, hinv'⟩, fun m hm => rely_commit hm hinv.1 hgrows, hdid,
      fun _ => ⟨⟨fun _ => Store.own_commit_self, hdid⟩, hpost⟩⟩
  | failed m =>
    cases hserve
    exact ⟨⟨hinv.1.rollback n, hinv.2⟩, fun m hm => rely_rollback hm, hold₁.did, fun h => by cases h⟩
  | lost m =>
    cases hserve
    exact ⟨⟨hinv.1.commit n, hinv'⟩, fun m hm => rely_commit hm hinv.1 hgrows, hdid, fun h => by cases h⟩

theorem holds_ask {x : X} {post : B x → Db κ ρ ε → Prop}
    (hdid : ∀ w', T.Rely n w w' → T.inv w'.store.committed w'.rest →
      ∀ ws', (n, ws') ∈ w'.store.committed.history → T.does r ws')
    (h : ∀ d t c a t', T.inv d t → T.asks r x d t → P.ask n t x c = some (a, t') → T.inv d t' ∧ post a d) :
    Holds (serveTx P) T.contract n r (TxProg.ask x) (fun a w' => T.Rely n w w' ∧ post a w'.store.committed) w := by
  intro w₁ hrely hinv c hguard answer w₂ hserve
  obtain ⟨-, hserve⟩ := serveTx_eq_some hserve
  change serveAsk w₁ (P.ask n w₁.rest x) c = some (answer, w₂) at hserve
  cases c with
  | env c =>
    obtain ⟨⟨a, t⟩, hask, heq⟩ := Option.map_eq_some_iff.mp hserve
    cases heq
    obtain ⟨hinv', hpost⟩ := h _ _ c a t hinv.2 hguard hask
    exact ⟨⟨hinv.1, hinv'⟩, fun m _ => rely_rest t, hdid w₁ hrely hinv.2, hrely.trans (rely_rest t), hpost⟩
  | ok => cases hserve
  | failed m => cases hserve
  | lost m => cases hserve

/-- The programs of a service keep the contract, and what they return without a failure meets `post`. -/
structure Keeps {E : Type} (T : TxContract X κ ρ ε τ π) (P : Backend A B κ ρ ε τ γ) (handle : π → TxAct A B κ ρ ε E α)
    (post : Nat → π → α → TxWorld κ ρ ε τ → Prop) : Prop where
  stays : ∀ n r a w w', post n r a w → T.Rely n w w' → post n r a w'
  begins : ∀ n r w, T.inv w.store.committed w.rest → T.Holding n r [] w → TxYields P T n r (handle r) (post n r) w

section Runs

variable {E : Type} {P : Backend A B κ ρ ε τ γ} {handle : π → TxAct A B κ ρ ε E α}
  {post : Nat → π → α → TxWorld κ ρ ε τ → Prop}
  {c : Config (TxOp Q X κ ρ ε) (TxOp.Answer A B) π (TxWorld κ ρ ε τ) (Except (Failure E) α)}

abbrev SoundTx (T : TxContract X κ ρ ε τ π) (P : Backend A B κ ρ ε τ γ) (handle : π → TxAct A B κ ρ ε E α)
    (post : Nat → π → α → TxWorld κ ρ ε τ → Prop)
    (c : Config (TxOp Q X κ ρ ε) (TxOp.Answer A B) π (TxWorld κ ρ ε τ) (Except (Failure E) α)) : Prop :=
  Sound (txSystem P handle) T.contract (fun n r a w => ∀ v, a = .ok v → post n r v w) c

theorem meets_of_meet {m : Move π (TxChoice γ) Nat} (h : CommitsMeet T.commits c m) (h' : AsksMeet T.asks c m) :
    Meets T.contract c m := by
  cases m with
  | start r => trivial
  | drift n => trivial
  | run n e =>
    intro r i k hn
    cases i with
    | commit => exact h r (by simp [atCommit?, hn])
    | query q => trivial
    | flush ws => trivial
    | ask x => exact h' (r, x) (by simp [atAsk?, hn])

theorem meets_of_commitsMeet (hasks : ∀ r x d t, T.asks r x d t) {m : Move π (TxChoice γ) Nat}
    (h : CommitsMeet T.commits c m) : Meets T.contract c m := by
  refine meets_of_meet h ?_
  cases m with
  | start r => trivial
  | drift n => trivial
  | run n e => exact fun rx _ => hasks rx.1 rx.2 _ _

theorem Keeps.step (h : T.Keeps P handle post) (hsound : SoundTx T P handle post c) {m : Move π (TxChoice γ) Nat}
    (hm : Meets T.contract c m) : SoundTx T P handle post ((txSystem P handle).step c m) := by
  have hstays : ∀ n r (a : Except (Failure E) α) w w', (∀ v, a = .ok v → post n r v w) →
      T.Rely n w w' → ∀ v, a = .ok v → post n r v w' :=
    fun n r a w w' ha hrely v hv => h.stays n r v w w' (ha v hv) hrely
  have hbegins : ∀ n r w, (n ∉ w.gone → w.store.own n = []) ∧ (∀ ws, (n, ws) ∉ w.store.committed.history) →
      T.Holding n r [] w := fun n r w hfresh => ⟨hfresh.1, fun ws hws => absurd hws (hfresh.2 ws)⟩
  exact Sound.step T.stable hstays
    (fun n r w hinv hfresh => ⟨(hbegins n r w hfresh).did, h.begins n r w hinv.2 (hbegins n r w hfresh)⟩) hsound hm

/-- A service whose programs keep a contract keeps it in every run whose commits meet its condition. -/
theorem Keeps.sound (h : T.Keeps P handle post) {d : Db κ ρ ε} {t : τ} (hkeyed : d.Keyed) (hd : d.history = [])
    (hinv : T.inv d t) (moves : List (Move π (TxChoice γ) Nat))
    (met : ∀ e ∈ trace (txSystem P handle).step { shared := { store := { committed := d }, rest := t } } moves,
      Meets T.contract e.1 e.2) :
    SoundTx T P handle post ((txSystem P handle).exec { store := { committed := d }, rest := t } moves) := by
  have init : SoundTx T P handle post { shared := { store := { committed := d }, rest := t } } :=
    ⟨⟨Store.sound_of_idle hkeyed, hinv⟩, fun n _ => ⟨fun _ => rfl, by simp [hd]⟩, fun n r p hn => by simp at hn⟩
  exact run_invariant init (fun _ _ hc hm => h.step hc hm) moves met

theorem Keeps.evolves (h : T.Keeps P handle post) (hsound : SoundTx T P handle post c)
    (moves : List (Move π (TxChoice γ) Nat))
    (met : ∀ e ∈ trace (txSystem P handle).step c moves, Meets T.contract e.1 e.2) :
    T.Evolves c.shared.store.committed (moves.foldl (txSystem P handle).step c).shared.store.committed := by
  induction moves generalizing c with
  | nil => exact .refl
  | cons m moves ih =>
    have hm : Meets T.contract c m := met _ List.mem_cons_self
    have hfirst := hsound.rely_step T.stable hm (Nat.le_refl _)
    exact hfirst.grows.trans (ih (h.step hsound hm) fun e he => met e (List.mem_cons_of_mem _ he))

theorem Keeps.follow (h : T.Keeps P handle post) (hsound : SoundTx T P handle post c) (r : π)
    (ends : α → TxWorld κ ρ ε τ → Prop) (hends : ∀ a w w', ends a w → T.Rely c.procs.length w w' → ends a w')
    (hbegins : T.Holding c.procs.length r [] c.shared → TxYields P T c.procs.length r (handle r) ends c.shared)
    (moves : List (Move π (TxChoice γ) Nat))
    (met : ∀ e ∈ trace (txSystem P handle).step c (.start r :: moves), Meets T.contract e.1 e.2) {a : α}
    (hreturned : (moves.foldl (txSystem P handle).step ((txSystem P handle).step c (.start r))).returned? c.procs.length =
      some (r, .ok a)) :
    ends a (moves.foldl (txSystem P handle).step ((txSystem P handle).step c (.start r))).shared := by
  have hfresh := hsound.fresh c.procs.length (Nat.le_refl _)
  have hstart : SoundTx T P handle post ((txSystem P handle).step c (.start r)) := h.step hsound (met _ List.mem_cons_self)
  have hends' : ∀ (a : Except (Failure E) α) w w', (∀ v, a = .ok v → ends v w) → T.Rely c.procs.length w w' →
      ∀ v, a = .ok v → ends v w' := fun a w w' ha hrely v hv => hends v w w' (ha v hv) hrely
  obtain ⟨p, hp, hholds⟩ := Sound.follow T.stable (fun _ _ hc hm => h.step hc hm) hends' hstart
    ⟨_, by simp [System.step, txSystem], hbegins ⟨hfresh.1, fun ws hws => absurd hws (hfresh.2 ws)⟩⟩ moves
    fun e he => met e (List.mem_cons_of_mem _ he)
  rw [Config.returned?_eq_some hreturned] at hp
  cases hp
  exact hholds a rfl

omit [DecidableEq κ] in
theorem atCommit?_eq_some {n : Nat} {r : π} (h : atCommit? c n = some r) : ∃ k, c.procs[n]? = some (r, .call .commit k) := by
  unfold atCommit? at h
  split at h
  · rename_i r' k hproc
    cases h
    exact ⟨k, hproc⟩
  · cases h

theorem Keeps.commit_step (h : T.Keeps P handle post) (hsound : SoundTx T P handle post c) {n : Nat} {e : TxChoice γ}
    {r : π} (hat : atCommit? c n = some r) (hm : Meets T.contract c (.run n e : Move π (TxChoice γ) Nat))
    (hcommitted : ((txSystem P handle).step c (.run n e)).shared.store.committed.history ≠
      c.shared.store.committed.history) :
    ((txSystem P handle).step c (.run n e)).shared.store.committed =
        c.shared.store.committed.transact n (c.shared.store.own n) ∧
      T.does r (c.shared.store.own n) ∧ T.commits r (c.shared.store.own n) c.shared.store.committed := by
  have hsound' := h.step hsound hm
  rcases (txSystem P handle).step_cases c (.run n e) with
    ⟨_, heq, -⟩ | ⟨_, _, r', i, k', a, w, heq, hproc, hserve, hstep⟩ | ⟨_, heq, -⟩ | hstep
  · cases heq
  · cases heq
    obtain ⟨k, hk⟩ := atCommit?_eq_some hat
    cases hk.symm.trans hproc
    rw [hstep] at hcommitted hsound' ⊢
    have hlt : n < c.procs.length := (List.getElem?_eq_some_iff.mp hproc).1
    obtain ⟨hdid, -⟩ := hsound'.procs n r _ (List.getElem?_set_self hlt)
    have hcommit : w.store.committed = c.shared.store.committed.transact n (c.shared.store.own n) := by
      obtain ⟨-, hserve⟩ := serveTx_eq_some (show serveTx P n r c.shared .commit e = some (a, w) from hserve)
      change serveCommit c.shared n e = some (a, w) at hserve
      cases e with
      | ok => cases hserve; rfl
      | lost m => cases hserve; rfl
      | failed m => cases hserve; exact absurd rfl hcommitted
      | env x => cases hserve
    refine ⟨hcommit, hdid _ ?_, hm r .commit k hproc⟩
    rw [hcommit]
    simp [Db.transact]
  · cases heq
  · rw [hstep] at hcommitted
    exact absurd rfl hcommitted
end Runs
end TxContract

namespace TxYields
variable {P : Backend A B κ ρ ε τ γ} {T : TxContract X κ ρ ε τ π} {n : Nat} {r : π} {w : TxWorld κ ρ ε τ}
  {ws : List (Write κ ρ ε)} {E β : Type}

theorem ret {a : α} {post : α → TxWorld κ ρ ε τ → Prop} (h : post a w) :
    TxYields P T n r (pure a : TxAct A B κ ρ ε E α) post w := by
  intro v hv
  obtain rfl := Except.ok.inj hv
  exact h

theorem raise {e : E} {post : α → TxWorld κ ρ ε τ → Prop} :
    TxYields P T n r (TxAct.raise e : TxAct A B κ ρ ε E α) post w := by
  intro v hv
  cases hv

theorem bind {p : TxAct A B κ ρ ε E α} {f : α → TxAct A B κ ρ ε E β} {mid : α → TxWorld κ ρ ε τ → Prop}
    {post : β → TxWorld κ ρ ε τ → Prop} (h : TxYields P T n r p mid w)
    (hf : ∀ a w', mid a w' → TxYields P T n r (f a) post w') : TxYields P T n r (p >>= f) post w := by
  apply Holds.bind h
  intro a w' hmid
  cases a with
  | ok a => exact hf a w' (hmid a rfl)
  | error e =>
    intro v hv
    cases hv

theorem require {p : Prop} {_ : Decidable p} {e : E} :
    TxYields P T n r (TxAct.require p e : TxAct A B κ ρ ε E Unit) (fun _ w' => w' = w ∧ p) w := by
  rw [TxAct.require]
  split
  · exact ret ⟨rfl, ‹p›⟩
  · exact raise

theorem mono {p : TxAct A B κ ρ ε E α} {post post' : α → TxWorld κ ρ ε τ → Prop} (h : TxYields P T n r p post w)
    (hpost : ∀ a w', post a w' → post' a w') : TxYields P T n r p post' w :=
  Holds.mono h fun _ w' ha v hv => hpost v w' (ha v hv)

theorem statement {p : TxProg A B κ ρ ε (Except String α)} {post : α → TxWorld κ ρ ε τ → Prop}
    (h : Holds (serveTx P) T.contract n r p (fun a w' => ∀ v, a = .ok v → post v w') w) :
    TxYields P T n r (TxAct.statement p : TxAct A B κ ρ ε E α) post w := by
  apply Holds.bind h
  intro a w' hpost v hv
  cases a with
  | ok a =>
    obtain rfl := Except.ok.inj hv
    exact hpost a rfl
  | error m => cases hv

theorem query {q : Q} (hold : T.Holding n r ws w) :
    TxYields P T n r (TxAct.query q : TxAct A B κ ρ ε E (A q)) (fun v w' => T.Rely n w w' ∧ w'.store.Sound ∧
      T.inv w'.store.committed w'.rest ∧ v = P.read q (applyAll ws w'.store.committed)) w :=
  statement (TxContract.holds_query P hold)

theorem flush {new : List (Write κ ρ ε)} (hold : T.Holding n r ws w) :
    TxYields P T n r (TxAct.flush new : TxAct A B κ ρ ε E Unit) (fun _ w' =>
      T.Holding n r (ws ++ new) w' ∧ T.Evolves w.store.committed w'.store.committed) w :=
  statement ((TxContract.holds_flush P hold).mono fun _ _ h _ ha => h ha)

theorem commit (post : Db κ ρ ε → Prop) (hold : T.Holding n r ws w) (hdoes : T.does r ws)
    (h : ∀ w₁, n ∉ w₁.gone → T.Rely n w w₁ → w₁.store.Sound → T.inv w₁.store.committed w₁.rest →
      T.commits r ws w₁.store.committed → allowedAll ws w₁.store.committed = true →
        T.inv (w₁.store.committed.transact n ws) w₁.rest ∧ post (w₁.store.committed.transact n ws)) :
    TxYields P T n r (TxAct.commit : TxAct A B κ ρ ε E Unit) (fun _ w' => T.Holding n r [] w' ∧ post w'.store.committed) w :=
  statement ((TxContract.holds_commit P hold hdoes h).mono fun _ _ h _ ha => h ha)

theorem askAt {x : X} (post : B x → Db κ ρ ε → Prop)
    (hdid : ∀ w', T.Rely n w w' → T.inv w'.store.committed w'.rest →
      ∀ ws', (n, ws') ∈ w'.store.committed.history → T.does r ws')
    (h : ∀ d t c a t', T.inv d t → T.asks r x d t → P.ask n t x c = some (a, t') → T.inv d t' ∧ post a d) :
    TxYields P T n r (TxAct.ask x : TxAct A B κ ρ ε E (B x)) (fun a w' => T.Rely n w w' ∧ post a w'.store.committed) w := by
  apply Holds.bind (TxContract.holds_ask P hdid h)
  intro a w' hpost v hv
  obtain rfl := Except.ok.inj hv
  exact hpost

theorem ask {x : X} (post : B x → Prop) (hold : T.Holding n r ws w)
    (h : ∀ d t c a t', T.inv d t → P.ask n t x c = some (a, t') → T.inv d t' ∧ post a) :
    TxYields P T n r (TxAct.ask x : TxAct A B κ ρ ε E (B x)) (fun a w' => T.Rely n w w' ∧ post a) w :=
  askAt (fun a _ => post a) (fun _ hrely _ => (hrely.holding hold).did) fun d t c a t' hinv _ hask =>
    h d t c a t' hinv hask

theorem onError {p : TxAct A B κ ρ ε E α} {cleanup : TxAct A B κ ρ ε E Unit} {post : α → TxWorld κ ρ ε τ → Prop}
    (h : TxYields P T n r p post w) (hcleanup : ∀ w', TxYields P T n r cleanup (fun _ _ => True) w') :
    TxYields P T n r (TxAct.onError p cleanup) post w := by
  apply Holds.bind h
  intro a w' hpost
  cases a with
  | ok a => exact hpost
  | error e =>
    apply Holds.bind (hcleanup w')
    intro b w'' _
    cases b with
    | ok b =>
      intro v hv
      cases hv
    | error e =>
      intro v hv
      cases hv
end TxYields
end Programs
end LinkMint.Lib

import LinkMint.Pricing.Invoicing

/-!
# The invoicing tables

`Books` is what holds of the two tables in every run whose commits are `Timely`.
-/

namespace LinkMint.Pricing

open LinkMint.Lib

def own {α : Type} (n : Nat) (rows : List (Stored α)) : List α :=
  rows.filterMap fun x => if x.owner = some n then some x.row else none

section Rows

variable {α : Type} {n m : Nat} {rows : List (Stored α)}

theorem mem_filterMap_owner {p : Option Nat → Prop} [DecidablePred p] {a : α} :
    (a ∈ rows.filterMap fun x => if p x.owner then some x.row else none) ↔ ∃ o, p o ∧ ⟨a, o⟩ ∈ rows := by
  rw [List.mem_filterMap]
  constructor
  · rintro ⟨⟨row, owner⟩, hmem, h⟩
    dsimp only at h
    split at h
    · next howner =>
      cases h
      exact ⟨owner, howner, hmem⟩
    · cases h
  · rintro ⟨o, ho, hmem⟩
    exact ⟨⟨a, o⟩, hmem, if_pos ho⟩

theorem mem_committed {a : α} : a ∈ committed rows ↔ ⟨a, none⟩ ∈ rows :=
  (mem_filterMap_owner (p := fun o => o = none)).trans (by simp)

theorem mem_own {a : α} : a ∈ own n rows ↔ ⟨a, some n⟩ ∈ rows :=
  (mem_filterMap_owner (p := fun o => o = some n)).trans (by simp)

theorem mem_visible {a : α} : a ∈ visible n rows ↔ a ∈ committed rows ∨ a ∈ own n rows := by
  rw [mem_committed, mem_own]
  exact (mem_filterMap_owner (p := fun o => o = none ∨ o = some n)).trans (by
    simp [or_and_right, exists_or])

@[simp] theorem committed_append_own (row : α) :
    committed (rows ++ [{ row := row, owner := some n }]) = committed rows := by
  simp [committed]

theorem own_append (row : α) :
    own m (rows ++ [{ row := row, owner := some n }]) = own m rows ++ if n = m then [row] else [] := by
  by_cases h : n = m <;> simp [own, h]

theorem own_append_self (row : α) : own n (rows ++ [{ row := row, owner := some n }]) = own n rows ++ [row] := by
  simp [own_append]

theorem own_append_ne (row : α) (h : m ≠ n) : own m (rows ++ [{ row := row, owner := some n }]) = own m rows := by
  simp [own_append, Ne.symm h]

theorem committed_rollback : committed (rows.filter fun x => x.owner ≠ some n) = committed rows := by
  unfold committed
  rw [List.filterMap_filter]
  refine List.filterMap_congr fun x _ => ?_
  by_cases h : x.owner = none <;> simp [h]

theorem own_rollback_ne (h : m ≠ n) : own m (rows.filter fun x => x.owner ≠ some n) = own m rows := by
  unfold own
  rw [List.filterMap_filter]
  refine List.filterMap_congr fun x _ => ?_
  by_cases hx : x.owner = some m
  · simp [hx, h]
  · simp [hx]

theorem own_release_ne (h : m ≠ n) : own m (rows.map (release n)) = own m rows := by
  unfold own
  rw [List.filterMap_map]
  refine List.filterMap_congr fun x _ => ?_
  by_cases hx : x.owner = some n
  · simp [release, hx, Ne.symm h]
  · simp [release, hx]

theorem mem_committed_release {a : α} : a ∈ committed (rows.map (release n)) ↔ a ∈ committed rows ∨ a ∈ own n rows := by
  rw [mem_committed, mem_committed, mem_own, List.mem_map]
  constructor
  · rintro ⟨⟨row, owner⟩, hmem, heq⟩
    unfold release at heq
    split at heq
    · next howner =>
      cases heq
      dsimp only at howner
      rw [howner] at hmem
      exact .inr hmem
    · cases heq
      exact .inl hmem
  · rintro (h | h)
    · exact ⟨_, h, by simp [release]⟩
    · exact ⟨_, h, by simp [release]⟩

theorem map_release_of_own_nil (h : own n rows = []) : rows.map (release n) = rows := by
  conv_rhs => rw [← List.map_id rows]
  refine List.map_congr_left fun x hx => ?_
  have hne : x.owner ≠ some n := by
    intro howner
    have hmem : x.row ∈ own n rows := by
      rw [mem_own, ← howner]
      exact hx
    rw [h] at hmem
    cases hmem
  simp [release, hne]
end Rows

def Later (b a : Accrual) : Prop :=
  a = { b with invoice := a.invoice } ∧ ∀ i, b.invoice = some i → a.invoice = some i

theorem Later.refl (a : Accrual) : Later a a := ⟨rfl, fun _ h => h⟩

theorem Later.trans {a b c : Accrual} (h : Later a b) (h' : Later b c) : Later a c := by
  refine ⟨?_, fun i hi => h'.2 i (h.2 i hi)⟩
  rw [h'.1, h.1]

theorem Later.id_eq {b a : Accrual} (h : Later b a) : a.id = b.id := by rw [h.1]

theorem Later.eq_of_unbilled {b a : Accrual} (h : Later b a) (ha : a.invoice = none) : b = a := by
  have hb : b.invoice = none := by
    cases hb : b.invoice with
    | none => rfl
    | some i => exact absurd ((h.2 i hb).symm.trans ha) (by simp)
  rw [h.1, ha, ← hb]

def Old (table rows : List Accrual) : Prop := ∀ b ∈ table, ∃ a ∈ rows, Later b a

def billedOn (rows : List Accrual) (i : UUID) : List Accrual := rows.filter fun a => a.invoice = some i

structure Books (w : World) : Prop where
  ids : (w.accruals.map fun x => x.row.id).Nodup
  bound : ∀ x ∈ w.accruals, x.row.id < w.nextID
  unstamped : ∀ n, ∀ a ∈ own n w.accruals, a.invoice = none
  invoiceIDs : (w.invoices.map fun x => x.row.id).Nodup
  keys : (w.invoices.map fun x => (x.row.merchant, x.row.period)).Nodup
  stampedBy : ∀ a ∈ committed w.accruals, ∀ i, a.invoice = some i →
    ∃ inv ∈ committed w.invoices, inv.id = i ∧ inv.merchant = a.merchant ∧ inv.period = a.period ∧
      inv.currency = a.currency
  totals : ∀ inv ∈ committed w.invoices, inv.totalFee = ((billedOn (committed w.accruals) inv.id).map (·.amount)).sum ∧
      inv.lineCount = (billedOn (committed w.accruals) inv.id).length
  settled : ∀ inv ∈ committed w.invoices, ∀ a ∈ committed w.accruals, a.merchant = inv.merchant →
    a.period = inv.period → a.invoice = some inv.id
  oneCurrency : ∀ a ∈ committed w.accruals, ∀ b ∈ committed w.accruals, a.merchant = b.merchant →
    a.period = b.period → a.currency = b.currency
  scans : ∀ n sc, (w.sessions n).scan = some sc → (sc.table.map (·.id)).Nodup ∧ Old sc.table (committed w.accruals)
  oldRuns : ∀ r ∈ w.runs, Old r.2.table (committed w.accruals)
  runs : ∀ r ∈ w.runs, ∀ a ∈ committed w.accruals, r.2.scope.covers a = true →
    a.id ∈ r.2.table.map (·.id) → a.invoice ≠ none

theorem Books.init : Books {} where
  ids := by simp
  bound := by simp
  unstamped := by simp [own]
  invoiceIDs := by simp
  keys := by simp
  stampedBy := by simp [committed]
  totals := by simp [committed]
  settled := by simp [committed]
  oneCurrency := by simp [committed]
  scans n sc h := by cases h
  oldRuns := by simp
  runs := by simp

structure Rely (n : Nat) (w w' : World) : Prop where
  session : w'.sessions n = w.sessions n
  accruals : own n w'.accruals = own n w.accruals
  invoices : own n w'.invoices = own n w.invoices
  billed : ∀ inv ∈ committed w.invoices, inv ∈ committed w'.invoices
  runs : ∀ sc, (n, sc) ∈ w'.runs ↔ (n, sc) ∈ w.runs

namespace Rely
theorem refl (n : Nat) (w : World) : Rely n w w := ⟨rfl, rfl, rfl, fun _ h => h, fun _ => .rfl⟩

theorem trans {n : Nat} {w w' w'' : World} (h : Rely n w w') (h' : Rely n w' w'') : Rely n w w'' where
  session := h'.session.trans h.session
  accruals := h'.accruals.trans h.accruals
  invoices := h'.invoices.trans h.invoices
  billed inv hinv := h'.billed inv (h.billed inv hinv)
  runs sc := (h'.runs sc).trans (h.runs sc)
end Rely

theorem nodup_ids {rows : List (Stored Accrual)} (h : (rows.map fun x => x.row.id).Nodup)
    {x y : Stored Accrual} (hx : x ∈ rows) (hy : y ∈ rows) (heq : x.row.id = y.row.id) : x = y :=
  List.inj_on_of_nodup_map h hx hy heq

namespace Books
variable {w : World} {n : Nat}

theorem committed_inj (h : Books w) {a b : Accrual} (ha : a ∈ committed w.accruals)
    (hb : b ∈ committed w.accruals) (heq : a.id = b.id) : a = b :=
  congrArg Stored.row (nodup_ids h.ids (mem_committed.mp ha) (mem_committed.mp hb) heq)

theorem nodup_ids_committed (h : Books w) : ((committed w.accruals).map (·.id)).Nodup := by
  refine h.ids.sublist ?_
  unfold committed
  rw [List.map_filterMap]
  induction w.accruals with
  | nil => exact List.Sublist.refl _
  | cons x xs ih =>
    by_cases hx : x.owner = none
    · simpa [hx] using ih
    · simpa [hx] using ih.trans (List.sublist_cons_self _ _)

theorem key_inj (h : Books w) {x y : Stored Invoice} (hx : x ∈ w.invoices) (hy : y ∈ w.invoices)
    (hm : x.row.merchant = y.row.merchant) (hp : x.row.period = y.row.period) : x = y :=
  List.inj_on_of_nodup_map h.keys hx hy (Prod.ext hm hp)

theorem id_inj (h : Books w) {x y : Stored Invoice} (hx : x ∈ w.invoices) (hy : y ∈ w.invoices)
    (heq : x.row.id = y.row.id) : x = y :=
  List.inj_on_of_nodup_map h.invoiceIDs hx hy heq

theorem rollback (h : Books w) (n : Nat) : Books (w.rollback n) := by
  have ha : committed (w.rollback n).accruals = committed w.accruals := committed_rollback
  have hi : committed (w.rollback n).invoices = committed w.invoices := committed_rollback
  refine ⟨h.ids.sublist (List.Sublist.map _ List.filter_sublist),
    fun x hx => h.bound x (List.mem_of_mem_filter hx), fun m a hmem => ?_,
    h.invoiceIDs.sublist (List.Sublist.map _ List.filter_sublist),
    h.keys.sublist (List.Sublist.map _ List.filter_sublist), ?_, ?_, ?_, ?_, fun m sc hsc => ?_, ?_, ?_⟩
  · exact h.unstamped m a (mem_own.mpr (List.mem_of_mem_filter (mem_own.mp hmem)))
  · rw [ha, hi]
    exact h.stampedBy
  · rw [ha, hi]
    exact h.totals
  · rw [ha, hi]
    exact h.settled
  · rw [ha]
    exact h.oneCurrency
  · rw [ha]
    by_cases hm : m = n
    · subst hm
      simp [World.rollback] at hsc
    · simp only [World.rollback, Function.update_of_ne hm] at hsc
      exact h.scans m sc hsc
  · rw [ha]
    exact h.oldRuns
  · rw [ha]
    exact h.runs

theorem setSession (h : Books w) (n : Nat) {s : Session}
    (hs : ∀ sc, s.scan = some sc → (sc.table.map (·.id)).Nodup ∧ Old sc.table (committed w.accruals)) :
    Books (w.setSession n s) where
  ids := h.ids
  bound := h.bound
  unstamped := h.unstamped
  invoiceIDs := h.invoiceIDs
  keys := h.keys
  stampedBy := h.stampedBy
  totals := h.totals
  settled := h.settled
  oneCurrency := h.oneCurrency
  scans m sc hsc := by
    by_cases hm : m = n
    · subst hm
      simp only [World.setSession, Function.update_self] at hsc
      exact hs sc hsc
    · simp only [World.setSession, Function.update_of_ne hm] at hsc
      exact h.scans m sc hsc
  oldRuns := h.oldRuns
  runs := h.runs

theorem insertAccrual (h : Books w) (n : Nat) {a : Accrual} (hid : a.id = w.nextID) (ha : a.invoice = none) :
    Books { w with accruals := w.accruals ++ [{ row := a, owner := some n }], nextID := w.nextID + 1 } := by
  refine ⟨?_, fun x hx => ?_, fun m b hb => ?_, h.invoiceIDs, h.keys, ?_, ?_, ?_, ?_, ?_, ?_, ?_⟩
  · rw [List.map_append, List.nodup_append]
    refine ⟨h.ids, by simp, fun i hi j hj => ?_⟩
    obtain ⟨x, hx, rfl⟩ := List.mem_map.mp hi
    have hlt := h.bound x hx
    simp only [List.map_cons, List.map_nil, List.mem_singleton] at hj
    omega
  · rcases List.mem_append.mp hx with hx | hx
    · exact Nat.lt_succ_of_lt (h.bound x hx)
    · rw [List.mem_singleton] at hx
      subst hx
      exact hid ▸ Nat.lt_succ_self _
  · dsimp only at hb
    rw [own_append] at hb
    rcases List.mem_append.mp hb with hb | hb
    · exact h.unstamped m b hb
    · split at hb
      · rw [List.mem_singleton] at hb
        rw [hb]
        exact ha
      · cases hb
  all_goals simp only [committed_append_own]
  · exact h.stampedBy
  · exact h.totals
  · exact h.settled
  · exact h.oneCurrency
  · exact h.scans
  · exact h.oldRuns
  · exact h.runs

theorem insertInvoice (h : Books w) (n : Nat) {inv : Invoice}
    (hfree : ∀ x ∈ w.invoices, x.row.id ≠ inv.id ∧ ¬ (x.row.merchant = inv.merchant ∧ x.row.period = inv.period)) :
    Books { w with invoices := w.invoices ++ [{ row := inv, owner := some n }] } := by
  refine ⟨h.ids, h.bound, h.unstamped, ?_, ?_, ?_, ?_, ?_, h.oneCurrency, h.scans, h.oldRuns, h.runs⟩
  · rw [List.map_append, List.nodup_append]
    refine ⟨h.invoiceIDs, by simp, fun i hi j hj => ?_⟩
    obtain ⟨x, hx, rfl⟩ := List.mem_map.mp hi
    simp only [List.map_cons, List.map_nil, List.mem_singleton] at hj
    rw [hj]
    exact (hfree x hx).1
  · rw [List.map_append, List.nodup_append]
    refine ⟨h.keys, by simp, fun i hi j hj => ?_⟩
    obtain ⟨x, hx, rfl⟩ := List.mem_map.mp hi
    simp only [List.map_cons, List.map_nil, List.mem_singleton] at hj
    rw [hj]
    intro heq
    exact (hfree x hx).2 (Prod.mk.inj heq)
  all_goals simp only [committed_append_own]
  · exact h.stampedBy
  · exact h.totals
  · exact h.settled
end Books

theorem stamp_cases (stamps : List (Nat × UUID)) (a : Accrual) : (stamp stamps a = a ∧ ∀ s ∈ stamps, s.1 ≠ a.id) ∨
      ∃ s ∈ stamps, s.1 = a.id ∧ stamp stamps a = { a with invoice := some s.2 } := by
  unfold stamp
  cases hfind : stamps.reverse.find? fun s => s.1 = a.id with
  | none =>
    refine .inl ⟨rfl, fun s hs => ?_⟩
    simpa using List.find?_eq_none.mp hfind s (List.mem_reverse.mpr hs)
  | some s =>
    refine .inr ⟨s, List.mem_reverse.mp (List.mem_of_find?_eq_some hfind), ?_, rfl⟩
    simpa using List.find?_some hfind

def Scan.group (sc : Scan) (inv : Invoice) : List Accrual :=
  sc.rows.filter fun a => a.groupKey = (inv.merchant, inv.currency)

theorem mem_rows {sc : Scan} {a : Accrual} : a ∈ sc.rows ↔ a ∈ sc.table ∧ sc.scope.covers a = true ∧ a.invoice = none := by
  unfold Scan.rows unbilledAccruals
  rw [List.mem_insertionSort, List.mem_filter, Bool.and_eq_true, Option.isNone_iff_eq_none]

theorem mem_group {sc : Scan} {inv : Invoice} {a : Accrual} :
    a ∈ sc.group inv ↔ a ∈ sc.rows ∧ a.merchant = inv.merchant ∧ a.currency = inv.currency := by
  unfold Scan.group
  rw [List.mem_filter]
  simp [Accrual.groupKey]

theorem period_of_covers {sc : Scope} {a : Accrual} (h : sc.covers a = true) : a.period = sc.period := by
  simp only [Scope.covers, Bool.and_eq_true, decide_eq_true_eq] at h
  exact h.1

theorem covers_congr {sc : Scope} {a b : Accrual} (hm : a.merchant = b.merchant)
    (hp : a.period = b.period) : sc.covers a = sc.covers b := by
  simp only [Scope.covers, hm, hp]

structure Prepared (n : Nat) (w : World) (sc : Scan) (invs : List Invoice) : Prop where
  scan : (w.sessions n).scan = some sc
  stamps : (w.sessions n).stamps = invs.flatMap fun inv => (sc.group inv).map fun a => (a.id, inv.id)
  accruals : own n w.accruals = []
  invoices : own n w.invoices = invs
  made : ∀ inv ∈ invs, sc.group inv ≠ [] ∧
    inv = invoiceOf inv.id sc.scope.period (inv.merchant, inv.currency) (sc.group inv)

/-- What a commit must meet: an accrual comes before its merchant's invoice for the period and in the
    currency of the others, and a run has read every accrual its invoices are to bill, in sums that
    the 28 digits of Python hold. -/
structure Timely (n : Nat) (w : World) : Prop where
  accruals : ∀ a ∈ own n w.accruals,
    (∀ inv ∈ committed w.invoices, ¬ (inv.merchant = a.merchant ∧ inv.period = a.period)) ∧
      ∀ b ∈ committed w.accruals, b.merchant = a.merchant ∧ b.period = a.period → b.currency = a.currency
  invoices : ∀ sc ∈ (w.sessions n).scan, ∀ inv ∈ own n w.invoices,
    (∀ a ∈ committed w.accruals, a.merchant = inv.merchant ∧ a.period = inv.period → a.id ∈ sc.table.map (·.id)) ∧
    Decimal.Exact decimalPrec ((sc.group inv).map (·.amount))

section Run

variable {w : World} {n : Nat} {sc : Scan} {invs : List Invoice}

theorem unbilled_of_own (h : Books w) {inv : Invoice} (hinv : inv ∈ own n w.invoices) {a : Accrual}
    (ha : a ∈ committed w.accruals) (hm : a.merchant = inv.merchant) (hp : a.period = inv.period) : a.invoice = none := by
  cases hi : a.invoice with
  | none => rfl
  | some i =>
    obtain ⟨inv', hinv', -, hm', hp', -⟩ := h.stampedBy a ha i hi
    have heq := h.key_inj (mem_committed.mp hinv') (mem_own.mp hinv) (hm'.trans hm) (hp'.trans hp)
    cases heq

theorem of_mem_group (h : Books w) (hp : Prepared n w sc invs) {inv : Invoice} (hinv : inv ∈ invs)
    {a : Accrual} (ha : a ∈ sc.group inv) :
    a ∈ committed w.accruals ∧ a.merchant = inv.merchant ∧ a.period = inv.period ∧
      a.currency = inv.currency ∧ a.invoice = none := by
  obtain ⟨hrow, hm, hc⟩ := mem_group.mp ha
  obtain ⟨htable, hcovers, hnone⟩ := mem_rows.mp hrow
  have hperiod : inv.period = sc.scope.period := by
    rw [(hp.made inv hinv).2]
    rfl
  have hap : a.period = inv.period := (period_of_covers hcovers).trans hperiod.symm
  obtain ⟨b, hb, hlater⟩ := (h.scans n sc hp.scan).2 a htable
  have hown : inv ∈ own n w.invoices := by rwa [hp.invoices]
  have hbnone : b.invoice = none := unbilled_of_own h hown hb (by rw [hlater.1]; exact hm) (by rw [hlater.1]; exact hap)
  obtain rfl := hlater.eq_of_unbilled hbnone
  exact ⟨hb, hm, hap, hc, hnone⟩

theorem mem_group_of_key (h : Books w) (hp : Prepared n w sc invs) (ht : Timely n w) {inv : Invoice}
    (hinv : inv ∈ invs) {a : Accrual} (ha : a ∈ committed w.accruals) (hm : a.merchant = inv.merchant)
    (hap : a.period = inv.period) : a ∈ sc.group inv := by
  have hown : inv ∈ own n w.invoices := by rwa [hp.invoices]
  have hnone := unbilled_of_own h hown ha hm hap
  -- it was there, unbilled, when the run read
  obtain ⟨b, hb, hid⟩ := List.mem_map.mp ((ht.invoices sc hp.scan inv hown).1 a ha ⟨hm, hap⟩)
  obtain ⟨a', ha', hlater⟩ := (h.scans n sc hp.scan).2 b hb
  obtain rfl := h.committed_inj ha' ha (hlater.id_eq.trans hid)
  obtain rfl := hlater.eq_of_unbilled hnone
  -- and is in the scope and the currency of the group
  obtain ⟨g, hg⟩ := List.exists_mem_of_ne_nil _ (hp.made inv hinv).1
  obtain ⟨hgc, hgm, hgp, hgcur, -⟩ := of_mem_group h hp hinv hg
  have hcovers := (mem_rows.mp (mem_group.mp hg).1).2.1
  rw [covers_congr (hgm.trans hm.symm) (hgp.trans hap.symm)] at hcovers
  refine mem_group.mpr ⟨mem_rows.mpr ⟨hb, hcovers, hnone⟩, hm, ?_⟩
  rw [← hgcur]
  exact h.oneCurrency _ ha g hgc (hm.trans hgm.symm) (hap.trans hgp.symm)

theorem stamp_prepared (h : Books w) (hp : Prepared n w sc invs) {a : Accrual} (ha : a ∈ committed w.accruals) :
    (stamp (w.sessions n).stamps a = a ∧ ∀ inv ∈ invs, a ∉ sc.group inv) ∨ ∃ inv ∈ invs, a ∈ sc.group inv ∧
        stamp (w.sessions n).stamps a = { a with invoice := some inv.id } := by
  have hmem : ∀ s, s ∈ (w.sessions n).stamps ↔ ∃ inv ∈ invs, ∃ b ∈ sc.group inv, (b.id, inv.id) = s := by
    intro s
    rw [hp.stamps, List.mem_flatMap]
    simp only [List.mem_map]
  rcases stamp_cases (w.sessions n).stamps a with ⟨hsame, hnone⟩ | ⟨s, hs, hid, hstamp⟩
  · refine .inl ⟨hsame, fun inv hinv hg => ?_⟩
    exact hnone (a.id, inv.id) ((hmem _).mpr ⟨inv, hinv, a, hg, rfl⟩) rfl
  · obtain ⟨inv, hinv, b, hb, rfl⟩ := (hmem s).mp hs
    have hbc := (of_mem_group h hp hinv hb).1
    obtain rfl := h.committed_inj hbc ha hid
    exact .inr ⟨inv, hinv, hb, hstamp⟩

theorem committed_commit (hown : own n w.accruals = []) : committed (w.commit n).accruals =
      (committed w.accruals).map (stamp (w.sessions n).stamps) := by
  unfold committed World.commit
  dsimp only
  rw [List.filterMap_map, List.map_filterMap]
  refine List.filterMap_congr fun x hx => ?_
  have hne : x.owner ≠ some n := by
    intro howner
    have hmem : x.row ∈ own n w.accruals := by
      rw [mem_own, ← howner]
      exact hx
    rw [hown] at hmem
    cases hmem
  by_cases hnone : x.owner = none <;> simp [release, hne, hnone]

theorem fields_stamp (stamps : List (Nat × UUID)) (a : Accrual) :
    stamp stamps a = { a with invoice := (stamp stamps a).invoice } := by
  rcases stamp_cases stamps a with ⟨hsame, -⟩ | ⟨s, -, -, hstamp⟩
  · rw [hsame]
  · rw [hstamp]

@[simp] theorem id_stamp (stamps : List (Nat × UUID)) (a : Accrual) : (stamp stamps a).id = a.id := by
  rw [fields_stamp]

theorem filter_map_of_fixed {α : Type} {p : α → Bool} {f : α → α} {l : List α}
    (h : ∀ a ∈ l, p (f a) = p a ∧ (p a = true → f a = a)) : (l.map f).filter p = l.filter p := by
  induction l with
  | nil => rfl
  | cons a l ih =>
    obtain ⟨ha, hl⟩ := List.forall_mem_cons.mp h
    rw [List.map_cons, List.filter_cons, List.filter_cons, ha.1, ih hl]
    split
    · next hp => rw [ha.2 hp]
    · rfl

theorem billedOn_own (h : Books w) (hp : Prepared n w sc invs) {inv : Invoice} (hinv : inv ∈ invs) :
    ((billedOn (committed (w.commit n).accruals) inv.id).map (·.amount)).Perm ((sc.group inv).map (·.amount)) := by
  have hown : inv ∈ own n w.invoices := by rwa [hp.invoices]
  have hon : ∀ a ∈ committed w.accruals, (stamp (w.sessions n).stamps a).invoice = some inv.id ↔ a ∈ sc.group inv := by
    intro a ha
    rcases stamp_prepared h hp ha with ⟨hsame, hnot⟩ | ⟨inv', hinv', hg, hstamp⟩
    · rw [hsame]
      refine ⟨fun hi => ?_, fun hg => absurd hg (hnot inv hinv)⟩
      obtain ⟨inv', hinv', hid, -⟩ := h.stampedBy a ha inv.id hi
      have heq := h.id_inj (mem_committed.mp hinv') (mem_own.mp hown) hid
      cases heq
    · rw [hstamp]
      have hown' : inv' ∈ own n w.invoices := by rwa [hp.invoices]
      constructor
      · intro hi
        have heq := h.id_inj (mem_own.mp hown') (mem_own.mp hown) (Option.some.inj hi)
        cases heq
        exact hg
      · intro hg'
        obtain ⟨-, hm, hap, -⟩ := of_mem_group h hp hinv hg'
        obtain ⟨-, hm', hap', -⟩ := of_mem_group h hp hinv' hg
        have heq := h.key_inj (mem_own.mp hown') (mem_own.mp hown) (hm'.symm.trans hm) (hap'.symm.trans hap)
        cases heq
        rfl
  have hnodup : (committed w.accruals).Nodup := h.nodup_ids_committed.of_map
  have hgroup : (sc.group inv).Nodup := by
    have htable := (h.scans n sc hp.scan).1.of_map
    have hsorted : sc.rows.Nodup := (List.perm_insertionSort _ _).nodup_iff.mpr (htable.filter _)
    exact hsorted.filter _
  have hperm : ((committed w.accruals).filter fun a => a ∈ sc.group inv).Perm (sc.group inv) := by
    rw [List.perm_ext_iff_of_nodup (hnodup.filter _) hgroup]
    intro a
    rw [List.mem_filter, decide_eq_true_eq]
    exact ⟨fun ha => ha.2, fun ha => ⟨(of_mem_group h hp hinv ha).1, ha⟩⟩
  have hlist : (billedOn (committed (w.commit n).accruals) inv.id).map (·.amount) =
      ((committed w.accruals).filter fun a => a ∈ sc.group inv).map (·.amount) := by
    unfold billedOn
    rw [committed_commit hp.accruals, List.filter_map, List.map_map]
    have hfilter : (committed w.accruals).filter ((fun a => decide (a.invoice = some inv.id)) ∘
        stamp (w.sessions n).stamps) = (committed w.accruals).filter fun a => a ∈ sc.group inv := by
      refine List.filter_congr fun a ha => ?_
      simp only [Function.comp_apply, hon a ha]
    rw [hfilter]
    refine List.map_congr_left fun a _ => ?_
    simp only [Function.comp_apply]
    rw [fields_stamp]
  rw [hlist]
  exact hperm.map _

theorem later_stamp (h : Books w) (hp : Prepared n w sc invs) {a : Accrual}
    (ha : a ∈ committed w.accruals) : Later a (stamp (w.sessions n).stamps a) := by
  rcases stamp_prepared h hp ha with ⟨hsame, -⟩ | ⟨inv, hinv, hg, hstamp⟩
  · rw [hsame]
    exact .refl a
  · rw [hstamp]
    refine ⟨rfl, fun i hi => ?_⟩
    rw [(of_mem_group h hp hinv hg).2.2.2.2] at hi
    cases hi

theorem old_commit (h : Books w) (hp : Prepared n w sc invs) {table : List Accrual}
    (hold : Old table (committed w.accruals)) : Old table (committed (w.commit n).accruals) := by
  intro b hb
  obtain ⟨a, ha, hlater⟩ := hold b hb
  refine ⟨stamp (w.sessions n).stamps a, ?_, hlater.trans (later_stamp h hp ha)⟩
  rw [committed_commit hp.accruals]
  exact List.mem_map_of_mem ha

theorem map_row_id_commit : (w.commit n).accruals.map (fun x => x.row.id) = w.accruals.map fun x => x.row.id := by
  unfold World.commit
  dsimp only
  rw [List.map_map]
  refine List.map_congr_left fun x _ => ?_
  simp only [Function.comp_apply, release]
  split <;> split <;> simp

theorem map_row_commit {β : Type} (f : Invoice → β) :
    (w.commit n).invoices.map (fun x => f x.row) = w.invoices.map fun x => f x.row := by
  unfold World.commit
  dsimp only
  rw [List.map_map]
  refine List.map_congr_left fun x _ => ?_
  simp only [Function.comp_apply, release]
  split <;> rfl

theorem own_commit_ne {m : Nat} (hm : m ≠ n) : own m (w.commit n).accruals = own m w.accruals := by
  unfold own World.commit
  dsimp only
  rw [List.filterMap_map]
  refine List.filterMap_congr fun x _ => ?_
  by_cases hx : x.owner = some n
  · simp [release, hx, Ne.symm hm]
  · by_cases hnone : x.owner = none <;> simp [release, hx, hnone]

theorem own_commit_self : own n (w.commit n).accruals = [] := by
  unfold own World.commit
  dsimp only
  rw [List.filterMap_map, List.filterMap_eq_nil_iff]
  intro x _
  by_cases hx : x.owner = some n
  · simp [release, hx]
  · by_cases hnone : x.owner = none <;> simp [release, hx, hnone]

theorem bound_commit (h : Books w) : ∀ x ∈ (w.commit n).accruals, x.row.id < w.nextID := by
  intro x hx
  have hmem : x.row.id ∈ (w.commit n).accruals.map fun x => x.row.id := List.mem_map_of_mem hx
  rw [map_row_id_commit] at hmem
  obtain ⟨y, hy, hid⟩ := List.mem_map.mp hmem
  rw [← hid]
  exact h.bound y hy

theorem unstamped_commit (h : Books w) (m : Nat) : ∀ a ∈ own m (w.commit n).accruals, a.invoice = none := by
  intro a ha
  by_cases hm : m = n
  · subst hm
    rw [own_commit_self] at ha
    cases ha
  · rw [own_commit_ne hm] at ha
    exact h.unstamped m a ha

theorem scan_commit {m : Nat} {sc' : Scan} (hsc : ((w.commit n).sessions m).scan = some sc') :
    (w.sessions m).scan = some sc' := by
  by_cases hm : m = n
  · subst hm
    simp [World.commit] at hsc
  · simpa only [World.commit, Function.update_of_ne hm] using hsc

theorem Books.commitRun (h : Books w) (hp : Prepared n w sc invs) (ht : Timely n w)
    (hcovered : ∀ a ∈ sc.rows, ∃ inv ∈ visible n w.invoices, inv.merchant = a.merchant ∧ inv.period = a.period) :
    Books (w.commit n) := by
  have hacc := committed_commit (w := w) (n := n) hp.accruals
  have hinv : ∀ inv, inv ∈ committed (w.commit n).invoices ↔ inv ∈ committed w.invoices ∨ inv ∈ invs := by
    intro inv
    rw [← hp.invoices]
    exact mem_committed_release
  -- an accrual after the commit, and what it was
  have hfields : ∀ a, stamp (w.sessions n).stamps a =
      { a with invoice := (stamp (w.sessions n).stamps a).invoice } := fields_stamp _
  have hsettled : ∀ inv ∈ committed w.invoices ++ invs, ∀ a ∈ committed w.accruals,
      a.merchant = inv.merchant → a.period = inv.period → (stamp (w.sessions n).stamps a).invoice = some inv.id := by
    intro inv hmem a ha hm hap
    rcases List.mem_append.mp hmem with hmem | hmem
    · have hi := h.settled inv hmem a ha hm hap
      exact (later_stamp h hp ha).2 _ hi
    · have hg := mem_group_of_key h hp ht hmem ha hm hap
      rcases stamp_prepared h hp ha with ⟨-, hnot⟩ | ⟨inv', hinv', hg', hstamp⟩
      · exact absurd hg (hnot inv hmem)
      · obtain ⟨-, hm', hap', -⟩ := of_mem_group h hp hinv' hg'
        have hown : inv ∈ own n w.invoices := by rwa [hp.invoices]
        have hown' : inv' ∈ own n w.invoices := by rwa [hp.invoices]
        have heq := h.key_inj (mem_own.mp hown') (mem_own.mp hown) (hm'.symm.trans hm) (hap'.symm.trans hap)
        cases heq
        rw [hstamp]
  refine ⟨?_, bound_commit h, unstamped_commit h, ?_, ?_, ?_, ?_, ?_, ?_, ?_, ?_, ?_⟩
  · rw [map_row_id_commit]
    exact h.ids
  · rw [map_row_commit fun inv => inv.id]
    exact h.invoiceIDs
  · rw [map_row_commit fun inv => (inv.merchant, inv.period)]
    exact h.keys
  · -- who stamped it
    intro a' ha' i hi
    rw [hacc] at ha'
    obtain ⟨a, ha, rfl⟩ := List.mem_map.mp ha'
    rcases stamp_prepared h hp ha with ⟨hsame, -⟩ | ⟨inv, hmem, hg, hstamp⟩
    · rw [hsame] at hi ⊢
      obtain ⟨inv, hmem, hrest⟩ := h.stampedBy a ha i hi
      exact ⟨inv, (hinv inv).mpr (.inl hmem), hrest⟩
    · rw [hstamp] at hi ⊢
      obtain ⟨-, hm, hap, hc, -⟩ := of_mem_group h hp hmem hg
      exact ⟨inv, (hinv inv).mpr (.inr hmem), Option.some.inj hi, hm.symm, hap.symm, hc.symm⟩
  · -- the totals
    intro inv hmem
    rcases (hinv inv).mp hmem with hold | hnew
    · have hsame : billedOn (committed (w.commit n).accruals) inv.id = billedOn (committed w.accruals) inv.id := by
        unfold billedOn
        rw [hacc]
        refine filter_map_of_fixed fun a ha => ?_
        rcases stamp_prepared h hp ha with ⟨hsame, -⟩ | ⟨inv', hmem', hg, hstamp⟩
        · rw [hsame]
          exact ⟨rfl, fun _ => rfl⟩
        · have hne : inv'.id ≠ inv.id := by
            intro hid
            have hown' : inv' ∈ own n w.invoices := by rwa [hp.invoices]
            have heq := h.id_inj (mem_own.mp hown') (mem_committed.mp hold) hid
            cases heq
          have hnone := (of_mem_group h hp hmem' hg).2.2.2.2
          rw [hstamp, hnone]
          simp [hne]
      rw [hsame]
      exact h.totals inv hold
    · have hperm := billedOn_own h hp hnew
      have hown : inv ∈ own n w.invoices := by rwa [hp.invoices]
      have hexact := (ht.invoices sc hp.scan inv hown).2
      constructor
      · rw [hperm.sum_eq, ← Decimal.sum_of_exact hexact, (hp.made inv hnew).2]
        rfl
      · have hlen := hperm.length_eq
        rw [List.length_map, List.length_map] at hlen
        rw [hlen, (hp.made inv hnew).2]
        rfl
  · -- settled
    intro inv hmem a' ha' hm hap
    rw [hacc] at ha'
    obtain ⟨a, ha, rfl⟩ := List.mem_map.mp ha'
    rw [hfields] at hm hap
    refine hsettled inv ?_ a ha hm hap
    exact List.mem_append.mpr ((hinv inv).mp hmem)
  · -- one currency
    intro a' ha' b' hb' hm hap
    rw [hacc] at ha' hb'
    obtain ⟨a, ha, rfl⟩ := List.mem_map.mp ha'
    obtain ⟨b, hb, rfl⟩ := List.mem_map.mp hb'
    rw [hfields a, hfields b] at hm hap ⊢
    exact h.oneCurrency a ha b hb hm hap
  · intro m sc' hsc
    obtain ⟨hnodup, hold⟩ := h.scans m sc' (scan_commit hsc)
    exact ⟨hnodup, old_commit h hp hold⟩
  · intro r hr
    rcases List.mem_append.mp hr with hr | hr
    · exact old_commit h hp (h.oldRuns r hr)
    · rw [hp.scan] at hr
      simp only [Option.map_some, Option.toList_some, List.mem_singleton] at hr
      subst hr
      exact old_commit h hp (h.scans n sc hp.scan).2
  · -- the runs so far, and this one
    intro r hr a' ha' hcovers hid
    rw [hacc] at ha'
    obtain ⟨a, ha, rfl⟩ := List.mem_map.mp ha'
    have hlater := later_stamp h hp ha
    have hkeep : a.invoice ≠ none → (stamp (w.sessions n).stamps a).invoice ≠ none := by
      intro hne
      obtain ⟨i, hi⟩ := Option.ne_none_iff_exists'.mp hne
      rw [hlater.2 i hi]
      simp
    have hcov : r.2.scope.covers a = true := by
      rw [hfields a] at hcovers
      exact hcovers
    have haid : a.id ∈ r.2.table.map (·.id) := by rwa [hlater.id_eq] at hid
    rcases List.mem_append.mp hr with hr | hr
    · exact hkeep (h.runs r hr a ha hcov haid)
    · rw [hp.scan] at hr
      simp only [Option.map_some, Option.toList_some, List.mem_singleton] at hr
      subst hr
      by_cases hbilled : a.invoice = none
      · obtain ⟨b, hb, hbid⟩ := List.mem_map.mp haid
        obtain ⟨a₁, ha₁, hlater₁⟩ := (h.scans n sc hp.scan).2 b hb
        obtain rfl := h.committed_inj ha₁ ha (hlater₁.id_eq.trans hbid)
        obtain rfl := hlater₁.eq_of_unbilled hbilled
        obtain ⟨inv, hvis, hm, hap⟩ := hcovered _ (mem_rows.mpr ⟨hb, hcov, hbilled⟩)
        have hmem : inv ∈ committed w.invoices ++ invs := by
          rw [← hp.invoices]
          exact List.mem_append.mpr (mem_visible.mp hvis)
        rw [hsettled inv hmem _ ha hm.symm hap.symm]
        simp
      · exact hkeep hbilled

theorem mem_committed_accrual (hstamps : (w.sessions n).stamps = []) {a : Accrual} :
    a ∈ committed (w.commit n).accruals ↔ a ∈ committed w.accruals ∨ a ∈ own n w.accruals := by
  have hsame : (w.commit n).accruals = w.accruals.map (release n) := by
    unfold World.commit
    dsimp only
    refine List.map_congr_left fun x _ => ?_
    rw [hstamps]
    split <;> rfl
  rw [hsame]
  exact mem_committed_release

theorem billedOn_accrual (h : Books w) (hstamps : (w.sessions n).stamps = []) (i : UUID) :
    billedOn (committed (w.commit n).accruals) i = billedOn (committed w.accruals) i := by
  unfold billedOn committed World.commit
  dsimp only
  rw [hstamps, List.filterMap_map, List.filter_filterMap, List.filter_filterMap]
  refine List.filterMap_congr fun x hx => ?_
  by_cases hown : x.owner = some n
  · have hnone := h.unstamped n x.row (mem_own.mpr (hown ▸ hx))
    simp [release, hown, hnone, stamp]
  · by_cases hcom : x.owner = none <;> simp [release, hown, hcom, stamp]

theorem Books.commitAccrual (h : Books w) (ht : Timely n w) (hsession : w.sessions n = {})
    (hone : ∀ a ∈ own n w.accruals, ∀ b ∈ own n w.accruals, a = b) (hinvoices : own n w.invoices = []) :
    Books (w.commit n) := by
  have hstamps : (w.sessions n).stamps = [] := by rw [hsession]
  have hacc : ∀ a, a ∈ committed (w.commit n).accruals ↔ a ∈ committed w.accruals ∨ a ∈ own n w.accruals :=
    fun a => mem_committed_accrual hstamps
  have hinv : (w.commit n).invoices = w.invoices := map_release_of_own_nil hinvoices
  have hruns : (w.commit n).runs = w.runs := by simp [World.commit, hsession]
  have hold : ∀ table, Old table (committed w.accruals) → Old table (committed (w.commit n).accruals) := by
    intro table h b hb
    obtain ⟨a, ha, hlater⟩ := h b hb
    exact ⟨a, (hacc a).mpr (.inl ha), hlater⟩
  refine ⟨?_, bound_commit h, unstamped_commit h, ?_, ?_, ?_, ?_, ?_, ?_, ?_, ?_, ?_⟩
  · rw [map_row_id_commit]
    exact h.ids
  · rw [hinv]
    exact h.invoiceIDs
  · rw [hinv]
    exact h.keys
  · intro a ha i hi
    rw [hinv]
    rcases (hacc a).mp ha with ha | ha
    · exact h.stampedBy a ha i hi
    · rw [h.unstamped n a ha] at hi
      cases hi
  · intro inv hmem
    rw [hinv] at hmem
    rw [billedOn_accrual h hstamps]
    exact h.totals inv hmem
  · intro inv hmem a ha hm hap
    rw [hinv] at hmem
    rcases (hacc a).mp ha with ha | ha
    · exact h.settled inv hmem a ha hm hap
    · exact absurd ⟨hm.symm, hap.symm⟩ ((ht.accruals a ha).1 inv hmem)
  · intro a ha b hb hm hap
    rcases (hacc a).mp ha with ha | ha <;> rcases (hacc b).mp hb with hb | hb
    · exact h.oneCurrency a ha b hb hm hap
    · exact (ht.accruals b hb).2 a ha ⟨hm, hap⟩
    · exact ((ht.accruals a ha).2 b hb ⟨hm.symm, hap.symm⟩).symm
    · rw [hone a ha b hb]
  · intro m sc' hsc
    obtain ⟨hnodup, htable⟩ := h.scans m sc' (scan_commit hsc)
    exact ⟨hnodup, hold _ htable⟩
  · intro r hr
    rw [hruns] at hr
    exact hold _ (h.oldRuns r hr)
  · intro r hr a ha hcovers hid
    rw [hruns] at hr
    rcases (hacc a).mp ha with ha | ha
    · exact h.runs r hr a ha hcovers hid
    · -- a row that was not committed is in no table read so far
      exfalso
      obtain ⟨b, hb, hbid⟩ := List.mem_map.mp hid
      obtain ⟨c, hc, hlater⟩ := h.oldRuns r hr b hb
      have heq := nodup_ids h.ids (mem_committed.mp hc) (mem_own.mp ha) (hlater.id_eq.trans hbid)
      cases heq

theorem rely_commit {m : Nat} (hm : m ≠ n) : Rely m w (w.commit n) where
  session := by simp [World.commit, Function.update_of_ne hm]
  accruals := own_commit_ne hm
  invoices := own_release_ne hm
  billed inv hinv := mem_committed_release.mpr (.inl hinv)
  runs sc' := by
    simp only [World.commit, List.mem_append, or_iff_left_iff_imp]
    intro hmem
    obtain ⟨x, -, heq⟩ := Option.map_eq_some_iff.mp (Option.mem_toList.mp hmem)
    exact absurd (Prod.mk.inj heq).1.symm hm

theorem rely_rollback {m : Nat} (hm : m ≠ n) : Rely m w (w.rollback n) where
  session := by simp [World.rollback, Function.update_of_ne hm]
  accruals := own_rollback_ne hm
  invoices := own_rollback_ne hm
  billed inv hinv := by
    rw [show committed (w.rollback n).invoices = committed w.invoices from committed_rollback]
    exact hinv
  runs _ := .rfl

theorem rely_setSession {m : Nat} (hm : m ≠ n) (s : Session) : Rely m w (w.setSession n s) where
  session := by simp [World.setSession, Function.update_of_ne hm]
  accruals := rfl
  invoices := rfl
  billed _ h := h
  runs _ := .rfl

theorem rely_insertAccrual {m : Nat} (hm : m ≠ n) (a : Accrual) (k : Nat) :
    Rely m w { w with accruals := w.accruals ++ [{ row := a, owner := some n }], nextID := k } where
  session := rfl
  accruals := own_append_ne a hm
  invoices := rfl
  billed _ h := h
  runs _ := .rfl

theorem rely_insertInvoice {m : Nat} (hm : m ≠ n) (inv : Invoice) :
    Rely m w { w with invoices := w.invoices ++ [{ row := inv, owner := some n }] } where
  session := rfl
  accruals := rfl
  invoices := own_append_ne inv hm
  billed _ h := by
    rw [committed_append_own]
    exact h
  runs _ := .rfl
end Run
end LinkMint.Pricing

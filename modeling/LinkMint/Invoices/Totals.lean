import LinkMint.Lib.Decimal

/-!
# Invoice totals

`compute_totals` of `app/domain/models.py` of invoice-subscription.
-/

namespace LinkMint.Invoices

open LinkMint.Lib.Decimal

structure LineInput where
  description : String
  quantity : Dec
  unitPrice : Nat
  taxRate : Dec := ⟨0, 0⟩

structure ComputedLine where
  description : String
  quantity : Dec
  unitPrice : Nat
  total : Nat
  taxRate : Dec

structure ComputedTotals where
  lines : List ComputedLine
  subtotal : Nat
  tax : Nat
  total : Nat

/-- `_round0` of a product. -/
def round0 (a b : Dec) : Except Signal Nat := do (← a.mul pythonContext b).quantize pythonContext

def computeLine (ln : LineInput) : Except Signal (ComputedLine × Nat) := do
  let lineTotal ← round0 ln.quantity ⟨ln.unitPrice, 0⟩
  let lineTax ← round0 ⟨lineTotal, 0⟩ ln.taxRate
  return (⟨ln.description, ln.quantity, ln.unitPrice, lineTotal, ln.taxRate⟩, lineTax)

def computeLines : List LineInput → List ComputedLine → Nat → Nat → Except Signal ComputedTotals
  | [], computed, subtotal, tax => .ok ⟨computed, subtotal, tax, subtotal + tax⟩
  | ln :: lines, computed, subtotal, tax => do
    let (line, lineTax) ← computeLine ln
    computeLines lines (computed ++ [line]) (subtotal + line.total) (tax + lineTax)

def computeTotals (lines : List LineInput) : Except Signal ComputedTotals := computeLines lines [] 0 0

end LinkMint.Invoices

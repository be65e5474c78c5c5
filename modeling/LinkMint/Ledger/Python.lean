import LinkMint.Ledger.Entry

/-!
# The check of the Python ledger

`validate` of `ledger-python/src/linkmint_ledger/entry.py`, on legs with texts and integers.
-/

namespace LinkMint.Ledger.Python

structure Leg where
  account : String
  direction : String
  amount : Int
  currency : String
deriving DecidableEq, Repr

inductive Error where
  | unbalanced (message : String)
  | invalidLeg (message : String)
deriving DecidableEq, Repr

/-- `str.isspace`: the characters of `unicode.IsSpace`, and four separators of ASCII. -/
def isSpace (c : Char) : Bool := Ledger.isSpace c || (0x1C ≤ c.toNat && c.toNat ≤ 0x1F)

/-- `not s or not s.strip()`. -/
def blank (s : String) : Bool := s.toList.all isSpace

def sideOf (text : String) : Direction :=
  if text = "DR" then .dr else if text = "CR" then .cr else .other text

def Leg.go (leg : Leg) : Ledger.Leg where
  account := leg.account
  direction := sideOf leg.direction
  amount := some leg.amount
  currency := leg.currency

section
variable (repr : String → String)

/-- `Direction(text)` raises for a text that is no side. -/
def checkLeg (i : Nat) (leg : Leg) : Except Error Unit :=
  if leg.direction ≠ "DR" ∧ leg.direction ≠ "CR" then
    .error (.invalidLeg s!"leg {i} has invalid direction {repr leg.direction}")
  else if blank leg.account then .error (.invalidLeg s!"leg {i} has an empty account")
  else if blank leg.currency then .error (.invalidLeg s!"leg {i} has an empty currency")
  else if leg.amount ≤ 0 then .error (.invalidLeg s!"leg {i} amount must be a positive integer")
  else .ok ()

def tally : (i : Nat) → Tally → List Leg → Except Error Tally
  | _, t, [] => .ok t
  | i, t, leg :: legs =>
    match checkLeg repr i leg with
    | .error e => .error e
    | .ok () => tally (i + 1) (t.add leg.go leg.amount) legs

/-- `validate`. -/
def validate (entries : List Leg) : Except Error Unit :=
  if entries.length < 2 then
    .error (.unbalanced s!"a posting needs at least one DR and one CR (got {entries.length} legs)")
  else match tally repr 0 {} entries with
    | .error e => .error e
    | .ok t =>
      let sums (leg : Leg) := t.perCurrency.getD leg.currency {}
      if !t.haveDR || !t.haveCR then .error (.unbalanced "a posting needs at least one DR and one CR")
      else match entries.find? fun leg => (sums leg).dr ≠ (sums leg).cr with
        | some leg =>
          .error (.unbalanced s!"currency {leg.currency} is unbalanced (DR={(sums leg).dr} CR={(sums leg).cr})")
        | none => .ok ()
end
end LinkMint.Ledger.Python

import LinkMint.Lib.MapTotal

/-!
# Ledger legs

`ledger-go/entry.go`: legs, and the check every posting passes before anything is written.
-/

namespace LinkMint.Ledger

open LinkMint.Lib Std

/-- A `Direction` is a text; two of them are sides. -/
inductive Direction where
  | dr
  | cr
  | other (text : String)
deriving DecidableEq, Repr

def Direction.text : Direction → String
  | .dr => "DR"
  | .cr => "CR"
  | .other s => s

def flip (d : Direction) : Direction := if d = .cr then .dr else .cr

structure Leg where
  account : String
  direction : Direction
  amount : Option Int
  currency : String
deriving DecidableEq, Repr

abbrev UUID := BitVec 128

structure PostingInput where
  entryGroup : Option UUID := none
  entries : List Leg
  plID : String := ""
  note : String := ""
deriving DecidableEq, Repr

inductive Imbalance where
  | tooFew (legs : Nat)
  | oneSided
  | currency (name : String) (dr cr : Int)
deriving DecidableEq, Repr

inductive LegFault where
  | direction (text : String)
  | account
  | currency
  | amount
deriving DecidableEq, Repr

inductive Error where
  | unbalanced (what : Imbalance)
  | invalidLeg (leg : Nat) (what : LegFault)
  | groupNotFound (group : UUID)
  | plain (message : String)
deriving DecidableEq, Repr

def Error.isValidation : Error → Bool
  | .unbalanced _ | .invalidLeg _ _ => true
  | .groupNotFound _ | .plain _ => false

def uuidText (g : UUID) : String :=
  let digits := (List.range 32).map fun i => Nat.digitChar (g.toNat / 16 ^ (31 - i) % 16)
  let part (start length : Nat) := (digits.drop start).take length
  String.ofList (part 0 8 ++ '-' :: part 8 4 ++ '-' :: part 12 4 ++ '-' :: part 16 4 ++ '-' :: part 20 12)

/-! ## `validate` -/

/-- `unicode.IsSpace`: the characters with the property `White_Space`. -/
def isSpace (c : Char) : Bool :=
  let n := c.toNat
  (9 ≤ n && n ≤ 13) || n == 0x20 || n == 0x85 || n == 0xA0 || n == 0x1680 ||
    (0x2000 ≤ n && n ≤ 0x200A) || n == 0x2028 || n == 0x2029 || n == 0x202F || n == 0x205F || n == 0x3000

def blank (s : String) : Bool := s.toList.all isSpace

structure Sums where
  dr : Int := 0
  cr : Int := 0
deriving DecidableEq, Repr

structure Tally where
  perCurrency : ExtTreeMap String Sums := ∅
  haveDR : Bool := false
  haveCR : Bool := false

/-- The checks on leg `i`: its amount. -/
def checkLeg (i : Nat) (leg : Leg) : Except Error Int :=
  if leg.direction ≠ .dr ∧ leg.direction ≠ .cr then
    .error (.invalidLeg i (.direction leg.direction.text))
  else if blank leg.account then .error (.invalidLeg i .account)
  else if blank leg.currency then .error (.invalidLeg i .currency)
  else match leg.amount with
    | none => .error (.invalidLeg i .amount)
    | some n => if n ≤ 0 then .error (.invalidLeg i .amount) else .ok n

def Tally.add (t : Tally) (leg : Leg) (amount : Int) : Tally :=
  let s := t.perCurrency.getD leg.currency {}
  if leg.direction = .dr then
    { t with perCurrency := t.perCurrency.insert leg.currency { s with dr := s.dr + amount }, haveDR := true }
  else
    { t with perCurrency := t.perCurrency.insert leg.currency { s with cr := s.cr + amount }, haveCR := true }

/-- The loop over the legs, from the `i`-th on. -/
def tally : (i : Nat) → Tally → List Leg → Except Error Tally
  | _, t, [] => .ok t
  | i, t, leg :: legs =>
    match checkLeg i leg with
    | .error e => .error e
    | .ok amount => tally (i + 1) (t.add leg amount) legs

/-- `validate`. -/
def validate (entries : List Leg) : Except Error Unit :=
  if entries.length < 2 then .error (.unbalanced (.tooFew entries.length))
  else match tally 0 {} entries with
    | .error e => .error e
    | .ok t =>
      if !t.haveDR || !t.haveCR then .error (.unbalanced .oneSided)
      else match t.perCurrency.toList.find? fun s => s.2.dr ≠ s.2.cr with
        | some (ccy, s) => .error (.unbalanced (.currency ccy s.dr s.cr))
        | none => .ok ()

end LinkMint.Ledger

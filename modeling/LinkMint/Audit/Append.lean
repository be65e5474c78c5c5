import Mathlib.Data.Rat.Defs
import Mathlib.Algebra.Field.Rat
import LinkMint.Lib.Text
import LinkMint.Audit.Log

/-!
# What an entry holds, and what is hashed

`domain/ports.go`, `domain/entry.go` and `hashing/canonical.go`.
-/

namespace LinkMint.Audit

open LinkMint.Lib LinkMint.Chain

/-- `any`, with numbers in `N`. -/
inductive Value (N : Type) : Type
  | null
  | bool (b : Bool)
  | num (n : N)
  | str (s : String)
  | arr (vs : List (Value N))
  | obj (fields : List (String × Value N))

namespace Value
mutual

def map {N M : Type} (f : N → M) : Value N → Value M
  | .null => .null
  | .bool b => .bool b
  | .num n => .num (f n)
  | .str s => .str s
  | .arr vs => .arr (mapList f vs)
  | .obj fields => .obj (mapFields f fields)

def mapList {N M : Type} (f : N → M) : List (Value N) → List (Value M)
  | [] => []
  | v :: vs => map f v :: mapList f vs

def mapFields {N M : Type} (f : N → M) : List (String × Value N) → List (String × Value M)
  | [] => []
  | (key, v) :: fields => (key, map f v) :: mapFields f fields
end
end Value

def digitsValue (ds : List Char) : Nat := ds.foldl (fun n d => 10 * n + (d.toNat - '0'.toNat)) 0

def numberValue (literal : String) : ℚ :=
  let isExponent := fun c : Char => c == 'e' || c == 'E'
  let unsigned := literal.toList.dropWhile (· == '-')
  let mantissa := unsigned.takeWhile fun c => !isExponent c
  let exponent := (unsigned.dropWhile fun c => !isExponent c).drop 1
  let whole := mantissa.takeWhile (· != '.')
  let fraction := (mantissa.dropWhile (· != '.')).drop 1
  let power : Int := digitsValue (exponent.filter Char.isDigit)
  let scale : Int := (if exponent.head? = some '-' then -power else power) - fraction.length
  let size : ℚ := digitsValue (whole ++ fraction) * 10 ^ scale
  if literal.toList.head? = some '-' then -size else size

def Value.denoted (v : Value String) : Value ℚ := v.map numberValue

structure Library where
  value : Bytes → Option (Value String)
  decode : Bytes → Option (Value String)
  valid : Bytes → Bool
  marshal : Value String → Bytes
  /-- The text that a `jsonb` column gives back for a text written to it. -/
  jsonb : Bytes → Option Bytes
  rfc3339 : Int → String
  uuidText : BitVec 128 → String
  trimSpace : Bytes → Bytes

structure AppendInput where
  occurredAt : Int
  actor : Actor
  action : String
  resource : String
  before : Bytes := []
  after : Bytes := []
  context : Bytes
deriving DecidableEq, Repr

/-- `time.Time{}`: the first of January of the year 1. -/
def zeroTime : Int := -62135596800000000000

def maxActionLen : Nat := 200
def maxResourceLen : Nat := 512
def maxJSONBytes : Nat := 256 * 1024

def validKind (kind : String) : Bool := kind == "user" || kind == "service" || kind == "system"

section
variable (lib : Library)

def isJSONObject (raw : Bytes) : Bool :=
  (lib.trimSpace raw).head? == some 123 && lib.valid raw

def validateJSON (field : String) (raw : Bytes) : Except String Unit :=
  if maxJSONBytes < raw.length then .error (field ++ " exceeds the maximum size")
  else if raw.length > 0 && !lib.valid raw then .error (field ++ " is not valid JSON")
  else .ok ()

/-- `AppendInput.Validate`. -/
def AppendInput.validate (input : AppendInput) : Except String Unit := do
  if !validKind input.actor.kind then throw "actor.kind must be one of user|service|system"
  if lib.trimSpace (bytesOf input.action) = [] then throw "action is required"
  if maxActionLen < input.action.utf8ByteSize then throw "action exceeds the maximum length"
  if lib.trimSpace (bytesOf input.resource) = [] then throw "resource is required"
  if maxResourceLen < input.resource.utf8ByteSize then throw "resource exceeds the maximum length"
  if !isJSONObject lib input.context then throw "context is required and must be a JSON object"
  validateJSON lib "before" input.before
  validateJSON lib "after" input.after
  validateJSON lib "context" input.context

def truncate (nanos : Int) : Int := nanos / 1000

def jsonNull : Bytes := bytesOf "null"

def isNull (raw : Bytes) : Bool := lib.trimSpace raw == [] || lib.trimSpace raw == jsonNull

def decodeJSON (raw : Bytes) : Option (Value String) :=
  if isNull lib raw then some .null else lib.decode (lib.trimSpace raw)

def canonicalActor (id kind : String) : Value String :=
  .obj [("id", if id = "" then .null else .str id), ("kind", .str kind)]

def canonicalObject (occurredAt action resource : String) (actor before after context : Value String) : Value String :=
  .obj [("action", .str action), ("actor", actor), ("after", after), ("before", before), ("context", context),
    ("occurred_at", .str occurredAt), ("resource", .str resource)]

def actorID (actor : Actor) : String := actor.id.elim "" lib.uuidText

def canonical (input : AppendInput) : Option Bytes := do
  let before ← decodeJSON lib input.before
  let after ← decodeJSON lib input.after
  let context ← decodeJSON lib input.context
  return lib.marshal (canonicalObject (lib.rfc3339 (truncate input.occurredAt)) input.action input.resource
    (canonicalActor (actorID lib input.actor) input.actor.kind) before after context)

/-- `BuildEntry`: the entry but for its id, which the store assigns. -/
def buildEntry (env : Env) (input : AppendInput) (prev : Bytes) : Option Columns := do
  let canon ← canonical lib input
  return { occurredAt := truncate input.occurredAt, actor := input.actor, action := input.action,
           resource := input.resource, before := input.before, after := input.after, context := input.context,
           prevHash := prev, entryHash := hash env prev canon, canonical := canon }

variable {lib} in
theorem buildEntry_eq_some {env : Env} {input : AppendInput} {prev : Bytes} {e : Columns}
    (h : buildEntry lib env input prev = some e) : ∃ canon, canonical lib input = some canon ∧
      e = { occurredAt := truncate input.occurredAt, actor := input.actor, action := input.action,
            resource := input.resource, before := input.before, after := input.after, context := input.context,
            prevHash := prev, entryHash := hash env prev canon, canonical := canon } := by
  simp only [buildEntry, Option.bind_eq_bind, Option.pure_def, Option.bind_eq_some_iff, Option.some.injEq] at h
  obtain ⟨canon, hcanon, rfl⟩ := h
  exact ⟨canon, hcanon, rfl⟩

/-- A nullable `jsonb` column with the argument `jsonbArg` makes: what it gives back, empty for `NULL`. -/
def jsonbColumn (raw : Bytes) : Option Bytes :=
  if isNull lib raw then some [] else lib.jsonb (lib.trimSpace raw)

/-- The row that the `INSERT` leaves, unless a cast or the `NOT NULL` of `context` refuses it. -/
def Columns.stored (e : Columns) : Option Columns := do
  let before ← jsonbColumn lib e.before
  let after ← jsonbColumn lib e.after
  let context ← jsonbColumn lib e.context
  if context = [] then none
  else return { e with before, after, context }

variable {lib} in
theorem Columns.stored_eq_some {e c : Columns} (h : e.stored lib = some c) :
    ∃ before after context, jsonbColumn lib e.before = some before ∧ jsonbColumn lib e.after = some after ∧
      jsonbColumn lib e.context = some context ∧ c = { e with before, after, context } := by
  simp only [Columns.stored, Option.bind_eq_bind, Option.pure_def, Option.bind_eq_some_iff] at h
  obtain ⟨before, hbefore, after, hafter, context, hcontext, hrow⟩ := h
  split at hrow
  · cases hrow
  · exact ⟨before, after, context, hbefore, hafter, hcontext, (Option.some.inj hrow).symm⟩

/-- `entryView`, but for the entry's id and its hashes. -/
structure EntryView where
  occurredAt : String
  actorID : Option String
  actorKind : String
  action : String
  resource : String
  before : Bytes
  after : Bytes
  context : Bytes
deriving DecidableEq, Repr

def toView (c : Columns) : EntryView where
  occurredAt := lib.rfc3339 c.occurredAt
  actorID := c.actor.id.map lib.uuidText
  actorKind := c.actor.kind
  action := c.action
  resource := c.resource
  before := c.before
  after := c.after
  context := c.context

/-- `BuildProof`: what it says of the entry. -/
def Columns.proofValid (env : Env) (c : Columns) : Bool := hash env c.prevHash c.canonical == c.entryHash

/-- `GET /v1/audit-log/{entry_id}`: the entry and whether its proof is valid. -/
def Table.getEntry (env : Env) (t : Table) (id : Int) : Option (EntryView × Bool) :=
  t[id]?.map fun c => (toView lib c, c.proofValid env)
end
end LinkMint.Audit

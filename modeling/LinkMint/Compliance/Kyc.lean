import LinkMint.Lib.ReadCommitted

/-!
# KYC tiers

`app/domain/kyc_service.py` of compliance-risk, what `RiskService.evaluate` reads of it, and their queries.
-/

namespace LinkMint.Compliance

open LinkMint.Lib

abbrev UUID := Nat

abbrev Time := Int

inductive ErrorCode where
  | invalidTier | alreadyVerified | providerError
  deriving DecidableEq

structure AppError where
  code : ErrorCode
  message : String
  deriving DecidableEq

namespace Kyc
structure KycRecordRow where
  tier : Nat
  provider : String
  verifiedAt : Option Time
  expiresAt : Option Time
  deriving DecidableEq

inductive Event where
  /-- The payload is the user and the tier; what the callback granted, and when, is kept with it for the results. -/
  | kycPassed (user : UUID) (tier granted : Nat) (verifiedAt : Time)
  | kycFailed (user : UUID)

abbrev Tables := Db UUID KycRecordRow Event
abbrev Change := Write UUID KycRecordRow Event

namespace Tables
def getKycRecord (d : Tables) (user : UUID) : Option KycRecordRow := Db.find? d user

def getTier (d : Tables) (user : UUID) : Nat :=
  match getKycRecord d user with
  | some record => record.tier
  | none => 0
end Tables

inductive Query where
  | getKycRecord (user : UUID)
  | getTier (user : UUID)

def Query.Answer : Query → Type
  | .getKycRecord _ => Option KycRecordRow
  | .getTier _ => Nat

inductive Ask where
  | now
  | start (user : UUID) (tier : Nat)

def Ask.Answer : Ask → Type
  | .now => Time
  | .start _ _ => Option String

inductive Reply where
  | time (t : Time)
  | session (id : Option String)

def backend : Backend Query.Answer Ask.Answer UUID KycRecordRow Event Unit Reply where
  read
    | .getKycRecord user, d => Tables.getKycRecord d user
    | .getTier user, d => Tables.getTier d user
  ask _ _
    | .now, .time t => some (t, ())
    | .start _ _, .session id => some (id, ())
    | _, _ => none

abbrev Act (α : Type) := TxAct Query.Answer Ask.Answer UUID KycRecordRow Event AppError α

namespace Act
def getKycRecord (user : UUID) : Act (Option KycRecordRow) := TxAct.query (Query.getKycRecord user)

def getTier (user : UUID) : Act Nat := TxAct.query (Query.getTier user)

def now : Act Time := TxAct.ask Ask.now

def start (user : UUID) (tier : Nat) : Act (Option String) := TxAct.ask (Ask.start user tier)
end Act

def changes (loaded row current : KycRecordRow) : KycRecordRow where
  tier := if row.tier = loaded.tier then current.tier else row.tier
  provider := if row.provider = loaded.provider then current.provider else row.provider
  verifiedAt := if row.verifiedAt = loaded.verifiedAt then current.verifiedAt else row.verifiedAt
  expiresAt := if row.expiresAt = loaded.expiresAt then current.expiresAt else row.expiresAt

def upsertKycRecord (user : UUID) (existing : Option KycRecordRow) (row : KycRecordRow) : Act Unit := do
  match existing with
  | some loaded => TxAct.flush [.update user (changes loaded row)]
  | none =>
    match ← Act.getKycRecord user with
    | some loaded => TxAct.flush [.update user (changes loaded row)]
    | none => TxAct.flush [.insert user row]

def currentTier : Option KycRecordRow → Nat
  | some existing => existing.tier
  | none => 0

inductive Response where
  | started (sessionId : String)
  | applied
  | evaluated (tier : Nat)

def createSession (provider : String) (user : UUID) (tierRequested : Nat) : Act Response := do
  TxAct.require (tierRequested = 1 ∨ tierRequested = 2)
    ⟨.invalidTier, "tier_requested must be 1 (basic) or 2 (enhanced)"⟩
  let existing ← Act.getKycRecord user
  TxAct.require (currentTier existing < tierRequested)
    ⟨.alreadyVerified, "user already holds an equal or higher KYC tier"⟩
  match ← Act.start user tierRequested with
  | none => TxAct.raise ⟨.providerError, "KYC provider could not start a session"⟩
  | some sessionId =>
    upsertKycRecord user existing
      { tier := currentTier existing
        provider
        verifiedAt := existing.bind (·.verifiedAt)
        expiresAt := existing.bind (·.expiresAt) }
    TxAct.commit
    return .started sessionId

def applyCallback (kycValidity : Int) (provider : String) (user : UUID) (passed : Bool) (tierGranted : Nat) :
    Act Response := do
  let existing ← Act.getKycRecord user
  if passed then
    let now ← Act.now
    let newTier := max (currentTier existing) tierGranted
    upsertKycRecord user existing
      { tier := newTier, provider, verifiedAt := some now, expiresAt := some (now + kycValidity) }
    TxAct.flush [.emit (.kycPassed user newTier tierGranted now)]
    TxAct.commit
    return .applied
  else
    upsertKycRecord user existing
      { tier := currentTier existing
        provider
        verifiedAt := existing.bind (·.verifiedAt)
        expiresAt := existing.bind (·.expiresAt) }
    TxAct.flush [.emit (.kycFailed user)]
    TxAct.commit
    return .applied

/-- `RiskService.evaluate`, as far as the tier goes. -/
def evaluate (user : UUID) : Act Response := do
  let _ ← Act.now
  let tier ← Act.getTier user
  return .evaluated tier

inductive Request where
  | createSession (provider : String) (user : UUID) (tierRequested : Nat)
  | applyCallback (provider : String) (user : UUID) (passed : Bool) (tierGranted : Nat)
  | evaluate (user : UUID)

def Request.user : Request → UUID
  | .createSession _ user _ | .applyCallback _ user _ _ | .evaluate user => user

def handle (kycValidity : Int) : Request → Act Response
  | .createSession provider user tierRequested => createSession provider user tierRequested
  | .applyCallback provider user passed tierGranted => applyCallback kycValidity provider user passed tierGranted
  | .evaluate user => evaluate user

abbrev World := TxWorld UUID KycRecordRow Event Unit

def system (kycValidity : Int) : System (TxOp Query Ask UUID KycRecordRow Event)
    (TxOp.Answer Query.Answer Ask.Answer) Request World (TxChoice Reply) Nat (Except (Failure AppError) Response) :=
  txSystem backend (handle kycValidity)
end Kyc
end LinkMint.Compliance

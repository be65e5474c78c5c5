import LinkMint.Identity.Orgs

/-!
# Sessions and password resets

`app/domain/sessions_service.py` and the logins and password resets of `app/domain/auth_service.py`.
-/

namespace LinkMint.Identity.Sessions

open LinkMint.Lib

abbrev Time := Int

inductive UserStatus where
  | active | suspended | deleted
  deriving DecidableEq

structure Settings where
  hashToken : String → String
  refreshTokenTtlSeconds : Int
  passwordResetTokenTtlSeconds : Int
  passwordResetDevReturnToken : Bool

structure UserRow where
  identifiers : List String
  passwordHash : Option String
  status : UserStatus
  deriving DecidableEq

structure SessionRow where
  sessionId : UUID
  user : UUID
  expiresAt : Time
  revokedAt : Option Time
  deriving DecidableEq

structure PasswordResetTokenRow where
  user : UUID
  expiresAt : Time
  usedAt : Option Time
  deriving DecidableEq

inductive Key where
  | user (user : UUID)
  | session (refreshToken : String)
  | reset (tokenHash : String)
  deriving DecidableEq

inductive Row where
  | user (u : UserRow)
  | session (s : SessionRow)
  | reset (t : PasswordResetTokenRow)
  deriving DecidableEq

namespace Row
def revoke (now : Time) : Row → Row
  | session s => session { s with revokedAt := some now }
  | row => row

def markUsed (now : Time) : Row → Row
  | reset t => reset { t with usedAt := some now }
  | row => row

def setPassword (hash : String) : Row → Row
  | user u => user { u with passwordHash := some hash }
  | row => row
end Row

inductive Event where
  | passwordResetRequested (user : UUID)
  | passwordResetSucceeded (user : UUID)

abbrev Tables := Db Key Row Event
abbrev Change := Write Key Row Event

namespace Tables
def lookup (d : Tables) (identifier : String) : Option (UUID × UserRow) :=
  d.rows.findSome? fun
    | (.user id, .user u) => if identifier ∈ u.identifiers then some (id, u) else none
    | _ => none

def getUser (d : Tables) (user : UUID) : Option UserRow :=
  match Db.find? d (.user user) with
  | some (.user u) => some u
  | _ => none

def getSessionByRefreshHash (d : Tables) (hash : String) : Option SessionRow :=
  match Db.find? d (.session hash) with
  | some (.session s) => some s
  | _ => none

def getSession (d : Tables) (id : UUID) : Option (String × SessionRow) :=
  d.rows.findSome? fun
    | (.session hash, .session s) => if s.sessionId = id then some (hash, s) else none
    | _ => none

def listActiveSessionsForUser (d : Tables) (user : UUID) : List String :=
  d.rows.filterMap fun
    | (.session hash, .session s) => if s.user = user ∧ s.revokedAt = none then some hash else none
    | _ => none

def getPasswordResetByHash (d : Tables) (hash : String) : Option PasswordResetTokenRow :=
  match Db.find? d (.reset hash) with
  | some (.reset t) => some t
  | _ => none

def listUnusedResetTokens (d : Tables) (user : UUID) : List String :=
  d.rows.filterMap fun
    | (.reset hash, .reset t) => if t.user = user ∧ t.usedAt = none then some hash else none
    | _ => none
end Tables

def Tables.registered (users : Std.ExtTreeMap UUID UserRow) : Tables :=
  { rows := users.toList.map fun x => (.user x.1, .user x.2) }

inductive Query where
  | lookup (identifier : String)
  | getUser (user : UUID)
  | getSessionByRefreshHash (hash : String)
  | getSession (id : UUID)
  | listActiveSessionsForUser (user : UUID)
  | getPasswordResetByHash (hash : String)
  | listUnusedResetTokens (user : UUID)
  | roles (user : UUID)

def Query.Answer : Query → Type
  | .lookup _ => Option (UUID × UserRow)
  | .getUser _ => Option UserRow
  | .getSessionByRefreshHash _ => Option SessionRow
  | .getSession _ => Option (String × SessionRow)
  | .listActiveSessionsForUser _ | .listUnusedResetTokens _ => List String
  | .getPasswordResetByHash _ => Option PasswordResetTokenRow
  | .roles _ => Unit

inductive Ask where
  | now
  | uuid4
  | mintToken
  | hashPassword (password : String)
  | verifyPassword (user : UUID) (password : String)
  | checkMfa (user : UUID) (code : Option String)

def Ask.Answer : Ask → Type
  | .now => Time
  | .uuid4 => UUID
  | .mintToken | .hashPassword _ => String
  | .verifyPassword _ _ => Bool
  | .checkMfa _ _ => Option AppError

inductive Reply where
  | time (t : Time)
  | uuid (u : UUID)
  | text (s : String)
  | verified (b : Bool)
  | mfa (e : Option AppError)

def backend : Backend Query.Answer Ask.Answer Key Row Event Unit Reply where
  read
    | .lookup identifier, d => Tables.lookup d identifier
    | .getUser user, d => Tables.getUser d user
    | .getSessionByRefreshHash hash, d => Tables.getSessionByRefreshHash d hash
    | .getSession id, d => Tables.getSession d id
    | .listActiveSessionsForUser user, d => Tables.listActiveSessionsForUser d user
    | .getPasswordResetByHash hash, d => Tables.getPasswordResetByHash d hash
    | .listUnusedResetTokens user, d => Tables.listUnusedResetTokens d user
    | .roles _, _ => ()
  ask _ _
    | .now, .time t => some (t, ())
    | .uuid4, .uuid u => some (u, ())
    | .mintToken, .text s => some (s, ())
    | .hashPassword _, .text s => some (s, ())
    | .verifyPassword _ _, .verified b => some (b, ())
    | .checkMfa _ _, .mfa e => some (e, ())
    | _, _ => none

abbrev Act (α : Type) := TxAct Query.Answer Ask.Answer Key Row Event AppError α

namespace Act
def lookup (identifier : String) : Act (Option (UUID × UserRow)) := TxAct.query (Query.lookup identifier)

def getUser (user : UUID) : Act (Option UserRow) := TxAct.query (Query.getUser user)

def getSessionByRefreshHash (hash : String) : Act (Option SessionRow) :=
  TxAct.query (Query.getSessionByRefreshHash hash)

def getSession (id : UUID) : Act (Option (String × SessionRow)) := TxAct.query (Query.getSession id)

def listActiveSessionsForUser (user : UUID) : Act (List String) := TxAct.query (Query.listActiveSessionsForUser user)

def getPasswordResetByHash (hash : String) : Act (Option PasswordResetTokenRow) :=
  TxAct.query (Query.getPasswordResetByHash hash)

def listUnusedResetTokens (user : UUID) : Act (List String) := TxAct.query (Query.listUnusedResetTokens user)

def roles (user : UUID) : Act Unit := TxAct.query (Query.roles user)

def now : Act Time := TxAct.ask Ask.now

def uuid4 : Act UUID := TxAct.ask Ask.uuid4

def mintToken : Act String := TxAct.ask Ask.mintToken

def hashPassword (password : String) : Act String := TxAct.ask (Ask.hashPassword password)

def verifyPassword (user : UUID) (password : String) : Act Bool := TxAct.ask (Ask.verifyPassword user password)

def checkMfa (user : UUID) (code : Option String) : Act (Option AppError) := TxAct.ask (Ask.checkMfa user code)
end Act

def revocation (now : Time) (hash : String) : Change := .update (.session hash) (Row.revoke now)

/-- `issue`; the rows changed before are written with the new session. -/
def issue (cfg : Settings) (user : UUID) (dirty : List Change) : Act (Option String) := do
  let refresh ← Act.mintToken
  let sid ← Act.uuid4
  let now ← Act.now
  TxAct.flush (dirty ++ [.insert (.session (cfg.hashToken refresh))
    (.session { sessionId := sid, user, expiresAt := now + cfg.refreshTokenTtlSeconds, revokedAt := none })])
  Act.roles user
  TxAct.commit
  return some refresh

/-- `_revoke_family`: the changes to the sessions that are active when it looks. -/
def revokeFamily (user : UUID) (dirty : List Change) : Act (List Change) := do
  let now ← Act.now
  TxAct.flush dirty
  let active ← Act.listActiveSessionsForUser user
  return active.map (revocation now)

def requireActive (user : UUID) (message : String) : Act Unit := do
  match ← Act.getUser user with
  | none => TxAct.raise ⟨.invalidToken, message⟩
  | some row => TxAct.require (row.status = .active) ⟨.invalidToken, message⟩

def rotate (cfg : Settings) (refreshToken : String) : Act (Option String) := do
  match ← Act.getSessionByRefreshHash (cfg.hashToken refreshToken) with
  | none => TxAct.raise ⟨.invalidToken, "invalid refresh token"⟩
  | some session =>
    let now ← Act.now
    match session.revokedAt with
    | some _ =>
      let revocations ← revokeFamily session.user []
      TxAct.flush revocations
      TxAct.commit
      TxAct.raise ⟨.invalidToken, "refresh token reuse detected"⟩
    | none =>
      TxAct.require (now < session.expiresAt) ⟨.tokenExpired, "refresh token expired"⟩
      requireActive session.user "invalid refresh token"
      issue cfg session.user [revocation now (cfg.hashToken refreshToken)]

def revokeIfActive (hash : String) (session : SessionRow) : Act (Option String) :=
  match session.revokedAt with
  | some _ => pure none
  | none => do
    let now ← Act.now
    TxAct.flush [revocation now hash]
    TxAct.commit
    return none

def logout (cfg : Settings) (user : UUID) (refreshToken : String) : Act (Option String) := do
  match ← Act.getSessionByRefreshHash (cfg.hashToken refreshToken) with
  | none => pure none
  | some session =>
    if session.user = user then revokeIfActive (cfg.hashToken refreshToken) session else pure none

def revoke (user id : UUID) : Act (Option String) := do
  match ← Act.getSession id with
  | none => TxAct.raise ⟨.sessionNotFound, "session not found"⟩
  | some (hash, session) =>
    TxAct.require (session.user = user) ⟨.sessionNotFound, "session not found"⟩
    revokeIfActive hash session

def login (cfg : Settings) (identifier password : String) (mfaCode : Option String) : Act (Option String) := do
  match ← Act.lookup identifier with
  | none => TxAct.raise ⟨.invalidCredentials, "invalid credentials"⟩
  | some (id, user) =>
    let verified ← Act.verifyPassword id password
    TxAct.require (user.passwordHash ≠ none ∧ verified = true) ⟨.invalidCredentials, "invalid credentials"⟩
    TxAct.require (user.status = .active) ⟨.userSuspended, "account is not active"⟩
    match ← Act.checkMfa id mfaCode with
    | some e => TxAct.raise e
    | none =>
      -- `last_login_at`, a column left out here: its row is locked all the same
      issue cfg id [.update (.user id) fun row => row]

def requestPasswordReset (cfg : Settings) (identifier : String) : Act (Option String) := do
  match ← Act.lookup identifier with
  | none => return none
  | some (id, user) =>
    match user.passwordHash with
    | none => return none
    | some _ =>
      let raw ← Act.mintToken
      let now ← Act.now
      let unused ← Act.listUnusedResetTokens id
      TxAct.flush (unused.map fun hash => .update (.reset hash) (Row.markUsed now))
      let now ← Act.now
      TxAct.flush [.insert (.reset (cfg.hashToken raw))
        (.reset { user := id, expiresAt := now + cfg.passwordResetTokenTtlSeconds, usedAt := none })]
      TxAct.flush [.emit (.passwordResetRequested id)]
      TxAct.commit
      return if cfg.passwordResetDevReturnToken then some raw else none

def confirmPasswordReset (cfg : Settings) (token newPassword : String) : Act (Option String) := do
  match ← Act.getPasswordResetByHash (cfg.hashToken token) with
  | none => TxAct.raise ⟨.invalidToken, "invalid or expired reset token"⟩
  | some row =>
    let now ← Act.now
    TxAct.require (row.usedAt = none ∧ now < row.expiresAt) ⟨.invalidToken, "invalid or expired reset token"⟩
    requireActive row.user "invalid reset token"
    let passwordHash ← Act.hashPassword newPassword
    let revocations ← revokeFamily row.user
      [.update (.user row.user) (Row.setPassword passwordHash), .update (.reset (cfg.hashToken token)) (Row.markUsed now)]
    TxAct.flush (revocations ++ [.emit (.passwordResetSucceeded row.user)])
    TxAct.commit
    return none

inductive Request where
  | login (identifier password : String) (mfaCode : Option String)
  | rotate (refreshToken : String)
  | logout (user : UUID) (refreshToken : String)
  | revoke (user id : UUID)
  | requestPasswordReset (identifier : String)
  | confirmPasswordReset (token newPassword : String)
  deriving DecidableEq

def handle (cfg : Settings) : Request → Act (Option String)
  | .login identifier password mfaCode => login cfg identifier password mfaCode
  | .rotate refreshToken => rotate cfg refreshToken
  | .logout user refreshToken => logout cfg user refreshToken
  | .revoke user id => revoke user id
  | .requestPasswordReset identifier => requestPasswordReset cfg identifier
  | .confirmPasswordReset token newPassword => confirmPasswordReset cfg token newPassword

abbrev World := TxWorld Key Row Event Unit

def system (cfg : Settings) : System (TxOp Query Ask Key Row Event) (TxOp.Answer Query.Answer Ask.Answer) Request World
    (TxChoice Reply) Nat (Except (Failure AppError) (Option String)) :=
  txSystem backend (handle cfg)

end LinkMint.Identity.Sessions

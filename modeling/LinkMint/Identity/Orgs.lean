import LinkMint.Lib.ReadCommitted

/-!
# Organisations and their members

`app/domain/orgs_service.py` and `app/domain/rbac.py` of identity-service, over the queries of
`app/db/repositories.py`.
-/

namespace LinkMint.Identity

open LinkMint.Lib

abbrev UUID := Nat

inductive ErrorCode where
  | invalidPayload | forbidden | userSuspended | invalidCredentials | invalidToken | tokenExpired | mfaRequired | mfaInvalid
  | orgNotFound | memberNotFound | memberExists | cannotRemoveLastOwner | sessionNotFound
  deriving DecidableEq

structure AppError where
  code : ErrorCode
  message : String
  deriving DecidableEq

inductive OrgType where
  | merchant | developer | admin
  deriving DecidableEq

def OrgType.parse : String → Option OrgType
  | "merchant" => some .merchant
  | "developer" => some .developer
  | "admin" => some .admin
  | _ => none

inductive Role where
  | owner | admin | developer | operator | viewer
  deriving DecidableEq

def Role.value : Role → String
  | .owner => "owner"
  | .admin => "admin"
  | .developer => "developer"
  | .operator => "operator"
  | .viewer => "viewer"

def Role.parse : String → Option Role
  | "owner" => some .owner
  | "admin" => some .admin
  | "developer" => some .developer
  | "operator" => some .operator
  | "viewer" => some .viewer
  | _ => none

inductive Permission where
  | orgRead | orgUpdate | orgDelete | memberRead | memberInvite | memberRemove
  | apikeyRead | apikeyIssue | apikeyRevoke
  deriving DecidableEq

def Permission.value : Permission → String
  | .orgRead => "org:read"
  | .orgUpdate => "org:update"
  | .orgDelete => "org:delete"
  | .memberRead => "member:read"
  | .memberInvite => "member:invite"
  | .memberRemove => "member:remove"
  | .apikeyRead => "apikey:read"
  | .apikeyIssue => "apikey:issue"
  | .apikeyRevoke => "apikey:revoke"

def can : Role → Permission → Bool
  | .owner, _ => true
  | .admin, p => p ≠ .orgDelete
  | .developer, p => p ∈ [.orgRead, .memberRead, .apikeyRead, .apikeyIssue, .apikeyRevoke]
  | .operator, p => p ∈ [.orgRead, .memberRead, .apikeyRead]
  | .viewer, p => p ∈ [.orgRead, .memberRead]

def roleInOrg (roles : List (UUID × Role)) (org : UUID) : Option Role := (roles.find? fun r => r.1 = org).map (·.2)

namespace Orgs
inductive Key where
  | org (org : UUID)
  | membership (org user : UUID)
  deriving DecidableEq

inductive Row where
  | org (type : OrgType) (createdBy : UUID)
  | membership (role : Role)
  deriving DecidableEq

inductive Event where
  | orgCreated (org : UUID) (type : OrgType)
  | memberAdded (org user : UUID) (role : Role)
  | memberRemoved (org user : UUID)

abbrev Tables := Db Key Row Event

namespace Tables
def listMembershipsForUser (d : Tables) (user : UUID) : List (UUID × Role) :=
  d.rows.filterMap fun
    | (.membership o u, .membership role) => if u = user then some (o, role) else none
    | _ => none

def getMembership (d : Tables) (org user : UUID) : Option Role :=
  match Db.find? d (.membership org user) with
  | some (.membership role) => some role
  | _ => none

def isOwnerRow (org : UUID) : Key × Row → Bool
  | (.membership o _, .membership role) => o = org ∧ role = .owner
  | _ => false

def countOwners (d : Tables) (org : UUID) : Nat := (d.rows.filter (isOwnerRow org)).length
end Tables

inductive Query where
  | listMembershipsForUser (user : UUID)
  | getMembership (org user : UUID)
  | countOwners (org : UUID)

def Query.Answer : Query → Type
  | .listMembershipsForUser _ => List (UUID × Role)
  | .getMembership _ _ => Option Role
  | .countOwners _ => Nat

inductive Ask where
  | uuid4
  | getUser (user : UUID)
  | getUserByEmail (email : String)

def Ask.Answer : Ask → Type
  | .uuid4 => UUID
  | .getUser _ | .getUserByEmail _ => Option UUID

inductive Reply where
  | uuid (u : UUID)
  | user (u : Option UUID)

def backend : Backend Query.Answer Ask.Answer Key Row Event Unit Reply where
  read
    | .listMembershipsForUser user, d => Tables.listMembershipsForUser d user
    | .getMembership org user, d => Tables.getMembership d org user
    | .countOwners org, d => Tables.countOwners d org
  ask _ _
    | .uuid4, .uuid u => some (u, ())
    | .getUser _, .user u => some (u, ())
    | .getUserByEmail _, .user u => some (u, ())
    | _, _ => none

abbrev Act (α : Type) := TxAct Query.Answer Ask.Answer Key Row Event AppError α

namespace Act
def listMembershipsForUser (user : UUID) : Act (List (UUID × Role)) := TxAct.query (Query.listMembershipsForUser user)

def getMembership (org user : UUID) : Act (Option Role) := TxAct.query (Query.getMembership org user)

def countOwners (org : UUID) : Act Nat := TxAct.query (Query.countOwners org)

def uuid4 : Act UUID := TxAct.ask Ask.uuid4

def getUser (user : UUID) : Act (Option UUID) := TxAct.ask (Ask.getUser user)

def getUserByEmail (email : String) : Act (Option UUID) := TxAct.ask (Ask.getUserByEmail email)
end Act

def requireRole (actor org : UUID) (permission : Permission) : Act Role := do
  let roles ← Act.listMembershipsForUser actor
  match roleInOrg roles org with
  | none => TxAct.raise ⟨.orgNotFound, "organization not found"⟩
  | some role =>
    TxAct.require (can role permission = true)
      ⟨.forbidden, "role '" ++ role.value ++ "' lacks permission '" ++ permission.value ++ "'"⟩
    return role

def create (creator : UUID) (orgType : String) : Act UUID := do
  match OrgType.parse orgType with
  | none => TxAct.raise ⟨.invalidPayload, s!"invalid org type '{orgType}'"⟩
  | some type =>
    let org ← Act.uuid4
    TxAct.flush [.insert (.org org) (.org type creator)]
    TxAct.flush [.insert (.membership org creator) (.membership .owner)]
    TxAct.flush [.emit (.orgCreated org type)]
    TxAct.commit
    return org

def lookupTarget : Option UUID → Option String → Act (Option UUID)
  | some user, _ => Act.getUser user
  | none, some email => Act.getUserByEmail email
  | none, none => pure none

def addMember (actor org : UUID) (targetUser : Option UUID) (targetEmail : Option String) (role : String) :
    Act UUID := do
  let _ ← requireRole actor org .memberInvite
  match Role.parse role with
  | none => TxAct.raise ⟨.invalidPayload, s!"invalid role '{role}'"⟩
  | some role =>
    match ← lookupTarget targetUser targetEmail with
    | none => TxAct.raise ⟨.memberNotFound, "user to add not found"⟩
    | some target =>
      let existing ← Act.getMembership org target
      TxAct.require (existing = none) ⟨.memberExists, "user is already a member"⟩
      TxAct.flush [.insert (.membership org target) (.membership role)]
      TxAct.flush [.emit (.memberAdded org target role)]
      TxAct.commit
      return target

def requireOtherOwner (org : UUID) : Role → Act Unit
  | .owner => do
    let owners ← Act.countOwners org
    TxAct.require (1 < owners) ⟨.cannotRemoveLastOwner, "cannot remove the last owner"⟩
  | _ => pure ()

def removeMember (actor org target : UUID) : Act UUID := do
  let _ ← requireRole actor org .memberRemove
  match ← Act.getMembership org target with
  | none => TxAct.raise ⟨.memberNotFound, "membership not found"⟩
  | some role =>
    requireOtherOwner org role
    TxAct.flush [.delete (.membership org target)]
    TxAct.flush [.emit (.memberRemoved org target)]
    TxAct.commit
    return target

inductive Request where
  | create (creator : UUID) (orgType : String)
  | addMember (actor org : UUID) (targetUser : Option UUID) (targetEmail : Option String) (role : String)
  | removeMember (actor org target : UUID)

def handle : Request → Act UUID
  | .create creator orgType => create creator orgType
  | .addMember actor org targetUser targetEmail role => addMember actor org targetUser targetEmail role
  | .removeMember actor org target => removeMember actor org target

abbrev World := TxWorld Key Row Event Unit

def system : System (TxOp Query Ask Key Row Event) (TxOp.Answer Query.Answer Ask.Answer) Request World
    (TxChoice Reply) Nat (Except (Failure AppError) UUID) :=
  txSystem backend handle
end Orgs
end LinkMint.Identity

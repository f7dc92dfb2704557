import Mathlib.Algebra.Group.Int.Defs
import Mathlib.Algebra.Group.Nat.Defs
import FaAuthM8.Lib.Table

/-!
# Stored records

The tables of the issuer's database that its authorization, session and revocation code reads and writes,
with the columns that code uses. Identifiers are natural numbers: a UUID is only ever compared. Instants
are integers counting microseconds, the resolution of the stored timestamps.

The role hierarchy and the two privilege predicates come from the SDK. They are what the service's own
documentation says of them: superuser privileges are `role == SUPERADMIN` together with `is_superuser`, a
pair is consistent when the flag agrees with the role, and the roles are totally ordered.
-/

namespace FaAuthM8

abbrev UserId := Nat

abbrev Jti := Nat

abbrev SessionId := Nat

abbrev OutboxId := Nat

def second : Int := 1000000

/-- `int(delta.total_seconds())`: whole seconds, rounded toward zero. -/
def wholeSeconds (delta : Int) : Int :=
  if 0 ≤ delta then delta / second else -(-delta / second)

theorem lt_wholeSeconds_add_one_mul (delta : Int) :
    delta < (wholeSeconds delta + 1) * second := by
  simp only [wholeSeconds, second]
  split <;> omega

theorem wholeSeconds_pos_iff {delta : Int} : 0 < wholeSeconds delta ↔ second ≤ delta := by
  simp only [wholeSeconds, second]
  split <;> omega

inductive RoleType
  | superadmin
  | admin
  | writer
  | reader
  | user
deriving DecidableEq, Repr

def RoleType.rank : RoleType → Nat
  | superadmin => 4
  | admin => 3
  | writer => 2
  | reader => 1
  | user => 0

/-- `role` stands at or above `minimum` in the hierarchy. -/
def hasMinimumRole (role minimum : RoleType) : Bool :=
  minimum.rank ≤ role.rank

def hasSuperuserPrivileges (role : RoleType) (isSuperuser : Bool) : Bool :=
  role == .superadmin && isSuperuser

def privilegeClaimsAreConsistent (role : RoleType) (isSuperuser : Bool) : Bool :=
  isSuperuser == (role == .superadmin)

inductive AuthProviderType
  | password
  | google
deriving DecidableEq, Repr

/-- First generation stamped on a new user. -/
def GENERATION_START : Nat := 1

structure User where
  provider : AuthProviderType := .password
  email : String
  fullName : Option String := none
  avatar : Option String := none
  isActive : Bool := true
  emailVerified : Bool := false
  isSuperuser : Bool := false
  role : RoleType := .user
  hashedPassword : Option String := none
  oauthUserId : Option String := none
  tenantId : Option Nat := none
  authGeneration : Nat := GENERATION_START
deriving DecidableEq, Repr

/-- The admin update payload. A field is `none` when it was not sent and `some none` when it was sent as
null. -/
structure UserUpdate where
  email : Option (Option String) := none
  fullName : Option (Option String) := none
  avatar : Option (Option String) := none
  password : Option (Option String) := none
  oauthUserId : Option (Option String) := none
  role : Option (Option RoleType) := none
  isActive : Option (Option Bool) := none
  provider : Option (Option AuthProviderType) := none
deriving DecidableEq, Repr

structure ClientSession where
  userId : UserId
  provider : AuthProviderType
  jwtJti : Jti
  refreshTokenHash : String
  jwtExpiresAt : Int
  refreshExpiresAt : Int
  revoked : Bool := false
  externalAccessToken : Option String := none
  externalRefreshToken : Option String := none
  externalTokenExpiresAt : Option Int := none
  authGeneration : Option Nat := none
deriving DecidableEq, Repr

/-- A captured access-session identifier and its natural expiry. -/
structure RevocationTarget where
  jti : Jti
  expiresAt : Int
deriving DecidableEq, Repr

/-- The key of an outbox effect within its generation. The SHA-256 digest of a JTI is as good as the JTI
itself for comparing targets. -/
inductive TargetDigest
  | jti (jti : Jti)
  | userWide
deriving DecidableEq, Repr

/-- The durable v2 session-revoked event; `eventId` is the outbox 4-tuple it is derived from. -/
structure SessionRevokedEvent where
  userId : UserId
  jti : Option Jti
  authGeneration : Option Nat := none
  eventId : Option (UserId × Nat × TargetDigest) := none
deriving DecidableEq, Repr

/-- The effect kind of an outbox row together with the payload that kind carries. -/
inductive OutboxEffect
  | blacklist (jti : Jti) (expiresAt : Int)
  | publish (event : SessionRevokedEvent)
deriving DecidableEq, Repr

inductive OutboxStatus
  | pending
  | leased
  | completed
  | dead
deriving DecidableEq, Repr

structure RevocationOutbox where
  userId : UserId
  authGeneration : Nat
  effect : OutboxEffect
  targetDigest : TargetDigest
  status : OutboxStatus := .pending
  attempts : Nat := 0
  leaseUntil : Option Int := none
  nextAttemptAt : Option Int := none
  completedAt : Option Int := none
  createdAt : Int := 0
deriving DecidableEq, Repr

inductive EffectType
  | blacklist
  | publish
deriving DecidableEq, Repr

def OutboxEffect.type : OutboxEffect → EffectType
  | blacklist _ _ => .blacklist
  | publish _ => .publish

/-- The columns of the unique constraint on the outbox. -/
def RevocationOutbox.uniqueKey (row : RevocationOutbox) : UserId × Nat × EffectType × TargetDigest :=
  (row.userId, row.authGeneration, row.effect.type, row.targetDigest)

structure AuthTombstone where
  terminalGeneration : Nat
  updatedAt : Int
deriving DecidableEq, Repr

inductive ApiKeyAccessMode
  | readOnly
  | readWrite
deriving DecidableEq, Repr

/-- An API key with the audiences bound to it. -/
structure ApiKey where
  keyHash : String
  userId : UserId
  expiresAt : Option Int := none
  revoked : Bool := false
  accessMode : ApiKeyAccessMode := .readOnly
  audiences : List String := []
deriving DecidableEq, Repr

inductive AuditAction
  | add
  | edit
  | delete
deriving DecidableEq, Repr

inductive TableName
  | user
  | clientSession
deriving DecidableEq, Repr

structure PrivilegedActionAudit where
  actorUserId : UserId
  actorRole : RoleType
  action : AuditAction
  tableName : TableName
  rowPk : Nat
  targetOwnerId : Option UserId
deriving DecidableEq, Repr

end FaAuthM8

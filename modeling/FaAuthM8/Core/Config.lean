import FaAuthM8.Models

/-!
# Settings and tokens

The settings the modelled code reads. `effectiveFailureMode`, the password check and the hashing and
encryption helpers belong to the SDK or to a cryptographic library and are parameters. A token is the data
it carries: only a token that was signed is ever presented, so a signature check always succeeds.
-/

namespace FaAuthM8

inductive TokenMode
  | stateless
  | hybrid
  | stateful
deriving DecidableEq, Repr

inductive FailureMode
  | failOpen
  | failClosed
deriving DecidableEq, Repr

inductive Control
  | accessRevocation
  | refreshValidation
  | sessionWrite
  | rateLimit
deriving DecidableEq, Repr

structure AccessToken where
  sub : UserId
  jti : Jti
  exp : Int
  isActive : Bool
  isSuperuser : Bool
  role : RoleType
  email : String
  emailVerified : Bool := false
  fullName : Option String := none
  avatar : Option String := none
  tenantId : Option Nat := none
deriving DecidableEq, Repr

structure RefreshToken where
  sub : UserId
  jti : Jti
  exp : Int
deriving DecidableEq, Repr

structure Settings where
  tokenMode : TokenMode := .stateful
  effectiveFailureMode : Control → FailureMode := fun _ => .failClosed
  accessTokenExpireMinutes : Nat := 30
  refreshTokenExpireMinutes : Nat := 120
  outboxBatchSize : Nat := 50
  outboxLeaseSeconds : Nat := 30
  outboxMaxAttempts : Nat := 5
  outboxBackoffBase : Int := 2 * second
  outboxBackoffCap : Int := 300 * second
  outboxCompletedRetentionSeconds : Nat := 3600
  verifyPassword : String → String → Bool := fun plain hashed => plain == hashed
  dummyHash : String := ""
  getPasswordHash : String → String := id
  encryptToken : String → String := id
  hashToken : RefreshToken → String := fun _ => ""

namespace Settings

def isStateless (settings : Settings) : Bool := settings.tokenMode == .stateless

def isStateful (settings : Settings) : Bool := settings.tokenMode == .stateful

def accessTokenExpires (settings : Settings) : Int :=
  settings.accessTokenExpireMinutes * 60 * second

def refreshTokenExpires (settings : Settings) : Int :=
  settings.refreshTokenExpireMinutes * 60 * second

def refreshTtlSeconds (settings : Settings) : Int :=
  settings.refreshTokenExpireMinutes * 60

end Settings

/-- The `exp` claim of a token is a whole number of seconds. -/
def truncateToSecond (t : Int) : Int := t / second * second

theorem truncateToSecond_le (t : Int) : truncateToSecond t ≤ t := by
  simp only [truncateToSecond, second]
  omega

/-- The validator's expiry check. -/
def AccessToken.isCurrent (token : AccessToken) (now : Int) : Bool := now < token.exp

def RefreshToken.isCurrent (token : RefreshToken) (now : Int) : Bool := now < token.exp

end FaAuthM8

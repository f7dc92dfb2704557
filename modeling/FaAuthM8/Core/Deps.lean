import FaAuthM8.Core.Client

/-!
# Authenticating a request

The guard in front of every route: the current user behind an access token, and the check of its identifier
against the blacklist.
-/

namespace FaAuthM8

inductive AuthError
  | couldNotValidate
  | serviceUnavailable
  | sessionRevoked
  | inactiveUser
deriving DecidableEq, Repr

/-- `redis` is the client, when one is available. -/
def checkJtiRevocation (settings : Settings) (redis : Option Redis) (now : Int) (jti : Jti) :
    Except AuthError Unit :=
  match redis with
  | none =>
      match settings.effectiveFailureMode .accessRevocation with
      | .failClosed => .error .serviceUnavailable
      | .failOpen => .ok ()
  | some redis => if redis.isBlacklisted now jti then .error .sessionRevoked else .ok ()

def getCurrentUser (settings : Settings) (redis : Option Redis) (now : Int) (token : AccessToken) :
    Except AuthError AccessToken :=
  if !token.isCurrent now then
    .error .couldNotValidate
  else
    match if settings.isStateful then checkJtiRevocation settings redis now token.jti else .ok () with
    | .error e => .error e
    | .ok () => if token.isActive then .ok token else .error .inactiveUser

theorem getCurrentUser_blacklisted {settings : Settings} {redis : Redis} {now : Int}
    {token : AccessToken} (hmode : settings.isStateful = true)
    (hlisted : redis.isBlacklisted now token.jti = true) (user : AccessToken) :
    getCurrentUser settings (some redis) now token ≠ .ok user := by
  intro haccepted
  rw [getCurrentUser] at haccepted
  split at haccepted
  · cases haccepted
  · simp [checkJtiRevocation, hlisted] at haccepted

end FaAuthM8

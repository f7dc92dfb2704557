import FaAuthM8.Services.ClientSessions
import FaAuthM8.Services.Users

/-!
# Authentication and token signing

Login and refresh share one signing function. It refuses an inconsistent role and flag, draws a fresh JTI,
and puts the same JTI in the access token and in the refresh token.
-/

namespace FaAuthM8

/-- The hash a password is checked against, where the account has one. -/
def User.storedHash (user : User) : Option String := user.hashedPassword.filter (· ≠ "")

/-- `authenticate`, where the e-mail has found `found`: without a stored hash, the password is checked against a
fixed one. -/
def authenticate (settings : Settings) (found : Option (UserId × User)) (password : String) :
    Option (UserId × User) :=
  let hashToCheck := (found.bind (·.2.storedHash)).getD settings.dummyHash
  if settings.verifyPassword password hashToCheck then found else none

theorem authenticate_eq_some {settings : Settings} {found : Option (UserId × User)} {password : String}
    {account : UserId × User} (haccount : authenticate settings found password = some account) :
    found = some account := by
  simp only [authenticate] at haccount
  split at haccount
  · exact haccount
  · cases haccount

def refreshLineageIsCurrent (db : Db) (user : User) (sessionJti : Jti) : Bool :=
  match sessionByJti db sessionJti with
  | none => false
  | some (_, clientSession) =>
      !isSessionGenerationStale clientSession.authGeneration user.authGeneration

theorem refreshLineageIsCurrent_iff {db : Db} {user : User} {jti : Jti} :
    refreshLineageIsCurrent db user jti = true ↔ ∃ id row, sessionByJti db jti = some (id, row) ∧
      row.authGeneration = some user.authGeneration := by
  rw [refreshLineageIsCurrent]
  cases sessionByJti db jti with
  | none => simp
  | some found =>
      obtain ⟨id, row⟩ := found
      simp [isSessionGenerationStale]

structure TokenPair where
  access : AccessToken
  refresh : RefreshToken
deriving DecidableEq, Repr

/-- Signs both tokens at `now` under the identifier `jti`. -/
def createAuthTokens (settings : Settings) (now : Int) (jti : Jti) (uid : UserId) (user : User) :
    Option TokenPair :=
  if privilegeClaimsAreConsistent user.role user.isSuperuser then
    some
      { access :=
          { sub := uid
            jti := jti
            exp := truncateToSecond (now + settings.accessTokenExpires)
            isActive := user.isActive
            isSuperuser := user.isSuperuser
            role := user.role
            email := user.email
            emailVerified := user.emailVerified
            fullName := user.fullName
            avatar := user.avatar
            tenantId := user.tenantId }
        refresh :=
          { sub := uid
            jti := jti
            exp := truncateToSecond (now + settings.refreshTokenExpires) } }
  else
    none

/-- What a token pair signed at `now` for `uid` from `user` under `jti` says. -/
structure TokenPair.SignedFrom (pair : TokenPair) (settings : Settings) (now : Int) (jti : Jti)
    (uid : UserId) (user : User) : Prop where
  consistent : privilegeClaimsAreConsistent user.role user.isSuperuser = true
  accessJti : pair.access.jti = jti
  accessSub : pair.access.sub = uid
  refreshJti : pair.refresh.jti = jti
  refreshSub : pair.refresh.sub = uid
  role : pair.access.role = user.role
  isSuperuser : pair.access.isSuperuser = user.isSuperuser
  isActive : pair.access.isActive = user.isActive
  accessExp : pair.access.exp ≤ now + settings.accessTokenExpires

theorem createAuthTokens_signedFrom {settings : Settings} {now : Int} {jti : Jti} {uid : UserId}
    {user : User} {pair : TokenPair}
    (hsigned : createAuthTokens settings now jti uid user = some pair) :
    pair.SignedFrom settings now jti uid user := by
  rw [createAuthTokens] at hsigned
  split at hsigned
  · next hconsistent =>
      cases hsigned
      exact ⟨hconsistent, rfl, rfl, rfl, rfl, rfl, rfl, rfl, truncateToSecond_le _⟩
  · cases hsigned

structure ExternalTokensData where
  expires : Nat
  access : String
  refresh : String
deriving DecidableEq, Repr

/-- The session data `create_auth_session` builds at `now` for a signed pair. -/
def authSessionData (settings : Settings) (now : Int) (jti : Jti) (refreshToken : RefreshToken)
    (externalToken : Option ExternalTokensData) : ClientSessionCreate where
  jwtJti := jti
  refreshTokenHash := settings.hashToken refreshToken
  jwtExpiresAt := now + settings.accessTokenExpires
  refreshExpiresAt := now + settings.refreshTokenExpires
  externalAccessToken := externalToken.map fun token => settings.encryptToken token.access
  externalRefreshToken := externalToken.map fun token => settings.encryptToken token.refresh
  externalTokenExpiresAt := externalToken.map fun token => now + token.expires * second

end FaAuthM8

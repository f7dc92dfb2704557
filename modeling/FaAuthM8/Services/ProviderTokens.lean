import FaAuthM8.Core.Security
import FaAuthM8.Lib.Interleaving
import FaAuthM8.Services.Auth
import FaAuthM8.System.Requests

/-!
# Provider tokens

A Google login, a refresh and `refresh-google-tokens` write the same row of the user. The first two through
one upsert, which stores whatever provider tokens it is given, none for a refresh; the third sets the
provider's columns alone.
-/

namespace FaAuthM8

/-- The bound of the two token columns, and of the fields that carry a token. -/
def EXTERNAL_TOKEN_MAX_LENGTH : Nat := 2048

def fitsExternalToken (token : Option String) : Bool :=
  token.all fun text => text.length ≤ EXTERNAL_TOKEN_MAX_LENGTH

structure ClientSessionUpdateExternal where
  externalAccessToken : Option String := none
  externalRefreshToken : Option String := none
  externalTokenExpiresAt : Option Int := none
deriving DecidableEq, Repr

inductive TokensError
  /-- `ValidationError` -/
  | validation
  /-- 400, "The user with this email already exists in the system." -/
  | noSession
  /-- 400, "You need google api auth Provider.Current is " and the provider. -/
  | otherProvider (current : AuthProviderType)
  | database (e : DbError)
deriving DecidableEq, Repr

/-- What an encryption draws for each text. -/
abbrev Nonces := String → Nat

def committingTokens (writes : List Write) (db : Db) : Except TokensError Db :=
  match commit writes db with
  | .ok db' => .ok db'
  | .error e => .error (.database e)

section

variable (settings : Settings) (fernet : Fernet) (keys : EncryptionKeys) (nonces : Nonces)

/-- The settings with the encryption of a process that has these keys. -/
def Settings.withKeys : Settings :=
  { settings with encryptToken := fun token => FaAuthM8.encryptToken fernet keys (nonces token) token }

def createAuthSession (now : Int) (uid : UserId) (user : User) (refreshToken : RefreshToken)
    (externalToken : Option ExternalTokensData) (db : Db) : Except TokensError Db :=
  let data := authSessionData (settings.withKeys fernet keys nonces) now refreshToken.jti refreshToken
    externalToken
  if fitsExternalToken data.externalAccessToken && fitsExternalToken data.externalRefreshToken then
    committingTokens [createClientSession uid user data (sessionOfUser db uid)] db
  else .error .validation

/-- The provider's columns as `refresh_google_session_tokens` sets them; an absent and an empty token are
stored as null. -/
def ClientSessionUpdateExternal.onto (tokens : ClientSessionUpdateExternal) (row : ClientSession) :
    ClientSession :=
  let encrypted token := encryptToken fernet keys (nonces token) token
  { row with
    externalAccessToken := (tokens.externalAccessToken.filter (· ≠ "")).map encrypted
    externalRefreshToken := (tokens.externalRefreshToken.filter (· ≠ "")).map encrypted
    externalTokenExpiresAt := tokens.externalTokenExpiresAt }

def refreshGoogleSessionTokens (uid : UserId) (tokens : ClientSessionUpdateExternal) (db : Db) :
    Except TokensError Db :=
  if fitsExternalToken tokens.externalAccessToken && fitsExternalToken tokens.externalRefreshToken then
    match sessionOfUser db uid with
    | none => .error .noSession
    | some (id, row) =>
        if row.provider = .google then
          committingTokens [.updateSession id row (tokens.onto fernet keys nonces row)] db
        else .error (.otherProvider row.provider)
  else .error .validation

end

/-! ### Runs of one user -/

/-- The provider tokens last supplied, and the key they were encrypted under. -/
structure SuppliedTokens where
  access : Option String
  refresh : Option String
  key : String
deriving DecidableEq, Repr

structure ProviderWorld where
  db : Db
  keys : EncryptionKeys
  now : Int := 0
  nextJti : Jti := 0
  supplied : Option SuppliedTokens := none

inductive ProviderAction
  | googleLogin (token : OAuthGoogleToken) (nonces : Nonces)
  /-- A refresh with a token of the user; `admitted` is what the rate limiter and the refresh store say. -/
  | refresh (token : RefreshToken) (admitted : Bool)
  | updateTokens (tokens : ClientSessionUpdateExternal) (nonces : Nonces)
  /-- The service restarts with other keys. -/
  | rotateKeys (keys : EncryptionKeys)
  | tick (now : Int)

namespace ProviderWorld

variable (settings : Settings) (fernet : Fernet) (uid : UserId) (w : ProviderWorld)

/-- The user and the tokens a refresh has signed when it comes to write its session; it writes none in
stateless mode. -/
def rotation (token : RefreshToken) (admitted : Bool) : Option (User × TokenPair) :=
  match w.db.users.lookup uid with
  | none => none
  | some user =>
      if !settings.isStateless && token.isCurrent w.now && admitted && user.isActive &&
          refreshLineageIsCurrent w.db user token.jti then
        (createAuthTokens settings w.now w.nextJti uid user).map fun pair => (user, pair)
      else none

def login (token : OAuthGoogleToken) (nonces : Nonces) : Option ProviderWorld :=
  match w.db.users.lookup uid with
  | none => none
  | some user =>
      match createAuthTokens settings w.now w.nextJti uid user with
      | none => none
      | some pair =>
          let external : ExternalTokensData := ⟨token.expiresIn, token.accessToken, token.refreshToken⟩
          match createAuthSession settings fernet w.keys nonces w.now uid user pair.refresh (some external)
              w.db with
          | .error _ => none
          | .ok db =>
              some { w with
                db := db.deleteSessions (sessionIds db (isExpiredSession uid w.now))
                nextJti := w.nextJti + 1
                supplied := some ⟨some token.accessToken, some token.refreshToken, w.keys.current⟩ }

def refresh (token : RefreshToken) (admitted : Bool) : Option ProviderWorld :=
  match w.rotation settings uid token admitted with
  | none => none
  | some (user, pair) =>
      match createAuthSession settings fernet w.keys (fun _ => 0) w.now uid user pair.refresh none w.db with
      | .error _ => none
      | .ok db => some { w with db, nextJti := w.nextJti + 1 }

def updateTokens (tokens : ClientSessionUpdateExternal) (nonces : Nonces) : Option ProviderWorld :=
  match refreshGoogleSessionTokens fernet w.keys nonces uid tokens w.db with
  | .error _ => none
  | .ok db =>
      some { w with
        db := db
        supplied := some ⟨tokens.externalAccessToken.filter (· ≠ ""),
          tokens.externalRefreshToken.filter (· ≠ ""), w.keys.current⟩ }

/-- A request that fails leaves everything as it was. -/
def perform : ProviderAction → ProviderWorld
  | .googleLogin token nonces => (w.login settings fernet uid token nonces).getD w
  | .refresh token admitted => (w.refresh settings fernet uid token admitted).getD w
  | .updateTokens tokens nonces => (w.updateTokens fernet uid tokens nonces).getD w
  | .rotateKeys keys => { w with keys }
  | .tick now => { w with now := max w.now now }

end ProviderWorld

/-- The requests of one user, one after the other, with the keys and the time changing between them. -/
def providerTokens (settings : Settings) (fernet : Fernet) (uid : UserId) :
    Interleaving.System ProviderWorld Unit ProviderAction where
  step _ w _ action := some (w.perform settings fernet uid action, ())

end FaAuthM8

import FaAuthM8.Core.Consumers
import FaAuthM8.Core.WindowLimiter
import FaAuthM8.Lib.Parsing

/-!
# Signing in through Google

What the two records of the flow carry, and the checks of its three routes. A record is stored as JSON and
read back as it was; how long its text is, how a redirect target is validated and the S256 hash are
parameters.
-/

namespace FaAuthM8

/-- The payload of `oauth_session:`, under the state of a login. -/
structure OauthSession where
  pkceVerifier : String
  redirectTarget : String
  codeChallenge : String
  createdAt : Int
deriving DecidableEq, Repr

/-- What an exchange answers. -/
structure TokenPayload where
  accessToken : String
  expiresAt : Int
  name : String
  email : String
  avatar : String
deriving DecidableEq, Repr

/-- The payload of `auth_code:`, under a one-time code. -/
structure AuthCodePayload extends TokenPayload where
  codeChallenge : String
deriving DecidableEq, Repr

structure OauthSettings where
  challengeOf : String → String
  isPrintable : Char → Bool
  validateRedirectTarget : String → Option HttpException := fun _ => none
  sessionLength : OauthSession → Nat := fun _ => 0
  payloadLength : AuthCodePayload → Nat := fun _ => 0
  corsAllowedOriginSchemes : List String := []
  accessTokenExpireMinutes : Nat := 30

def SESSION_PAYLOAD_MAX : Nat := 4096

def AUTH_CODE_PAYLOAD_MAX : Nat := 8192

def badRequest (detail : String) : HttpException where
  statusCode := 400
  detail := detail

def cacheUnavailable : HttpException where
  statusCode := 503
  detail := "Cache service unavailable."

def cacheUnavailableForCallback : HttpException where
  statusCode := 503
  detail := "Cache service unavailable. Cannot complete OAuth flow."

def tooManyRequests : HttpException where
  statusCode := 429
  detail := "Too many requests."

def verifyPkce (settings : OauthSettings) (verifier challenge : String) : Bool :=
  settings.challengeOf verifier == challenge

def isUrlSafe (c : Char) : Bool :=
  c.isAlphanum || c == '-' || c == '_'

/-- `_CHALLENGE_RE` -/
def isChallenge (text : String) : Bool :=
  43 ≤ text.length && text.length ≤ 128 && text.toList.all isUrlSafe

/-- `_VERIFIER_RE` -/
def isVerifier (text : String) : Bool :=
  43 ≤ text.length && text.length ≤ 128 && text.toList.all fun c => isUrlSafe c || c == '.' || c == '~'

def checkLoginUrl (settings : OauthSettings) (redirectTarget codeChallenge : String) : Option HttpException :=
  match settings.validateRedirectTarget redirectTarget with
  | some e => some e
  | none =>
      if codeChallenge = "" then some (badRequest "code_challenge is required.")
      else if isChallenge codeChallenge then none
      else some (badRequest "code_challenge format invalid.")

/-- `str.replace` by nothing; the count is of the characters of an occurrence still to be passed over. -/
def removeFrom (occurrence : List Char) : Nat → List Char → List Char
  | _, [] => []
  | passed + 1, _ :: rest => removeFrom occurrence passed rest
  | 0, c :: rest =>
      if occurrence.isPrefixOf (c :: rest) then removeFrom occurrence (occurrence.length - 1) rest
      else c :: removeFrom occurrence 0 rest

def isHexDigit (c : Char) : Bool :=
  c.isDigit || ('a' ≤ c && c ≤ 'f') || ('A' ≤ c && c ≤ 'F')

def areHexDigits (text : List Char) : Bool :=
  (text.splitOn '_').all fun group => !group.isEmpty && group.all isHexDigit

/-- `int(text, 16)` succeeds on a text without a minus sign. -/
def isHexInt (text : List Char) : Bool :=
  let unsigned :=
    match Parsing.strip text with
    | '+' :: rest => rest
    | text => text
  match unsigned with
  | '0' :: 'x' :: '_' :: rest => areHexDigits rest
  | '0' :: 'X' :: '_' :: rest => areHexDigits rest
  | '0' :: 'x' :: rest => areHexDigits rest
  | '0' :: 'X' :: rest => areHexDigits rest
  | text => areHexDigits text

def isUuid (text : String) : Bool :=
  let bare := removeFrom "uuid:".toList 0 (removeFrom "urn:".toList 0 text.toList)
  let isBrace c := c == '{' || c == '}'
  let hex := ((bare.dropWhile isBrace).rdropWhile isBrace).filter (· != '-')
  hex.length == 32 && isHexInt hex

/-- `_check_exchange_origin`: only an allowlist of extension origins restricts the origin. -/
def originIsAllowed (settings : OauthSettings) (origin : String) : Bool :=
  let schemes := settings.corsAllowedOriginSchemes
  let extension := "chrome-extension://".toList
  origin == "" || schemes.isEmpty || schemes.any (· != "chrome-extension://") ||
    (extension.isPrefixOf origin.toList && origin.length == extension.length + 32 &&
      (origin.toList.drop extension.length).all fun c => 'a' ≤ c && c ≤ 'z')

/-- A request to exchange a code; `client` is the address it comes from. -/
structure ExchangeRequest where
  client : String
  origin : String := ""
  code : String
  codeVerifier : String
deriving DecidableEq, Repr

/-- The format and origin checks of `exchange_auth_code`. -/
def ExchangeRequest.check (r : ExchangeRequest) (settings : OauthSettings) : Option HttpException :=
  if !isVerifier r.codeVerifier then some (badRequest "code_verifier format invalid.")
  else if !isUuid r.code then some (badRequest "Invalid or expired auth code.")
  else if !originIsAllowed settings r.origin then some (badRequest "Origin not allowed.")
  else none

/-- What a callback obtains from Google and signs for the user. -/
structure GoogleGrant where
  accessToken : String
  fullName : Option String := none
  email : String
  avatar : Option String := none
deriving DecidableEq, Repr

def truncated (limit : Nat) (text : String) : String :=
  String.ofList (text.toList.take limit)

/-- `_build_auth_code_payload`, without the code; the expiry is in milliseconds. -/
def buildAuthCodePayload (settings : OauthSettings) (now : Int) (grant : GoogleGrant) (codeChallenge : String) :
    AuthCodePayload where
  accessToken := grant.accessToken
  expiresAt := (now + settings.accessTokenExpireMinutes * 60 * second) / 1000
  name := truncated 128 (grant.fullName.getD "")
  email := truncated 254 grant.email
  avatar := truncated 512 (grant.avatar.getD "")
  codeChallenge := codeChallenge

end FaAuthM8

import FaAuthM8.Core.Consumers
import FaAuthM8.Core.WindowLimiter
import FaAuthM8.Lib.Parsing
import FaAuthM8.Services.Auth

/-!
# Signing in with a password

A login is counted under the text it was sent with and under its address, and only then is an account looked
up. Which stored e-mails match that text is for the database to say: on some dialects a comparison ignores
case and trailing spaces, so it is a parameter here.

The address is read from the `X-Forwarded-For` header where trusted proxies stand in front of the service: each
of them appends the address of its peer, so the client is as many entries from the right as there are proxies.
-/

namespace FaAuthM8

structure LoginSettings extends Settings, LoginLimits where
  isPrintable : Char → Bool
  /-- The comparison of a stored e-mail with the one of a query. -/
  sameEmail : String → String → Bool

structure LoginForm where
  username : String
  password : String
  ip : String
deriving DecidableEq, Repr

def invalidCharacters : HttpException where
  statusCode := 422
  detail := "Invalid characters in credentials"

def tooManyLoginAttempts : HttpException where
  statusCode := 429
  detail := "Too many login attempts. Try again in 15 minutes."

def loginRateLimitingUnavailable : HttpException where
  statusCode := 503
  detail := "Rate limiting service temporarily unavailable"

def invalidCredentials : HttpException where
  statusCode := 400
  detail := "Invalid credentials or inactive user"

def LoginForm.hasNul (r : LoginForm) : Bool :=
  r.username.toList.contains '\x00' || r.password.toList.contains '\x00'

namespace LoginSettings

variable (settings : LoginSettings)

def loginRateLimiter : FixedWindowLimiter := LoginRateLimiter settings.toLoginLimits

def loginIpRateLimiter : FixedWindowLimiter := LoginIpRateLimiter settings.toLoginLimits

def loginKey (email : String) : String := settings.loginRateLimiter.key settings.isPrintable email

def loginWindow : Int := settings.loginRateLimitWindowMinutes * 60 * second

/-- `_enforce_login_rate_limit`: both counters advance, whatever the other one says. -/
def enforceLoginRateLimit (redis : Option WindowCounters) (now : Int) (email ip : String) :
    Except HttpException Unit × Option WindowCounters :=
  match redis with
  | some counters =>
      let (emailOk, counters) := settings.loginRateLimiter.isAllowed settings.isPrintable counters now email
      let (ipOk, counters) := settings.loginIpRateLimiter.isAllowed settings.isPrintable counters now ip
      (if emailOk && ipOk then .ok () else .error tooManyLoginAttempts, some counters)
  | none =>
      match settings.effectiveFailureMode .rateLimit with
      | .failClosed => (.error loginRateLimitingUnavailable, none)
      | .failOpen => (.ok (), none)

end LoginSettings

/-! ### The address of a client -/

structure ProxySettings where
  trustedProxyCount : Nat
  /-- `ip_address` reads the text. -/
  isAddress : String → Bool

/-- What is read of a request to tell its client's address. -/
structure ClientRequest where
  /-- The value of the `x-forwarded-for` header. -/
  forwardedFor : Option String
  /-- The host of the peer, where it is known. -/
  clientHost : Option String
deriving DecidableEq, Repr

def stripPort (raw : List Char) : List Char :=
  let raw := Parsing.strip raw
  if raw.head? = some '[' ∧ ']' ∈ raw then (raw.drop 1).takeWhile (· != ']')
  else if raw.count ':' = 1 then raw.takeWhile (· != ':')
  else raw

/-- The entries of a header, without the blank ones. -/
def forwardedIps (xff : List Char) : List (List Char) :=
  ((xff.splitOn ',').map Parsing.strip).filter (!·.isEmpty)

/-- `_client_ip` -/
def clientIp (settings : ProxySettings) (request : ClientRequest) : String :=
  let peer := request.clientHost.getD "unknown"
  if 0 < settings.trustedProxyCount then
    match request.forwardedFor.filter (· ≠ "") with
    | none => peer
    | some xff =>
        let ips := forwardedIps xff.toList
        if settings.trustedProxyCount ≤ ips.length then
          match ips[ips.length - settings.trustedProxyCount]? with
          | none => peer
          | some entry =>
              let candidate := String.ofList (stripPort entry)
              if settings.isAddress candidate then candidate else peer
        else peer
  else peer

end FaAuthM8

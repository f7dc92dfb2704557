import FaAuthM8.Services.ApiKeys

/-!
# Authenticating with an API key

The local path: the key is looked up, its limits are consumed, and its owner is resolved to the principal the
request acts as. Every instant of one request is the same.
-/

namespace FaAuthM8

/-- What leaves a route other than a response. -/
inductive Raised
  | http (exception : HttpException)
  | redisError
  | sqlAlchemyError
deriving DecidableEq, Repr

/-- The `X-RateLimit-*` headers of a response. -/
structure RateLimitHeaders where
  limit : Option Nat := none
  remaining : Option Nat := none
  reset : Option Int := none
deriving DecidableEq, Repr

def LAST_USED_AT_HASH : String := "api_key:luat"

/-- Queues the last use of a key; a refusal is logged and ignored. -/
def KeyRedis.touch (redis : KeyRedis) (now : Datetime) (apiKeyId : Uuid) : KeyRedis :=
  if redis.refuses LAST_USED_AT_HASH then redis
  else { redis with lastUsed := redis.lastUsed.insert apiKeyId now }

/-- The `Retry-After` of a rejected check. -/
def retryAfter (now : Datetime) (result : RateLimitResult) : Int :=
  match result.resetAt with
  | some resetAt => max 1 (wholeSeconds (resetAt - now.timestamp) + 1)
  | none => 60

def rateLimitExceeded (settings : ApiKeySettings) (now : Datetime) (result : RateLimitResult) :
    HttpException where
  statusCode := 429
  detail := "Rate limit exceeded for period: " ++ (result.exceededPeriod.map settings.formatPeriod).getD "None"
  retryAfter := some (retryAfter now result)

def applyRateLimit (settings : ApiKeySettings) (redis : KeyRedis) (db : ApiKeyDb) (now : Datetime)
    (apiKeyId : Uuid) (apiKey : ApiKey) : Except Raised RateLimitHeaders × KeyRedis :=
  let limits := ApiKeyService.getLimits db apiKeyId apiKey.userId
  match RateLimitEnforcer.enforce settings redis now apiKeyId limits with
  | (.error _, redis') => (.error .redisError, redis')
  | (.ok result, redis') =>
      if result.allowed then
        (.ok { limit := result.limit, remaining := result.remaining,
               reset := result.resetAt.map wholeSeconds }, redis'.touch now apiKeyId)
      else
        (.error (.http (rateLimitExceeded settings now result)), redis')

def rateLimitingUnavailable : HttpException where
  statusCode := 503
  detail := "Rate limiting service unavailable"

def handleApiKeyRedisDegraded (settings : ApiKeySettings) : Except Raised RateLimitHeaders :=
  if settings.effectiveApiKeyStrictRateLimit then .error (.http rateLimitingUnavailable) else .ok {}

/-- Both callers limit a key while Redis is available, and degrade otherwise. -/
def limitApiKey (settings : ApiKeySettings) (redis : Option KeyRedis) (db : ApiKeyDb) (now : Datetime)
    (apiKeyId : Uuid) (apiKey : ApiKey) : Except Raised RateLimitHeaders × Option KeyRedis :=
  match redis with
  | some redis =>
      let (headers, redis') := applyRateLimit settings redis db now apiKeyId apiKey
      (headers, some redis')
  | none => (handleApiKeyRedisDegraded settings, none)

def invalidApiKey : HttpException where
  statusCode := 401
  detail := "Invalid or expired API key"

/-- A session is `none` when the database cannot be reached. -/
def getCurrentApiKey (settings : ApiKeySettings) (session : Option ApiKeyDb) (redis : Option KeyRedis)
    (now : Datetime) (xApiKey : String) : Except Raised ApiKey × Option KeyRedis :=
  match session with
  | none => (.error .sqlAlchemyError, redis)
  | some db =>
      match ApiKeyService.getActiveKey settings db now xApiKey with
      | none => (.error (.http invalidApiKey), redis)
      | some (id, apiKey) =>
          match limitApiKey settings redis db now id apiKey with
          | (.error e, redis') => (.error e, redis')
          | (.ok _, redis') => (.ok apiKey, redis')

structure ApiKeyPrincipal where
  userId : UserId
  role : RoleType
  isSuperuser : Bool
  accessMode : ApiKeyAccessMode
  authGeneration : Nat
deriving DecidableEq, Repr

def resolveApiKeyOwnerPrincipal (db : ApiKeyDb) (apiKey : ApiKey) : Option ApiKeyPrincipal :=
  match db.users.lookup apiKey.userId with
  | none => none
  | some owner =>
      if !owner.isActive || !privilegeClaimsAreConsistent owner.role owner.isSuperuser then none
      else some {
        userId := apiKey.userId
        role := owner.role
        isSuperuser := owner.isSuperuser
        accessMode := apiKey.accessMode
        authGeneration := owner.authGeneration }

def resolveApiKeyPrincipal (session : Option ApiKeyDb) (apiKey : ApiKey) :
    Except Raised ApiKeyPrincipal :=
  match session with
  | none => .error .sqlAlchemyError
  | some db =>
      match resolveApiKeyOwnerPrincipal db apiKey with
      | none => .error (.http invalidApiKey)
      | some principal => .ok principal

def getCurrentApiKeyPrincipal (settings : ApiKeySettings) (session : Option ApiKeyDb)
    (redis : Option KeyRedis) (now : Datetime) (xApiKey : String) :
    Except Raised ApiKeyPrincipal × Option KeyRedis :=
  match getCurrentApiKey settings session redis now xApiKey with
  | (.error e, redis') => (.error e, redis')
  | (.ok apiKey, redis') => (resolveApiKeyPrincipal session apiKey, redis')

end FaAuthM8

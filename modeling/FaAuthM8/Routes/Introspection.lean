import FaAuthM8.Core.ApiKeys
import FaAuthM8.Routes.Private

/-!
# API-key introspection

The remote path: a consumer asks what a key stands for. Every unusable key is answered alike, and no answer
but the active one consumes the limits of the key.
-/

namespace FaAuthM8

structure ApiKeyIntrospectionRequest where
  apiKey : String
  schemaVersion : String := "1"
deriving DecidableEq, Repr

inductive ApiKeyIntrospectionResponse
  | inactive
  | active (audienceId : String) (principal : ApiKeyPrincipal) (keyExpiresAt : Option Int)
deriving DecidableEq, Repr

/-- A response with the headers the limits of the key put on it. -/
structure IntrospectionAnswer where
  body : ApiKeyIntrospectionResponse
  headers : RateLimitHeaders := {}
deriving DecidableEq, Repr

def introspectionUnavailable : HttpException where
  statusCode := 503
  detail := "Introspection temporarily unavailable"

def introspectionRateLimitExceeded : HttpException where
  statusCode := 429
  detail := "Introspection rate limit exceeded"
  retryAfter := some 60

def handleAntiabuseUnavailable (settings : ApiKeySettings) : Except Raised Unit :=
  if settings.effectiveApiKeyStrictRateLimit then .error (.http introspectionUnavailable) else .ok ()

def ANTIABUSE_BUCKET_FORMAT : String := "%Y%m%d%H%M"

def antiabuseKey (consumerId : String) (now : Datetime) : String :=
  String.ofList ("introspect:antiabuse:".toList ++ (consumerId.toList ++
    ':' :: now.strftime ANTIABUSE_BUCKET_FORMAT.toList))

def consumeIntrospectionAntiabuse (settings : ApiKeySettings) (redis : Option KeyRedis) (now : Datetime)
    (consumerId : String) : Except Raised Unit × Option KeyRedis :=
  match redis with
  | none => (handleAntiabuseUnavailable settings, none)
  | some redis =>
      let key := antiabuseKey consumerId now
      if redis.refuses key then
        (handleAntiabuseUnavailable settings, some redis)
      else
        let (count, counters) := redis.counters.increment now.timestamp key 60
        let redis' := { redis with counters }
        if settings.apiKeyIntrospectionAntiabusePerMinute < count then
          (.error (.http introspectionRateLimitExceeded), some redis')
        else
          (.ok (), some redis')

def keyCarriesAudience (apiKey : ApiKey) (audienceId : String) : Bool :=
  apiKey.audiences.contains audienceId

def introspectApiKey (settings : ApiKeySettings) (session : Option ApiKeyDb) (redis : Option KeyRedis)
    (now : Datetime) (request : PrivateRequest) (body : ApiKeyIntrospectionRequest) :
    Except Raised IntrospectionAnswer × Option KeyRedis :=
  match authenticatePrivateConsumer settings.toPrivateSettings now.timestamp request
    "api-key-introspection" with
  | .error e => (.error (.http e), redis)
  | .ok consumerId =>
      if !settings.supportsSchemaVersion body.schemaVersion then
        (.error (.http introspectionUnavailable), redis)
      else
        match consumeIntrospectionAntiabuse settings redis now consumerId with
        | (.error e, redis') => (.error e, redis')
        | (.ok (), redis') =>
            match session with
            | none => (.error (.http introspectionUnavailable), redis')
            | some db =>
                match ApiKeyService.getActiveKey settings db now body.apiKey with
                | none => (.ok { body := .inactive }, redis')
                | some (id, apiKey) =>
                    match resolveApiKeyOwnerPrincipal db apiKey with
                    | none => (.ok { body := .inactive }, redis')
                    | some principal =>
                        if !keyCarriesAudience apiKey consumerId then
                          (.ok { body := .inactive }, redis')
                        else
                          match limitApiKey settings redis' db now id apiKey with
                          | (.error e, redis'') => (.error e, redis'')
                          | (.ok headers, redis'') =>
                              (.ok { body := .active consumerId principal apiKey.expiresAt, headers },
                                redis'')

end FaAuthM8

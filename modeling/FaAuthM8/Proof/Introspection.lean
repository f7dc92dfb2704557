import FaAuthM8.Proof.RateLimits
import FaAuthM8.Proof.ServiceTokens
import FaAuthM8.Routes.Introspection

/-!
# Introspection and local authentication

The two paths look a key up, resolve its owner and consume its limits in different orders. The allowance of a
consumer is counted under a name no limit of a key has, so the remote path finds the limits as the local path
would. An unusable key is answered before its limits are reached.
-/

namespace FaAuthM8

structure SameLimits (redis redis' : KeyRedis) : Prop where
  refuses : redis'.refuses = redis.refuses
  lastUsed : redis'.lastUsed = redis.lastUsed
  counters : ∀ id period t, redis'.counters.lookup (RedisRateLimiter.key id period t)
    = redis.counters.lookup (RedisRateLimiter.key id period t)

/-- No request of a key has been counted, and none noted. -/
def Untouched (redis redis' : Option KeyRedis) : Prop :=
  Option.Rel SameLimits redis redis'

theorem SameLimits.refl (redis : KeyRedis) : SameLimits redis redis :=
  ⟨rfl, rfl, fun _ _ _ => rfl⟩

theorem Untouched.refl (redis : Option KeyRedis) : Untouched redis redis := by
  cases redis with
  | none => exact .none
  | some redis => exact .some (.refl redis)

theorem antiabuseKey_ne_key (consumerId : String) (now : Datetime) (id : Uuid) (period : Period)
    (t : Datetime) : RedisRateLimiter.key id period t ≠ antiabuseKey consumerId now := by
  intro heq
  have htext := String.ofList_injective heq
  have hhead : 'r' = 'i' := (List.cons.inj htext).1
  revert hhead
  decide

section

variable {redis redis' : KeyRedis} {now : Datetime} {id : Uuid} {period : Period} {limit : Nat}

theorem SameLimits.read (hsame : SameLimits redis redis') (now : Int) (id : Uuid) (period : Period)
    (t : Datetime) : redis'.counters.read now (RedisRateLimiter.key id period t)
      = redis.counters.read now (RedisRateLimiter.key id period t) := by
  unfold Counters.read
  rw [hsame.counters id period t]

theorem SameLimits.check (hsame : SameLimits redis redis') (now : Datetime) (id : Uuid) (limit : Nat)
    (period : Period) :
    ∃ result after after',
      RedisRateLimiter.checkAndIncrement redis now id limit period = (result, after) ∧
      RedisRateLimiter.checkAndIncrement redis' now id limit period = (result, after') ∧
      SameLimits after after' := by
  have hread := hsame.read now.timestamp id period now
  unfold RedisRateLimiter.checkAndIncrement
  rw [hsame.refuses]
  split
  · exact ⟨_, _, _, rfl, rfl, hsame⟩
  · unfold RedisRateLimiter.increment Counters.increment
    rw [hread]
    refine ⟨_, _, _, rfl, rfl, rfl, hsame.lastUsed, fun id' period' t => ?_⟩
    simp only [Table.lookup_insert_eq]
    split
    · rfl
    · exact hsame.counters id' period' t

theorem SameLimits.checkFrom (hsame : SameLimits redis redis') (now : Datetime) (id : Uuid)
    (first : Option RateLimitResult) (limits : List (Period × Nat)) :
    (RedisRateLimiter.checkFrom now id first limits redis').1
      = (RedisRateLimiter.checkFrom now id first limits redis).1 := by
  induction limits generalizing redis redis' first with
  | nil => rfl
  | cons head rest ih =>
      obtain ⟨period, limit⟩ := head
      obtain ⟨result, after, after', hcheck, hcheck', hafter⟩ := hsame.check now id limit period
      rw [RedisRateLimiter.checkFrom, RedisRateLimiter.checkFrom, hcheck, hcheck']
      cases result with
      | error e => rfl
      | ok result =>
          by_cases hallowed : result.allowed = true
          · simp only [if_pos hallowed]
            exact ih hafter _
          · simp only [if_neg hallowed]

end

section

variable {settings : ApiKeySettings} {session : Option ApiKeyDb} {db : ApiKeyDb}
  {redis redis' : Option KeyRedis} {now : Datetime} {consumerId : String}

theorem limitApiKey_congr (hsame : Untouched redis redis') (id : Uuid) (apiKey : ApiKey) :
    (limitApiKey settings redis' db now id apiKey).1 = (limitApiKey settings redis db now id apiKey).1 := by
  cases hsame with
  | none => rfl
  | some hsame =>
      have hcheck := hsame.checkFrom now id none
      simp only [limitApiKey, applyRateLimit, RateLimitEnforcer.enforce, RedisRateLimiter.checkAllLimits]
      rename_i before after
      generalize (if (ApiKeyService.getLimits db id apiKey.userId).isEmpty = true then _ else _) = limits
      specialize hcheck limits
      generalize RedisRateLimiter.checkFrom now id none limits before = outcome at hcheck ⊢
      generalize RedisRateLimiter.checkFrom now id none limits after = outcome' at hcheck ⊢
      obtain ⟨result, r⟩ := outcome
      obtain ⟨result', r'⟩ := outcome'
      obtain rfl : result' = result := hcheck
      cases result' with
      | error e => rfl
      | ok result =>
          simp only
          split <;> rfl

/-- The allowance of a consumer admits an attempt that Redis counts within the limit, or that Redis refuses to
count where the deployment need not be strict. -/
def AntiabuseAdmits (settings : ApiKeySettings) (redis : Option KeyRedis) (now : Datetime)
    (consumerId : String) : Prop :=
  ∀ r ∈ redis,
    if r.refuses (antiabuseKey consumerId now) then settings.effectiveApiKeyStrictRateLimit = false
    else r.counters.read now.timestamp (antiabuseKey consumerId now)
      < settings.apiKeyIntrospectionAntiabusePerMinute

/-- Without Redis the answer is left to the limits of the key, which degrade alike. -/
def Degrades (settings : ApiKeySettings) (redis : Option KeyRedis) : Prop :=
  redis = none → settings.effectiveApiKeyStrictRateLimit = false

theorem consume_untouched (settings : ApiKeySettings) (redis : Option KeyRedis) (now : Datetime)
    (consumerId : String) :
    Untouched redis (consumeIntrospectionAntiabuse settings redis now consumerId).2 := by
  cases redis with
  | none => exact .none
  | some redis =>
      have hcounted : SameLimits redis { redis with
          counters := (redis.counters.increment now.timestamp (antiabuseKey consumerId now) 60).2 } :=
        ⟨rfl, rfl, fun id period t =>
          (Table.lookup_insert_eq _ _ _ _).trans (if_neg (antiabuseKey_ne_key consumerId now id period t))⟩
      simp only [consumeIntrospectionAntiabuse]
      split
      · exact .refl _
      · split
        · exact .some hcounted
        · exact .some hcounted

theorem consume_ok_iff :
    (consumeIntrospectionAntiabuse settings redis now consumerId).1 = .ok () ↔
      Degrades settings redis ∧ AntiabuseAdmits settings redis now consumerId := by
  have hhandle : handleAntiabuseUnavailable settings = .ok () ↔
      settings.effectiveApiKeyStrictRateLimit = false := by
    rw [handleAntiabuseUnavailable]
    cases settings.effectiveApiKeyStrictRateLimit <;> simp
  cases redis with
  | none => simp [consumeIntrospectionAntiabuse, hhandle, Degrades, AntiabuseAdmits]
  | some redis =>
      simp only [consumeIntrospectionAntiabuse, Degrades, AntiabuseAdmits, reduceCtorEq, false_imp_iff,
        true_and, Option.mem_some_iff, forall_eq']
      split
      · exact hhandle
      · by_cases hexceeds : settings.apiKeyIntrospectionAntiabusePerMinute
          < redis.counters.read now.timestamp (antiabuseKey consumerId now) + 1
        · simp only [Counters.increment, hexceeds, if_true, reduceCtorEq, false_iff]
          omega
        · simp only [Counters.increment, hexceeds, if_false, true_iff]
          omega

/-! ### The two paths -/

/-- What makes a key usable for a request: it is found, and its owner vouches for it. -/
structure Resolves (settings : ApiKeySettings) (session : Option ApiKeyDb) (now : Datetime) (key : String)
    (db : ApiKeyDb) (id : Uuid) (apiKey : ApiKey) (principal : ApiKeyPrincipal) : Prop where
  session : session = some db
  found : ApiKeyService.getActiveKey settings db now key = some (id, apiKey)
  owner : resolveApiKeyOwnerPrincipal db apiKey = some principal

theorem local_ok_iff {key : String} {principal : ApiKeyPrincipal} :
    (getCurrentApiKeyPrincipal settings session redis now key).1 = .ok principal ↔
      ∃ db id apiKey headers, Resolves settings session now key db id apiKey principal ∧
        (limitApiKey settings redis db now id apiKey).1 = .ok headers := by
  constructor
  · intro haccepted
    rw [getCurrentApiKeyPrincipal] at haccepted
    split at haccepted
    · cases haccepted
    · next apiKey redis' hkey =>
        unfold getCurrentApiKey at hkey
        split at hkey
        · cases hkey
        · next db =>
            split at hkey
            · cases hkey
            · next id apiKey' hfound =>
                split at hkey
                · cases hkey
                · next headers redis'' hlimits =>
                    cases hkey
                    simp only [resolveApiKeyPrincipal] at haccepted
                    split at haccepted
                    · cases haccepted
                    · next howner =>
                        cases haccepted
                        exact ⟨db, id, apiKey, headers, ⟨rfl, hfound, howner⟩, by rw [hlimits]⟩
  · rintro ⟨db, id, apiKey, headers, ⟨rfl, hfound, howner⟩, hlimits⟩
    obtain ⟨redis', hlimits⟩ : ∃ redis', limitApiKey settings redis db now id apiKey = (.ok headers, redis') :=
      ⟨_, Prod.ext hlimits rfl⟩
    simp only [getCurrentApiKeyPrincipal, getCurrentApiKey, hfound, hlimits, resolveApiKeyPrincipal, howner]

def AnswersActive (result : Except Raised IntrospectionAnswer) (principal : ApiKeyPrincipal) : Prop :=
  ∃ audienceId keyExpiresAt headers,
    result = .ok { body := .active audienceId principal keyExpiresAt, headers }

theorem introspect_active_iff {request : PrivateRequest} {body : ApiKeyIntrospectionRequest}
    (hconsumer : authenticatePrivateConsumer settings.toPrivateSettings now.timestamp request
      "api-key-introspection" = .ok consumerId)
    (hversion : settings.supportsSchemaVersion body.schemaVersion = true) {principal : ApiKeyPrincipal} :
    AnswersActive (introspectApiKey settings session redis now request body).1 principal ↔
      (consumeIntrospectionAntiabuse settings redis now consumerId).1 = .ok () ∧
        ∃ db id apiKey headers, Resolves settings session now body.apiKey db id apiKey principal ∧
          keyCarriesAudience apiKey consumerId = true ∧
          (limitApiKey settings (consumeIntrospectionAntiabuse settings redis now consumerId).2 db now id
            apiKey).1 = .ok headers := by
  constructor
  · rintro ⟨audienceId, keyExpiresAt, headers, hactive⟩
    simp only [introspectApiKey, hconsumer, hversion, Bool.not_true, Bool.false_eq_true, if_false] at hactive
    split at hactive
    · cases hactive
    · next redis' hconsumed =>
        split at hactive
        · cases hactive
        · next db =>
            split at hactive
            · cases hactive
            · next id apiKey hfound =>
                split at hactive
                · cases hactive
                · next principal' howner =>
                    split at hactive
                    · cases hactive
                    · next hcarries =>
                        split at hactive
                        · cases hactive
                        · next headers' redis'' hlimits =>
                            cases hactive
                            refine ⟨by rw [hconsumed], db, id, apiKey, headers, ⟨rfl, hfound, howner⟩, ?_, ?_⟩
                            · simpa using hcarries
                            · rw [hconsumed, hlimits]
  · rintro ⟨hadmits, db, id, apiKey, headers, ⟨rfl, hfound, howner⟩, hcarries, hlimits⟩
    refine ⟨consumerId, apiKey.expiresAt, headers, ?_⟩
    obtain ⟨redis', hconsumed⟩ : ∃ redis', consumeIntrospectionAntiabuse settings redis now consumerId
        = (.ok (), redis') :=
      ⟨_, Prod.ext hadmits rfl⟩
    rw [hconsumed] at hlimits
    obtain ⟨redis'', hlimits⟩ : ∃ redis'', limitApiKey settings redis' db now id apiKey
        = (.ok headers, redis'') :=
      ⟨_, Prod.ext hlimits rfl⟩
    simp only [introspectApiKey, hconsumer, hversion, Bool.not_true, Bool.false_eq_true, if_false,
      hconsumed, hfound, howner, hcarries, hlimits]

/-- The presented key is bound to the consumer. -/
def CarriesAudience (settings : ApiKeySettings) (session : Option ApiKeyDb) (now : Datetime) (key : String)
    (consumerId : String) : Prop :=
  ∃ db id apiKey, session = some db ∧ ApiKeyService.getActiveKey settings db now key = some (id, apiKey) ∧
    keyCarriesAudience apiKey consumerId = true

/-- The key is unknown, revoked or expired, its owner cannot vouch for it, or it is not bound to the
consumer. -/
def Unusable (settings : ApiKeySettings) (session : Option ApiKeyDb) (now : Datetime) (key : String)
    (consumerId : String) : Prop :=
  ∀ db id apiKey principal, Resolves settings session now key db id apiKey principal →
    keyCarriesAudience apiKey consumerId = false

theorem degrades_of_limits {id : Uuid} {apiKey : ApiKey} {headers : RateLimitHeaders}
    (hlimits : (limitApiKey settings redis db now id apiKey).1 = .ok headers) : Degrades settings redis := by
  intro hnone
  subst hnone
  simp only [limitApiKey, handleApiKeyRedisDegraded] at hlimits
  split at hlimits
  · cases hlimits
  · next hlax => exact Bool.eq_false_iff.2 hlax

/-- The remote path answers active when the local path accepts the key for that principal, the key is bound to
the consumer and the allowance of the consumer admits the attempt. -/
theorem introspect_parity {request : PrivateRequest} {body : ApiKeyIntrospectionRequest}
    (hconsumer : authenticatePrivateConsumer settings.toPrivateSettings now.timestamp request
      "api-key-introspection" = .ok consumerId)
    (hversion : settings.supportsSchemaVersion body.schemaVersion = true) (principal : ApiKeyPrincipal) :
    AnswersActive (introspectApiKey settings session redis now request body).1 principal ↔
      (getCurrentApiKeyPrincipal settings session redis now body.apiKey).1 = .ok principal ∧
        CarriesAudience settings session now body.apiKey consumerId ∧
        AntiabuseAdmits settings redis now consumerId := by
  have huntouched := consume_untouched settings redis now consumerId
  rw [introspect_active_iff hconsumer hversion, consume_ok_iff, local_ok_iff]
  constructor
  · rintro ⟨⟨-, hadmits⟩, db, id, apiKey, headers, hresolves, hcarries, hlimits⟩
    rw [limitApiKey_congr huntouched] at hlimits
    refine ⟨⟨db, id, apiKey, headers, hresolves, hlimits⟩, ?_, hadmits⟩
    exact ⟨db, id, apiKey, hresolves.session, hresolves.found, hcarries⟩
  · rintro ⟨⟨db, id, apiKey, headers, hresolves, hlimits⟩, ⟨db', id', apiKey', hdb, hfound, hcarries⟩,
      hadmits⟩
    obtain rfl : db = db' := Option.some.inj (hresolves.session.symm.trans hdb)
    have hkey := Option.some.inj (hresolves.found.symm.trans hfound)
    obtain ⟨rfl, rfl⟩ := Prod.mk.inj hkey
    refine ⟨⟨degrades_of_limits hlimits, hadmits⟩, db, id, apiKey, headers, hresolves, hcarries, ?_⟩
    rw [limitApiKey_congr huntouched]
    exact hlimits

/-- The answer for a key that is not usable, after the allowance has been consumed. -/
def unusableAnswer (session : Option ApiKeyDb) :
    Except Raised Unit × Option KeyRedis → Except Raised IntrospectionAnswer × Option KeyRedis
  | (.error e, redis) => (.error e, redis)
  | (.ok (), redis) =>
      (if session.isSome then .ok { body := .inactive } else .error (.http introspectionUnavailable), redis)

theorem unusableAnswer_redis (session : Option ApiKeyDb) (consumed : Except Raised Unit × Option KeyRedis) :
    (unusableAnswer session consumed).2 = consumed.2 := by
  obtain ⟨result, redis⟩ := consumed
  cases result <;> rfl

theorem introspect_unusable {request : PrivateRequest} {body : ApiKeyIntrospectionRequest}
    (hconsumer : authenticatePrivateConsumer settings.toPrivateSettings now.timestamp request
      "api-key-introspection" = .ok consumerId)
    (hversion : settings.supportsSchemaVersion body.schemaVersion = true)
    (hunusable : Unusable settings session now body.apiKey consumerId) :
    introspectApiKey settings session redis now request body
      = unusableAnswer session (consumeIntrospectionAntiabuse settings redis now consumerId) := by
  simp only [introspectApiKey, hconsumer, hversion, Bool.not_true, Bool.false_eq_true, if_false]
  split
  · next hconsumed => rw [hconsumed, unusableAnswer]
  · next hconsumed =>
      rw [hconsumed, unusableAnswer]
      split
      · rfl
      · next db =>
          split
          · rfl
          · next id apiKey hfound =>
              split
              · rfl
              · next principal howner =>
                  rw [hunusable db id apiKey principal ⟨rfl, hfound, howner⟩]
                  rfl

end

/-- Introspection answers as local authentication would, for keys of the consumer and while its allowance
admits it; and unusable keys cannot be told apart, by the answer or by what is left in Redis. -/
theorem introspection_parity_no_oracle (settings : ApiKeySettings) (session : Option ApiKeyDb)
    (redis : Option KeyRedis) (now : Datetime) (request : PrivateRequest)
    (body : ApiKeyIntrospectionRequest) {consumerId : String}
    (hconsumer : authenticatePrivateConsumer settings.toPrivateSettings now.timestamp request
      "api-key-introspection" = .ok consumerId)
    (hversion : settings.supportsSchemaVersion body.schemaVersion = true) :
    (∀ principal, AnswersActive (introspectApiKey settings session redis now request body).1 principal ↔
      (getCurrentApiKeyPrincipal settings session redis now body.apiKey).1 = .ok principal ∧
        CarriesAudience settings session now body.apiKey consumerId ∧
        AntiabuseAdmits settings redis now consumerId) ∧
    (∀ key key', Unusable settings session now key consumerId → Unusable settings session now key' consumerId →
      introspectApiKey settings session redis now request { body with apiKey := key }
          = introspectApiKey settings session redis now request { body with apiKey := key' } ∧
        Untouched redis
          (introspectApiKey settings session redis now request { body with apiKey := key }).2) := by
  refine ⟨introspect_parity hconsumer hversion, fun key key' hunusable hunusable' => ?_⟩
  have hanswer : ∀ key, Unusable settings session now key consumerId →
      introspectApiKey settings session redis now request { body with apiKey := key }
        = unusableAnswer session (consumeIntrospectionAntiabuse settings redis now consumerId) :=
    fun _ hunusable => introspect_unusable hconsumer hversion hunusable
  refine ⟨(hanswer key hunusable).trans (hanswer key' hunusable').symm, ?_⟩
  rw [hanswer key hunusable, unusableAnswer_redis]
  exact consume_untouched settings redis now consumerId

/-- A strict deployment with one consumer that may introspect keys. -/
def introspectorSettings : ApiKeySettings where
  consumers := AList.insert "media" ⟨"secret-m", ["api-key-introspection"]⟩ ∅
  registry := plaintextRegistry _
  serviceTokenTtlSeconds := 60
  apiKeyStrictRateLimit := true

def mediaRequest : PrivateRequest where
  client := some "media"
  secret := some "secret-m"

/-- One writer with a key for the consumer. -/
def oneApiKey : ApiKeyDb where
  users := AList.insert 1 { email := "w", role := .writer } ∅
  apiKeys := AList.insert oneKey { keyHash := "ak_w", userId := 1, audiences := ["media"] } ∅

def writerPrincipal : ApiKeyPrincipal where
  userId := 1
  role := .writer
  isSuperuser := false
  accessMode := .readOnly
  authGeneration := 1

theorem introspectorSettings_consumer :
    authenticatePrivateConsumer introspectorSettings.toPrivateSettings firstOfFebruary.timestamp mediaRequest
      "api-key-introspection" = .ok "media" := by
  decide +kernel

theorem oneApiKey_carries :
    CarriesAudience introspectorSettings (some oneApiKey) firstOfFebruary "ak_w" "media" :=
  ⟨oneApiKey, oneKey, { keyHash := "ak_w", userId := 1, audiences := ["media"] }, rfl,
    by decide +kernel, by decide⟩

theorem oneApiKey_unusable {key : String} (hunknown :
    ApiKeyService.getActiveKey introspectorSettings oneApiKey firstOfFebruary key = none) (consumerId : String) :
    Unusable introspectorSettings (some oneApiKey) firstOfFebruary key consumerId := by
  intro db id apiKey principal hresolves
  obtain rfl := Option.some.inj hresolves.session
  cases hunknown.symm.trans hresolves.found

/-- The key is answered as active, and two unknown keys alike. -/
theorem introspection_parity_no_oracle_media :
    AnswersActive (introspectApiKey introspectorSettings (some oneApiKey) (some {}) firstOfFebruary mediaRequest
      { apiKey := "ak_w" }).1 writerPrincipal ∧
    introspectApiKey introspectorSettings (some oneApiKey) (some {}) firstOfFebruary mediaRequest
        { apiKey := "ak_x" }
      = introspectApiKey introspectorSettings (some oneApiKey) (some {}) firstOfFebruary mediaRequest
        { apiKey := "ak_y" } := by
  obtain ⟨hparity, hoblivious⟩ := introspection_parity_no_oracle introspectorSettings (some oneApiKey)
    (some {}) firstOfFebruary mediaRequest { apiKey := "ak_w" } introspectorSettings_consumer rfl
  have hlocal : (getCurrentApiKeyPrincipal introspectorSettings (some oneApiKey) (some {}) firstOfFebruary
      "ak_w").1 = .ok writerPrincipal := by
    decide +kernel
  have hadmits : AntiabuseAdmits introspectorSettings (some {}) firstOfFebruary "media" := by
    intro r hr
    cases hr
    decide
  have hunknown : Unusable introspectorSettings (some oneApiKey) firstOfFebruary "ak_x" "media" :=
    oneApiKey_unusable (by decide +kernel) "media"
  have hunknown' : Unusable introspectorSettings (some oneApiKey) firstOfFebruary "ak_y" "media" :=
    oneApiKey_unusable (by decide +kernel) "media"
  exact ⟨(hparity writerPrincipal).2 ⟨hlocal, oneApiKey_carries, hadmits⟩,
    (hoblivious "ak_x" "ak_y" hunknown hunknown').1⟩

/-- Redis with a policy that does not grant the names of the allowances. -/
def withoutAllowances : KeyRedis where
  refuses key := "introspect:antiabuse:".toList.isPrefixOf key.toList

/-- The allowance has attempts left, and yet a key that the local path accepts is refused. -/
theorem introspection_parity_refused_allowance :
    (getCurrentApiKeyPrincipal introspectorSettings (some oneApiKey) (some withoutAllowances) firstOfFebruary
      "ak_w").1 = .ok writerPrincipal ∧
    CarriesAudience introspectorSettings (some oneApiKey) firstOfFebruary "ak_w" "media" ∧
    withoutAllowances.counters.read firstOfFebruary.timestamp (antiabuseKey "media" firstOfFebruary)
      < introspectorSettings.apiKeyIntrospectionAntiabusePerMinute ∧
    (introspectApiKey introspectorSettings (some oneApiKey) (some withoutAllowances) firstOfFebruary mediaRequest
      { apiKey := "ak_w" }).1 = .error (.http introspectionUnavailable) := by
  refine ⟨?_, oneApiKey_carries, ?_, ?_⟩
  · decide +kernel
  · decide
  · decide +kernel

end FaAuthM8

import FaAuthM8.Core.Consumers
import FaAuthM8.Core.RateLimiter
import FaAuthM8.Database
import FaAuthM8.Lib.Parsing
import Mathlib.Data.List.Sort
import Mathlib.Data.String.Basic

/-!
# API keys

The audiences a key may be bound to, the lookup of a presented key, and the limits it is checked against:
the rows of the key, else those of its owner, else the configured defaults. How a key is hashed and how a
period is rendered belongs to the SDK and is a parameter.
-/

namespace FaAuthM8

structure RateLimit where
  apiKeyId : Option Uuid := none
  userId : Option UserId := none
  period : Period
  limit : Nat
  limit_pos : 0 < limit := by decide
deriving DecidableEq, Repr

/-- The database with the limits that only API-key authentication reads. -/
structure ApiKeyDb extends Db where
  rateLimits : List RateLimit := []

structure ApiKeySettings extends PrivateSettings where
  hashToken : String → String := id
  formatPeriod : Period → String := Period.value
  supportsSchemaVersion : String → Bool := fun version => version == "1"
  apiKeyStrictRateLimit : Bool := false
  authStrictMode : Bool := false
  production : Bool := false
  strictProductionMode : Bool := false
  apiKeyDefaultLimitMinute : Int := 60
  apiKeyDefaultLimitHour : Int := 1000
  apiKeyDefaultLimitDay : Int := 10000
  apiKeyDefaultLimitMonth : Int := 200000
  apiKeyIntrospectionAntiabusePerMinute : Nat := 600

def ApiKeySettings.effectiveApiKeyStrictRateLimit (settings : ApiKeySettings) : Bool :=
  settings.apiKeyStrictRateLimit || settings.authStrictMode || settings.production ||
    settings.strictProductionMode

/-- The settings an API key is issued under. -/
structure ApiKeyCaps where
  apiKeyMaxPerUser : Int := 10
  apiKeyMaxAudiences : Nat := 3
  apiKeyMaxAudiences_mem : 1 ≤ apiKeyMaxAudiences ∧ apiKeyMaxAudiences ≤ 50 := by decide

def sorted (texts : List String) : List String :=
  texts.insertionSort (· ≤ ·)

inductive ApiKeyAudienceError
  | empty
  | wildcard
  | tooMany (maxCount : Nat)
  | unknown (audiences : List String)
  | immutable
deriving DecidableEq, Repr

def ApiKeyAudienceError.message : ApiKeyAudienceError → String
  | .empty => "An audience id must not be empty."
  | .wildcard => "Audience wildcards are not permitted."
  | .tooMany maxCount => "An API key may bind at most " ++ toString maxCount ++ " audience(s)."
  | .unknown audiences => "Unknown or ineligible audience(s): " ++ ", ".intercalate (sorted audiences)
  | .immutable =>
      "The key already carries a different audience set; audiences are immutable after issuance — " ++
        "issue a replacement key instead."

/-- What binding a key to the requested audiences comes to; both carry the normalized set. -/
inductive AudienceBinding
  | unchanged (normalized : List String)
  | replace (normalized : List String)
deriving DecidableEq, Repr

namespace ApiKeyService

/-- The loop of `normalize_audiences`; the ids seen so far are those in the result. -/
def normalizeFrom (result : List String) : List String → Except ApiKeyAudienceError (List String)
  | [] => .ok result
  | raw :: rest =>
      let audience := String.ofList (Parsing.strip raw.toList)
      if audience = "" then .error .empty
      else if audience.toList.contains '*' then .error .wildcard
      else if audience ∈ result then normalizeFrom result rest
      else normalizeFrom (result ++ [audience]) rest

def normalizeAudiences (audiences : List String) : Except ApiKeyAudienceError (List String) :=
  normalizeFrom [] audiences

def validateAudiences (caps : ApiKeyCaps) (consumers : PrivateApiConsumers) (audiences : List String) :
    Except ApiKeyAudienceError (List String) :=
  match normalizeAudiences audiences with
  | .error e => .error e
  | .ok normalized =>
      let unknown := normalized.filter fun a => a ∉ getIntrospectionAudiences consumers
      if caps.apiKeyMaxAudiences < normalized.length then .error (.tooMany caps.apiKeyMaxAudiences)
      else if unknown ≠ [] then .error (.unknown unknown)
      else .ok normalized

/-- The decision about a key that carries the audiences `current`. -/
def bindExistingKeyAudiences (caps : ApiKeyCaps) (consumers : PrivateApiConsumers)
    (current audiences : List String) : Except ApiKeyAudienceError AudienceBinding :=
  match validateAudiences caps consumers audiences with
  | .error e => .error e
  | .ok normalized =>
      if sorted current = sorted normalized then .ok (.unchanged normalized)
      else if sorted current ≠ [] then .error .immutable
      else .ok (.replace normalized)

def getActiveKey (settings : ApiKeySettings) (db : ApiKeyDb) (now : Datetime) (plaintext : String) :
    Option (Uuid × ApiKey) :=
  match db.apiKeys.first fun _ key => key.keyHash == settings.hashToken plaintext with
  | none => none
  | some (id, key) =>
      if key.revoked then none
      else if key.expiresAt.any (· < now.timestamp) then none
      else some (id, key)

def PERIOD_ORDER : List Period := [.minute, .hour, .day, .month]

/-- The limit found so far for each period, and whether it is the key's own. -/
abbrev Resolved := Period → Option (Nat × Bool)

/-- One row: the first of its period, or the first of the key's own. -/
def resolveRow (apiKeyId : Uuid) (resolved : Resolved) (row : RateLimit) : Resolved :=
  let isKey := row.apiKeyId == some apiKeyId
  match resolved row.period with
  | none => Function.update resolved row.period (some (row.limit, isKey))
  | some existing =>
      if isKey && !existing.2 then Function.update resolved row.period (some (row.limit, isKey))
      else resolved

def getLimits (db : ApiKeyDb) (apiKeyId : Uuid) (userId : UserId) : List (Period × Nat) :=
  let rows := db.rateLimits.filter fun row =>
    row.apiKeyId == some apiKeyId || row.userId == some userId
  let resolved := rows.foldl (resolveRow apiKeyId) fun _ => none
  PERIOD_ORDER.filterMap fun period => (resolved period).map fun found => (period, found.1)

end ApiKeyService

/-! ### Audiences -/

structure NormalizedAudience (audience : String) : Prop where
  stripped : String.ofList (Parsing.strip audience.toList) = audience
  nonempty : audience ≠ ""
  exact : '*' ∉ audience.toList

@[simp] theorem sorted_eq_nil {texts : List String} : sorted texts = [] ↔ texts = [] := by
  rw [← List.length_eq_zero_iff, sorted, List.length_insertionSort, List.length_eq_zero_iff]

namespace ApiKeyService

variable {caps : ApiKeyCaps} {consumers : PrivateApiConsumers} {audiences normalized : List String}

theorem normalizeFrom_ok {result : List String} (hnodup : result.Nodup)
    (hresult : ∀ a ∈ result, NormalizedAudience a)
    (hok : normalizeFrom result audiences = .ok normalized) :
    normalized.Nodup ∧ ∀ a ∈ normalized, NormalizedAudience a := by
  induction audiences generalizing result with
  | nil =>
      cases hok
      exact ⟨hnodup, hresult⟩
  | cons raw rest ih =>
      rw [normalizeFrom] at hok
      split at hok
      · cases hok
      · next hnonempty =>
          split at hok
          · cases hok
          · next hexact =>
              split at hok
              · exact ih hnodup hresult hok
              · next hunseen =>
                  have hnormalized : NormalizedAudience (String.ofList (Parsing.strip raw.toList)) :=
                    ⟨by rw [String.toList_ofList, Parsing.strip_strip], hnonempty, by simpa using hexact⟩
                  refine ih ?_ ?_ hok
                  · rw [List.nodup_append]
                    refine ⟨hnodup, List.nodup_singleton _, fun a ha b hb heq => ?_⟩
                    rw [List.mem_singleton.1 hb] at heq
                    exact hunseen (heq ▸ ha)
                  · intro a ha
                    rcases List.mem_append.1 ha with hold | hnew
                    · exact hresult a hold
                    · exact List.mem_singleton.1 hnew ▸ hnormalized

/-- A set of audiences that may be bound: within the maximum, without repetitions, of normalized ids. -/
structure Bindable (caps : ApiKeyCaps) (audiences : List String) : Prop where
  count : audiences.length ≤ caps.apiKeyMaxAudiences
  nodup : audiences.Nodup
  normalized : ∀ a ∈ audiences, NormalizedAudience a

theorem validateAudiences_normalized (hok : validateAudiences caps consumers audiences = .ok normalized) :
    normalizeAudiences audiences = .ok normalized := by
  rw [validateAudiences] at hok
  split at hok
  · cases hok
  · next found hfound =>
      split at hok
      · cases hok
      · dsimp only at hok
        split at hok
        · cases hok
        · cases hok
          exact hfound

theorem validateAudiences_ok (hok : validateAudiences caps consumers audiences = .ok normalized) :
    Bindable caps normalized ∧ ∀ a ∈ normalized, a ∈ getIntrospectionAudiences consumers := by
  rw [validateAudiences] at hok
  split at hok
  · cases hok
  · next found hfound =>
      split at hok
      · cases hok
      · next hcount =>
          dsimp only at hok
          split at hok
          · cases hok
          · next hknown =>
              cases hok
              obtain ⟨hnodup, hnormalized⟩ := normalizeFrom_ok List.nodup_nil (by simp) hfound
              refine ⟨⟨Nat.not_lt.1 hcount, hnodup, hnormalized⟩, ?_⟩
              simpa using hknown

theorem bindExistingKeyAudiences_replace {current : List String}
    (hok : bindExistingKeyAudiences caps consumers current audiences = .ok (.replace normalized)) :
    validateAudiences caps consumers audiences = .ok normalized ∧ current = [] ∧ normalized ≠ [] := by
  rw [bindExistingKeyAudiences] at hok
  split at hok
  · cases hok
  · next found hfound =>
      split at hok
      · cases hok
      · next hdifferent =>
          split at hok
          · cases hok
          · next hcurrent =>
              cases hok
              rw [ne_eq, not_not, sorted_eq_nil] at hcurrent
              refine ⟨hfound, hcurrent, fun hnone => hdifferent ?_⟩
              rw [hcurrent, hnone]

end ApiKeyService

namespace RateLimitEnforcer

/-- `_default_limits`; zero disables a period. -/
def defaultLimits (settings : ApiKeySettings) : List (Period × Nat) :=
  [(.minute, settings.apiKeyDefaultLimitMinute), (.hour, settings.apiKeyDefaultLimitHour),
    (.day, settings.apiKeyDefaultLimitDay), (.month, settings.apiKeyDefaultLimitMonth)].filterMap
    fun (period, limit) => if 0 < limit then some (period, limit.toNat) else none

def enforce (settings : ApiKeySettings) (redis : KeyRedis) (now : Datetime) (apiKeyId : Uuid)
    (limits : List (Period × Nat)) : Except RedisError RateLimitResult × KeyRedis :=
  let effective := if limits.isEmpty then defaultLimits settings else limits
  RedisRateLimiter.checkAllLimits redis now apiKeyId effective

end RateLimitEnforcer

end FaAuthM8

import FaAuthM8.Core.Config
import FaAuthM8.Lib.Table
import Mathlib.Data.Finset.Basic

/-!
# Private consumers

Other services call the private routes. Each is configured with a secret and the scopes it is granted, and
authenticates with that secret or with a service token it exchanged the secret for. How the registry checks a
secret belongs to the SDK and is a parameter; that it keeps the configured scopes as they are, and looks a
scope up among them, is what this service relies on.
-/

namespace FaAuthM8

/-- The response of a refused request. -/
structure HttpException where
  statusCode : Nat
  detail : String
  /-- The `Retry-After` header. -/
  retryAfter : Option Int := none
deriving DecidableEq, Repr

structure ConsumerCredentialConfig where
  secret : String
  scopes : List String := []
deriving DecidableEq, Repr

abbrev PrivateApiConsumers := Table String ConsumerCredentialConfig

structure ConsumerCredential where
  clientId : String
  scopes : Finset String
deriving DecidableEq

structure ConsumerCredentialRegistry (consumers : PrivateApiConsumers) where
  /-- The credential behind a client identifier and a secret, as the headers of a request present them. -/
  authenticate : Option String → Option String → Option ConsumerCredential
  stored : ∀ {client secret : Option String} {credential : ConsumerCredential},
    authenticate client secret = some credential →
    ∃ config, consumers.lookup credential.clientId = some config ∧
      credential.scopes = config.scopes.toFinset

inductive ConsumerError
  | authentication
  | scope
deriving DecidableEq, Repr

/-- Authorizes for a scope, or for none in particular. -/
def ConsumerCredentialRegistry.authorize {consumers : PrivateApiConsumers}
    (registry : ConsumerCredentialRegistry consumers) (client secret scope : Option String) :
    Except ConsumerError ConsumerCredential :=
  match registry.authenticate client secret with
  | none => .error .authentication
  | some credential =>
      match scope with
      | none => .ok credential
      | some scope => if scope ∈ credential.scopes then .ok credential else .error .scope

structure PrivateSettings where
  consumers : PrivateApiConsumers
  registry : ConsumerCredentialRegistry consumers
  serviceTokenTtlSeconds : Nat := 300
  serviceTokenTtl_ge : 30 ≤ serviceTokenTtlSeconds := by decide

def getConsumerRegistry (settings : PrivateSettings) :
    Option (ConsumerCredentialRegistry settings.consumers) :=
  if settings.consumers.keys.isEmpty then none else some settings.registry

/-- The consumers that an API key may name as its audiences. -/
def getIntrospectionAudiences (consumers : PrivateApiConsumers) : List String :=
  (consumers.rows fun _ config => config.scopes.contains "api-key-introspection").map Prod.fst

theorem getConsumerRegistry_eq_some {settings : PrivateSettings}
    {registry : ConsumerCredentialRegistry settings.consumers}
    (hregistry : getConsumerRegistry settings = some registry) : registry = settings.registry := by
  rw [getConsumerRegistry] at hregistry
  split at hregistry
  · cases hregistry
  · exact (Option.some.inj hregistry).symm

theorem ConsumerCredentialRegistry.authorize_none {consumers : PrivateApiConsumers}
    {registry : ConsumerCredentialRegistry consumers} {client secret : Option String}
    {credential : ConsumerCredential} :
    registry.authorize client secret none = .ok credential ↔
      registry.authenticate client secret = some credential := by
  rw [authorize]
  cases registry.authenticate client secret <;> simp

theorem ConsumerCredentialRegistry.authorize_some {consumers : PrivateApiConsumers}
    {registry : ConsumerCredentialRegistry consumers} {client secret : Option String} {scope : String}
    {credential : ConsumerCredential} :
    registry.authorize client secret (some scope) = .ok credential ↔
      registry.authenticate client secret = some credential ∧ scope ∈ credential.scopes := by
  rw [authorize]
  cases registry.authenticate client secret with
  | none => simp
  | some found =>
      by_cases hscope : scope ∈ found.scopes
      · simp only [hscope, if_true, Except.ok.injEq, Option.some.injEq]
        exact ⟨fun heq => ⟨heq, heq ▸ hscope⟩, fun h => h.1⟩
      · simp only [hscope, if_false, Option.some.injEq, reduceCtorEq, false_iff]
        exact fun h => hscope (h.1 ▸ h.2)

end FaAuthM8

import FaAuthM8.Services.ServiceToken

/-!
# Private routes

The routes other services call, behind the guard that authenticates the calling consumer for a scope.
-/

namespace FaAuthM8

/-- What the guard reads of a request: the bearer token, and the two headers of the secret. -/
structure PrivateRequest where
  bearer : Option BearerToken := none
  client : Option String := none
  secret : Option String := none
deriving DecidableEq, Repr

def unauthorized : HttpException where
  statusCode := 401
  detail := "Unauthorized"

def forbidden : HttpException where
  statusCode := 403
  detail := "Forbidden"

/-- The identifier of the consumer that the request authenticates for a scope. -/
def authenticatePrivateConsumer (settings : PrivateSettings) (now : Int) (request : PrivateRequest)
    (scope : String) : Except HttpException String :=
  match getConsumerRegistry settings with
  | none => .error unauthorized
  | some registry =>
      match request.bearer with
      | some bearer =>
          match decodeServiceToken now bearer with
          | .error _ => .error unauthorized
          | .ok claims => if scope ∈ claims.scopes then .ok claims.clientId else .error forbidden
      | none =>
          match registry.authorize request.client request.secret (some scope) with
          | .error .scope => .error forbidden
          | .error .authentication => .error unauthorized
          | .ok credential => .ok credential.clientId

structure ServiceTokenRequest where
  scopes : Option (List String) := none
deriving DecidableEq, Repr

structure ServiceTokenResponse where
  accessToken : ServiceToken
  tokenType : String := "bearer"
  expiresIn : Nat
  scope : String
deriving DecidableEq, Repr

/-- The scopes a body asks for: those it lists, or else everything granted. -/
def requestedScopes (granted : Finset String) (body : Option ServiceTokenRequest) : Finset String :=
  match body.bind (·.scopes) with
  | some (scope :: rest) => (scope :: rest).toFinset
  | _ => granted

def issueServiceTokenRoute (settings : PrivateSettings) (now : Int) (client secret : Option String)
    (body : Option ServiceTokenRequest) : Except HttpException ServiceTokenResponse :=
  match getConsumerRegistry settings with
  | none => .error { statusCode := 404, detail := "Service-token exchange not enabled" }
  | some registry =>
      match registry.authorize client secret none with
      | .error _ => .error unauthorized
      | .ok credential =>
          let granted := credential.scopes
          let requested := requestedScopes granted body
          if requested = ∅ ∨ ¬ requested ⊆ granted then .error forbidden
          else
            let (token, expiresIn) :=
              issueServiceToken now credential.clientId requested settings.serviceTokenTtlSeconds
            .ok { accessToken := token, expiresIn, scope := joinSorted requested }

theorem authenticatePrivateConsumer_secret {settings : PrivateSettings} {now : Int}
    {client secret : Option String} {scope clientId : String} :
    authenticatePrivateConsumer settings now { client, secret } scope = .ok clientId ↔
      getConsumerRegistry settings = some settings.registry ∧ ∃ credential,
        settings.registry.authenticate client secret = some credential ∧ scope ∈ credential.scopes ∧
          credential.clientId = clientId := by
  simp only [authenticatePrivateConsumer]
  constructor
  · intro haccepted
    split at haccepted
    · cases haccepted
    · next registry hregistry =>
        obtain rfl := getConsumerRegistry_eq_some hregistry
        split at haccepted
        · cases haccepted
        · cases haccepted
        · next credential hauthorized =>
            obtain ⟨hcredential, hscope⟩ := ConsumerCredentialRegistry.authorize_some.1 hauthorized
            exact ⟨hregistry, credential, hcredential, hscope, Except.ok.inj haccepted⟩
  · rintro ⟨hregistry, credential, hcredential, hscope, rfl⟩
    rw [hregistry]
    simp only [ConsumerCredentialRegistry.authorize_some.2 ⟨hcredential, hscope⟩]

theorem authenticatePrivateConsumer_bearer {settings : PrivateSettings} {now : Int}
    {request : PrivateRequest} {bearer : BearerToken} (hbearer : request.bearer = some bearer)
    {scope clientId : String} :
    authenticatePrivateConsumer settings now request scope = .ok clientId ↔
      getConsumerRegistry settings = some settings.registry ∧ ∃ claims,
        decodeServiceToken now bearer = .ok claims ∧ scope ∈ claims.scopes ∧
          claims.clientId = clientId := by
  simp only [authenticatePrivateConsumer, hbearer]
  constructor
  · intro haccepted
    split at haccepted
    · cases haccepted
    · next registry hregistry =>
        obtain rfl := getConsumerRegistry_eq_some hregistry
        split at haccepted
        · cases haccepted
        · next claims hclaims =>
            split at haccepted
            · next hscope => exact ⟨hregistry, claims, hclaims, hscope, Except.ok.inj haccepted⟩
            · cases haccepted
  · rintro ⟨hregistry, claims, hclaims, hscope, rfl⟩
    rw [hregistry]
    simp only [hclaims, if_pos hscope]

theorem issueServiceTokenRoute_eq_ok {settings : PrivateSettings} {now : Int}
    {client secret : Option String} {body : Option ServiceTokenRequest} {response : ServiceTokenResponse}
    (hissued : issueServiceTokenRoute settings now client secret body = .ok response) :
    getConsumerRegistry settings = some settings.registry ∧ ∃ credential,
      settings.registry.authenticate client secret = some credential ∧
        requestedScopes credential.scopes body ⊆ credential.scopes ∧
        response.accessToken = (issueServiceToken now credential.clientId
          (requestedScopes credential.scopes body) settings.serviceTokenTtlSeconds).1 := by
  rw [issueServiceTokenRoute] at hissued
  split at hissued
  · cases hissued
  · next registry hregistry =>
      obtain rfl := getConsumerRegistry_eq_some hregistry
      split at hissued
      · cases hissued
      · next credential hcredential =>
          simp only at hissued
          split at hissued
          · cases hissued
          · next hnarrows =>
              rw [not_or, not_not] at hnarrows
              cases hissued
              exact ⟨hregistry, credential,
                ConsumerCredentialRegistry.authorize_none.1 hcredential, hnarrows.2, rfl⟩

end FaAuthM8

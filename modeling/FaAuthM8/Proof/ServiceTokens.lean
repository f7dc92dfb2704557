import FaAuthM8.Routes.Private

/-!
# The authority of a service token

The exchange checks that the scopes it is asked for are among the granted ones, as whole strings. The token
lists them with spaces between, and what it carries are the words of that list. A scope of several words is
one scope when it is granted and several when it is carried.
-/

namespace FaAuthM8

/-- Whatever the token is accepted for, the secret it was exchanged for is accepted for too. -/
def NeverWidens (settings : PrivateSettings) (client secret : Option String) (token : ServiceToken) :
    Prop :=
  ∀ now request scope clientId, request.bearer = some (.service token) →
    authenticatePrivateConsumer settings now request scope = .ok clientId →
    authenticatePrivateConsumer settings now { client, secret } scope = .ok clientId

/-- Every word of the requested scopes is a granted scope. A consumer without a name cannot use its token. -/
def WordsGranted (credential : ConsumerCredential) (requested : Finset String) : Prop :=
  credential.clientId = "" ∨
    ∀ scope ∈ requested, ∀ word ∈ Words.splitWhitespace scope, word ∈ credential.scopes

/-- A scope that is a single word is carried as it was granted. -/
theorem WordsGranted.of_words {credential : ConsumerCredential} {requested : Finset String}
    (hgranted : requested ⊆ credential.scopes)
    (hwords : ∀ scope ∈ requested, ∀ c ∈ scope.toList, Words.isSpace c = false) :
    WordsGranted credential requested := by
  refine .inr fun scope hscope word hword => ?_
  by_cases hempty : scope = ""
  · subst hempty
    cases hword
  · rw [Words.splitWhitespace_word hempty (hwords scope hscope), List.mem_singleton] at hword
    exact hword ▸ hgranted hscope

/-- A service token carries no more than its secret exactly when every word of its scopes is granted. -/
theorem service_token_never_widens_iff (settings : PrivateSettings) {now : Int}
    {client secret : Option String} {body : Option ServiceTokenRequest} {response : ServiceTokenResponse}
    {credential : ConsumerCredential}
    (hcredential : settings.registry.authenticate client secret = some credential)
    (hissued : issueServiceTokenRoute settings now client secret body = .ok response) :
    WordsGranted credential (requestedScopes credential.scopes body) ↔
      NeverWidens settings client secret response.accessToken := by
  obtain ⟨hregistry, credential', hcredential', -, htoken⟩ := issueServiceTokenRoute_eq_ok hissued
  obtain rfl : credential = credential' := Option.some.inj (hcredential.symm.trans hcredential')
  rw [htoken]
  constructor
  · intro hwords now' request scope clientId hbearer haccepted
    obtain ⟨-, claims, hclaims, hscope, hclient⟩ :=
      (authenticatePrivateConsumer_bearer hbearer).1 haccepted
    obtain ⟨-, -, hnamed, rfl⟩ := decode_issueServiceToken.1 hclaims
    refine authenticatePrivateConsumer_secret.2 ⟨hregistry, credential, hcredential, ?_, hclient⟩
    obtain ⟨granted, hgranted, hword⟩ := mem_carriedScopes.1 hscope
    rcases hwords with hunnamed | hwords
    · exact absurd hunnamed hnamed
    · exact hwords granted hgranted scope hword
  · intro hnever
    rw [WordsGranted, or_iff_not_imp_left]
    intro hnamed granted hgranted word hword
    -- the token is accepted at the moment it is issued
    have hlives : now < truncateToSecond (now + settings.serviceTokenTtlSeconds * second) := by
      have hge := settings.serviceTokenTtl_ge
      simp only [truncateToSecond, second]
      omega
    have hclaims : decodeServiceToken now (.service (issueServiceToken now credential.clientId
        (requestedScopes credential.scopes body) settings.serviceTokenTtlSeconds).1)
          = .ok ⟨credential.clientId, carriedScopes (requestedScopes credential.scopes body)⟩ :=
      decode_issueServiceToken.2 ⟨truncateToSecond_le now, hlives, hnamed, rfl⟩
    have hscope := mem_carriedScopes.2 ⟨granted, hgranted, hword⟩
    have haccepted := hnever now { bearer := some (.service _) } word _ rfl
      ((authenticatePrivateConsumer_bearer rfl).2 ⟨hregistry, _, hclaims, hscope, rfl⟩)
    obtain ⟨-, credential', hcredential', hword', -⟩ := authenticatePrivateConsumer_secret.1 haccepted
    obtain rfl : credential = credential' := Option.some.inj (hcredential.symm.trans hcredential')
    exact hword'

def plaintextRegistry (consumers : PrivateApiConsumers) : ConsumerCredentialRegistry consumers where
  authenticate client secret := do
    let clientId ← client
    let config ← consumers.lookup clientId
    if secret = some config.secret then some ⟨clientId, config.scopes.toFinset⟩ else none
  stored := by
    intro client secret credential hcredential
    obtain ⟨clientId, rfl, hconfig⟩ := Option.bind_eq_some_iff.1 hcredential
    obtain ⟨config, hlookup, hsecret⟩ := Option.bind_eq_some_iff.1 hconfig
    split at hsecret
    · cases hsecret
      exact ⟨config, hlookup, rfl⟩
    · cases hsecret

/-- One consumer, which is granted a scope of two words. -/
def mediaSettings : PrivateSettings where
  consumers := AList.insert "media" ⟨"secret-m", ["introspection event-stream"]⟩ ∅
  registry := plaintextRegistry _

def mediaCredential : ConsumerCredential where
  clientId := "media"
  scopes := {"introspection event-stream"}

def mediaToken : ServiceToken :=
  (issueServiceToken 0 "media" {"introspection event-stream"} 300).1

theorem mediaSettings_issues :
    issueServiceTokenRoute mediaSettings 0 (some "media") (some "secret-m") none
      = .ok { accessToken := mediaToken, expiresIn := 300, scope := "introspection event-stream" } := by
  decide +kernel

theorem service_token_never_widens_iff_media :
    WordsGranted mediaCredential {"introspection event-stream"} ↔
      NeverWidens mediaSettings (some "media") (some "secret-m") mediaToken := by
  have hcredential : mediaSettings.registry.authenticate (some "media") (some "secret-m")
      = some mediaCredential := by
    decide +kernel
  exact service_token_never_widens_iff mediaSettings hcredential mediaSettings_issues

/-- The token is accepted for a scope that its consumer was never granted. -/
theorem service_token_widens :
    authenticatePrivateConsumer mediaSettings 0 { bearer := some (.service mediaToken) } "introspection"
      = .ok "media" ∧
    authenticatePrivateConsumer mediaSettings 0 { client := some "media", secret := some "secret-m" }
      "introspection" = .error forbidden ∧
    ¬ NeverWidens mediaSettings (some "media") (some "secret-m") mediaToken := by
  have haccepted : authenticatePrivateConsumer mediaSettings 0
      { bearer := some (.service mediaToken) } "introspection" = .ok "media" := by
    decide +kernel
  have hrefused : authenticatePrivateConsumer mediaSettings 0
      { client := some "media", secret := some "secret-m" } "introspection" = .error forbidden := by
    decide +kernel
  refine ⟨haccepted, hrefused, fun hnever => ?_⟩
  cases hrefused.symm.trans (hnever 0 _ "introspection" "media" rfl haccepted)

end FaAuthM8

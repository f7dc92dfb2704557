import FaAuthM8.Routes.Jwks

/-!
# The identifiers of published keys

Signer and publisher take the identifier of the current key from one function, so a token always points at
the first key of the set. That function returns a configured identifier as it stands, while the validator
compares it stripped; and the switch that lets an unbound identifier through lets it name the other key.
-/

namespace FaAuthM8

theorem ok_of_bind {α β : Type} {check : Except KeyError α} {next : α → Except KeyError β} {answer : β}
    (hok : check >>= next = .ok answer) : ∃ found, check = .ok found ∧ next found = .ok answer := by
  cases hcheck : check with
  | error e =>
      rw [hcheck] at hok
      cases hok
  | ok found => exact ⟨found, rfl, by rwa [hcheck] at hok⟩

section

variable {κ : Type} {tools : KeyTools κ} {settings : LoadedKeySettings} {pem id : String} {key : κ}

theorem truthy_eq_some {setting : Option String} {text : String} :
    truthy setting = some text ↔ setting = some text ∧ text ≠ "" := by
  simp [truthy, Option.filter_eq_some_iff]

theorem stripped_some (text : String) :
    stripped (some text) = truthy (some (String.ofList (Parsing.strip text.toList))) := rfl

theorem loadPublicKey_eq_ok (hlawful : tools.Lawful) :
    loadPublicKey tools pem = .ok key ↔ tools.loadPemPublicKey pem = some key := by
  rw [loadPublicKey, stripped_some, ← hlawful.load_strip pem]
  generalize String.ofList (Parsing.strip pem.toList) = trimmed
  by_cases hempty : trimmed = ""
  · subst hempty
    have hnone : truthy (some "") = none := by decide
    simp [hnone, hlawful.load_empty]
  · have hsome : truthy (some trimmed) = some trimmed := truthy_eq_some.2 ⟨rfl, hempty⟩
    cases hload : tools.loadPemPublicKey trimmed with
    | none => simp [hsome, hload]
    | some found => simp [hsome, hload]

theorem deriveKid_eq_ok (hlawful : tools.Lawful) :
    deriveKid tools pem = .ok id ↔ ∃ key, tools.loadPemPublicKey pem = some key ∧ tools.fingerprint key = id := by
  simp only [← loadPublicKey_eq_ok hlawful, deriveKid]
  cases loadPublicKey tools pem with
  | error e => simp [Except.map]
  | ok found => simp [Except.map]

theorem deriveKid_of_load (hlawful : tools.Lawful) (hload : tools.loadPemPublicKey pem = some key) :
    deriveKid tools pem = .ok (tools.fingerprint key) :=
  (deriveKid_eq_ok hlawful).2 ⟨key, hload, rfl⟩

theorem stripped_fingerprint (hlawful : tools.Lawful) (key : κ) :
    stripped (some (tools.fingerprint key)) = some (tools.fingerprint key) := by
  have hspace : ∀ c ∈ (tools.fingerprint key).toList, Words.isSpace c = false := by
    intro c hc
    obtain hdigit | ⟨hlow, hhigh⟩ := hlawful.fingerprint_hex key c hc
    · exact Parsing.isSpace_of_isDigit hdigit
    · have hlow' : 97 ≤ c.val.toNat := hlow
      have hhigh' : c.val.toNat ≤ 102 := hhigh
      exact Parsing.isSpace_eq_false (by omega) (by omega)
  rw [stripped_some, Parsing.strip_eq_self hspace, String.ofList_toList, truthy_eq_some]
  refine ⟨rfl, fun hempty => ?_⟩
  have hlength := hlawful.fingerprint_length key
  rw [hempty] at hlength
  simp at hlength

/-- What the validators leave of the settings of an asymmetric algorithm. -/
structure AcceptedKeys (tools : KeyTools κ) (settings : LoadedKeySettings) : Prop where
  old : ∀ oldPem, truthy settings.accessPublicKeyOld = some oldPem → ∃ oldKey,
    tools.loadPemPublicKey oldPem = some oldKey ∧
      tools.kind oldKey = expectedKind settings.accessTokenAlgorithm
  distinct : ∀ oldPem pem oldKey key, truthy settings.accessPublicKeyOld = some oldPem →
    truthy settings.accessPublicKey = some pem → tools.loadPemPublicKey oldPem = some oldKey →
    tools.loadPemPublicKey pem = some key → tools.fingerprint key ≠ tools.fingerprint oldKey
  bound : settings.accessKeyIdAllowUnbound = false → ∀ pem id, truthy settings.accessPublicKey = some pem →
    stripped settings.accessKeyId = some id → deriveKid tools pem = .ok id
  boundOld : settings.accessKeyIdAllowUnbound = false → ∀ pem id,
    truthy settings.accessPublicKeyOld = some pem → stripped settings.accessKeyIdOld = some id →
    deriveKid tools pem = .ok id

theorem kidProblem_eq_nil {setting : String} {labelled configured : Option String}
    (hnone : kidProblem tools setting labelled configured = .ok []) (hpem : truthy labelled = some pem)
    (hconfigured : stripped configured = some id) : deriveKid tools pem = .ok id := by
  rw [kidProblem, hpem, hconfigured] at hnone
  cases hderived : deriveKid tools pem with
  | error e => simp [hderived, Except.map] at hnone
  | ok expected =>
      have hsame : id = expected := by simpa [hderived, Except.map] using hnone
      rw [hsame]

theorem kidBindingProblems_eq_nil (hnone : kidBindingProblems tools settings = .ok []) :
    kidProblem tools "ACCESS_KEY_ID" settings.accessPublicKey settings.accessKeyId = .ok [] ∧
      kidProblem tools "ACCESS_KEY_ID_OLD" settings.accessPublicKeyOld settings.accessKeyIdOld = .ok [] := by
  obtain ⟨current, hcurrent, hrest⟩ := ok_of_bind hnone
  obtain ⟨old, hold, happend⟩ := ok_of_bind hrest
  obtain ⟨rfl, rfl⟩ := List.append_eq_nil_iff.1 (Except.ok.inj happend)
  exact ⟨hcurrent, hold⟩

theorem rejectStructural_eq_ok (hlawful : tools.Lawful)
    (haccepted : rejectStructuralOldKeyErrors tools settings = .ok ()) {oldPem : String}
    (hold : truthy settings.accessPublicKeyOld = some oldPem) :
    ∃ oldKey, tools.loadPemPublicKey oldPem = some oldKey ∧
      tools.kind oldKey = expectedKind settings.accessTokenAlgorithm ∧
      ∀ pem key, truthy settings.accessPublicKey = some pem → tools.loadPemPublicKey pem = some key →
        tools.fingerprint key ≠ tools.fingerprint oldKey := by
  rw [rejectStructuralOldKeyErrors, hold] at haccepted
  obtain ⟨oldKind, hkind, hrest⟩ := ok_of_bind haccepted
  cases hload : loadPublicKey tools oldPem with
  | error e => simp [publicKeyKind, hload, Except.map] at hkind
  | ok oldKey =>
      obtain rfl : tools.kind oldKey = oldKind := by simpa [publicKeyKind, hload, Except.map] using hkind
      have holdKey := (loadPublicKey_eq_ok hlawful).1 hload
      split at hrest
      · cases hrest
      · next hsame =>
          refine ⟨oldKey, holdKey, not_not.1 hsame, ?_⟩
          intro pem key hpem hkey heq
          have hderived : deriveKid tools pem = .ok (tools.fingerprint oldKey) :=
            (deriveKid_eq_ok hlawful).2 ⟨key, hkey, heq⟩
          have hderivedOld : deriveKid tools oldPem = .ok (tools.fingerprint oldKey) :=
            deriveKid_of_load hlawful holdKey
          simp [hpem, hderived, hderivedOld, bind, Except.bind] at hrest

theorem acceptedKeys_of_load (hlawful : tools.Lawful) {raw : KeySettings}
    (hloaded : loadKeySettings tools raw = .ok settings)
    (hasymmetric : tools.isAsymmetric settings.accessTokenAlgorithm = true) : AcceptedKeys tools settings := by
  obtain ⟨loaded, -, hvalidated⟩ := ok_of_bind hloaded
  obtain ⟨warning, hvalid, hreturn⟩ := ok_of_bind hvalidated
  obtain rfl : loaded = settings := Except.ok.inj hreturn
  rw [validateAccessKeyIdBinding, if_neg (by simp [hasymmetric])] at hvalid
  obtain ⟨_, hstructural, hrest⟩ := ok_of_bind hvalid
  obtain ⟨problems, hproblems, hswitch⟩ := ok_of_bind hrest
  have hnone (hbound : loaded.accessKeyIdAllowUnbound = false) : kidBindingProblems tools loaded = .ok [] := by
    split at hswitch
    · next hallowed =>
        rw [hbound, Bool.or_false, List.isEmpty_iff] at hallowed
        rw [hproblems, hallowed]
    · cases hswitch
  constructor
  · intro oldPem hold
    obtain ⟨oldKey, hload, hkind, -⟩ := rejectStructural_eq_ok hlawful hstructural hold
    exact ⟨oldKey, hload, hkind⟩
  · intro oldPem pem oldKey key hold hpem hload hkey
    obtain ⟨found, hfound, -, hdistinct⟩ := rejectStructural_eq_ok hlawful hstructural hold
    rw [hload] at hfound
    rw [Option.some.inj hfound]
    exact hdistinct pem key hpem hkey
  · intro hbound pem id
    exact kidProblem_eq_nil (kidBindingProblems_eq_nil (hnone hbound)).1
  · intro hbound pem id
    exact kidProblem_eq_nil (kidBindingProblems_eq_nil (hnone hbound)).2

/-! ### The published set -/

def PublishesKey (tools : KeyTools κ) (settings : LoadedKeySettings) (key : κ) : Prop :=
  tools.isAsymmetric settings.accessTokenAlgorithm = true ∧
    ∃ pem, truthy settings.accessPublicKey = some pem ∧ tools.loadPemPublicKey pem = some key ∧
      tools.kind key = expectedKind settings.accessTokenAlgorithm

/-- The previous key as it is published beside the current one, under its label. -/
def PublishesOld (tools : KeyTools κ) (settings : LoadedKeySettings) (older : List (Jwk κ)) : Prop :=
  (truthy settings.accessPublicKeyOld = none ∧ older = []) ∨
    ∃ oldPem oldKey, truthy settings.accessPublicKeyOld = some oldPem ∧
      tools.loadPemPublicKey oldPem = some oldKey ∧
      older = [⟨oldKey, settings.accessTokenAlgorithm,
        (stripped settings.accessKeyIdOld).getD (tools.fingerprint oldKey)⟩]

theorem resolveKid_eq (hlawful : tools.Lawful) (hpublishes : PublishesKey tools settings key) :
    resolveKid tools settings = .ok (some ((truthy settings.accessKeyId).getD (tools.fingerprint key))) := by
  obtain ⟨hasymmetric, pem, hpem, hload, -⟩ := hpublishes
  have hpublic : settings.accessPublicKey = some pem := (truthy_eq_some.1 hpem).1
  have hderived : deriveKid tools pem = .ok (tools.fingerprint key) := deriveKid_of_load hlawful hload
  rw [resolveKid, if_neg (by simp [hasymmetric])]
  cases hexplicit : truthy settings.accessKeyId with
  | none => simp [hpublic, hderived, Except.map]
  | some explicit => rfl

theorem buildJwk_eq_ok {jwk : Jwk κ} {kid : String} (hbuilt : buildJwk tools settings pem kid = .ok jwk) :
    tools.loadPemPublicKey pem = some jwk.key ∧ tools.kind jwk.key = expectedKind settings.accessTokenAlgorithm := by
  rw [buildJwk] at hbuilt
  split at hbuilt
  · cases hbuilt
  · next key hload =>
      split at hbuilt
      · next hkind =>
          obtain rfl := Except.ok.inj hbuilt
          exact ⟨hload, hkind⟩
      · cases hbuilt

theorem buildJwk_of_load {kid : String} (hload : tools.loadPemPublicKey pem = some key)
    (hkind : tools.kind key = expectedKind settings.accessTokenAlgorithm) :
    buildJwk tools settings pem kid = .ok ⟨key, settings.accessTokenAlgorithm, kid⟩ := by
  simp only [buildJwk, hload, hkind, if_true]

theorem buildOldJwk_of_load (hlawful : tools.Lawful) (hload : tools.loadPemPublicKey pem = some key)
    (hkind : tools.kind key = expectedKind settings.accessTokenAlgorithm) :
    buildOldJwk tools settings pem = .ok ⟨key, settings.accessTokenAlgorithm,
      (stripped settings.accessKeyIdOld).getD (tools.fingerprint key)⟩ := by
  have hderived : deriveKid tools pem = .ok (tools.fingerprint key) := deriveKid_of_load hlawful hload
  rw [buildOldJwk]
  cases hold : stripped settings.accessKeyIdOld with
  | none => simp [hderived, bind, Except.bind, buildJwk_of_load hload hkind]
  | some oldKid => simp [bind, Except.bind, pure, Except.pure, buildJwk_of_load hload hkind]

/-- The current key comes first, under the configured identifier as it stands or its fingerprint. -/
theorem buildKeySet_of_publishes (hlawful : tools.Lawful) (haccepted : AcceptedKeys tools settings)
    (hpublishes : PublishesKey tools settings key) :
    ∃ older, PublishesOld tools settings older ∧ buildKeySet tools settings =
      .ok (⟨key, settings.accessTokenAlgorithm,
        (truthy settings.accessKeyId).getD (tools.fingerprint key)⟩ :: older) := by
  have hkid := resolveKid_eq hlawful hpublishes
  obtain ⟨hasymmetric, pem, hpem, hload, hkind⟩ := hpublishes
  cases hold : truthy settings.accessPublicKeyOld with
  | none =>
      refine ⟨[], .inl ⟨hold, rfl⟩, ?_⟩
      simp [buildKeySet, hasymmetric, hpem, hkid, hold, bind, Except.bind, buildJwk_of_load hload hkind, pure,
        Except.pure]
  | some oldPem =>
      obtain ⟨oldKey, hloadOld, hkindOld⟩ := haccepted.old oldPem hold
      refine ⟨_, .inr ⟨oldPem, oldKey, hold, hloadOld, rfl⟩, ?_⟩
      simp [buildKeySet, hasymmetric, hpem, hkid, hold, bind, Except.bind, buildJwk_of_load hload hkind,
        buildOldJwk_of_load hlawful hloadOld hkindOld, pure, Except.pure]

theorem publishesKey_of_buildKeySet {jwk : Jwk κ} {older : List (Jwk κ)}
    (hbuilt : buildKeySet tools settings = .ok (jwk :: older)) : ∃ key, PublishesKey tools settings key := by
  rw [buildKeySet.eq_def] at hbuilt
  split at hbuilt
  · next pem hasymmetric hpem =>
      obtain ⟨kid, -, hcurrent⟩ := ok_of_bind hbuilt
      obtain ⟨current, hcurrent, -⟩ := ok_of_bind hcurrent
      obtain ⟨hload, hkind⟩ := buildJwk_eq_ok hcurrent
      exact ⟨current.key, hasymmetric, pem, hpem, hload, hkind⟩
  · cases hbuilt

/-! ### Tokens and the set -/

/-- A token can be signed: there is a private key for the algorithm, and an identifier is configured or a
public key to derive it from is. -/
def CanSign (tools : KeyTools κ) (settings : LoadedKeySettings) : Prop :=
  (∃ privatePem, truthy settings.accessPrivateKey = some privatePem ∧
      tools.encodes settings.accessTokenAlgorithm privatePem = true) ∧
    ((truthy settings.accessKeyId).isSome = true ∨
      (tools.loadPemPublicKey (settings.accessPublicKey.getD "")).isSome = true)

/-- The new settings have the public key of the old ones as their previous key, and a current key that the
algorithm publishes. -/
structure Rotates (tools : KeyTools κ) (before after : LoadedKeySettings) : Prop where
  accepted : ∃ raw, loadKeySettings tools raw = .ok after
  bound : after.accessKeyIdAllowUnbound = false
  current : ∃ key, PublishesKey tools after key
  moved : ∃ key oldPem, PublishesKey tools before key ∧ truthy after.accessPublicKeyOld = some oldPem ∧
    tools.loadPemPublicKey oldPem = some key

/-- What a token of these settings points at. -/
structure TokensPointAtPublished (tools : KeyTools κ) (settings : LoadedKeySettings) : Prop where
  first : ∀ kid, signAccessToken tools settings = .ok kid →
    ∃ jwk older, buildKeySet tools settings = .ok (jwk :: older) ∧ kid = some jwk.kid
  own : ∀ keys, buildKeySet tools settings = .ok keys → ∀ jwk ∈ keys, jwk.kid = tools.fingerprint jwk.key
  survives : ∀ after kid, Rotates tools settings after → signAccessToken tools settings = .ok kid →
    ∃ keys, buildKeySet tools after = .ok keys ∧ ∃ jwk ∈ keys, kid = some jwk.kid

theorem truthy_getD_fingerprint (hlawful : tools.Lawful) (setting : Option String) (key : κ) :
    truthy (some ((truthy setting).getD (tools.fingerprint key))) =
      some ((truthy setting).getD (tools.fingerprint key)) := by
  rw [truthy_eq_some]
  refine ⟨rfl, ?_⟩
  cases hset : truthy setting with
  | none =>
      have hlength := hlawful.fingerprint_length key
      intro hempty
      rw [Option.getD_none] at hempty
      rw [hempty] at hlength
      simp at hlength
  | some text => exact (truthy_eq_some.1 hset).2

theorem signAccessToken_eq_ok (hasymmetric : tools.isAsymmetric settings.accessTokenAlgorithm = true)
    (hlawful : tools.Lawful) {kid : Option String} (hsigned : signAccessToken tools settings = .ok kid) :
    CanSign tools settings ∧ ∀ key, PublishesKey tools settings key →
      kid = some ((truthy settings.accessKeyId).getD (tools.fingerprint key)) := by
  rw [signAccessToken.eq_def] at hsigned
  split at hsigned
  · cases hsigned
  · next privatePem hprivate =>
      obtain ⟨resolved, hresolved, hencoded⟩ := ok_of_bind hsigned
      split at hencoded
      · next hencodes =>
          obtain rfl := Except.ok.inj hencoded
          refine ⟨⟨⟨privatePem, hprivate, hencodes⟩, ?_⟩, ?_⟩
          · rw [resolveKid, if_neg (by simp [hasymmetric])] at hresolved
            cases hexplicit : truthy settings.accessKeyId with
            | some explicit => exact .inl rfl
            | none =>
                right
                cases hderived : deriveKid tools (settings.accessPublicKey.getD "") with
                | error e => simp [hexplicit, hderived, Except.map] at hresolved
                | ok fingerprint =>
                    obtain ⟨key, hload, -⟩ := (deriveKid_eq_ok hlawful).1 hderived
                    rw [hload]
                    rfl
          · intro key hpublishes
            rw [resolveKid_eq hlawful hpublishes, Except.ok.injEq] at hresolved
            rw [← hresolved, truthy_getD_fingerprint hlawful]
      · cases hencoded

theorem signAccessToken_of_canSign (hlawful : tools.Lawful)
    (hasymmetric : tools.isAsymmetric settings.accessTokenAlgorithm = true)
    (hsign : CanSign tools settings) : ∃ kid, signAccessToken tools settings = .ok kid := by
  obtain ⟨⟨privatePem, hprivate, hencodes⟩, hnamed⟩ := hsign
  obtain ⟨kid, hkid⟩ : ∃ kid, resolveKid tools settings = .ok kid := by
    rw [resolveKid, if_neg (by simp [hasymmetric])]
    cases hexplicit : truthy settings.accessKeyId with
    | some explicit => exact ⟨some explicit, rfl⟩
    | none =>
        rw [hexplicit] at hnamed
        obtain ⟨key, hload⟩ := Option.isSome_iff_exists.1 (hnamed.resolve_left (by simp))
        have hderived : deriveKid tools (settings.accessPublicKey.getD "") = .ok (tools.fingerprint key) :=
          deriveKid_of_load hlawful hload
        exact ⟨some (tools.fingerprint key), by simp [hderived, Except.map]⟩
  exact ⟨truthy kid, by simp [signAccessToken, hprivate, hkid, hencodes, bind, Except.bind]⟩

theorem currentKid_eq (hlawful : tools.Lawful) (haccepted : AcceptedKeys tools settings)
    (hbound : settings.accessKeyIdAllowUnbound = false) (hpublishes : PublishesKey tools settings key)
    (htrimmed : ∀ id, truthy settings.accessKeyId = some id → stripped (some id) = some id) :
    (truthy settings.accessKeyId).getD (tools.fingerprint key) = tools.fingerprint key := by
  cases hexplicit : truthy settings.accessKeyId with
  | none => rfl
  | some id =>
      obtain ⟨-, pem, hpem, hload, -⟩ := hpublishes
      have hstripped : stripped settings.accessKeyId = some id := by
        rw [(truthy_eq_some.1 hexplicit).1]
        exact htrimmed id hexplicit
      obtain ⟨found, hfound, hsame⟩ := (deriveKid_eq_ok hlawful).1 (haccepted.bound hbound pem id hpem hstripped)
      rw [hload] at hfound
      rw [Option.getD_some, ← hsame, Option.some.inj hfound]

theorem oldKid_eq (hlawful : tools.Lawful) (haccepted : AcceptedKeys tools settings)
    (hbound : settings.accessKeyIdAllowUnbound = false)
    (hold : truthy settings.accessPublicKeyOld = some pem) (hload : tools.loadPemPublicKey pem = some key) :
    (stripped settings.accessKeyIdOld).getD (tools.fingerprint key) = tools.fingerprint key := by
  cases hstripped : stripped settings.accessKeyIdOld with
  | none => rfl
  | some id =>
      obtain ⟨found, hfound, hsame⟩ := (deriveKid_eq_ok hlawful).1 (haccepted.boundOld hbound pem id hold hstripped)
      rw [hload] at hfound
      rw [Option.getD_some, ← hsame, Option.some.inj hfound]

theorem kid_of_publishesOld (hlawful : tools.Lawful) (haccepted : AcceptedKeys tools settings)
    (hbound : settings.accessKeyIdAllowUnbound = false) {older : List (Jwk κ)}
    (holder : PublishesOld tools settings older) {jwk : Jwk κ} (hmem : jwk ∈ older) :
    jwk.kid = tools.fingerprint jwk.key := by
  obtain ⟨-, rfl⟩ | ⟨oldPem, oldKey, hold, hload, rfl⟩ := holder
  · simp at hmem
  · rw [List.mem_singleton] at hmem
    subst hmem
    exact oldKid_eq hlawful haccepted hbound hold hload

theorem mem_of_publishesOld {older : List (Jwk κ)} (holder : PublishesOld tools settings older)
    (hold : truthy settings.accessPublicKeyOld = some pem) (hload : tools.loadPemPublicKey pem = some key) :
    ∃ jwk ∈ older, jwk.key = key := by
  obtain ⟨hnone, -⟩ | ⟨oldPem, oldKey, hsome, hloadOld, rfl⟩ := holder
  · rw [hold] at hnone
    cases hnone
  · rw [hold] at hsome
    obtain rfl := Option.some.inj hsome
    rw [hload] at hloadOld
    refine ⟨_, List.mem_singleton_self _, ?_⟩
    exact (Option.some.inj hloadOld).symm

/-- Every published identifier is a fingerprint, once the one of the current key is. -/
theorem kid_of_buildKeySet (hlawful : tools.Lawful) (haccepted : AcceptedKeys tools settings)
    (hbound : settings.accessKeyIdAllowUnbound = false)
    (htrimmed : ∀ key, PublishesKey tools settings key →
      ∀ id, truthy settings.accessKeyId = some id → stripped (some id) = some id)
    {keys : List (Jwk κ)} (hkeys : buildKeySet tools settings = .ok keys) {jwk : Jwk κ} (hjwk : jwk ∈ keys) :
    jwk.kid = tools.fingerprint jwk.key := by
  cases keys with
  | nil => simp at hjwk
  | cons head rest =>
      obtain ⟨key, hpublishes⟩ := publishesKey_of_buildKeySet hkeys
      obtain ⟨older, holder, hbuilt⟩ := buildKeySet_of_publishes hlawful haccepted hpublishes
      rw [hbuilt] at hkeys
      rw [← Except.ok.inj hkeys, List.mem_cons] at hjwk
      obtain rfl | hmem := hjwk
      · exact currentKid_eq hlawful haccepted hbound hpublishes (htrimmed key hpublishes)
      · exact kid_of_publishesOld hlawful haccepted hbound holder hmem

/-- A rotation leaves the previous key published under its fingerprint. -/
theorem published_after_rotation (hlawful : tools.Lawful) {before after : LoadedKeySettings}
    (hrotates : Rotates tools before after) : ∃ key, PublishesKey tools before key ∧
      ∃ keys, buildKeySet tools after = .ok keys ∧ ∃ jwk ∈ keys, jwk.kid = tools.fingerprint key := by
  obtain ⟨key, oldPem, hpublishes, hold, hload⟩ := hrotates.moved
  obtain ⟨newKey, hnew⟩ := hrotates.current
  obtain ⟨raw, hafter⟩ := hrotates.accepted
  have haccepted := acceptedKeys_of_load hlawful hafter hnew.1
  obtain ⟨older, holder, hbuilt⟩ := buildKeySet_of_publishes hlawful haccepted hnew
  obtain ⟨jwk, hmem, hkey⟩ := mem_of_publishesOld holder hold hload
  have hkid := kid_of_publishesOld hlawful haccepted hrotates.bound holder hmem
  rw [hkey] at hkid
  exact ⟨key, hpublishes, _, hbuilt, jwk, List.mem_cons_of_mem _ hmem, hkid⟩

/-- Under settings accepted with the switch off, every token points at a published key exactly when a
published key's configured identifier has no whitespace around it and no token is signed without a key to
publish. -/
theorem tokens_point_iff (hlawful : tools.Lawful) {raw : KeySettings}
    (hloaded : loadKeySettings tools raw = .ok settings)
    (hasymmetric : tools.isAsymmetric settings.accessTokenAlgorithm = true)
    (hbound : settings.accessKeyIdAllowUnbound = false) :
    TokensPointAtPublished tools settings ↔
      (∀ key, PublishesKey tools settings key →
        ∀ id, truthy settings.accessKeyId = some id → stripped (some id) = some id) ∧
      (CanSign tools settings → ∃ key, PublishesKey tools settings key) := by
  have haccepted := acceptedKeys_of_load hlawful hloaded hasymmetric
  constructor
  · intro hpoint
    refine ⟨?_, ?_⟩
    · intro key hpublishes id hexplicit
      obtain ⟨older, -, hbuilt⟩ := buildKeySet_of_publishes hlawful haccepted hpublishes
      have hown := hpoint.own _ hbuilt _ List.mem_cons_self
      simp only [hexplicit, Option.getD_some] at hown
      rw [hown]
      exact stripped_fingerprint hlawful key
    · intro hsign
      obtain ⟨kid, hsigned⟩ := signAccessToken_of_canSign hlawful hasymmetric hsign
      obtain ⟨jwk, older, hbuilt, -⟩ := hpoint.first kid hsigned
      exact publishesKey_of_buildKeySet hbuilt
  · intro hcondition
    obtain ⟨htrimmed, hpublished⟩ := hcondition
    constructor
    · intro kid hsigned
      obtain ⟨hsign, hkid⟩ := signAccessToken_eq_ok hasymmetric hlawful hsigned
      obtain ⟨key, hpublishes⟩ := hpublished hsign
      obtain ⟨older, -, hbuilt⟩ := buildKeySet_of_publishes hlawful haccepted hpublishes
      exact ⟨_, older, hbuilt, hkid key hpublishes⟩
    · intro keys hkeys jwk hjwk
      exact kid_of_buildKeySet hlawful haccepted hbound htrimmed hkeys hjwk
    · intro after kid hrotates hsigned
      obtain ⟨-, hkid⟩ := signAccessToken_eq_ok hasymmetric hlawful hsigned
      obtain ⟨key, hpublishes, keys, hbuilt, jwk, hmem, hsame⟩ := published_after_rotation hlawful hrotates
      refine ⟨keys, hbuilt, jwk, hmem, ?_⟩
      rw [hkid key hpublishes, hsame,
        currentKid_eq hlawful haccepted hbound hpublishes (htrimmed key hpublishes)]

end

/-- The autumn key pair takes the place of the spring one. -/
inductive KeyPair
  | spring
  | autumn
deriving DecidableEq, Repr

def KeyPair.fingerprint : KeyPair → String
  | .spring => "1f0e9d8c7b6a5948"
  | .autumn => "a1b2c3d4e5f60718"

def springPem : String := "PUBLIC KEY spring"

def autumnPem : String := "PUBLIC KEY autumn"

/-- Two RSA keys, of which the file of the previous key holds the spring one. -/
def pemTools : KeyTools KeyPair where
  isAsymmetric algo := algo == "RS256" || algo == "ES256"
  loadPemPublicKey pem := (stripped (some pem)).bind fun text =>
    if text = springPem then some .spring else if text = autumnPem then some .autumn else none
  kind _ := .rsa
  fingerprint := KeyPair.fingerprint
  encodes algo _ := algo == "RS256"
  readText path := if path = "/keys/previous.pem" then some (springPem ++ "\n") else none

theorem pemTools_lawful : pemTools.Lawful where
  fingerprint_hex key c hc := by
    have hall : (KeyPair.fingerprint key).toList.all (fun c => c.isDigit || ('a' ≤ c && c ≤ 'f')) = true := by
      cases key with
      | spring => decide +kernel
      | autumn => decide +kernel
    simpa using List.all_eq_true.1 hall c hc
  fingerprint_length key := by
    cases key with
    | spring => decide
    | autumn => decide
  load_empty := by decide
  load_strip pem := by
    simp only [pemTools, stripped_some, String.toList_ofList, Parsing.strip_strip]

def springSettings : LoadedKeySettings where
  accessTokenAlgorithm := "RS256"
  accessPrivateKey := some "spring private key"
  accessPublicKey := some springPem
  accessKeyId := some "1f0e9d8c7b6a5948"
  accessPublicKeyOld := none

theorem springSettings_loaded :
    loadKeySettings pemTools springSettings.toKeySettings = .ok springSettings := by
  decide +kernel

theorem springSettings_publishes : PublishesKey pemTools springSettings .spring :=
  ⟨by decide, springPem, by decide, by decide +kernel, by decide +kernel⟩

/-- The identifier has a blank behind it. -/
def paddedSettings : LoadedKeySettings :=
  { springSettings with accessKeyId := some "1f0e9d8c7b6a5948 " }

def autumnSettings : LoadedKeySettings :=
  { paddedSettings with
    accessPrivateKey := some "autumn private key"
    accessPublicKey := some autumnPem
    accessKeyId := some "a1b2c3d4e5f60718"
    accessPublicKeyOldFile := some "/keys/previous.pem"
    accessKeyIdOld := some "1f0e9d8c7b6a5948 "
    accessPublicKeyOld := some springPem }

theorem tokens_point_iff_springSettings : TokensPointAtPublished pemTools springSettings := by
  apply (tokens_point_iff pemTools_lawful springSettings_loaded (by decide) (by decide)).2
  refine ⟨?_, fun _ => ⟨.spring, springSettings_publishes⟩⟩
  intro key _ id hexplicit
  obtain rfl : "1f0e9d8c7b6a5948" = id := (truthy_eq_some.1 hexplicit).1 |> Option.some.inj
  decide +kernel

/-- The identifier is bound for the validator, and the set that follows the rotation has it without the blank. -/
theorem padded_kid_unbound :
    loadKeySettings pemTools paddedSettings.toKeySettings = .ok paddedSettings ∧
      paddedSettings.accessKeyIdAllowUnbound = false ∧
      pemTools.isAsymmetric paddedSettings.accessTokenAlgorithm = true ∧
      Rotates pemTools paddedSettings autumnSettings ∧
      signAccessToken pemTools paddedSettings = .ok (some "1f0e9d8c7b6a5948 ") ∧
      (buildKeySet pemTools autumnSettings).map (List.map (·.kid)) =
        .ok ["a1b2c3d4e5f60718", "1f0e9d8c7b6a5948"] ∧
      ¬ TokensPointAtPublished pemTools paddedSettings := by
  have hsigned : signAccessToken pemTools paddedSettings = .ok (some "1f0e9d8c7b6a5948 ") := by
    decide +kernel
  have hbuilt : buildKeySet pemTools paddedSettings = .ok [⟨.spring, "RS256", "1f0e9d8c7b6a5948 "⟩] := by
    decide +kernel
  refine ⟨by decide +kernel, by decide, by decide, ?_, hsigned, by decide +kernel, ?_⟩
  · exact {
      accepted := ⟨autumnSettings.toKeySettings, by decide +kernel⟩
      bound := by decide
      current := ⟨.autumn, by decide, autumnPem, by decide, by decide +kernel, by decide +kernel⟩
      moved := ⟨.spring, springPem,
        ⟨by decide, springPem, by decide, by decide +kernel, by decide +kernel⟩, by decide, by decide +kernel⟩ }
  · intro hpoint
    have hown := hpoint.own _ hbuilt _ (List.mem_singleton_self _)
    have hdiffers : "1f0e9d8c7b6a5948 " ≠ pemTools.fingerprint .spring := by decide
    exact hdiffers hown

section

variable {κ : Type} {tools : KeyTools κ} {settings : LoadedKeySettings} {pem : String} {key : κ}

/-! ### Identifiers of two published keys -/

/-- The label of one published key is also that of the other: both are configured, or one is the fingerprint
that the other key goes by. -/
def LabelsClash (tools : KeyTools κ) (settings : LoadedKeySettings) : Prop :=
  ∃ oldPem, truthy settings.accessPublicKeyOld = some oldPem ∧
    match truthy settings.accessKeyId, stripped settings.accessKeyIdOld with
    | some id, some oldId => id = oldId
    | some id, none => deriveKid tools oldPem = .ok id
    | none, some oldId => deriveKid tools (settings.accessPublicKey.getD "") = .ok oldId
    | none, none => False

theorem deriveKid_publishes (hlawful : tools.Lawful) (hpublishes : PublishesKey tools settings key) :
    deriveKid tools (settings.accessPublicKey.getD "") = .ok (tools.fingerprint key) := by
  obtain ⟨-, pem, hpem, hload, -⟩ := hpublishes
  rw [(truthy_eq_some.1 hpem).1]
  exact deriveKid_of_load hlawful hload

theorem labelsClash_iff (hlawful : tools.Lawful) (haccepted : AcceptedKeys tools settings)
    (hpublishes : PublishesKey tools settings key) {oldPem : String} {oldKey : κ}
    (hold : truthy settings.accessPublicKeyOld = some oldPem)
    (hloadOld : tools.loadPemPublicKey oldPem = some oldKey) :
    LabelsClash tools settings ↔ (truthy settings.accessKeyId).getD (tools.fingerprint key) =
      (stripped settings.accessKeyIdOld).getD (tools.fingerprint oldKey) := by
  have hkid := deriveKid_publishes hlawful hpublishes
  have hkidOld := deriveKid_of_load hlawful hloadOld
  obtain ⟨-, pem, hpem, hload, -⟩ := hpublishes
  have hdistinct := haccepted.distinct oldPem pem oldKey key hold hpem hloadOld hload
  simp only [LabelsClash, hold, Option.some.injEq, exists_eq_left']
  cases truthy settings.accessKeyId with
  | some id =>
      cases stripped settings.accessKeyIdOld with
      | some oldId => rfl
      | none =>
          simp only [hkidOld, Except.ok.injEq, Option.getD_some, Option.getD_none]
          exact eq_comm
  | none =>
      cases stripped settings.accessKeyIdOld with
      | some oldId => simp only [hkid, Except.ok.injEq, Option.getD_some, Option.getD_none]
      | none => simpa using hdistinct

/-- Labels that clash have been let through by the switch. -/
theorem allowUnbound_of_labelsClash (hlawful : tools.Lawful) (haccepted : AcceptedKeys tools settings)
    (hpublishes : PublishesKey tools settings key) (hclash : LabelsClash tools settings) :
    settings.accessKeyIdAllowUnbound = true := by
  have ⟨oldPem, hold, _⟩ := hclash
  obtain ⟨oldKey, hloadOld, -⟩ := haccepted.old oldPem hold
  have hsame := (labelsClash_iff hlawful haccepted hpublishes hold hloadOld).1 hclash
  by_contra hswitch
  have hbound : settings.accessKeyIdAllowUnbound = false := by
    simpa using hswitch
  rw [oldKid_eq hlawful haccepted hbound hold hloadOld] at hsame
  -- the configured identifier is then a fingerprint, so the validator has seen it as it stands
  have htrimmed : ∀ id, truthy settings.accessKeyId = some id → stripped (some id) = some id := by
    intro id hexplicit
    rw [hexplicit, Option.getD_some] at hsame
    rw [hsame]
    exact stripped_fingerprint hlawful oldKey
  rw [currentKid_eq hlawful haccepted hbound hpublishes htrimmed] at hsame
  obtain ⟨-, pem, hpem, hload, -⟩ := hpublishes
  exact haccepted.distinct oldPem pem oldKey key hold hpem hloadOld hload hsame

/-- Whatever the switch, the identifiers of the published keys are pairwise distinct exactly when their labels
do not clash. -/
theorem published_kids_distinct_iff (hlawful : tools.Lawful) {raw : KeySettings}
    (hloaded : loadKeySettings tools raw = .ok settings) :
    (∀ keys, buildKeySet tools settings = .ok keys → (keys.map (·.kid)).Nodup) ↔
      ¬ ((∃ key, PublishesKey tools settings key) ∧ LabelsClash tools settings) := by
  by_cases hpublished : ∃ key, PublishesKey tools settings key
  · obtain ⟨key, hpublishes⟩ := hpublished
    have haccepted := acceptedKeys_of_load hlawful hloaded hpublishes.1
    obtain ⟨older, holder, hbuilt⟩ := buildKeySet_of_publishes hlawful haccepted hpublishes
    have hclash : LabelsClash tools settings ↔ ¬ ((⟨key, settings.accessTokenAlgorithm,
        (truthy settings.accessKeyId).getD (tools.fingerprint key)⟩ :: older : List (Jwk κ)).map
          (·.kid)).Nodup := by
      obtain ⟨hnone, rfl⟩ | ⟨oldPem, oldKey, hold, hloadOld, rfl⟩ := holder
      · simp [LabelsClash, hnone]
      · rw [labelsClash_iff hlawful haccepted hpublishes hold hloadOld]
        simp
    rw [hclash]
    constructor
    · intro hdistinct hboth
      exact hboth.2 (hdistinct _ hbuilt)
    · intro hnodup keys hkeys
      rw [hbuilt] at hkeys
      rw [← Except.ok.inj hkeys]
      by_contra hdup
      exact hnodup ⟨⟨key, hpublishes⟩, hdup⟩
  · constructor
    · intro _ hboth
      exact hpublished hboth.1
    · intro _ keys hkeys
      cases keys with
      | nil => exact List.nodup_nil
      | cons jwk rest => exact absurd (publishesKey_of_buildKeySet hkeys) hpublished

end

theorem published_kids_distinct_iff_autumnSettings :
    (∀ keys, buildKeySet pemTools autumnSettings = .ok keys → (keys.map (·.kid)).Nodup) ∧
      buildKeySet pemTools autumnSettings = .ok
        [⟨.autumn, "RS256", "a1b2c3d4e5f60718"⟩, ⟨.spring, "RS256", "1f0e9d8c7b6a5948"⟩] := by
  have hloaded : loadKeySettings pemTools autumnSettings.toKeySettings = .ok autumnSettings := by
    decide +kernel
  refine ⟨?_, by decide +kernel⟩
  apply (published_kids_distinct_iff pemTools_lawful hloaded).2
  intro hboth
  obtain ⟨-, oldPem, -, hsame⟩ := hboth
  have hdiffers : "a1b2c3d4e5f60718" ≠ "1f0e9d8c7b6a5948" := by decide
  exact hdiffers hsame

/-- In an emergency the current key is still labelled with the fingerprint of the previous one. -/
def emergencySettings : LoadedKeySettings :=
  { autumnSettings with
    accessKeyId := some "1f0e9d8c7b6a5948"
    accessKeyIdOld := none
    accessKeyIdAllowUnbound := true }

/-- The two keys have different fingerprints, and are published under one identifier. -/
theorem published_kids_collide :
    loadKeySettings pemTools emergencySettings.toKeySettings = .ok emergencySettings ∧
      Function.Injective pemTools.fingerprint ∧
      buildKeySet pemTools emergencySettings = .ok
        [⟨.autumn, "RS256", "1f0e9d8c7b6a5948"⟩, ⟨.spring, "RS256", "1f0e9d8c7b6a5948"⟩] ∧
      ¬ (∀ keys, buildKeySet pemTools emergencySettings = .ok keys → (keys.map (·.kid)).Nodup) := by
  have hbuilt : buildKeySet pemTools emergencySettings = .ok
      [⟨.autumn, "RS256", "1f0e9d8c7b6a5948"⟩, ⟨.spring, "RS256", "1f0e9d8c7b6a5948"⟩] := by
    decide +kernel
  refine ⟨by decide +kernel, ?_, hbuilt, ?_⟩
  · intro key other
    cases key with
    | spring => cases other with
      | spring => simp
      | autumn => decide
    | autumn => cases other with
      | spring => decide
      | autumn => simp
  · intro hdistinct
    simpa using hdistinct _ hbuilt

end FaAuthM8

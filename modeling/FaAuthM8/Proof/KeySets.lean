import FaAuthM8.Proof.KeyIds
import FaAuthM8.System.KeySets

/-!
# Caches of the key set

A cache that revalidates goes on with exactly the text of the present key set, whatever was deployed since its
last poll, and that text tells the keys. It is sent the text again only when it has named no answer that holds
it; a key set that comes back after a rollback is found under its old tag.
-/

namespace FaAuthM8

/-- What the two libraries are known to do: a digest is hexadecimal, and the members of a supported key tell
the key, hold no objects and leave the names that the endpoint adds alone. -/
structure PublishTools.Lawful {κ : Type} (publish : PublishTools κ) (tools : KeyTools κ) : Prop where
  sha256Hex_hex : ∀ text, ∀ c ∈ (publish.sha256Hex text).toList, c.isDigit = true ∨ ('a' ≤ c ∧ c ≤ 'f')
  flat : ∀ key name value, (publish.toJwk key).lookup name = some value → Json.sortKeys value = value
  own : ∀ key, ∀ name ∈ ["use", "alg", "kid"], (publish.toJwk key).lookup name = none
  tells : ∀ key key', tools.kind key ≠ .unsupported → tools.kind key' ≠ .unsupported →
    (∀ name, (publish.toJwk key).lookup name = (publish.toJwk key').lookup name) → key = key'

section

variable {κ : Type} {tools : KeyTools κ} {publish : PublishTools κ}

/-! ### The text tells the keys -/

theorem Jwk.lookup_members (jwk : Jwk κ) (name : String) : (jwk.members publish).lookup name =
    if name = "kid" then some (.string jwk.kid) else if name = "alg" then some (.string jwk.alg)
    else if name = "use" then some (.string "sig") else (publish.toJwk jwk.key).lookup name := by
  rw [Jwk.members, Table.lookup_insert_eq, Table.lookup_insert_eq, Table.lookup_insert_eq]

theorem Jwk.lookup_flat (hpublish : publish.Lawful tools) (jwk : Jwk κ) (name : String) :
    ((jwk.members publish).lookup name).map Json.sortKeys = (jwk.members publish).lookup name := by
  cases hfound : (jwk.members publish).lookup name with
  | none => rfl
  | some value =>
      rw [jwk.lookup_members] at hfound
      apply congrArg some
      split at hfound
      · obtain rfl := Option.some.inj hfound
        rfl
      split at hfound
      · obtain rfl := Option.some.inj hfound
        rfl
      split at hfound
      · obtain rfl := Option.some.inj hfound
        rfl
      · exact hpublish.flat jwk.key name value hfound

theorem Jwk.eq_of_members (hpublish : publish.Lawful tools) {jwk jwk' : Jwk κ}
    (hkind : tools.kind jwk.key ≠ .unsupported) (hkind' : tools.kind jwk'.key ≠ .unsupported)
    (hmembers : ∀ name, (jwk.members publish).lookup name = (jwk'.members publish).lookup name) :
    jwk = jwk' := by
  have hkid := hmembers "kid"
  have halg := hmembers "alg"
  rw [jwk.lookup_members, jwk'.lookup_members] at hkid halg
  have hkey : jwk.key = jwk'.key := by
    apply hpublish.tells jwk.key jwk'.key hkind hkind'
    intro name
    by_cases hadded : name ∈ ["use", "alg", "kid"]
    · rw [hpublish.own jwk.key name hadded, hpublish.own jwk'.key name hadded]
    · have hname := hmembers name
      simp only [List.mem_cons, List.not_mem_nil, or_false, not_or] at hadded
      rw [jwk.lookup_members, jwk'.lookup_members] at hname
      simpa [hadded] using hname
  obtain ⟨key, alg, kid⟩ := jwk
  obtain ⟨key', alg', kid'⟩ := jwk'
  simp at hkid halg hkey
  rw [hkid, halg, hkey]

theorem Jwk.eq_of_dumps (hpublish : publish.Lawful tools) {jwk jwk' : Jwk κ}
    (hkind : tools.kind jwk.key ≠ .unsupported) (hkind' : tools.kind jwk'.key ≠ .unsupported)
    (heq : Json.sortKeys (.dict (jwk.members publish)) = Json.sortKeys (.dict (jwk'.members publish))) :
    jwk = jwk' := by
  apply Jwk.eq_of_members hpublish hkind hkind'
  intro name
  rw [← jwk.lookup_flat hpublish, ← jwk'.lookup_flat hpublish]
  exact Json.lookup_of_sortKeys heq name

theorem serializeKeySet_inj (hpublish : publish.Lawful tools) {keys keys' : List (Jwk κ)}
    (hkinds : ∀ jwk ∈ keys, tools.kind jwk.key ≠ .unsupported)
    (hkinds' : ∀ jwk ∈ keys', tools.kind jwk.key ≠ .unsupported)
    (heq : serializeKeySet publish keys = serializeKeySet publish keys') : keys = keys' := by
  have hvalue := Json.render_injective (String.ofList_injective heq)
  simp only [Json.sortKeys, Json.sortMembers, List.insertionSort_cons, List.insertionSort_nil,
    List.orderedInsert_nil, Json.Value.object.injEq, List.cons.injEq, Prod.mk.injEq, true_and, and_true,
    Json.Value.array.injEq, Json.sortItems_eq_map, List.map_map] at hvalue
  clear heq
  induction keys generalizing keys' with
  | nil =>
      cases keys' with
      | nil => rfl
      | cons jwk' rest' => cases hvalue
  | cons jwk rest ih =>
      cases keys' with
      | nil => cases hvalue
      | cons jwk' rest' =>
          obtain ⟨hhead, htail⟩ := List.cons.inj hvalue
          rw [List.forall_mem_cons] at hkinds hkinds'
          rw [Jwk.eq_of_dumps hpublish hkinds.1 hkinds'.1 hhead, ih hkinds.2 hkinds'.2 htail]

theorem buildJwk_supported {settings : LoadedKeySettings} {pem kid : String} {jwk : Jwk κ}
    (hbuilt : buildJwk tools settings pem kid = .ok jwk) : tools.kind jwk.key ≠ .unsupported := by
  rw [(buildJwk_eq_ok hbuilt).2, expectedKind]
  split
  · decide
  · decide

theorem buildOldJwk_supported {settings : LoadedKeySettings} {pem : String} {jwk : Jwk κ}
    (hbuilt : buildOldJwk tools settings pem = .ok jwk) : tools.kind jwk.key ≠ .unsupported := by
  rw [buildOldJwk] at hbuilt
  split at hbuilt
  · exact buildJwk_supported hbuilt
  · obtain ⟨kid, -, hbuilt⟩ := ok_of_bind hbuilt
    exact buildJwk_supported hbuilt

theorem buildKeySet_supported {settings : LoadedKeySettings} {keys : List (Jwk κ)}
    (hbuilt : buildKeySet tools settings = .ok keys) : ∀ jwk ∈ keys, tools.kind jwk.key ≠ .unsupported := by
  rw [buildKeySet.eq_def] at hbuilt
  split at hbuilt
  · obtain ⟨kid, -, hrest⟩ := ok_of_bind hbuilt
    obtain ⟨current, hcurrent, hrest⟩ := ok_of_bind hrest
    split at hrest
    · obtain rfl := Except.ok.inj hrest
      intro jwk hmem
      rw [List.mem_singleton.1 hmem]
      exact buildJwk_supported hcurrent
    · obtain ⟨old, hold, hboth⟩ := ok_of_bind hrest
      obtain rfl := Except.ok.inj hboth
      intro jwk hmem
      rcases List.mem_cons.1 hmem with rfl | hmem
      · exact buildJwk_supported hcurrent
      · rw [List.mem_singleton.1 hmem]
        exact buildOldJwk_supported hold
  · obtain rfl := Except.ok.inj hbuilt
    intro jwk hmem
    cases hmem

/-! ### The validators of a request -/

/-- An entity tag: a digest in its marks. -/
def IsTag (tag : String) : Prop :=
  ∃ digest : String, tag.toList = Json.mark :: digest.toList ++ [Json.mark] ∧
    ∀ c ∈ digest.toList, c.isDigit = true ∨ ('a' ≤ c ∧ c ≤ 'f')

theorem isTag_keySetEtag (hpublish : publish.Lawful tools) (body : String) : IsTag (keySetEtag publish body) := by
  refine ⟨publish.sha256Hex body, ?_, hpublish.sha256Hex_hex body⟩
  rw [keySetEtag, String.toList_append, String.toList_append]
  rfl

theorem IsTag.plain {tag : String} (htag : IsTag tag) : ∀ c ∈ tag.toList, c ≠ ',' ∧ Words.isSpace c = false := by
  obtain ⟨digest, htext, hhex⟩ := htag
  have hmark : Json.mark ≠ ',' ∧ Words.isSpace Json.mark = false := by decide
  intro c hc
  rw [htext, List.cons_append, List.mem_cons, List.mem_append, List.mem_singleton] at hc
  obtain rfl | hc | rfl := hc
  · exact hmark
  · obtain hdigit | ⟨hlow, hhigh⟩ := hhex c hc
    · exact ⟨Parsing.ne_of_isDigit hdigit (by decide), Parsing.isSpace_of_isDigit hdigit⟩
    · have hlow' : 97 ≤ c.val.toNat := hlow
      have hhigh' : c.val.toNat ≤ 102 := hhigh
      refine ⟨?_, Parsing.isSpace_eq_false (by omega) (by omega)⟩
      rintro rfl
      exact absurd hlow' (by decide)
  · exact hmark

theorem IsTag.eq_cons {tag : String} (htag : IsTag tag) : ∃ rest, tag.toList = Json.mark :: rest := by
  obtain ⟨digest, htext, -⟩ := htag
  exact ⟨digest.toList ++ [Json.mark], htext⟩

theorem IsTag.strip {tag : String} (htag : IsTag tag) : Parsing.strip tag.toList = tag.toList :=
  Parsing.strip_eq_self fun c hc => (htag.plain c hc).2

theorem validatorText_toList (weak : Bool) (tag : String) :
    (validatorText (weak, tag)).toList = (if weak then ['W', '/'] else []) ++ tag.toList := by
  cases weak with
  | true => exact String.toList_append
  | false => rfl

theorem validatorText_plain {weak : Bool} {tag : String} (htag : IsTag tag) :
    ∀ c ∈ (validatorText (weak, tag)).toList, c ≠ ',' ∧ Words.isSpace c = false := by
  have hweak : ∀ c ∈ ['W', '/'], c ≠ ',' ∧ Words.isSpace c = false := by
    intro c hc
    rw [List.mem_cons, List.mem_singleton] at hc
    obtain rfl | rfl := hc
    · decide
    · decide
  intro c hc
  rw [validatorText_toList, List.mem_append] at hc
  obtain hc | hc := hc
  · cases weak with
    | true => exact hweak c hc
    | false => cases hc
  · exact htag.plain c hc

/-- A tag is read out of its validator, weak or not, and a validator is not a wildcard. -/
theorem strongValidator_validatorText (weak : Bool) {tag : String} (htag : IsTag tag) :
    strongValidator (validatorText (weak, tag)).toList = tag.toList ∧
      (validatorText (weak, tag)).toList ≠ ['*'] := by
  obtain ⟨rest, htext⟩ := htag.eq_cons
  rw [validatorText_toList]
  cases weak with
  | true =>
      refine ⟨htag.strip, ?_⟩
      intro hstar
      cases hstar
  | false =>
      rw [if_neg Bool.false_ne_true, List.nil_append, htext]
      refine ⟨rfl, ?_⟩
      intro hstar
      cases hstar

theorem ifNoneMatchHeader_read {validators : List (Bool × String)} (hne : validators ≠ [])
    (htags : ∀ validator ∈ validators, IsTag validator.2) :
    ∃ header, truthy (ifNoneMatchHeader validators) = some header ∧
      (header.toList.splitOn ',').map Parsing.strip =
        validators.map fun validator => (validatorText validator).toList := by
  obtain ⟨first, rest, rfl⟩ := List.exists_cons_of_ne_nil hne
  have hread : (((", ".intercalate ((first :: rest).map validatorText)).toList.splitOn ',').map Parsing.strip) =
      ((first :: rest).map validatorText).map String.toList := by
    apply Parsing.split_comma (List.cons_ne_nil _ _)
    intro text hmem
    rw [← List.map_cons] at hmem
    obtain ⟨validator, hvalidator, rfl⟩ := List.mem_map.1 hmem
    exact validatorText_plain (htags validator hvalidator)
  rw [List.map_map] at hread
  refine ⟨_, truthy_eq_some.2 ⟨rfl, ?_⟩, hread⟩
  intro hempty
  rw [hempty, List.map_cons, String.toList_empty] at hread
  obtain ⟨hfirst, -⟩ := List.cons.inj hread
  obtain ⟨text, htext⟩ := (htags first List.mem_cons_self).eq_cons
  rw [Function.comp_apply, validatorText_toList first.1 first.2, htext] at hfirst
  have hlength := congrArg List.length hfirst
  simp [Parsing.strip] at hlength

/-- A request that names tags is matched by those tags and no others. -/
theorem matchesIfNoneMatch_validators {validators : List (Bool × String)} {etag : String}
    (htags : ∀ validator ∈ validators, IsTag validator.2) :
    matchesIfNoneMatch (ifNoneMatchHeader validators) etag = true ↔
      ∃ validator ∈ validators, validator.2 = etag := by
  by_cases hne : validators = []
  · subst hne
    simp [ifNoneMatchHeader, matchesIfNoneMatch, truthy]
  · obtain ⟨header, hheader, hread⟩ := ifNoneMatchHeader_read hne htags
    rw [matchesIfNoneMatch, hheader]
    simp only [hread, List.any_map, List.any_eq_true, Function.comp_apply, Bool.or_eq_true, beq_iff_eq]
    refine exists_congr fun validator => and_congr_right fun hmem => ?_
    obtain ⟨hstrong, hstar⟩ := strongValidator_validatorText validator.1 (htags validator hmem)
    rw [hstrong, String.toList_inj]
    exact or_iff_right hstar

/-! ### What a cache holds -/

/-- Every answer that is kept has one of the texts, under its tag. -/
def JwksCache.Keeps (publish : PublishTools κ) (texts : List String) (cache : JwksCache) : Prop :=
  ∀ etag text, cache.stored.lookup etag = some text → text ∈ texts ∧ etag = keySetEtag publish text

/-- What a poll of a service that publishes the keys comes to: the cache goes on with the text of these keys
and of no others, and was sent it unless it named an answer that holds it. -/
structure Revalidates (tools : KeyTools κ) (publish : PublishTools κ) (service : JwksService)
    (cache cache' : JwksCache) (validators : List (Bool × String)) (keys : List (Jwk κ)) : Prop where
  current : cache'.current = some (serializeKeySet publish keys)
  tells : ∀ settings keys', buildKeySet tools settings = .ok keys' →
    cache'.current = some (serializeKeySet publish keys') → keys' = keys
  notModified : ∀ response, jwksEndpoint publish tools service.settings service.jwksCacheTtlSeconds
      (ifNoneMatchHeader validators) = .ok response →
    (response.statusCode = 304 ↔
      ∃ validator ∈ validators, cache.stored.lookup validator.2 = some (serializeKeySet publish keys))

theorem keySetEtag_inj {body body' : String} (heq : keySetEtag publish body = keySetEtag publish body') :
    publish.sha256Hex body = publish.sha256Hex body' := by
  have htext := congrArg String.toList heq
  simpa [keySetEtag, String.toList_inj] using htext

section

variable {service : JwksService} {cache : JwksCache} {validators : List (Bool × String)} {texts : List String}
  {keys : List (Jwk κ)}

theorem JwksCache.Keeps.isTag (hpublish : publish.Lawful tools) (hkeeps : cache.Keeps publish texts)
    (hstored : (validators.all fun validator => (cache.stored.lookup validator.2).isSome) = true) :
    ∀ validator ∈ validators, IsTag validator.2 := by
  intro validator hmem
  obtain ⟨text, htext⟩ := Option.isSome_iff_exists.1 (List.all_eq_true.1 hstored validator hmem)
  rw [(hkeeps _ _ htext).2]
  exact isTag_keySetEtag hpublish text

/-- A tag that is kept is the present one exactly when it is kept for the present text. -/
theorem JwksCache.Keeps.etag_eq (hdigests : ∀ text ∈ texts, ∀ text' ∈ texts,
      publish.sha256Hex text = publish.sha256Hex text' → text = text')
    (hkeeps : cache.Keeps publish texts) {etag body : String} (hbody : body ∈ texts)
    (hstored : (cache.stored.lookup etag).isSome = true) :
    etag = keySetEtag publish body ↔ cache.stored.lookup etag = some body := by
  obtain ⟨text, htext⟩ := Option.isSome_iff_exists.1 hstored
  obtain ⟨hmem, htag⟩ := hkeeps etag text htext
  constructor
  · intro hetag
    rw [htext, hdigests text hmem body hbody (keySetEtag_inj (htag.symm.trans hetag))]
  · intro hfound
    rw [htext, Option.some.injEq] at hfound
    rw [htag, hfound]

theorem jwksEndpoint_of_keySet (publish : PublishTools κ)
    (hkeys : buildKeySet tools service.settings = .ok keys) (header : Option String) :
    ∃ response, jwksEndpoint publish tools service.settings service.jwksCacheTtlSeconds header = .ok response ∧
      response.etag = keySetEtag publish (serializeKeySet publish keys) ∧
      ((matchesIfNoneMatch header response.etag = true ∧ response.statusCode = 304 ∧ response.content = none) ∨
        (matchesIfNoneMatch header response.etag = false ∧ response.statusCode = 200 ∧
          response.content = some (serializeKeySet publish keys))) := by
  simp only [jwksEndpoint, hkeys]
  cases hmatch : matchesIfNoneMatch header (keySetEtag publish (serializeKeySet publish keys)) with
  | true => exact ⟨_, if_pos hmatch, rfl, .inl ⟨hmatch, rfl, rfl⟩⟩
  | false =>
      refine ⟨_, if_neg ?_, rfl, .inr ⟨hmatch, rfl, rfl⟩⟩
      rw [hmatch]
      exact Bool.false_ne_true

theorem poll_revalidates (hpublish : publish.Lawful tools) (hdigests : ∀ text ∈ texts, ∀ text' ∈ texts,
      publish.sha256Hex text = publish.sha256Hex text' → text = text')
    (hkeeps : cache.Keeps publish texts) (hkeys : buildKeySet tools service.settings = .ok keys)
    (hbody : serializeKeySet publish keys ∈ texts) {service' : JwksService} {cache' : JwksCache}
    (hstep : jwksStep tools publish service cache (.poll validators) = some (service', cache')) :
    Revalidates tools publish service cache cache' validators keys ∧ cache'.Keeps publish texts := by
  obtain ⟨response, hresponse, hetag, hanswer⟩ :=
    jwksEndpoint_of_keySet publish hkeys (ifNoneMatchHeader validators)
  rw [jwksStep] at hstep
  split at hstep
  · next hstored =>
      simp only [hresponse, Option.some.injEq, Prod.mk.injEq] at hstep
      obtain ⟨-, rfl⟩ := hstep
      have hmatches : matchesIfNoneMatch (ifNoneMatchHeader validators) response.etag = true ↔
          ∃ validator ∈ validators, cache.stored.lookup validator.2 = some (serializeKeySet publish keys) := by
        rw [matchesIfNoneMatch_validators (hkeeps.isTag hpublish hstored), hetag]
        refine exists_congr fun validator => and_congr_right fun hmem => ?_
        exact hkeeps.etag_eq hdigests hbody (List.all_eq_true.1 hstored validator hmem)
      have hcurrent : (cache.receive response).current = some (serializeKeySet publish keys) := by
        obtain ⟨hmatch, -, hcontent⟩ | ⟨-, -, hcontent⟩ := hanswer
        · obtain ⟨validator, hmem, hfound⟩ := hmatches.1 hmatch
          have hsame := (hkeeps validator.2 _ hfound).2
          simp only [JwksCache.receive, hcontent]
          rw [hetag, ← hsame, hfound]
        · simp only [JwksCache.receive, hcontent]
      refine ⟨⟨hcurrent, ?_, ?_⟩, ?_⟩
      · intro settings keys' hkeys' hcurrent'
        rw [hcurrent, Option.some.injEq] at hcurrent'
        exact serializeKeySet_inj hpublish (buildKeySet_supported hkeys') (buildKeySet_supported hkeys)
          hcurrent'.symm
      · intro response' hresponse'
        obtain rfl := Except.ok.inj (hresponse.symm.trans hresponse')
        rw [← hmatches]
        obtain ⟨hmatch, hstatus, -⟩ | ⟨hmatch, hstatus, -⟩ := hanswer
        · simp [hmatch, hstatus]
        · simp [hmatch, hstatus]
      · obtain ⟨-, -, hcontent⟩ | ⟨-, -, hcontent⟩ := hanswer
        · simp only [JwksCache.receive, hcontent]
          exact hkeeps
        · intro etag text hfound
          simp only [JwksCache.receive, hcontent] at hfound
          rw [Table.lookup_insert_eq] at hfound
          split at hfound
          · next htag =>
              obtain rfl := Option.some.inj hfound
              exact ⟨hbody, htag.trans hetag⟩
          · exact hkeeps etag text hfound
  · cases hstep

theorem poll_service {service' : JwksService} {cache' : JwksCache}
    (hstep : jwksStep tools publish service cache (.poll validators) = some (service', cache')) :
    service' = service := by
  rw [jwksStep] at hstep
  split at hstep
  · split at hstep
    · exact (Prod.mk.inj (Option.some.inj hstep)).1.symm
    · exact (Prod.mk.inj (Option.some.inj hstep)).1.symm
  · cases hstep

theorem poll_failed {e : KeyError} (hfailed : buildKeySet tools service.settings = .error e)
    {service' : JwksService} {cache' : JwksCache}
    (hstep : jwksStep tools publish service cache (.poll validators) = some (service', cache')) :
    cache' = cache := by
  have herror (header : Option String) : jwksEndpoint publish tools service.settings
      service.jwksCacheTtlSeconds header = .error e := by
    simp only [jwksEndpoint, hfailed]
    rfl
  rw [jwksStep] at hstep
  split at hstep
  · simp only [herror, Option.some.injEq, Prod.mk.injEq] at hstep
    exact hstep.2.symm
  · cases hstep

end

theorem serializeKeySet_mem_publishedTexts (publish : PublishTools κ) {services : List JwksService} {service : JwksService}
    {keys : List (Jwk κ)} (hservice : service ∈ services)
    (hkeys : buildKeySet tools service.settings = .ok keys) :
    serializeKeySet publish keys ∈ publishedTexts tools publish services := by
  rw [publishedTexts, List.mem_filterMap]
  exact ⟨service, hservice, by rw [hkeys]; rfl⟩

section

variable {services : List JwksService} {c c' : Interleaving.Config JwksService JwksCache}

/-- The present service is one of a list, and every cache keeps texts that these services publish. -/
def KeepsPublished (tools : KeyTools κ) (publish : PublishTools κ) (services : List JwksService) :
    Interleaving.Config JwksService JwksCache → Prop :=
  Interleaving.Asserted (· ∈ services) fun _ _ cache => cache.Keeps publish (publishedTexts tools publish services)

theorem keySets_step (hpublish : publish.Lawful tools)
    (hdigests : ∀ text ∈ publishedTexts tools publish services, ∀ text' ∈ publishedTexts tools publish services,
      publish.sha256Hex text = publish.sha256Hex text' → text = text')
    {move : Nat × JwksAction} (hkeeps : KeepsPublished tools publish services c)
    (hnext : (keySets tools publish).next c move = some c')
    (hdeploys : ∀ service, move.2 = .deploy service → service ∈ services) :
    (∀ validators, move.2 = .poll validators → ∀ keys, buildKeySet tools c.shared.settings = .ok keys →
      Revalidates tools publish c.shared (c.locals move.1) (c'.locals move.1) validators keys) ∧
      KeepsPublished tools publish services c' := by
  have hstep := Interleaving.System.step_of_next hnext
  have hothers (q : Nat) := hkeeps.locals q
  obtain ⟨p, action⟩ := move
  cases action with
  | deploy service =>
      obtain ⟨hservice, hcache⟩ := Prod.mk.inj (Option.some.inj hstep)
      constructor
      · intro _ hpoll
        cases hpoll
      · apply Interleaving.Asserted.moved hnext
        · exact hservice ▸ hdeploys service rfl
        · exact hcache ▸ hothers p
        · exact fun q _ => hothers q
  | poll validators =>
      have hshared : c'.shared = c.shared := poll_service hstep
      cases hkeys : buildKeySet tools c.shared.settings with
      | error e =>
          constructor
          · intro _ _ _ hok
            cases hok
          · apply Interleaving.Asserted.moved hnext
            · exact hshared ▸ hkeeps.shared
            · exact poll_failed hkeys hstep ▸ hothers p
            · exact fun q _ => hothers q
      | ok keys =>
          have hbody := serializeKeySet_mem_publishedTexts publish hkeeps.shared hkeys
          obtain ⟨hrevalidates, hafter⟩ :=
            poll_revalidates hpublish hdigests (hothers p) hkeys hbody hstep
          constructor
          · intro validators' hpoll keys' hkeys'
            obtain rfl := JwksAction.poll.inj hpoll
            obtain rfl := Except.ok.inj hkeys'
            exact hrevalidates
          · apply Interleaving.Asserted.moved hnext
            · exact hshared ▸ hkeeps.shared
            · exact hafter
            · exact fun q _ => hothers q

end

/-- After every poll of every run the cache goes on with the text of the present keys and of no others, where
the texts published in the run have different digests. -/
theorem jwks_caches_revalidate (hpublish : publish.Lawful tools)
    {c : Interleaving.Config JwksService JwksCache} (hstart : ∀ p, c.locals p = {})
    {schedule : List (Nat × JwksAction)}
    (hdigests : ∀ text ∈ publishedTexts tools publish (c.shared :: deployed schedule),
      ∀ text' ∈ publishedTexts tools publish (c.shared :: deployed schedule),
        publish.sha256Hex text = publish.sha256Hex text' → text = text') :
    (keySets tools publish).Along (fun c move c' => ∀ validators, move.2 = .poll validators →
      ∀ keys, buildKeySet tools c.shared.settings = .ok keys →
        Revalidates tools publish c.shared (c.locals move.1) (c'.locals move.1) validators keys) c schedule := by
  have hdeploys : (keySets tools publish).Along (fun _ move _ => ∀ service, move.2 = .deploy service →
      service ∈ c.shared :: deployed schedule) c schedule := by
    apply Interleaving.System.along_of_mem
    intro move hmem _ _ service hdeploy
    exact List.mem_cons_of_mem _ (List.mem_filterMap.2 ⟨move, hmem, by rw [hdeploy]⟩)
  have hkeeps : KeepsPublished tools publish (c.shared :: deployed schedule) c := by
    refine ⟨List.mem_cons_self, fun p etag text hfound => ?_⟩
    rw [hstart p] at hfound
    cases hfound
  refine Interleaving.System.along_of_guarded (fun _ _ _ hkeeps hnext hdeploys => ?_) hkeeps hdeploys
  exact keySets_step hpublish hdigests hkeeps hnext hdeploys

end

/-! ### A rollback -/

def KeyPair.modulus : KeyPair → String
  | .spring => "sLvQ5w"
  | .autumn => "u3Xk9Q"

theorem KeyPair.modulus_injective : Function.Injective KeyPair.modulus := by
  have hdiffers : KeyPair.spring.modulus ≠ KeyPair.autumn.modulus := by decide
  intro key key' hsame
  cases key with
  | spring => cases key' with
    | spring => rfl
    | autumn => exact absurd hsame hdiffers
  | autumn => cases key' with
    | spring => exact absurd hsame.symm hdiffers
    | autumn => rfl

/-- The members of a small RSA key. -/
def KeyPair.toJwk (pair : KeyPair) : Table String Json.Value :=
  let members : Table String Json.Value := AList.insert "e" (.string "AQAB") ∅
  ((members.insert "n" (.string pair.modulus)).insert "key_ops" (.array [.string "verify"])).insert "kty"
    (.string "RSA")

def springText : String := "\x7b\"keys\":[\x7b\"alg\":\"RS256\",\"e\":\"AQAB\",\"key_ops\":[\"verify\"]," ++
  "\"kid\":\"1f0e9d8c7b6a5948\",\"kty\":\"RSA\",\"n\":\"sLvQ5w\",\"use\":\"sig\"\x7d]\x7d"

def springDigest : String := "14ee21c8098e417f441bac4bfe46feedfdc6b0fccb4750818d9592d5a4f9745d"

def autumnDigest : String := "5ad05303d4ba9ada565001732a654a6e4222d0db2c920c2e7a14b6bfdad8cfb9"

def pemPublish : PublishTools KeyPair where
  toJwk := KeyPair.toJwk
  sha256Hex text := if text = springText then springDigest else autumnDigest

def pemService (settings : LoadedKeySettings) : JwksService where
  settings := settings
  jwksCacheTtlSeconds := 300

theorem pemPublish_lawful : pemPublish.Lawful pemTools where
  sha256Hex_hex text c hc := by
    have hall : (pemPublish.sha256Hex text).toList.all (fun c => c.isDigit || ('a' ≤ c && c ≤ 'f')) = true := by
      show (if text = springText then springDigest else autumnDigest).toList.all _ = true
      split
      · decide +kernel
      · decide +kernel
    simpa using List.all_eq_true.1 hall c hc
  flat key name value hfound := by
    have hlookup : (KeyPair.toJwk key).lookup name = some value := hfound
    simp only [KeyPair.toJwk, Table.lookup_insert_eq] at hlookup
    split at hlookup
    · obtain rfl := Option.some.inj hlookup
      rfl
    split at hlookup
    · obtain rfl := Option.some.inj hlookup
      rfl
    split at hlookup
    · obtain rfl := Option.some.inj hlookup
      rfl
    split at hlookup
    · obtain rfl := Option.some.inj hlookup
      rfl
    · cases hlookup
  own key name hname := by
    have hown : ∀ name ∈ ["use", "alg", "kid"], (KeyPair.toJwk key).lookup name = none := by
      intro name hname
      rw [← Option.not_isSome_iff_eq_none]
      revert name
      cases key with
      | spring => decide +kernel
      | autumn => decide +kernel
    exact hown name hname
  tells key key' _ _ hsame := by
    have hmodulus : some (Json.Value.string key.modulus) = some (.string key'.modulus) := hsame "n"
    rw [Option.some.injEq, Json.Value.string.injEq] at hmodulus
    exact KeyPair.modulus_injective hmodulus

def springTag : String := keySetEtag pemPublish springText

/-- The autumn key is deployed and taken back between polls of one cache. -/
def rollback : List (Nat × JwksAction) :=
  [(0, .poll []), (0, .poll [(true, springTag)]), (1, .deploy (pemService autumnSettings)),
    (0, .poll [(true, springTag)]), (1, .deploy (pemService springSettings)),
    (0, .poll [(false, "\"" ++ autumnDigest ++ "\""), (true, springTag)])]

def beforeRollback : Interleaving.Config JwksService JwksCache where
  shared := pemService springSettings
  locals _ := {}

theorem jwks_caches_revalidate_rollback :
    (keySets pemTools pemPublish).Along (fun c move c' => ∀ validators, move.2 = .poll validators →
      ∀ keys, buildKeySet pemTools c.shared.settings = .ok keys →
        Revalidates pemTools pemPublish c.shared (c.locals move.1) (c'.locals move.1) validators keys)
      beforeRollback rollback ∧
      ((keySets pemTools pemPublish).run beforeRollback rollback).map (fun c => (c.locals 0).current) =
        some (some springText) := by
  refine ⟨jwks_caches_revalidate pemPublish_lawful (fun _ => rfl) ?_, by decide +kernel⟩
  decide +kernel

end FaAuthM8

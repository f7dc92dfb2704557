import FaAuthM8.Lib.Interleaving
import FaAuthM8.Routes.Jwks

/-!
# Revalidating the key set

The service is deployed with one configuration after another, while any number of caches poll the endpoint. A
cache keeps every text it was answered under its entity tag. It sends back any of the tags it has, some of
them as weak ones, and goes on with the text of the answer, or with the one it keeps under the tag of the
answer where there is no text.
-/

namespace FaAuthM8

structure JwksService where
  settings : LoadedKeySettings
  jwksCacheTtlSeconds : Int
deriving DecidableEq, Repr

structure JwksCache where
  stored : Table String String := ∅
  current : Option String := none

inductive JwksAction
  | deploy (service : JwksService)
  /-- The tags that are sent back, and whether each of them is sent as a weak one. -/
  | poll (validators : List (Bool × String))
deriving DecidableEq, Repr

def validatorText (validator : Bool × String) : String :=
  if validator.1 then "W/" ++ validator.2 else validator.2

def ifNoneMatchHeader (validators : List (Bool × String)) : Option String :=
  if validators.isEmpty then none else some (", ".intercalate (validators.map validatorText))

def JwksCache.receive (cache : JwksCache) (response : JwksResponse) : JwksCache :=
  match response.content with
  | some content => { stored := cache.stored.insert response.etag content, current := some content }
  | none => { cache with current := cache.stored.lookup response.etag }

section

variable {κ : Type} (tools : KeyTools κ) (publish : PublishTools κ)

/-- A poll that fails leaves the cache as it is. -/
def jwksStep (service : JwksService) (cache : JwksCache) : JwksAction → Option (JwksService × JwksCache)
  | .deploy next => some (next, cache)
  | .poll validators =>
      if validators.all fun validator => (cache.stored.lookup validator.2).isSome then
        match jwksEndpoint publish tools service.settings service.jwksCacheTtlSeconds
            (ifNoneMatchHeader validators) with
        | .ok response => some (service, cache.receive response)
        | .error _ => some (service, cache)
      else none

def keySets : Interleaving.System JwksService JwksCache JwksAction where
  step _ := jwksStep tools publish

def publishedTexts (services : List JwksService) : List String :=
  services.filterMap fun service => (buildKeySet tools service.settings).toOption.map (serializeKeySet publish)

end

def deployed (schedule : List (Nat × JwksAction)) : List JwksService :=
  schedule.filterMap fun move =>
    match move.2 with
    | .deploy service => some service
    | .poll _ => none

end FaAuthM8

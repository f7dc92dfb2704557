import FaAuthM8.Core.KeyIds
import FaAuthM8.Lib.Json

/-!
# Signing and publishing keys

A signed access token names its key in its header, by the configured identifier as it stands or else by the
fingerprint of the public key. The published set has the current key first and, during a rotation, the
previous one. Its text has the members of every object sorted, and its entity tag is the digest of the text; a
request that names the tag is answered without the text.
-/

namespace FaAuthM8

/-- A published key; its `use` is always `sig`. -/
structure Jwk (κ : Type) where
  key : κ
  alg : String
  kid : String
deriving DecidableEq, Repr

section

variable {κ : Type} (tools : KeyTools κ) (settings : LoadedKeySettings)

def resolveKid : Except KeyError (Option String) :=
  if !tools.isAsymmetric settings.accessTokenAlgorithm then .ok none
  else
    match truthy settings.accessKeyId with
    | some explicit => .ok (some explicit)
    | none => (deriveKid tools (settings.accessPublicKey.getD "")).map some

/-- The `kid` header of a token that is signed by an asymmetric algorithm. -/
def signAccessToken : Except KeyError (Option String) :=
  match truthy settings.accessPrivateKey with
  | none => .error (.privateKeyRequired settings.accessTokenAlgorithm)
  | some privatePem => do
      let kid ← resolveKid tools settings
      if tools.encodes settings.accessTokenAlgorithm privatePem then .ok (truthy kid)
      else .error .notSigned

def buildJwk (publicKeyPem kid : String) : Except KeyError (Jwk κ) :=
  match tools.loadPemPublicKey publicKeyPem with
  | none => .error .unparsableKey
  | some key =>
      if tools.kind key = expectedKind settings.accessTokenAlgorithm then
        .ok { key, alg := settings.accessTokenAlgorithm, kid }
      else .error (.notOfAlgorithm settings.accessTokenAlgorithm)

/-- The previous key, under the identifier configured for it or its fingerprint. -/
def buildOldJwk (oldPem : String) : Except KeyError (Jwk κ) := do
  let kid ←
    match stripped settings.accessKeyIdOld with
    | some oldKid => pure oldKid
    | none => deriveKid tools oldPem
  buildJwk tools settings oldPem kid

def buildKeySet : Except KeyError (List (Jwk κ)) :=
  match tools.isAsymmetric settings.accessTokenAlgorithm, truthy settings.accessPublicKey with
  | true, some publicPem => do
      let kid ← resolveKid tools settings
      let current ← buildJwk tools settings publicPem (kid.getD "")
      match truthy settings.accessPublicKeyOld with
      | none => return [current]
      | some oldPem => return [current, ← buildOldJwk tools settings oldPem]
  | _, _ => .ok []

end

/-- What is used of the libraries that write a key and hash a text. -/
structure PublishTools (κ : Type) where
  /-- The members of a public key as a JSON Web Key. -/
  toJwk : κ → Table String Json.Value
  /-- The SHA-256 digest of the UTF-8 encoding, in hexadecimal. -/
  sha256Hex : String → String

structure JwksResponse where
  statusCode : Nat := 200
  cacheControl : String
  etag : String
  content : Option String := none
deriving DecidableEq, Repr

section

variable {κ : Type} (publish : PublishTools κ)

def Jwk.members (jwk : Jwk κ) : Table String Json.Value :=
  (((publish.toJwk jwk.key).insert "use" (.string "sig")).insert "alg" (.string jwk.alg)).insert "kid"
    (.string jwk.kid)

def serializeKeySet (keys : List (Jwk κ)) : String :=
  let keySet : Json.Value := .object [("keys", .array (keys.map fun jwk => .dict (jwk.members publish)))]
  String.ofList (Json.dumps keySet)

def keySetEtag (body : String) : String := "\"" ++ publish.sha256Hex body ++ "\""

/-- A validator that is sent back as a weak one still matches. -/
def strongValidator (candidate : List Char) : List Char :=
  match candidate with
  | 'W' :: '/' :: rest => Parsing.strip rest
  | 'w' :: '/' :: rest => Parsing.strip rest
  | _ => candidate

def matchesIfNoneMatch (header : Option String) (etag : String) : Bool :=
  match truthy header with
  | none => false
  | some header =>
      ((header.toList.splitOn ',').map Parsing.strip).any fun candidate =>
        candidate == ['*'] || strongValidator candidate == etag.toList

def jwksEndpoint (tools : KeyTools κ) (settings : LoadedKeySettings) (jwksCacheTtlSeconds : Int)
    (ifNoneMatch : Option String) : Except KeyError JwksResponse := do
  let keys ← buildKeySet tools settings
  let body := serializeKeySet publish keys
  let etag := keySetEtag publish body
  let cacheControl := "public, max-age=" ++ toString (max 0 jwksCacheTtlSeconds)
  if matchesIfNoneMatch ifNoneMatch etag then return { statusCode := 304, cacheControl, etag }
  else return { cacheControl, etag, content := some body }

end

end FaAuthM8

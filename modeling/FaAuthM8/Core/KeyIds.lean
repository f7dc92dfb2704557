import FaAuthM8.Lib.Parsing

/-!
# Key identifiers

A published key is named by its `kid`, the fingerprint of its DER encoding. Where the settings name a `kid`
themselves, the validators compare it, stripped, with the fingerprint of the key it labels; an emergency
switch downgrades a mismatch to a warning. What can never be published is refused whatever the switch says.
-/

namespace FaAuthM8

inductive KeyKind
  | rsa
  | ec
  | unsupported
deriving DecidableEq, Repr

/-- What is used of the libraries that handle keys and of the file system. -/
structure KeyTools (κ : Type) where
  /-- Membership in `ASYMMETRIC_ALGORITHMS`. -/
  isAsymmetric : String → Bool
  loadPemPublicKey : String → Option κ
  kind : κ → KeyKind
  /-- The first digits of the SHA-256 digest of the DER encoding. -/
  fingerprint : κ → String
  /-- A token can be signed by an algorithm with a private key. -/
  encodes : String → String → Bool
  readText : String → Option String

/-- A fingerprint is 16 hexadecimal digits, and a PEM text is read whatever whitespace surrounds it. -/
structure KeyTools.Lawful {κ : Type} (tools : KeyTools κ) : Prop where
  fingerprint_hex : ∀ key, ∀ c ∈ (tools.fingerprint key).toList, c.isDigit = true ∨ ('a' ≤ c ∧ c ≤ 'f')
  fingerprint_length : ∀ key, (tools.fingerprint key).length = 16
  load_empty : tools.loadPemPublicKey "" = none
  load_strip : ∀ pem, tools.loadPemPublicKey (String.ofList (Parsing.strip pem.toList)) = tools.loadPemPublicKey pem

/-- A `kid` that is not the fingerprint of its key. -/
structure KidProblem where
  setting : String
  configured : String
  expected : String
deriving DecidableEq, Repr

inductive KeyError
  | emptyKey
  | unparsableKey
  /-- The key cannot be written as a JWK of the algorithm. -/
  | notOfAlgorithm (algo : String)
  | oldKeyFileNotFound (path : String)
  | oldPairUnderSymmetric (algo : String)
  /-- `ACCESS_KEY_ID_OLD` is set without `ACCESS_PUBLIC_KEY_OLD_FILE`. -/
  | oldKidWithoutKey
  | oldKeyKind (kind expected : KeyKind)
  /-- Both files hold the same key. -/
  | sameKey
  | unbound (problems : List KidProblem)
  | privateKeyRequired (algo : String)
  /-- `jwt.encode` refuses the private key. -/
  | notSigned
deriving DecidableEq, Repr

structure KeySettings where
  accessTokenAlgorithm : String
  accessPrivateKey : Option String := none
  accessPublicKey : Option String := none
  accessKeyId : Option String := none
  accessKeyIdAllowUnbound : Bool := false
  accessPublicKeyOldFile : Option String := none
  accessKeyIdOld : Option String := none
deriving DecidableEq, Repr

/-- The settings with the previous public key as it was read. -/
structure LoadedKeySettings extends KeySettings where
  accessPublicKeyOld : Option String
deriving DecidableEq, Repr

/-- The value of a setting that is neither unset nor empty. -/
def truthy (setting : Option String) : Option String := setting.filter (· ≠ "")

/-- `(setting or "").strip()`, where that is not empty. -/
def stripped (setting : Option String) : Option String :=
  truthy (setting.map fun text => String.ofList (Parsing.strip text.toList))

def expectedKind (algo : String) : KeyKind :=
  if algo.startsWith "ES" then .ec else .rsa

section

variable {κ : Type} (tools : KeyTools κ)

def loadPublicKey (publicPem : String) : Except KeyError κ :=
  match stripped (some publicPem) with
  | none => .error .emptyKey
  | some pem =>
      match tools.loadPemPublicKey pem with
      | none => .error .unparsableKey
      | some key => .ok key

def publicKeyKind (publicPem : String) : Except KeyError KeyKind :=
  (loadPublicKey tools publicPem).map tools.kind

def deriveKid (publicPem : String) : Except KeyError String :=
  (loadPublicKey tools publicPem).map tools.fingerprint

def loadOldPublicKeyFile (settings : KeySettings) : Except KeyError LoadedKeySettings :=
  match truthy settings.accessPublicKeyOldFile with
  | none => .ok { settings with accessPublicKeyOld := none }
  | some path =>
      match tools.readText path with
      | none => .error (.oldKeyFileNotFound path)
      | some text => .ok { settings with accessPublicKeyOld := some (String.ofList (Parsing.strip text.toList)) }

def rejectOldKeyPairUnderSymmetric (settings : LoadedKeySettings) : Except KeyError Unit :=
  if (truthy settings.accessPublicKeyOld).isSome || (truthy settings.accessKeyIdOld).isSome then
    .error (.oldPairUnderSymmetric settings.accessTokenAlgorithm)
  else .ok ()

/-- The switch does not cover these. -/
def rejectStructuralOldKeyErrors (settings : LoadedKeySettings) : Except KeyError Unit :=
  match truthy settings.accessPublicKeyOld with
  | none => if (truthy settings.accessKeyIdOld).isSome then .error .oldKidWithoutKey else .ok ()
  | some oldPem => do
      let oldKind ← publicKeyKind tools oldPem
      if oldKind ≠ expectedKind settings.accessTokenAlgorithm then
        .error (.oldKeyKind oldKind (expectedKind settings.accessTokenAlgorithm))
      else
        match truthy settings.accessPublicKey with
        | none => .ok ()
        | some publicPem => do
            let kid ← deriveKid tools publicPem
            let oldKid ← deriveKid tools oldPem
            if kid = oldKid then .error .sameKey else .ok ()

def kidProblem (setting : String) (pem configured : Option String) : Except KeyError (List KidProblem) :=
  match truthy pem, stripped configured with
  | some pem, some configured =>
      (deriveKid tools pem).map fun expected =>
        if configured ≠ expected then [{ setting, configured, expected }] else []
  | _, _ => .ok []

def kidBindingProblems (settings : LoadedKeySettings) : Except KeyError (List KidProblem) := do
  let current ← kidProblem tools "ACCESS_KEY_ID" settings.accessPublicKey settings.accessKeyId
  let old ← kidProblem tools "ACCESS_KEY_ID_OLD" settings.accessPublicKeyOld settings.accessKeyIdOld
  return current ++ old

/-- What it returns is the warning the switch leaves. -/
def validateAccessKeyIdBinding (settings : LoadedKeySettings) : Except KeyError (List KidProblem) :=
  if !tools.isAsymmetric settings.accessTokenAlgorithm then do
    rejectOldKeyPairUnderSymmetric settings
    return []
  else do
    rejectStructuralOldKeyErrors tools settings
    let problems ← kidBindingProblems tools settings
    if problems.isEmpty || settings.accessKeyIdAllowUnbound then .ok problems
    else .error (.unbound problems)

/-- The settings the service starts with: the validators run in this order. -/
def loadKeySettings (settings : KeySettings) : Except KeyError LoadedKeySettings := do
  let loaded ← loadOldPublicKeyFile tools settings
  let _ ← validateAccessKeyIdBinding tools loaded
  return loaded

end

end FaAuthM8

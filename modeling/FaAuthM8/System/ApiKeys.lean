import FaAuthM8.Lib.Interleaving
import FaAuthM8.Services.ApiKeys

/-!
# Creating, revoking and binding API keys

Each process serves one request at a time: the creation or the revocation of a key, or the operator's
command that binds audiences to one. A request reads in one step and commits in another, so others may
commit in between; a commit stores all of its rows or none. Each request carries the consumers its process
is configured with. What was committed is recorded, newest first, and no step reads it.
-/

namespace FaAuthM8

/-- A request to `create_api_key`, by an authenticated user. -/
structure CreateApiKey where
  userId : UserId
  consumers : PrivateApiConsumers := ∅
  audiences : Option (List String) := none
  ttlHours : Nat := 24
  ttlHours_pos : 0 < ttlHours := by decide
  accessMode : ApiKeyAccessMode := .readOnly

/-- A request to `revoke_api_key`, or to `admin_revoke_api_key`, which asks for no owner. -/
structure RevokeApiKey where
  keyId : Uuid
  owner : Option UserId
deriving DecidableEq, Repr

structure BindAudiences where
  keyId : Uuid
  consumers : PrivateApiConsumers
  audiences : List String

inductive KeyRequest
  | create (r : CreateApiKey)
  | revoke (r : RevokeApiKey)
  | bind (r : BindAudiences)

inductive KeyResult
  | created (id : Uuid) (audiences : List String)
  | revoked
  | bound (audiences : List String)
  | http (exception : HttpException)
  | keyError
  | audienceError (error : ApiKeyAudienceError)
  /-- A statement or the commit failed, or the process died. -/
  | failed
deriving DecidableEq, Repr

/-- The point a creation has reached, with what it has read; `seen` is how many keys of the user had been
created when it counted. -/
inductive CreatePhase
  | validate
  | count (now : Int) (audiences : List String)
  | generate (audiences : List String) (seen : Nat)
  | commit (id : Uuid) (key : ApiKey) (seen : Nat)
deriving DecidableEq, Repr

inductive RevokePhase
  | load
  | commit
deriving DecidableEq, Repr

inductive BindPhase
  | load
  | read
  | commit (normalized : List String)
deriving DecidableEq, Repr

inductive KeyLocal
  | idle
  | creating (r : CreateApiKey) (phase : CreatePhase)
  | revoking (r : RevokeApiKey) (phase : RevokePhase)
  | binding (r : BindAudiences) (phase : BindPhase)
  | done (result : KeyResult)

/-- How the last request of a process that is free ended. -/
def KeyLocal.result : KeyLocal → Option KeyResult
  | .done result => some result
  | _ => none

inductive KeyAction
  | begin (request : KeyRequest)
  | proceed
  /-- The identifier and the hash of a new key. -/
  | generate (id : Uuid) (keyHash : String)
  | abort
  | tick (now : Int)

inductive KeyEvent
  | created (userId : UserId) (id : Uuid) (consumers : PrivateApiConsumers) (audiences : List String)
  | bound (id : Uuid) (consumers : PrivateApiConsumers) (audiences : List String)

structure KeyWorld where
  apiKeys : Table Uuid ApiKey := ∅
  now : Int := 0
  log : List KeyEvent := []

/-- Unrevoked and unexpired. -/
def ApiKey.isLive (now : Int) (key : ApiKey) : Bool :=
  !key.revoked && key.expiresAt.all (now ≤ ·)

def KeyEvent.creates (userId : UserId) : KeyEvent → Bool
  | .created owner _ _ _ => owner == userId
  | .bound .. => false

namespace KeyWorld

/-- The count of `create_api_key`. -/
def activeCount (w : KeyWorld) (userId : UserId) (now : Int) : Nat :=
  (w.apiKeys.rows fun _ key => key.userId == userId && key.isLive now).length

/-- How many keys of the user have been created. -/
def creations (w : KeyWorld) (userId : UserId) : Nat :=
  w.log.countP (·.creates userId)

/-- No stored row has the identifier or the hash. -/
def storable (w : KeyWorld) (id : Uuid) (key : ApiKey) : Bool :=
  (w.apiKeys.lookup id).isNone && (w.apiKeys.first fun _ other => other.keyHash == key.keyHash).isNone

def create (w : KeyWorld) (consumers : PrivateApiConsumers) (id : Uuid) (key : ApiKey) : KeyWorld :=
  { w with
    apiKeys := AList.insert id key w.apiKeys
    log := .created key.userId id consumers key.audiences :: w.log }

def revoke (w : KeyWorld) (id : Uuid) (key : ApiKey) : KeyWorld :=
  { w with apiKeys := AList.insert id { key with revoked := true } w.apiKeys }

/-- Adds the rows of the audiences to those of the key. -/
def bind (w : KeyWorld) (consumers : PrivateApiConsumers) (id : Uuid) (key : ApiKey)
    (audiences : List String) : KeyWorld :=
  { w with
    apiKeys := AList.insert id { key with audiences := key.audiences ++ audiences } w.apiKeys
    log := .bound id consumers audiences :: w.log }

end KeyWorld

def maximumReached (caps : ApiKeyCaps) : HttpException where
  statusCode := 409
  detail := "Maximum of " ++ toString caps.apiKeyMaxPerUser ++ " active API keys reached. " ++
    "Revoke an existing key before creating a new one."

def apiKeyNotFound : HttpException where
  statusCode := 404
  detail := "API key not found"

def apiKeyAlreadyRevoked : HttpException where
  statusCode := 409
  detail := "API key is already revoked"

def invalidAudiences (error : ApiKeyAudienceError) : HttpException where
  statusCode := 409
  detail := error.message

namespace CreateApiKey

/-- The audiences of a creation; none are validated when none are requested. -/
def validate (r : CreateApiKey) (caps : ApiKeyCaps) : Except ApiKeyAudienceError (List String) :=
  match r.audiences with
  | none => .ok []
  | some [] => .ok []
  | some audiences => ApiKeyService.validateAudiences caps r.consumers audiences

def key (r : CreateApiKey) (keyHash : String) (now : Int) (audiences : List String) : ApiKey where
  keyHash := keyHash
  userId := r.userId
  expiresAt := some (now + r.ttlHours * 3600 * second)
  accessMode := r.accessMode
  audiences := audiences

def step (r : CreateApiKey) (caps : ApiKeyCaps) (w : KeyWorld) :
    CreatePhase → KeyAction → Option (KeyWorld × KeyLocal)
  | .validate, .proceed =>
      match r.validate caps with
      | .error e => some (w, .done (.http (invalidAudiences e)))
      | .ok audiences => some (w, .creating r (.count w.now audiences))
  | .count now audiences, .proceed =>
      if caps.apiKeyMaxPerUser ≤ w.activeCount r.userId now then
        some (w, .done (.http (maximumReached caps)))
      else
        some (w, .creating r (.generate audiences (w.creations r.userId)))
  | .generate audiences seen, .generate id keyHash =>
      some (w, .creating r (.commit id (r.key keyHash w.now audiences) seen))
  | .commit id key _, .proceed =>
      if w.storable id key then some (w.create r.consumers id key, .done (.created id key.audiences))
      else some (w, .done .failed)
  | _, _ => none

end CreateApiKey

/-- `revoke_api_key` and `admin_revoke_api_key` -/
def RevokeApiKey.step (r : RevokeApiKey) (w : KeyWorld) : RevokePhase → Option (KeyWorld × KeyLocal)
  | .load =>
      match w.apiKeys.lookup r.keyId with
      | none => some (w, .done (.http apiKeyNotFound))
      | some key =>
          if r.owner.any (key.userId ≠ ·) then some (w, .done (.http apiKeyNotFound))
          else if key.revoked then some (w, .done (.http apiKeyAlreadyRevoked))
          else some (w, .revoking r .commit)
  | .commit =>
      match w.apiKeys.lookup r.keyId with
      | none => some (w, .done .failed)
      | some key => some (w.revoke r.keyId key, .done .revoked)

/-- `bind_audiences`. The rows to bind are only added, so the commit fails when one of them exists. -/
def BindAudiences.step (r : BindAudiences) (caps : ApiKeyCaps) (w : KeyWorld) :
    BindPhase → Option (KeyWorld × KeyLocal)
  | .load =>
      match w.apiKeys.lookup r.keyId with
      | none => some (w, .done .keyError)
      | some _ => some (w, .binding r .read)
  | .read =>
      let current := ((w.apiKeys.lookup r.keyId).map (·.audiences)).getD []
      match ApiKeyService.bindExistingKeyAudiences caps r.consumers current r.audiences with
      | .error e => some (w, .done (.audienceError e))
      | .ok (.unchanged normalized) => some (w, .done (.bound normalized))
      | .ok (.replace normalized) => some (w, .binding r (.commit normalized))
  | .commit normalized =>
      match w.apiKeys.lookup r.keyId with
      | none => some (w, .done .failed)
      | some key =>
          if normalized.any key.audiences.contains then some (w, .done .failed)
          else some (w.bind r.consumers r.keyId key normalized, .done (.bound normalized))

def KeyRequest.start : KeyRequest → KeyLocal
  | .create r => .creating r .validate
  | .revoke r => .revoking r .load
  | .bind r => .binding r .load

def KeyLocal.isFree : KeyLocal → Bool
  | .idle => true
  | .done _ => true
  | _ => false

def keyStep (caps : ApiKeyCaps) (w : KeyWorld) (l : KeyLocal) (a : KeyAction) :
    Option (KeyWorld × KeyLocal) :=
  match a, l with
  | .tick now, l => if w.now ≤ now then some ({ w with now := now }, l) else none
  | .begin request, l => if l.isFree then some (w, request.start) else none
  | .abort, l => if l.isFree then none else some (w, .done .failed)
  | a, .creating r phase => r.step caps w phase a
  | .proceed, .revoking r phase => r.step w phase
  | .proceed, .binding r phase => r.step caps w phase
  | _, _ => none

def apiKeySystem (caps : ApiKeyCaps) : Interleaving.System KeyWorld KeyLocal KeyAction where
  step _ := keyStep caps

/-! ### What a step does -/

section

variable {caps : ApiKeyCaps} {w w' : KeyWorld} {l l' : KeyLocal} {a : KeyAction}

/-- The ways a process moves. -/
inductive KeyStep (caps : ApiKeyCaps) (w : KeyWorld) : KeyLocal → KeyAction → KeyWorld → KeyLocal → Prop
  | tick {l : KeyLocal} {now : Int} (hnow : w.now ≤ now) :
      KeyStep caps w l (.tick now) { w with now := now } l
  | begin {l : KeyLocal} {request : KeyRequest} (hfree : l.isFree = true) :
      KeyStep caps w l (.begin request) w request.start
  | ended {l : KeyLocal} {a : KeyAction} {result : KeyResult}
      (hresult : ∀ id audiences, result ≠ .created id audiences) : KeyStep caps w l a w (.done result)
  | validated {r : CreateApiKey} {audiences : List String} (hvalid : r.validate caps = .ok audiences) :
      KeyStep caps w (.creating r .validate) .proceed w (.creating r (.count w.now audiences))
  | counted {r : CreateApiKey} {now : Int} {audiences : List String}
      (hcount : w.activeCount r.userId now < caps.apiKeyMaxPerUser) :
      KeyStep caps w (.creating r (.count now audiences)) .proceed w
        (.creating r (.generate audiences (w.creations r.userId)))
  | generated {r : CreateApiKey} {audiences : List String} {seen : Nat} {id : Uuid} {keyHash : String} :
      KeyStep caps w (.creating r (.generate audiences seen)) (.generate id keyHash) w
        (.creating r (.commit id (r.key keyHash w.now audiences) seen))
  | created {r : CreateApiKey} {id : Uuid} {key : ApiKey} {seen : Nat}
      (hstorable : w.storable id key = true) :
      KeyStep caps w (.creating r (.commit id key seen)) .proceed (w.create r.consumers id key)
        (.done (.created id key.audiences))
  | revokes {r : RevokeApiKey} {key : ApiKey} (hrow : w.apiKeys.lookup r.keyId = some key) :
      KeyStep caps w (.revoking r .load) .proceed w (.revoking r .commit)
  | revoked {r : RevokeApiKey} {key : ApiKey} (hrow : w.apiKeys.lookup r.keyId = some key) :
      KeyStep caps w (.revoking r .commit) .proceed (w.revoke r.keyId key) (.done .revoked)
  | loaded {r : BindAudiences} {key : ApiKey} (hrow : w.apiKeys.lookup r.keyId = some key) :
      KeyStep caps w (.binding r .load) .proceed w (.binding r .read)
  | read {r : BindAudiences} {normalized : List String}
      (hvalid : ApiKeyService.validateAudiences caps r.consumers r.audiences = .ok normalized)
      (hnonempty : normalized ≠ []) :
      KeyStep caps w (.binding r .read) .proceed w (.binding r (.commit normalized))
  | bound {r : BindAudiences} {key : ApiKey} {normalized : List String}
      (hrow : w.apiKeys.lookup r.keyId = some key) (hnew : ∀ a ∈ normalized, a ∉ key.audiences) :
      KeyStep caps w (.binding r (.commit normalized)) .proceed (w.bind r.consumers r.keyId key normalized)
        (.done (.bound normalized))

theorem CreateApiKey.step_sound {r : CreateApiKey} {phase : CreatePhase}
    (hstep : r.step caps w phase a = some (w', l')) : KeyStep caps w (.creating r phase) a w' l' := by
  cases phase with
  | validate =>
      cases a with
      | proceed =>
          rw [step] at hstep
          split at hstep
          · cases hstep
            exact .ended (by simp)
          · next hvalid =>
              cases hstep
              exact .validated hvalid
      | _ => cases hstep
  | count now audiences =>
      cases a with
      | proceed =>
          rw [step] at hstep
          split at hstep
          · cases hstep
            exact .ended (by simp)
          · next hcount =>
              cases hstep
              exact .counted (Int.not_le.1 hcount)
      | _ => cases hstep
  | generate audiences seen =>
      cases a with
      | generate id keyHash =>
          cases hstep
          exact .generated
      | _ => cases hstep
  | commit id key seen =>
      cases a with
      | proceed =>
          rw [step] at hstep
          split at hstep
          · next hstorable =>
              cases hstep
              exact .created hstorable
          · cases hstep
            exact .ended (by simp)
      | _ => cases hstep

theorem RevokeApiKey.step_sound {r : RevokeApiKey} {phase : RevokePhase}
    (hstep : r.step w phase = some (w', l')) : KeyStep caps w (.revoking r phase) .proceed w' l' := by
  cases phase with
  | load =>
      rw [step] at hstep
      split at hstep
      · cases hstep
        exact .ended (by simp)
      · next key hrow =>
          split at hstep
          · cases hstep
            exact .ended (by simp)
          · split at hstep
            · cases hstep
              exact .ended (by simp)
            · cases hstep
              exact .revokes hrow
  | commit =>
      rw [step] at hstep
      split at hstep
      · cases hstep
        exact .ended (by simp)
      · next key hrow =>
          cases hstep
          exact .revoked hrow

theorem BindAudiences.step_sound {r : BindAudiences} {phase : BindPhase}
    (hstep : r.step caps w phase = some (w', l')) : KeyStep caps w (.binding r phase) .proceed w' l' := by
  cases phase with
  | load =>
      rw [step] at hstep
      split at hstep
      · cases hstep
        exact .ended (by simp)
      · next key hrow =>
          cases hstep
          exact .loaded hrow
  | read =>
      simp only [step] at hstep
      split at hstep
      · cases hstep
        exact .ended (by simp)
      · cases hstep
        exact .ended (by simp)
      · next normalized hreplace =>
          obtain ⟨hvalid, -, hnonempty⟩ := ApiKeyService.bindExistingKeyAudiences_replace hreplace
          cases hstep
          exact .read hvalid hnonempty
  | commit normalized =>
      rw [step] at hstep
      split at hstep
      · cases hstep
        exact .ended (by simp)
      · next key hrow =>
          split at hstep
          · cases hstep
            exact .ended (by simp)
          · next hnew =>
              cases hstep
              exact .bound hrow (by simpa using hnew)

theorem keyStep_sound (hstep : keyStep caps w l a = some (w', l')) : KeyStep caps w l a w' l' := by
  cases a with
  | tick now =>
      obtain ⟨hnow, heq⟩ := Option.ite_none_right_eq_some.1 hstep
      cases heq
      exact .tick hnow
  | begin request =>
      obtain ⟨hfree, heq⟩ := Option.ite_none_right_eq_some.1 hstep
      cases heq
      exact .begin hfree
  | abort =>
      obtain ⟨-, heq⟩ := Option.ite_none_left_eq_some.1 hstep
      cases heq
      exact .ended (by simp)
  | proceed =>
      cases l with
      | creating r phase => exact CreateApiKey.step_sound hstep
      | revoking r phase => exact RevokeApiKey.step_sound hstep
      | binding r phase => exact BindAudiences.step_sound hstep
      | _ => cases hstep
  | generate id keyHash =>
      cases l with
      | creating r phase => exact CreateApiKey.step_sound hstep
      | _ => cases hstep

end

end FaAuthM8

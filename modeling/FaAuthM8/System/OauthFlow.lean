import FaAuthM8.Lib.Interleaving
import FaAuthM8.Routes.OauthLogin

/-!
# The OAuth flow

Each process serves one request at a time: a login URL, a callback or an exchange. A request uses states and
codes in Redis one command at a time, and may fail or crash between two of them; the two commands by which the
limiter of an exchange counts it are one step, as they touch neither. States and codes are never generated
twice. What happened is recorded, newest first, with the process that did it where two processes could; only
the generation of a state or a code looks there, so as not to generate it again.
-/

namespace FaAuthM8

inductive OauthEvent
  /-- A login URL was requested for the challenge, under the state generated for it. -/
  | initiated (state codeChallenge : String)
  /-- A callback that presented the state minted the code. -/
  | minted (p : Nat) (state code : String) (payload : AuthCodePayload)
  | stored (code : String)
  | consumed (p : Nat) (code : String)
  | yielded (code codeVerifier : String) (payload : TokenPayload)
deriving DecidableEq, Repr

structure Expiring (α : Type) where
  value : α
  expiresAt : Int
deriving DecidableEq, Repr

structure OauthWorld where
  sessions : Table String (Expiring OauthSession) := ∅
  codes : Table String (Expiring AuthCodePayload) := ∅
  counters : WindowCounters := ∅
  now : Int := 0
  redisUp : Bool := true
  log : List OauthEvent := []

inductive OauthResult
  | url (state : String)
  | redirect (redirectTarget code : String)
  | tokens (payload : TokenPayload)
  | http (exception : HttpException)
  /-- A command, the database or Google failed, or the process died. -/
  | failed
deriving DecidableEq, Repr

structure LoginUrlRequest where
  redirectTarget : String
  codeChallenge : String
deriving DecidableEq, Repr

inductive LoginUrlPhase
  | check
  | generate
  | store (state : String) (session : OauthSession)
deriving DecidableEq, Repr

inductive CallbackPhase
  | lookup
  | google (session : OauthSession)
  | store (session : OauthSession) (code : String) (payload : AuthCodePayload)
  | delete (session : OauthSession) (code : String)
deriving DecidableEq, Repr

inductive ExchangePhase
  | limit
  | check
  | pop
  | verify (payload : AuthCodePayload)
deriving DecidableEq, Repr

inductive OauthLocal
  | idle
  | loginUrl (r : LoginUrlRequest) (phase : LoginUrlPhase)
  | callback (state : String) (phase : CallbackPhase)
  | exchange (r : ExchangeRequest) (phase : ExchangePhase)
  | done (result : OauthResult)
deriving DecidableEq, Repr

inductive OauthRequest
  | loginUrl (r : LoginUrlRequest)
  | callback (state : String)
  | exchange (r : ExchangeRequest)
deriving DecidableEq, Repr

inductive OauthAction
  | begin (request : OauthRequest)
  | proceed
  /-- The state and the verifier of a login. -/
  | generate (state pkceVerifier : String)
  /-- Google and the database have answered a callback, and a code has been generated. -/
  | grant (code : String) (grant : GoogleGrant)
  | fail
  | tick (now : Int)
  | redis (up : Bool)
deriving DecidableEq, Repr

namespace OauthWorld

variable (w : OauthWorld)

def session (state : String) : Option OauthSession :=
  ((w.sessions.lookup state).filter fun entry => w.now < entry.expiresAt).map (·.value)

def code (code : String) : Option AuthCodePayload :=
  ((w.codes.lookup code).filter fun entry => w.now < entry.expiresAt).map (·.value)

def hasInitiated (state : String) : Bool :=
  w.log.any fun
    | .initiated state' _ => state' == state
    | _ => false

def hasMinted (code : String) : Bool :=
  w.log.any fun
    | .minted _ _ code' _ => code' == code
    | _ => false

def initiate (state codeChallenge : String) : OauthWorld :=
  { w with log := .initiated state codeChallenge :: w.log }

/-- `OAuthSessionStore.store`, for ten minutes. -/
def storeSession (state : String) (session : OauthSession) : OauthWorld :=
  { w with sessions := w.sessions.insert state ⟨session, w.now + 600 * second⟩ }

def mint (p : Nat) (state code : String) (payload : AuthCodePayload) : OauthWorld :=
  { w with log := .minted p state code payload :: w.log }

/-- `AuthCodeStore.store`, for a minute. -/
def storeCode (code : String) (payload : AuthCodePayload) : OauthWorld :=
  { w with codes := w.codes.insert code ⟨payload, w.now + 60 * second⟩, log := .stored code :: w.log }

def deleteSession (state : String) : OauthWorld :=
  { w with sessions := w.sessions.erase state }

/-- `AuthCodeStore.pop` of a stored code. -/
def consume (p : Nat) (code : String) : OauthWorld :=
  { w with codes := w.codes.erase code, log := .consumed p code :: w.log }

def yield (code codeVerifier : String) (payload : TokenPayload) : OauthWorld :=
  { w with log := .yielded code codeVerifier payload :: w.log }

end OauthWorld

/-- `get_google_login_url` -/
def LoginUrlRequest.step (r : LoginUrlRequest) (settings : OauthSettings) (w : OauthWorld) :
    LoginUrlPhase → OauthAction → Option (OauthWorld × OauthLocal)
  | .check, .proceed =>
      match checkLoginUrl settings r.redirectTarget r.codeChallenge with
      | some e => some (w, .done (.http e))
      | none =>
          if w.redisUp then some (w, .loginUrl r .generate) else some (w, .done (.http cacheUnavailable))
  | .generate, .generate state pkceVerifier =>
      let session : OauthSession :=
        { pkceVerifier, redirectTarget := r.redirectTarget, codeChallenge := r.codeChallenge
          createdAt := w.now / second }
      if w.hasInitiated state then none
      else if SESSION_PAYLOAD_MAX < settings.sessionLength session then
        some (w.initiate state r.codeChallenge, .done (.http (badRequest "Session payload too large.")))
      else
        some (w.initiate state r.codeChallenge, .loginUrl r (.store state session))
  | .store state session, .proceed =>
      if w.redisUp then some (w.storeSession state session, .done (.url state)) else none
  | _, _ => none

/-- `google_auth_callback` for the state it is given. -/
def callbackStep (state : String) (settings : OauthSettings) (p : Nat) (w : OauthWorld) :
    CallbackPhase → OauthAction → Option (OauthWorld × OauthLocal)
  | .lookup, .proceed =>
      if w.redisUp then
        match w.session state with
        | none => some (w, .done (.http (badRequest "Invalid or expired state parameter")))
        | some session => some (w, .callback state (.google session))
      else
        some (w, .done (.http cacheUnavailableForCallback))
  | .google session, .grant code grant =>
      let payload := buildAuthCodePayload settings w.now grant session.codeChallenge
      if w.hasMinted code then none
      else some (w.mint p state code payload, .callback state (.store session code payload))
  | .store session code payload, .proceed =>
      if w.redisUp then some (w.storeCode code payload, .callback state (.delete session code)) else none
  | .delete session code, .proceed =>
      if w.redisUp then some (w.deleteSession state, .done (.redirect session.redirectTarget code)) else none
  | _, _ => none

/-- `exchange_auth_code` -/
def ExchangeRequest.step (r : ExchangeRequest) (settings : OauthSettings) (p : Nat) (w : OauthWorld) :
    ExchangePhase → Option (OauthWorld × OauthLocal)
  | .limit =>
      if w.redisUp then
        let (allowed, counters) := ExchangeRateLimiter.isAllowed settings.isPrintable w.counters w.now r.client
        if allowed then some ({ w with counters }, .exchange r .check)
        else some ({ w with counters }, .done (.http tooManyRequests))
      else
        some (w, .done (.http cacheUnavailable))
  | .check =>
      match r.check settings with
      | some e => some (w, .done (.http e))
      | none => some (w, .exchange r .pop)
  | .pop =>
      if w.redisUp then
        match w.code r.code with
        | none => some (w, .done (.http (badRequest "Invalid or expired auth code.")))
        | some payload =>
            if AUTH_CODE_PAYLOAD_MAX < settings.payloadLength payload then
              some (w.consume p r.code, .done (.http (badRequest "Invalid or expired auth code.")))
            else
              some (w.consume p r.code, .exchange r (.verify payload))
      else none
  | .verify payload =>
      if verifyPkce settings r.codeVerifier payload.codeChallenge then
        some (w.yield r.code r.codeVerifier payload.toTokenPayload, .done (.tokens payload.toTokenPayload))
      else
        some (w, .done (.http (badRequest "PKCE verification failed.")))

def OauthRequest.start : OauthRequest → OauthLocal
  | .loginUrl r => .loginUrl r .check
  | .callback state => .callback state .lookup
  | .exchange r => .exchange r .limit

def OauthLocal.isFree : OauthLocal → Bool
  | .idle => true
  | .done _ => true
  | _ => false

def oauthStep (settings : OauthSettings) (p : Nat) (w : OauthWorld) (l : OauthLocal) (a : OauthAction) :
    Option (OauthWorld × OauthLocal) :=
  match a, l with
  | .tick now, l => if w.now ≤ now then some ({ w with now := now }, l) else none
  | .redis up, l => some ({ w with redisUp := up }, l)
  | .begin request, l => if l.isFree then some (w, request.start) else none
  | .fail, l => if l.isFree then none else some (w, .done .failed)
  | a, .loginUrl r phase => r.step settings w phase a
  | a, .callback state phase => callbackStep state settings p w phase a
  | .proceed, .exchange r phase => r.step settings p w phase
  | _, _ => none

def oauthFlow (settings : OauthSettings) : Interleaving.System OauthWorld OauthLocal OauthAction where
  step := oauthStep settings

/-! ### What a step does -/

section

variable {settings : OauthSettings} {p : Nat} {w w' : OauthWorld} {l l' : OauthLocal} {a : OauthAction}

/-- The records of the flow are as they were. -/
structure SameFlow (w w' : OauthWorld) : Prop where
  sessions : w'.sessions = w.sessions
  codes : w'.codes = w.codes
  log : w'.log = w.log

theorem SameFlow.refl (w : OauthWorld) : SameFlow w w :=
  ⟨rfl, rfl, rfl⟩

/-- The ways a process moves. -/
inductive OauthStep (settings : OauthSettings) (p : Nat) (w : OauthWorld) :
    OauthLocal → OauthAction → OauthWorld → OauthLocal → Prop
  | environment {l : OauthLocal} {a : OauthAction} {w' : OauthWorld} (hsame : SameFlow w w')
      (ha : a ≠ .proceed) : OauthStep settings p w l a w' l
  | begin {l : OauthLocal} {request : OauthRequest} (hfree : l.isFree = true) :
      OauthStep settings p w l (.begin request) w request.start
  | ended {l : OauthLocal} {a : OauthAction} {w' : OauthWorld} {result : OauthResult}
      (hsame : SameFlow w w') : OauthStep settings p w l a w' (.done result)
  | checked {r : LoginUrlRequest} :
      OauthStep settings p w (.loginUrl r .check) .proceed w (.loginUrl r .generate)
  | initiated {r : LoginUrlRequest} {state pkceVerifier : String} {l' : OauthLocal}
      (hfresh : w.hasInitiated state = false)
      (hl' : (∃ result, l' = .done result) ∨ ∃ session, l' = .loginUrl r (.store state session) ∧
        session.codeChallenge = r.codeChallenge) :
      OauthStep settings p w (.loginUrl r .generate) (.generate state pkceVerifier)
        (w.initiate state r.codeChallenge) l'
  | storedSession {r : LoginUrlRequest} {state : String} {session : OauthSession} :
      OauthStep settings p w (.loginUrl r (.store state session)) .proceed (w.storeSession state session)
        (.done (.url state))
  | found {state : String} {session : OauthSession} (hfound : w.session state = some session) :
      OauthStep settings p w (.callback state .lookup) .proceed w (.callback state (.google session))
  | minted {state code : String} {session : OauthSession} {grant : GoogleGrant}
      (hfresh : w.hasMinted code = false) :
      OauthStep settings p w (.callback state (.google session)) (.grant code grant)
        (w.mint p state code (buildAuthCodePayload settings w.now grant session.codeChallenge))
        (.callback state (.store session code
          (buildAuthCodePayload settings w.now grant session.codeChallenge)))
  | storedCode {state code : String} {session : OauthSession} {payload : AuthCodePayload} :
      OauthStep settings p w (.callback state (.store session code payload)) .proceed (w.storeCode code payload)
        (.callback state (.delete session code))
  | deletedSession {state code : String} {session : OauthSession} :
      OauthStep settings p w (.callback state (.delete session code)) .proceed (w.deleteSession state)
        (.done (.redirect session.redirectTarget code))
  | limited {r : ExchangeRequest} {w' : OauthWorld} (hsame : SameFlow w w') :
      OauthStep settings p w (.exchange r .limit) .proceed w' (.exchange r .check)
  | passed {r : ExchangeRequest} (hpasses : r.check settings = none) :
      OauthStep settings p w (.exchange r .check) .proceed w (.exchange r .pop)
  | consumed {r : ExchangeRequest} {payload : AuthCodePayload} {l' : OauthLocal}
      (hstored : w.code r.code = some payload)
      (hl' : (∃ result, l' = .done result) ∨ l' = .exchange r (.verify payload)) :
      OauthStep settings p w (.exchange r .pop) .proceed (w.consume p r.code) l'
  | yielded {r : ExchangeRequest} {payload : AuthCodePayload}
      (hverified : verifyPkce settings r.codeVerifier payload.codeChallenge = true) :
      OauthStep settings p w (.exchange r (.verify payload)) .proceed
        (w.yield r.code r.codeVerifier payload.toTokenPayload) (.done (.tokens payload.toTokenPayload))

theorem LoginUrlRequest.step_sound {r : LoginUrlRequest} {phase : LoginUrlPhase}
    (hstep : r.step settings w phase a = some (w', l')) :
    OauthStep settings p w (.loginUrl r phase) a w' l' := by
  cases phase with
  | check =>
      cases a with
      | proceed =>
          rw [step] at hstep
          split at hstep
          · cases hstep
            exact .ended (.refl w)
          · split at hstep
            · cases hstep
              exact .checked
            · cases hstep
              exact .ended (.refl w)
      | _ => cases hstep
  | generate =>
      cases a with
      | generate state pkceVerifier =>
          simp only [step] at hstep
          split at hstep
          · cases hstep
          · next hfresh =>
              rw [Bool.not_eq_true] at hfresh
              split at hstep
              · cases hstep
                exact .initiated hfresh (.inl ⟨_, rfl⟩)
              · cases hstep
                exact .initiated hfresh (.inr ⟨_, rfl, rfl⟩)
      | _ => cases hstep
  | store state session =>
      cases a with
      | proceed =>
          obtain ⟨-, heq⟩ := Option.ite_none_right_eq_some.1 hstep
          cases heq
          exact .storedSession
      | _ => cases hstep

theorem callbackStep_sound {state : String} {phase : CallbackPhase}
    (hstep : callbackStep state settings p w phase a = some (w', l')) :
    OauthStep settings p w (.callback state phase) a w' l' := by
  cases phase with
  | lookup =>
      cases a with
      | proceed =>
          rw [callbackStep] at hstep
          split at hstep
          · split at hstep
            · cases hstep
              exact .ended (.refl w)
            · next session hfound =>
                cases hstep
                exact .found hfound
          · cases hstep
            exact .ended (.refl w)
      | _ => cases hstep
  | google session =>
      cases a with
      | grant code grant =>
          simp only [callbackStep] at hstep
          obtain ⟨hfresh, heq⟩ := Option.ite_none_left_eq_some.1 hstep
          cases heq
          exact .minted (Bool.not_eq_true _ ▸ hfresh)
      | _ => cases hstep
  | store session code payload =>
      cases a with
      | proceed =>
          obtain ⟨-, heq⟩ := Option.ite_none_right_eq_some.1 hstep
          cases heq
          exact .storedCode
      | _ => cases hstep
  | delete session code =>
      cases a with
      | proceed =>
          obtain ⟨-, heq⟩ := Option.ite_none_right_eq_some.1 hstep
          cases heq
          exact .deletedSession
      | _ => cases hstep

theorem ExchangeRequest.step_sound {r : ExchangeRequest} {phase : ExchangePhase}
    (hstep : r.step settings p w phase = some (w', l')) :
    OauthStep settings p w (.exchange r phase) .proceed w' l' := by
  cases phase with
  | limit =>
      simp only [step] at hstep
      split at hstep
      · split at hstep
        · cases hstep
          exact .limited ⟨rfl, rfl, rfl⟩
        · cases hstep
          exact .ended ⟨rfl, rfl, rfl⟩
      · cases hstep
        exact .ended (.refl w)
  | check =>
      rw [step] at hstep
      split at hstep
      · cases hstep
        exact .ended (.refl w)
      · next hpasses =>
          cases hstep
          exact .passed hpasses
  | pop =>
      rw [step] at hstep
      split at hstep
      · split at hstep
        · cases hstep
          exact .ended (.refl w)
        · next payload hstored =>
            split at hstep
            · cases hstep
              exact .consumed hstored (.inl ⟨_, rfl⟩)
            · cases hstep
              exact .consumed hstored (.inr rfl)
      · cases hstep
  | verify payload =>
      rw [step] at hstep
      split at hstep
      · next hverified =>
          cases hstep
          exact .yielded hverified
      · cases hstep
        exact .ended (.refl w)

theorem oauthStep_sound (hstep : oauthStep settings p w l a = some (w', l')) :
    OauthStep settings p w l a w' l' := by
  cases a with
  | tick now =>
      obtain ⟨-, heq⟩ := Option.ite_none_right_eq_some.1 hstep
      cases heq
      exact .environment ⟨rfl, rfl, rfl⟩ (by simp)
  | redis up =>
      cases hstep
      exact .environment ⟨rfl, rfl, rfl⟩ (by simp)
  | begin request =>
      obtain ⟨hfree, heq⟩ := Option.ite_none_right_eq_some.1 hstep
      cases heq
      exact .begin hfree
  | fail =>
      obtain ⟨-, heq⟩ := Option.ite_none_left_eq_some.1 hstep
      cases heq
      exact .ended (.refl w)
  | proceed =>
      cases l with
      | loginUrl r phase => exact LoginUrlRequest.step_sound hstep
      | callback state phase => exact callbackStep_sound hstep
      | exchange r phase => exact ExchangeRequest.step_sound hstep
      | _ => cases hstep
  | generate state pkceVerifier =>
      cases l with
      | loginUrl r phase => exact LoginUrlRequest.step_sound hstep
      | callback state phase => exact callbackStep_sound hstep
      | _ => cases hstep
  | grant code grant =>
      cases l with
      | loginUrl r phase => exact LoginUrlRequest.step_sound hstep
      | callback state phase => exact callbackStep_sound hstep
      | _ => cases hstep

end

end FaAuthM8

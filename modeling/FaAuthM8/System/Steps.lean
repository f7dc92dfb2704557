import FaAuthM8.Core.Deps
import FaAuthM8.Lib.Interleaving
import FaAuthM8.Lib.Parsing
import FaAuthM8.System.Requests

/-!
# The steps of each request

One function for each kind of request, one branch for each of its points, in the order of the source.
-/

namespace FaAuthM8

/-- The duplicate-email check of the admin update route. -/
def emailTaken (db : Db) (uid : UserId) (userIn : UserUpdate) : Bool :=
  match userIn.email with
  | some (some email) => !(email == "") && (getUserByEmail db email).any (·.1 != uid)
  | _ => false

def UpdateRequest.step (settings : Settings) (p : Pid) (w : World) (r : UpdateRequest) :
    UpdatePhase → Option (World × Local)
  | .load =>
      match w.db.users.lookup r.userId with
      | none => failed p w
      | some copy => some (w, .update r (.checkEmail copy))
  | .checkEmail copy =>
      let intent := resolveUpdateIntent copy r.userIn
      if emailTaken w.db r.userId r.userIn then
        failed p w
      else
        match rejectSelfPromotion r.actor.id r.userId intent with
        | .error _ => failed p w
        | .ok () =>
            if intent.affectsSet then some (w, .update r (.lockPolicy copy))
            else some (w, .update r (.apply copy none))
  | .lockPolicy copy =>
      if free w.locks.policy p then
        some (w.lockPolicy p, .update r (.lockUser copy (w.db.policyRevision.getD 0)))
      else none
  | .lockUser copy revision =>
      if free (w.locks.user r.userId) p then
        some (w.lockUser p r.userId, .update r (.enforce copy revision))
      else none
  | .enforce copy revision =>
      let intent := resolveUpdateIntent copy r.userIn
      if isActiveCanonicalSuperuser copy &&
          !wouldBeActiveCanonicalSuperuser intent.intendedRole intent.intendedActive then
        if w.superusersFree p r.userId then
          match enforceLastSuperuserInvariant w.db r.userId copy intent with
          | .error _ => failed p w
          | .ok () =>
              some (w.lockSuperusers p r.userId, .update r (.apply copy (some revision)))
        else none
      else
        some (w, .update r (.apply copy (some revision)))
  | .apply copy revision =>
      match planUpdate settings copy r.userIn with
      | .error _ => failed p w
      | .ok plan =>
          if plan.authorizationChanged then
            some (w, .update r
              (.purge copy plan revision (captureTargets w.db r.userId w.now)))
          else
            some (w, .update r (.commit copy plan revision [] []))
  | .purge copy plan revision targets =>
      let doomed := sessionIds w.db (ownedBy r.userId)
      purging w p doomed (.update r (.commit copy plan revision targets doomed))
  | .commit copy plan revision targets doomed =>
      if free (w.locks.user r.userId) p then
        committing w p (updateWrites r.actor r.userId copy plan targets doomed revision w.now)
          (fun _ =>
            if plan.authorizationChanged then
              [.revoked (.user r.userId) targets, .transition r.userId plan.draft.authGeneration]
            else [])
          .idle
      else none

def DeleteRequest.step (p : Pid) (w : World) (r : DeleteRequest) :
    DeletePhase → Option (World × Local)
  | .load =>
      match w.db.users.lookup r.userId with
      | none => failed p w
      | some copy => some (w, .delete r (.lockPolicy copy))
  | .lockPolicy copy =>
      if free w.locks.policy p then
        some (w.lockPolicy p, .delete r (.lockUser copy (w.db.policyRevision.getD 0)))
      else none
  | .lockUser copy revision =>
      if free (w.locks.user r.userId) p then
        some (w.lockUser p r.userId, .delete r (.enforce copy revision))
      else none
  | .enforce copy revision =>
      match nextGeneration copy.authGeneration with
      | .error _ => failed p w
      | .ok terminal =>
          if isActiveCanonicalSuperuser copy then
            if w.superusersFree p r.userId then
              match enforceLastSuperuserOnDelete w.db r.userId copy with
              | .error _ => failed p w
              | .ok () =>
                  some (w.lockSuperusers p r.userId, .delete r (.purge copy terminal revision))
            else none
          else
            some (w, .delete r (.purge copy terminal revision))
  | .purge copy terminal revision =>
      let doomed := sessionIds w.db (ownedBy r.userId)
      purging w p doomed (.delete r (.commit copy terminal revision doomed))
  | .commit _ terminal revision doomed =>
      committing w p (deletionWrites r.actor r.userId terminal doomed revision w.now)
        (fun _ => [.revoked (.user r.userId) []]) .idle

def RepairRequest.step (p : Pid) (w : World) (r : RepairRequest) :
    RepairPhase → Option (World × Local)
  | .load =>
      if free (w.locks.user r.userId) p then
        match w.db.users.lookup r.userId with
        | none => failed p w
        | some current =>
            if current.isSuperuser == deriveIsSuperuser (some current.role) then
              failed p w
            else
              match nextGeneration current.authGeneration with
              | .error _ => failed p w
              | .ok newGeneration =>
                  some (w.lockUser p r.userId, .repair r (.capture newGeneration))
      else none
  | .capture newGeneration =>
      some (w, .repair r (.purge newGeneration (captureTargets w.db r.userId w.now)))
  | .purge newGeneration targets =>
      let doomed := sessionIds w.db (ownedBy r.userId)
      purging w p doomed (.repair r (.commit newGeneration targets doomed))
  | .commit newGeneration targets doomed =>
      committing w p (repairWrites r.userId r.intendedRole newGeneration targets doomed w.now)
        (fun _ => [.revoked (.user r.userId) targets, .transition r.userId newGeneration]) .idle

/-- The user the first Google login of an unknown address creates. What the checks of `UserCreate` make of the
address is left to the model of the accounts. -/
def googleUser (token : OAuthGoogleToken) : User where
  provider := .google
  email := token.email
  fullName := some (String.ofList (Parsing.strip token.name.toList))
  emailVerified := token.emailVerified
  oauthUserId := some token.userId

def LoginRequest.external (r : LoginRequest) : Option ExternalTokensData :=
  match r.credentials with
  | .password _ _ => none
  | .google token => some ⟨token.expiresIn, token.accessToken, token.refreshToken⟩

def LoginRequest.step (settings : Settings) (p : Pid) (w : World) (r : LoginRequest)
    (pick : Option (Option SessionId)) : LoginPhase → Option (World × Local)
  | .read =>
      match r.credentials with
      | .password email password =>
          match authenticate settings (getUserByEmail w.db email) password with
          | none => failed p w
          | some (uid, copy) =>
              if copy.isActive then some (w, .login r (.sign uid copy)) else failed p w
      | .google token =>
          match getUserByEmail w.db token.email with
          | some (uid, copy) => some (w, .login r (.sign uid copy))
          | none =>
              committing w p [.insertUser (googleUser token)] (fun _ => [])
                (.login r (.reload w.db.nextUserId))
  | .reload uid =>
      match w.db.users.lookup uid with
      | none => failed p w
      | some copy => some (w, .login r (.sign uid copy))
  | .sign uid copy =>
      match createAuthTokens settings w.now w.nextJti uid copy with
      | none => failed p w
      | some pair =>
          some ({ w with nextJti := w.nextJti + 1 }.record
              [.signed p pair.access copy.authGeneration],
            .login r (if settings.isStateless && r.external.isNone then .respond pair
              else .load uid copy pair))
  | .load uid copy pair =>
      match pick.bind (selectSession w.db uid) with
      | none => none
      | some existing =>
          some (w, .login r (.save uid copy pair
            (authSessionData settings w.now pair.refresh.jti pair.refresh r.external) existing))
  | .save uid copy pair data existing =>
      if w.locks.sessionsFree p (existing.toList.map (·.1)) then
        committing w p [createClientSession uid copy data existing]
          (stampEvents data.jwtJti)
          (.login r (if r.redis && !settings.isStateless then .register uid pair
            else if r.external.isSome then .purgeExpired uid pair else .respond pair))
      else none
  | .register uid pair =>
      sending w (.register pair.refresh.jti settings.refreshTtlSeconds) (failed p w)
        (.login r (if r.external.isSome then .purgeExpired uid pair else .respond pair))
  | .purgeExpired uid pair =>
      let doomed := sessionIds w.db (isExpiredSession uid w.now)
      purging w p doomed (.login r (.purgeCommit pair doomed))
  | .purgeCommit pair doomed =>
      committing w p [.deleteSessions doomed] (fun _ => []) (.login r (.respond pair))
  | .respond pair => some (w.record [.issued pair], .idle)

def RefreshRequest.step (settings : Settings) (p : Pid) (w : World) (r : RefreshRequest)
    (pick : Option (Option SessionId)) : RefreshPhase → Option (World × Local)
  | .allowlist =>
      if settings.isStateless then
        some (w, .refresh r .lock)
      else if r.redis then
        if w.redisUp && w.redis.isValid w.now r.token.jti then some (w, .refresh r .lock)
        else failed p w
      else
        match settings.effectiveFailureMode .refreshValidation with
        | .failClosed => failed p w
        | .failOpen => some (w, .refresh r .lock)
  | .lock =>
      if free (w.locks.user r.token.sub) p then
        match w.db.users.lookup r.token.sub with
        | none => failed p w
        | some copy =>
            if copy.isActive then
              some (w.lockUser p r.token.sub,
                .refresh r (if settings.isStateless then .sign copy else .lineage copy))
            else failed p w
      else none
  | .lineage copy =>
      if refreshLineageIsCurrent w.db copy r.token.jti then some (w, .refresh r (.sign copy))
      else failed p w
  | .sign copy =>
      match createAuthTokens settings w.now w.nextJti r.token.sub copy with
      | none => failed p w
      | some pair =>
          some ({ w with nextJti := w.nextJti + 1 }.record
              [.signed p pair.access copy.authGeneration],
            .refresh r (if settings.isStateless then .respond pair else .rotate copy pair))
  | .rotate copy pair =>
      if r.redis then
        if w.redisUp && !w.redis.isValid w.now r.token.jti then
          some (w, .revokeUser ⟨none, r.token.sub, true⟩ .capture)
        else
          sending w (.rotate r.token.jti pair.refresh.jti settings.refreshTtlSeconds) (failed p w)
            (.refresh r (.load copy pair))
      else
        some (w, .refresh r (.load copy pair))
  | .load copy pair =>
      match pick.bind (selectSession w.db r.token.sub) with
      | none => none
      | some existing =>
          some (w, .refresh r (.save copy pair
            (authSessionData settings w.now pair.refresh.jti pair.refresh none) existing))
  | .save copy pair data existing =>
      if w.locks.sessionsFree p (existing.toList.map (·.1)) then
        committing w p [createClientSession r.token.sub copy data existing]
          (fun db' => .exchanged r.token.sub r.token.jti data.jwtJti :: stampEvents data.jwtJti db')
          (.refresh r (.respond pair))
      else none
  | .respond pair => some ((w.release p).record [.issued pair], .idle)

/-- What remains of a logout when the refresh token's part is done: `result` is the identifier whose row is
deleted. -/
def LogoutRequest.finish (r : LogoutRequest) (result : Option Jti) (anyFailed : Bool) : Local :=
  match result with
  | none => .logout r (.respond none anyFailed)
  | some jti => .logout r (.sessionPurge jti anyFailed)

theorem LogoutRequest.finish_eq (r : LogoutRequest) (result : Option Jti) (anyFailed : Bool) :
    ∃ phase, r.finish result anyFailed = .logout r phase ∧
      ((result = none ∧ phase = .respond none anyFailed) ∨
        ∃ jti, result = some jti ∧ phase = .sessionPurge jti anyFailed) := by
  cases result with
  | none => exact ⟨_, rfl, .inl ⟨rfl, rfl⟩⟩
  | some jti => exact ⟨_, rfl, .inr ⟨jti, rfl, rfl⟩⟩

/-- Each of the three revocations swallows its own errors; the answer depends on whether any failed. -/
def LogoutRequest.step (settings : Settings) (p : Pid) (w : World) (r : LogoutRequest) :
    LogoutPhase → Option (World × Local)
  | .accessPurge =>
      if r.access.isCurrent w.now then
        let doomed := sessionIds w.db (carries r.access.jti)
        purging w p doomed (.logout r (.accessCommit doomed))
      else
        some (w, .logout r (.refreshRevoke none true))
  | .accessCommit doomed =>
      committing w p [.deleteSessions doomed]
        (fun _ => [.revoked (.sessions (jtisOf w.db doomed)) []])
        (.logout r .blacklist)
  | .blacklist =>
      let rawTtl := wholeSeconds (r.access.exp - w.now)
      if 0 ≤ rawTtl && r.redis then
        sending w (.blacklistJti r.access.jti rawTtl)
          (some (w, .logout r (.refreshRevoke none true)))
          (.logout r (.refreshRevoke (some r.access.jti) false))
      else
        some (w, .logout r (.refreshRevoke (some r.access.jti) false))
  | .refreshRevoke accessJti accessFailed =>
      if r.redis then
        if r.refresh.isCurrent w.now then
          sending w (.revoke r.refresh.jti) (some (w, r.finish accessJti true))
            (r.finish (some (accessJti.getD r.refresh.jti)) accessFailed)
        else
          some (w, r.finish accessJti true)
      else
        some (w, r.finish accessJti
          (accessFailed || settings.effectiveFailureMode .sessionWrite == .failClosed))
  | .sessionPurge jti anyFailed =>
      let doomed := sessionIds w.db (carries jti)
      purging w p doomed (.logout r (.sessionCommit jti doomed anyFailed))
  | .sessionCommit jti doomed anyFailed =>
      committing w p [.deleteSessions doomed]
        (fun _ => [.revoked (.sessions (jtisOf w.db doomed)) []])
        (.logout r (.respond (some jti) anyFailed))
  | .respond jti anyFailed =>
      if anyFailed && settings.effectiveFailureMode .sessionWrite == .failClosed then failed p w
      else some (w.record [.loggedOut r.access r.refresh jti], .idle)

def RevokeSessionRequest.step (p : Pid) (w : World) (r : RevokeSessionRequest) :
    RevokeSessionPhase → Option (World × Local)
  | .load =>
      match w.db.sessions.lookup r.sessionId with
      | none => failed p w
      | some row => some (w, .revokeSession r (.purge row))
  | .purge row =>
      let doomed := if (w.db.sessions.lookup r.sessionId).isSome then [r.sessionId] else []
      purging w p doomed (.revokeSession r (.commit row doomed))
  | .commit row doomed =>
      committing w p
        [.appendAudit (r.actor.audit .delete .clientSession r.sessionId row.userId),
          .deleteSessions doomed]
        (fun _ => [.revoked (.sessions (jtisOf w.db doomed)) [row.target]])
        (if r.redis then .postCommit [row.target] else .idle)

def RevokeUserRequest.step (p : Pid) (w : World) (r : RevokeUserRequest) :
    RevokeUserPhase → Option (World × Local)
  | .capture => some (w, .revokeUser r (.purge (captureTargets w.db r.userId w.now)))
  | .purge targets =>
      let doomed := sessionIds w.db (ownedBy r.userId)
      purging w p doomed (.revokeUser r (.commit targets doomed))
  | .commit targets doomed =>
      committing w p
        ((r.actor.toList.map fun actor =>
            .appendAudit (actor.audit .delete .clientSession r.userId r.userId)) ++
          [.deleteSessions doomed])
        (fun _ => [.revoked (.user r.userId) targets])
        (if r.redis then .postCommit targets else .idle)

/-- The Redis client of a request, when it has one and the server answers. -/
def World.client (w : World) (redis : Bool) : Option Redis :=
  if redis && w.redisUp then some w.redis else none

def DeleteMeRequest.step (settings : Settings) (p : Pid) (w : World) (r : DeleteMeRequest) :
    DeleteMePhase → Option (World × Local)
  | .authenticate =>
      match getCurrentUser settings (w.client r.redis) w.now r.token with
      | .error _ => failed p w
      | .ok currentUser =>
          if hasSuperuserPrivileges currentUser.role currentUser.isSuperuser then failed p w
          else some (w, .deleteMe r .load)
  | .load =>
      if (w.db.users.lookup r.token.sub).isSome then some (w, .deleteMe r .commit)
      else failed p w
  | .commit =>
      if free (w.locks.user r.token.sub) p then
        committing w p [.deleteUser r.token.sub] (fun _ => [.revoked (.user r.token.sub) []]) .idle
      else none

/-- `revoke_legacy_sessions` -/
def LegacySweepPhase.step (p : Pid) (w : World) : LegacySweepPhase → Option (World × Local)
  | .purge =>
      let doomed := sessionIds w.db (·.authGeneration.isNone)
      purging w p doomed (.legacySweep (.commit doomed))
  | .commit doomed =>
      committing w p [.deleteSessions doomed]
        (fun _ => [.revoked (.sessions (jtisOf w.db doomed)) []]) .idle

def DrainRequest.deliveryFailed (w : World) (r : DrainRequest) (id : OutboxId)
    (copy : RevocationOutbox) (rest : List OutboxId) : Option (World × Local) :=
  some (w.record [.deliveryFailed id], .drain r (.finish false id copy rest))

def leaseWrites (settings : Settings) (now : Int) (db : Db) (ids : List OutboxId) : List Write :=
  ids.filterMap fun id => (db.outbox.lookup id).map fun row =>
    .updateOutbox id row (OutboxWorker.lease settings now row)

/-- Claims rows with `FOR UPDATE SKIP LOCKED`: any due rows, within the batch size. -/
def DrainRequest.claim (settings : Settings) (p : Pid) (w : World) (r : DrainRequest)
    (ids : List OutboxId) : Option (World × Local) :=
  if ids.Nodup ∧ ids.length ≤ settings.outboxBatchSize ∧
      ids.all (fun id => (w.db.outbox.lookup id).any (OutboxWorker.isDue r.now)) then
    committing w p (leaseWrites settings r.now w.db ids) (fun _ => []) (.drain r (.next ids))
  else none

def DrainRequest.step (settings : Settings) (p : Pid) (w : World) (r : DrainRequest) :
    DrainPhase → Option (World × Local)
  | .claim => none
  | .next [] => some (w, .idle)
  | .next (id :: rest) =>
      match w.db.outbox.lookup id with
      | none => failed p w
      | some copy => some (w, .drain r (.deliver id copy rest))
  | .deliver id copy rest =>
      match copy.effect with
      | .blacklist jti expiresAt =>
          let ttl := wholeSeconds (expiresAt - r.now)
          if ttl ≤ 0 then
            some (w, .drain r (.finish true id copy rest))
          else if r.redis then
            sending w (.blacklistJti jti ttl) (r.deliveryFailed w id copy rest)
              (.drain r (.revoke jti id copy rest))
          else
            r.deliveryFailed w id copy rest
      | .publish event => some (w.record [.emitted event], .drain r (.finish true id copy rest))
  | .revoke jti id copy rest =>
      sending w (.revoke jti) (r.deliveryFailed w id copy rest) (.drain r (.finish true id copy rest))
  | .finish success id copy rest =>
      committing w p
        [.updateOutbox id copy (if success then OutboxWorker.completed r.now copy
          else OutboxWorker.failed settings r.now copy)]
        (fun _ => []) (.drain r (.next rest))

/-- Whether the client holds a token pair that `p` accepts. -/
def World.issuedPair (w : World) (p : TokenPair → Bool) : Bool :=
  w.log.any fun
    | .issued pair => p pair
    | _ => false

theorem World.issuedPair_iff {w : World} {p : TokenPair → Bool} :
    w.issuedPair p = true ↔ ∃ pair, .issued pair ∈ w.log ∧ p pair = true := by
  rw [issuedPair, List.any_eq_true]
  constructor
  · rintro ⟨event, hmem, hp⟩
    cases event with
    | issued pair => exact ⟨pair, hmem, hp⟩
    | _ => cases hp
  · rintro ⟨pair, hmem, hp⟩
    exact ⟨.issued pair, hmem, hp⟩

/-- A request as it may arrive. Its Redis client answered when the request began; tokens it presents were
issued. -/
def Local.mayBegin (settings : Settings) (w : World) : Local → Bool
  | .update _ .load | .delete _ .load | .repair _ .load => true
  | .login r .read => (!r.redis || w.redisUp) && (r.external.isNone || r.redis)
  | .refresh r .allowlist =>
      (!r.redis || w.redisUp) && w.issuedPair (·.refresh == r.token) && r.token.isCurrent w.now
  | .logout r phase =>
      !settings.isStateless && (!r.redis || w.redisUp) &&
        phase == (if settings.isStateful then .accessPurge else .refreshRevoke none false) &&
        w.issuedPair (·.access == r.access) && w.issuedPair (·.refresh == r.refresh)
  | .revokeSession r .load => !r.redis || w.redisUp
  | .revokeUser r .capture => r.actor.isSome && (!r.redis || w.redisUp)
  | .deleteMe r .authenticate => w.issuedPair (·.access == r.token)
  | .legacySweep .purge => true
  | .drain r .claim => r.now == w.now && (!r.redis || w.redisUp)
  | _ => false

def step (settings : Settings) (p : Pid) (w : World) : Local → Action → Option (World × Local)
  | .idle, .begin request => if request.mayBegin settings w then some (w, request) else none
  | .idle, .tick elapsed => some ({ w with now := w.now + elapsed }, .idle)
  | .idle, .setRedis available => some ({ w with redisUp := available }, .idle)
  | .idle, .reap =>
      committing w p [.reapOutbox (OutboxWorker.reapHorizon settings w.now)] (fun _ => []) .idle
  | .idle, _ => none
  | _, .abort => failed p w
  | .update r phase, .proceed => r.step settings p w phase
  | .delete r phase, .proceed => r.step p w phase
  | .repair r phase, .proceed => r.step p w phase
  | .login r phase, .proceed => r.step settings p w none phase
  | .login r phase, .select pick => r.step settings p w (some pick) phase
  | .refresh r phase, .proceed => r.step settings p w none phase
  | .refresh r phase, .select pick => r.step settings p w (some pick) phase
  | .logout r phase, .proceed => r.step settings p w phase
  | .revokeSession r phase, .proceed => r.step p w phase
  | .revokeUser r phase, .proceed => r.step p w phase
  | .deleteMe r phase, .proceed => r.step settings p w phase
  | .legacySweep phase, .proceed => phase.step p w
  | .drain r .claim, .claim ids => r.claim settings p w ids
  | .drain r phase, .proceed => r.step settings p w phase
  | .postCommit targets, .proceed =>
      some (w, .commands (applyPostCommitRevocation w.now targets))
  | .commands [], .proceed => some (w, .idle)
  | .commands (command :: rest), .proceed => sending w command (failed p w) (.commands rest)
  | _, _ => none

/-- The issuer: any number of processes, each serving one request after another. -/
def issuer (settings : Settings) : Interleaving.System World Local Action where
  step := step settings

end FaAuthM8

import FaAuthM8.System.Steps

/-!
# What a step can do

One rule for each way a step can succeed, with the guards that held and the world and the local state it
leaves. `step_sound` derives the rules from the step functions; every later proof is by cases on a rule and
never unfolds a step function again.
-/

namespace FaAuthM8

inductive UpdateStep (settings : Settings) (p : Pid) (w : World) (r : UpdateRequest) :
    UpdatePhase → World → Local → Prop
  | load {copy : User} (hcopy : w.db.users.lookup r.userId = some copy) :
      UpdateStep settings p w r .load w (.update r (.checkEmail copy))
  | checkEmail {copy : User}
      (hpromotion : rejectSelfPromotion r.actor.id r.userId (resolveUpdateIntent copy r.userIn) = .ok ())
      (haffects : (resolveUpdateIntent copy r.userIn).affectsSet = true) :
      UpdateStep settings p w r (.checkEmail copy) w (.update r (.lockPolicy copy))
  | checkEmailOnly {copy : User}
      (hpromotion : rejectSelfPromotion r.actor.id r.userId (resolveUpdateIntent copy r.userIn) = .ok ())
      (haffects : (resolveUpdateIntent copy r.userIn).affectsSet = false) :
      UpdateStep settings p w r (.checkEmail copy) w (.update r (.apply copy none))
  | lockPolicy {copy : User} (hfree : free w.locks.policy p = true) :
      UpdateStep settings p w r (.lockPolicy copy) (w.lockPolicy p)
        (.update r (.lockUser copy (w.db.policyRevision.getD 0)))
  | lockUser {copy : User} {revision : Nat} (hfree : free (w.locks.user r.userId) p = true) :
      UpdateStep settings p w r (.lockUser copy revision) (w.lockUser p r.userId)
        (.update r (.enforce copy revision))
  | enforceCount {copy : User} {revision : Nat} (hfree : w.superusersFree p r.userId = true)
      (hguard : enforceLastSuperuserInvariant w.db r.userId copy
        (resolveUpdateIntent copy r.userIn) = .ok ()) :
      UpdateStep settings p w r (.enforce copy revision) (w.lockSuperusers p r.userId)
        (.update r (.apply copy (some revision)))
  | enforceSkip {copy : User} {revision : Nat}
      (hskip : isActiveCanonicalSuperuser copy = true →
        wouldBeActiveCanonicalSuperuser (resolveUpdateIntent copy r.userIn).intendedRole
          (resolveUpdateIntent copy r.userIn).intendedActive = true) :
      UpdateStep settings p w r (.enforce copy revision) w (.update r (.apply copy (some revision)))
  | apply {copy : User} {revision : Option Nat} {plan : UpdatePlan}
      (hplan : planUpdate settings copy r.userIn = .ok plan)
      (hchanged : plan.authorizationChanged = true) :
      UpdateStep settings p w r (.apply copy revision) w
        (.update r (.purge copy plan revision (captureTargets w.db r.userId w.now)))
  | applyUnchanged {copy : User} {revision : Option Nat} {plan : UpdatePlan}
      (hplan : planUpdate settings copy r.userIn = .ok plan)
      (hchanged : plan.authorizationChanged = false) :
      UpdateStep settings p w r (.apply copy revision) w
        (.update r (.commit copy plan revision [] []))
  | purge {copy : User} {plan : UpdatePlan} {revision : Option Nat} {targets : List RevocationTarget}
      (hfree : w.locks.sessionsFree p (sessionIds w.db (ownedBy r.userId)) = true) :
      UpdateStep settings p w r (.purge copy plan revision targets)
        (w.lockSessions p (sessionIds w.db (ownedBy r.userId)))
        (.update r (.commit copy plan revision targets (sessionIds w.db (ownedBy r.userId))))
  | commit {copy : User} {plan : UpdatePlan} {revision : Option Nat} {targets : List RevocationTarget}
      {doomed : List SessionId} {db' : Db} (hfree : free (w.locks.user r.userId) p = true)
      (hcommit : commit (updateWrites r.actor r.userId copy plan targets doomed revision w.now) w.db
        = .ok db') :
      UpdateStep settings p w r (.commit copy plan revision targets doomed)
        (w.committed p db'
          (if plan.authorizationChanged then
            [.revoked (.user r.userId) targets, .transition r.userId plan.draft.authGeneration]
          else []))
        .idle

inductive DeleteStep (p : Pid) (w : World) (r : DeleteRequest) : DeletePhase → World → Local → Prop
  | load {copy : User} (hcopy : w.db.users.lookup r.userId = some copy) :
      DeleteStep p w r .load w (.delete r (.lockPolicy copy))
  | lockPolicy {copy : User} (hfree : free w.locks.policy p = true) :
      DeleteStep p w r (.lockPolicy copy) (w.lockPolicy p)
        (.delete r (.lockUser copy (w.db.policyRevision.getD 0)))
  | lockUser {copy : User} {revision : Nat} (hfree : free (w.locks.user r.userId) p = true) :
      DeleteStep p w r (.lockUser copy revision) (w.lockUser p r.userId)
        (.delete r (.enforce copy revision))
  | enforceCount {copy : User} {revision terminal : Nat}
      (hterminal : nextGeneration copy.authGeneration = .ok terminal)
      (hfree : w.superusersFree p r.userId = true)
      (hguard : enforceLastSuperuserOnDelete w.db r.userId copy = .ok ()) :
      DeleteStep p w r (.enforce copy revision) (w.lockSuperusers p r.userId)
        (.delete r (.purge copy terminal revision))
  | enforceSkip {copy : User} {revision terminal : Nat}
      (hterminal : nextGeneration copy.authGeneration = .ok terminal)
      (hskip : isActiveCanonicalSuperuser copy = false) :
      DeleteStep p w r (.enforce copy revision) w (.delete r (.purge copy terminal revision))
  | purge {copy : User} {terminal revision : Nat}
      (hfree : w.locks.sessionsFree p (sessionIds w.db (ownedBy r.userId)) = true) :
      DeleteStep p w r (.purge copy terminal revision)
        (w.lockSessions p (sessionIds w.db (ownedBy r.userId)))
        (.delete r (.commit copy terminal revision (sessionIds w.db (ownedBy r.userId))))
  | commit {copy : User} {terminal revision : Nat} {doomed : List SessionId} {db' : Db}
      (hcommit : commit (deletionWrites r.actor r.userId terminal doomed revision w.now) w.db
        = .ok db') :
      DeleteStep p w r (.commit copy terminal revision doomed)
        (w.committed p db' [.revoked (.user r.userId) []]) .idle

inductive RepairStep (p : Pid) (w : World) (r : RepairRequest) : RepairPhase → World → Local → Prop
  | load {current : User} {newGeneration : Nat} (hfree : free (w.locks.user r.userId) p = true)
      (hcurrent : w.db.users.lookup r.userId = some current)
      (hmismatch : privilegeClaimsAreConsistent current.role current.isSuperuser = false)
      (hnext : nextGeneration current.authGeneration = .ok newGeneration) :
      RepairStep p w r .load (w.lockUser p r.userId) (.repair r (.capture newGeneration))
  | capture {newGeneration : Nat} :
      RepairStep p w r (.capture newGeneration) w
        (.repair r (.purge newGeneration (captureTargets w.db r.userId w.now)))
  | purge {newGeneration : Nat} {targets : List RevocationTarget}
      (hfree : w.locks.sessionsFree p (sessionIds w.db (ownedBy r.userId)) = true) :
      RepairStep p w r (.purge newGeneration targets)
        (w.lockSessions p (sessionIds w.db (ownedBy r.userId)))
        (.repair r (.commit newGeneration targets (sessionIds w.db (ownedBy r.userId))))
  | commit {newGeneration : Nat} {targets : List RevocationTarget} {doomed : List SessionId} {db' : Db}
      (hcommit : commit (repairWrites r.userId r.intendedRole newGeneration targets doomed w.now) w.db
        = .ok db') :
      RepairStep p w r (.commit newGeneration targets doomed)
        (w.committed p db'
          [.revoked (.user r.userId) targets, .transition r.userId newGeneration])
        .idle

/-- The phase of a login after its session row is saved. -/
def LoginRequest.afterSave (settings : Settings) (r : LoginRequest) (uid : UserId) (pair : TokenPair) :
    LoginPhase :=
  if r.redis && !settings.isStateless then .register uid pair
  else if r.external.isSome then .purgeExpired uid pair else .respond pair

theorem LoginRequest.afterSave_eq (settings : Settings) (r : LoginRequest) (uid : UserId)
    (pair : TokenPair) : r.afterSave settings uid pair = .register uid pair ∨
      r.afterSave settings uid pair = .purgeExpired uid pair ∨
      r.afterSave settings uid pair = .respond pair := by
  rw [afterSave]
  split
  · exact .inl rfl
  · split
    · exact .inr (.inl rfl)
    · exact .inr (.inr rfl)

inductive LoginStep (settings : Settings) (p : Pid) (w : World) (r : LoginRequest) :
    LoginPhase → World → Local → Prop
  | read {uid : UserId} {copy : User} (hcopy : w.db.users.lookup uid = some copy)
      (hactive : r.external = none → copy.isActive = true) :
      LoginStep settings p w r .read w (.login r (.sign uid copy))
  | create {token : OAuthGoogleToken} {db' : Db} (hgoogle : r.credentials = .google token)
      (hcommit : commit [.insertUser (googleUser token)] w.db = .ok db') :
      LoginStep settings p w r .read (w.committed p db' [])
        (.login r (.reload w.db.nextUserId))
  | reload {uid : UserId} {copy : User} (hcopy : w.db.users.lookup uid = some copy) :
      LoginStep settings p w r (.reload uid) w (.login r (.sign uid copy))
  | sign {uid : UserId} {copy : User} {pair : TokenPair} {next : LoginPhase}
      (hpair : createAuthTokens settings w.now w.nextJti uid copy = some pair)
      (hnext : next = .respond pair ∨ next = .load uid copy pair) :
      LoginStep settings p w r (.sign uid copy)
        ({ w with nextJti := w.nextJti + 1 }.record [.signed p pair.access copy.authGeneration])
        (.login r next)
  | load {uid : UserId} {copy : User} {pair : TokenPair} {pick : Option SessionId}
      {existing : Option (SessionId × ClientSession)}
      (hselect : selectSession w.db uid pick = some existing) :
      LoginStep settings p w r (.load uid copy pair) w
        (.login r (.save uid copy pair
          (authSessionData settings w.now pair.refresh.jti pair.refresh r.external) existing))
  | save {uid : UserId} {copy : User} {pair : TokenPair} {data : ClientSessionCreate}
      {existing : Option (SessionId × ClientSession)} {db' : Db}
      (hfree : w.locks.sessionsFree p (existing.toList.map (·.1)) = true)
      (hcommit : commit [createClientSession uid copy data existing] w.db = .ok db') :
      LoginStep settings p w r (.save uid copy pair data existing)
        (w.committed p db' (stampEvents data.jwtJti db'))
        (.login r (r.afterSave settings uid pair))
  | register {uid : UserId} {pair : TokenPair} {w' : World} {next : LoginPhase}
      (hsend : w.send (.register pair.refresh.jti settings.refreshTtlSeconds) = some w')
      (hnext : next = .purgeExpired uid pair ∨ next = .respond pair) :
      LoginStep settings p w r (.register uid pair) w' (.login r next)
  | purgeExpired {uid : UserId} {pair : TokenPair}
      (hfree : w.locks.sessionsFree p (sessionIds w.db (isExpiredSession uid w.now)) = true) :
      LoginStep settings p w r (.purgeExpired uid pair)
        (w.lockSessions p (sessionIds w.db (isExpiredSession uid w.now)))
        (.login r (.purgeCommit pair (sessionIds w.db (isExpiredSession uid w.now))))
  | purgeCommit {pair : TokenPair} {doomed : List SessionId} :
      LoginStep settings p w r (.purgeCommit pair doomed)
        (w.committed p (w.db.deleteSessions doomed) []) (.login r (.respond pair))
  | respond {pair : TokenPair} :
      LoginStep settings p w r (.respond pair) (w.record [.issued pair]) .idle

inductive RefreshStep (settings : Settings) (p : Pid) (w : World) (r : RefreshRequest) :
    RefreshPhase → World → Local → Prop
  | allowlist : RefreshStep settings p w r .allowlist w (.refresh r .lock)
  | lock {copy : User} (hfree : free (w.locks.user r.token.sub) p = true)
      (hcopy : w.db.users.lookup r.token.sub = some copy) (hactive : copy.isActive = true) :
      RefreshStep settings p w r .lock (w.lockUser p r.token.sub)
        (.refresh r (if settings.isStateless then .sign copy else .lineage copy))
  | lineage {copy : User} (hlineage : refreshLineageIsCurrent w.db copy r.token.jti = true) :
      RefreshStep settings p w r (.lineage copy) w (.refresh r (.sign copy))
  | sign {copy : User} {pair : TokenPair}
      (hpair : createAuthTokens settings w.now w.nextJti r.token.sub copy = some pair) :
      RefreshStep settings p w r (.sign copy)
        ({ w with nextJti := w.nextJti + 1 }.record [.signed p pair.access copy.authGeneration])
        (.refresh r (if settings.isStateless then .respond pair else .rotate copy pair))
  | reuse {copy : User} {pair : TokenPair} (hvalid : w.redis.isValid w.now r.token.jti = false) :
      RefreshStep settings p w r (.rotate copy pair) w
        (.revokeUser ⟨none, r.token.sub, true⟩ .capture)
  | rotate {copy : User} {pair : TokenPair} {w' : World} (hredis : r.redis = true)
      (hsend : w.send (.rotate r.token.jti pair.refresh.jti settings.refreshTtlSeconds) = some w') :
      RefreshStep settings p w r (.rotate copy pair) w' (.refresh r (.load copy pair))
  | rotateSkip {copy : User} {pair : TokenPair} (hredis : r.redis = false) :
      RefreshStep settings p w r (.rotate copy pair) w (.refresh r (.load copy pair))
  | load {copy : User} {pair : TokenPair} {pick : Option SessionId}
      {existing : Option (SessionId × ClientSession)}
      (hselect : selectSession w.db r.token.sub pick = some existing) :
      RefreshStep settings p w r (.load copy pair) w
        (.refresh r (.save copy pair
          (authSessionData settings w.now pair.refresh.jti pair.refresh none) existing))
  | save {copy : User} {pair : TokenPair} {data : ClientSessionCreate}
      {existing : Option (SessionId × ClientSession)} {db' : Db}
      (hfree : w.locks.sessionsFree p (existing.toList.map (·.1)) = true)
      (hcommit : commit [createClientSession r.token.sub copy data existing] w.db = .ok db') :
      RefreshStep settings p w r (.save copy pair data existing)
        (w.committed p db'
          (.exchanged r.token.sub r.token.jti data.jwtJti :: stampEvents data.jwtJti db'))
        (.refresh r (.respond pair))
  | respond {pair : TokenPair} :
      RefreshStep settings p w r (.respond pair) ((w.release p).record [.issued pair]) .idle

inductive LogoutStep (settings : Settings) (p : Pid) (w : World) (r : LogoutRequest) :
    LogoutPhase → World → Local → Prop
  | accessPurge (hcurrent : r.access.isCurrent w.now = true)
      (hfree : w.locks.sessionsFree p (sessionIds w.db (carries r.access.jti)) = true) :
      LogoutStep settings p w r .accessPurge
        (w.lockSessions p (sessionIds w.db (carries r.access.jti)))
        (.logout r (.accessCommit (sessionIds w.db (carries r.access.jti))))
  | accessExpired (hcurrent : r.access.isCurrent w.now = false) :
      LogoutStep settings p w r .accessPurge w (.logout r (.refreshRevoke none true))
  | accessCommit {doomed : List SessionId} :
      LogoutStep settings p w r (.accessCommit doomed)
        (w.committed p (w.db.deleteSessions doomed)
          [.revoked (.sessions (jtisOf w.db doomed)) []])
        (.logout r .blacklist)
  | blacklist {w' : World}
      (hsend : w.send (.blacklistJti r.access.jti (wholeSeconds (r.access.exp - w.now))) = some w') :
      LogoutStep settings p w r .blacklist w' (.logout r (.refreshRevoke (some r.access.jti) false))
  | blacklistFailed :
      LogoutStep settings p w r .blacklist w (.logout r (.refreshRevoke none true))
  | blacklistSkip :
      LogoutStep settings p w r .blacklist w (.logout r (.refreshRevoke (some r.access.jti) false))
  | refreshRevoke {accessJti : Option Jti} {accessFailed : Bool} {w' : World} (hredis : r.redis = true)
      (hsend : w.send (.revoke r.refresh.jti) = some w') :
      LogoutStep settings p w r (.refreshRevoke accessJti accessFailed) w'
        (r.finish (some (accessJti.getD r.refresh.jti)) accessFailed)
  | refreshFailed {accessJti : Option Jti} {accessFailed : Bool} (hredis : r.redis = true)
      (hwhy : r.refresh.isCurrent w.now = true → w.redisUp = false) :
      LogoutStep settings p w r (.refreshRevoke accessJti accessFailed) w (r.finish accessJti true)
  | refreshSkip {accessJti : Option Jti} {accessFailed : Bool} (hredis : r.redis = false) :
      LogoutStep settings p w r (.refreshRevoke accessJti accessFailed) w
        (r.finish accessJti
          (accessFailed || settings.effectiveFailureMode .sessionWrite == .failClosed))
  | sessionPurge {jti : Jti} {anyFailed : Bool}
      (hfree : w.locks.sessionsFree p (sessionIds w.db (carries jti)) = true) :
      LogoutStep settings p w r (.sessionPurge jti anyFailed)
        (w.lockSessions p (sessionIds w.db (carries jti)))
        (.logout r (.sessionCommit jti (sessionIds w.db (carries jti)) anyFailed))
  | sessionCommit {jti : Jti} {doomed : List SessionId} {anyFailed : Bool} :
      LogoutStep settings p w r (.sessionCommit jti doomed anyFailed)
        (w.committed p (w.db.deleteSessions doomed)
          [.revoked (.sessions (jtisOf w.db doomed)) []])
        (.logout r (.respond (some jti) anyFailed))
  | respond {jti : Option Jti} {anyFailed : Bool}
      (hanswer : anyFailed = true → settings.effectiveFailureMode .sessionWrite = .failOpen) :
      LogoutStep settings p w r (.respond jti anyFailed) (w.record [.loggedOut r.access r.refresh jti]) .idle

inductive RevokeSessionStep (p : Pid) (w : World) (r : RevokeSessionRequest) :
    RevokeSessionPhase → World → Local → Prop
  | load {row : ClientSession} (hrow : w.db.sessions.lookup r.sessionId = some row) :
      RevokeSessionStep p w r .load w (.revokeSession r (.purge row))
  | purge {row : ClientSession} {doomed : List SessionId}
      (hdoomed : doomed = if (w.db.sessions.lookup r.sessionId).isSome then [r.sessionId] else [])
      (hfree : w.locks.sessionsFree p doomed = true) :
      RevokeSessionStep p w r (.purge row) (w.lockSessions p doomed)
        (.revokeSession r (.commit row doomed))
  | commit {row : ClientSession} {doomed : List SessionId} {db' : Db}
      (hcommit : commit [.appendAudit (r.actor.audit .delete .clientSession r.sessionId row.userId),
        .deleteSessions doomed] w.db = .ok db') :
      RevokeSessionStep p w r (.commit row doomed)
        (w.committed p db' [.revoked (.sessions (jtisOf w.db doomed)) [row.target]])
        (if r.redis then .postCommit [row.target] else .idle)

inductive RevokeUserStep (p : Pid) (w : World) (r : RevokeUserRequest) :
    RevokeUserPhase → World → Local → Prop
  | capture :
      RevokeUserStep p w r .capture w
        (.revokeUser r (.purge (captureTargets w.db r.userId w.now)))
  | purge {targets : List RevocationTarget}
      (hfree : w.locks.sessionsFree p (sessionIds w.db (ownedBy r.userId)) = true) :
      RevokeUserStep p w r (.purge targets)
        (w.lockSessions p (sessionIds w.db (ownedBy r.userId)))
        (.revokeUser r (.commit targets (sessionIds w.db (ownedBy r.userId))))
  | commit {targets : List RevocationTarget} {doomed : List SessionId} {db' : Db}
      (hcommit : commit ((r.actor.toList.map fun actor =>
          .appendAudit (actor.audit .delete .clientSession r.userId r.userId)) ++
        [.deleteSessions doomed]) w.db = .ok db') :
      RevokeUserStep p w r (.commit targets doomed)
        (w.committed p db' [.revoked (.user r.userId) targets])
        (if r.redis then .postCommit targets else .idle)

inductive DeleteMeStep (p : Pid) (w : World) (r : DeleteMeRequest) :
    DeleteMePhase → World → Local → Prop
  | authenticate
      (hclaims : hasSuperuserPrivileges r.token.role r.token.isSuperuser = false) :
      DeleteMeStep p w r .authenticate w (.deleteMe r .load)
  | load (huser : (w.db.users.lookup r.token.sub).isSome = true) :
      DeleteMeStep p w r .load w (.deleteMe r .commit)
  | commit (hfree : free (w.locks.user r.token.sub) p = true) :
      DeleteMeStep p w r .commit
        (w.committed p (w.db.deleteUser r.token.sub) [.revoked (.user r.token.sub) []]) .idle

inductive LegacySweepStep (p : Pid) (w : World) : LegacySweepPhase → World → Local → Prop
  | purge (hfree : w.locks.sessionsFree p (sessionIds w.db (·.authGeneration.isNone)) = true) :
      LegacySweepStep p w .purge (w.lockSessions p (sessionIds w.db (·.authGeneration.isNone)))
        (.legacySweep (.commit (sessionIds w.db (·.authGeneration.isNone))))
  | commit {doomed : List SessionId} :
      LegacySweepStep p w (.commit doomed)
        (w.committed p (w.db.deleteSessions doomed)
          [.revoked (.sessions (jtisOf w.db doomed)) []])
        .idle

inductive DrainStep (settings : Settings) (p : Pid) (w : World) (r : DrainRequest) :
    DrainPhase → World → Local → Prop
  | claim {ids : List OutboxId} {db' : Db}
      (hdue : ∀ id ∈ ids, ∃ row, w.db.outbox.lookup id = some row ∧
        OutboxWorker.isDue r.now row = true)
      (hcommit : commit (leaseWrites settings r.now w.db ids) w.db = .ok db') :
      DrainStep settings p w r .claim (w.committed p db' []) (.drain r (.next ids))
  | done : DrainStep settings p w r (.next []) w .idle
  | next {id : OutboxId} {rest : List OutboxId} {copy : RevocationOutbox}
      (hcopy : w.db.outbox.lookup id = some copy) :
      DrainStep settings p w r (.next (id :: rest)) w (.drain r (.deliver id copy rest))
  | lapsed {id : OutboxId} {rest : List OutboxId} {copy : RevocationOutbox} {jti : Jti}
      {expiresAt : Int} (heffect : copy.effect = .blacklist jti expiresAt)
      (httl : wholeSeconds (expiresAt - r.now) ≤ 0) :
      DrainStep settings p w r (.deliver id copy rest) w (.drain r (.finish true id copy rest))
  | blacklist {id : OutboxId} {rest : List OutboxId} {copy : RevocationOutbox} {jti : Jti}
      {expiresAt : Int} {w' : World} (heffect : copy.effect = .blacklist jti expiresAt)
      (hsend : w.send (.blacklistJti jti (wholeSeconds (expiresAt - r.now))) = some w') :
      DrainStep settings p w r (.deliver id copy rest) w' (.drain r (.revoke jti id copy rest))
  | publish {id : OutboxId} {rest : List OutboxId} {copy : RevocationOutbox}
      {event : SessionRevokedEvent} (heffect : copy.effect = .publish event) :
      DrainStep settings p w r (.deliver id copy rest) (w.record [.emitted event])
        (.drain r (.finish true id copy rest))
  | deliveryFailed {id : OutboxId} {rest : List OutboxId} {copy : RevocationOutbox}
      {phase : DrainPhase}
      (hphase : phase = .deliver id copy rest ∨ ∃ jti, phase = .revoke jti id copy rest) :
      DrainStep settings p w r phase (w.record [.deliveryFailed id])
        (.drain r (.finish false id copy rest))
  | revoke {jti : Jti} {id : OutboxId} {rest : List OutboxId} {copy : RevocationOutbox} {w' : World}
      (hsend : w.send (.revoke jti) = some w') :
      DrainStep settings p w r (.revoke jti id copy rest) w' (.drain r (.finish true id copy rest))
  | finish {success : Bool} {id : OutboxId} {rest : List OutboxId} {copy : RevocationOutbox} {db' : Db}
      (hcommit : commit [.updateOutbox id copy (if success then OutboxWorker.completed r.now copy
        else OutboxWorker.failed settings r.now copy)] w.db = .ok db') :
      DrainStep settings p w r (.finish success id copy rest) (w.committed p db' [])
        (.drain r (.next rest))

/-- A request whose transaction is open, or which has not started one. -/
def Local.isOpen : Local → Bool
  | .idle | .postCommit _ | .commands _ => false
  | _ => true

/-- The requests that may begin, each with the guards of its arrival. -/
inductive Begins (settings : Settings) (w : World) : Local → Prop
  | update {r : UpdateRequest} : Begins settings w (.update r .load)
  | delete {r : DeleteRequest} : Begins settings w (.delete r .load)
  | repair {r : RepairRequest} : Begins settings w (.repair r .load)
  | login {r : LoginRequest} : Begins settings w (.login r .read)
  | refresh {r : RefreshRequest} {pair : TokenPair} (hissued : .issued pair ∈ w.log)
      (htoken : pair.refresh = r.token) : Begins settings w (.refresh r .allowlist)
  | logoutStateful {r : LogoutRequest} {first second : TokenPair} (hmode : settings.isStateful = true)
      (hredis : r.redis = true → w.redisUp = true) (hfirst : .issued first ∈ w.log)
      (haccess : first.access = r.access) (hsecond : .issued second ∈ w.log)
      (hrefresh : second.refresh = r.refresh) : Begins settings w (.logout r .accessPurge)
  | logoutHybrid {r : LogoutRequest} {first second : TokenPair} (hmode : settings.isStateful = false)
      (hredis : r.redis = true → w.redisUp = true) (hfirst : .issued first ∈ w.log)
      (haccess : first.access = r.access) (hsecond : .issued second ∈ w.log)
      (hrefresh : second.refresh = r.refresh) : Begins settings w (.logout r (.refreshRevoke none false))
  | revokeSession {r : RevokeSessionRequest} (hredis : r.redis = true → w.redisUp = true) :
      Begins settings w (.revokeSession r .load)
  | revokeUser {r : RevokeUserRequest} (hactor : r.actor.isSome = true)
      (hredis : r.redis = true → w.redisUp = true) : Begins settings w (.revokeUser r .capture)
  | deleteMe {r : DeleteMeRequest} {pair : TokenPair} (hissued : .issued pair ∈ w.log)
      (htoken : pair.access = r.token) : Begins settings w (.deleteMe r .authenticate)
  | legacySweep : Begins settings w (.legacySweep .purge)
  | drain {r : DrainRequest} (hnow : r.now = w.now) : Begins settings w (.drain r .claim)

theorem Local.mayBegin_sound {settings : Settings} {w : World} {request : Local}
    (hmay : request.mayBegin settings w = true) : Begins settings w request := by
  cases request with
  | idle | postCommit | commands => cases hmay
  | update r phase =>
      cases phase with
      | load => exact .update
      | _ => cases hmay
  | delete r phase =>
      cases phase with
      | load => exact .delete
      | _ => cases hmay
  | repair r phase =>
      cases phase with
      | load => exact .repair
      | _ => cases hmay
  | login r phase =>
      cases phase with
      | read => exact .login
      | _ => cases hmay
  | refresh r phase =>
      cases phase with
      | allowlist =>
          simp only [mayBegin, Bool.and_eq_true, World.issuedPair_iff, beq_iff_eq] at hmay
          obtain ⟨⟨-, pair, hissued, htoken⟩, -⟩ := hmay
          exact .refresh hissued htoken
      | _ => cases hmay
  | logout r phase =>
      simp only [mayBegin, Bool.and_eq_true, World.issuedPair_iff, beq_iff_eq] at hmay
      obtain ⟨⟨⟨⟨-, hredis⟩, hphase⟩, first, hfirst, haccess⟩, second, hsecond, hrefresh⟩ := hmay
      have hredis' : r.redis = true → w.redisUp = true := by
        intro htrue
        simpa [htrue] using hredis
      cases hmode : settings.isStateful with
      | true =>
          rw [hmode, if_pos rfl] at hphase
          subst hphase
          exact .logoutStateful hmode hredis' hfirst haccess hsecond hrefresh
      | false =>
          rw [hmode, if_neg Bool.false_ne_true] at hphase
          subst hphase
          exact .logoutHybrid hmode hredis' hfirst haccess hsecond hrefresh
  | revokeSession r phase =>
      cases phase with
      | load =>
          refine .revokeSession fun htrue => ?_
          simpa [mayBegin, htrue] using hmay
      | _ => cases hmay
  | revokeUser r phase =>
      cases phase with
      | capture =>
          rw [mayBegin, Bool.and_eq_true] at hmay
          refine .revokeUser hmay.1 fun htrue => ?_
          simpa [htrue] using hmay.2
      | _ => cases hmay
  | deleteMe r phase =>
      cases phase with
      | authenticate =>
          simp only [mayBegin, World.issuedPair_iff, beq_iff_eq] at hmay
          obtain ⟨pair, hissued, htoken⟩ := hmay
          exact .deleteMe hissued htoken
      | _ => cases hmay
  | legacySweep phase =>
      cases phase with
      | purge => exact .legacySweep
      | _ => cases hmay
  | drain r phase =>
      cases phase with
      | claim =>
          rw [mayBegin, Bool.and_eq_true, beq_iff_eq] at hmay
          exact .drain hmay.1
      | _ => cases hmay

inductive Step (settings : Settings) (p : Pid) (w : World) : Local → Action → World → Local → Prop
  | begin {request : Local} (hbegins : Begins settings w request) :
      Step settings p w .idle (.begin request) w request
  | tick {elapsed : Nat} :
      Step settings p w .idle (.tick elapsed) { w with now := w.now + elapsed } .idle
  | setRedis {available : Bool} :
      Step settings p w .idle (.setRedis available) { w with redisUp := available } .idle
  | reap {db' : Db}
      (hcommit : commit [.reapOutbox (OutboxWorker.reapHorizon settings w.now)] w.db = .ok db') :
      Step settings p w .idle .reap (w.committed p db' []) .idle
  | abort {l : Local} : Step settings p w l .abort (w.release p) .idle
  | error {l : Local} {a : Action} (hopen : l.isOpen = true) :
      Step settings p w l a (w.release p) .idle
  | commandError {command : RedisCommand} {rest : List RedisCommand} {a : Action}
      (hsend : w.send command = none) :
      Step settings p w (.commands (command :: rest)) a (w.release p) .idle
  | update {r : UpdateRequest} {phase : UpdatePhase} {a : Action} {w' : World} {l' : Local}
      (hstep : UpdateStep settings p w r phase w' l') : Step settings p w (.update r phase) a w' l'
  | delete {r : DeleteRequest} {phase : DeletePhase} {a : Action} {w' : World} {l' : Local}
      (hstep : DeleteStep p w r phase w' l') : Step settings p w (.delete r phase) a w' l'
  | repair {r : RepairRequest} {phase : RepairPhase} {a : Action} {w' : World} {l' : Local}
      (hstep : RepairStep p w r phase w' l') : Step settings p w (.repair r phase) a w' l'
  | login {r : LoginRequest} {phase : LoginPhase} {a : Action} {w' : World} {l' : Local}
      (hstep : LoginStep settings p w r phase w' l') : Step settings p w (.login r phase) a w' l'
  | refresh {r : RefreshRequest} {phase : RefreshPhase} {a : Action} {w' : World} {l' : Local}
      (hstep : RefreshStep settings p w r phase w' l') :
      Step settings p w (.refresh r phase) a w' l'
  | logout {r : LogoutRequest} {phase : LogoutPhase} {a : Action} {w' : World} {l' : Local}
      (hstep : LogoutStep settings p w r phase w' l') : Step settings p w (.logout r phase) a w' l'
  | revokeSession {r : RevokeSessionRequest} {phase : RevokeSessionPhase} {a : Action} {w' : World}
      {l' : Local} (hstep : RevokeSessionStep p w r phase w' l') :
      Step settings p w (.revokeSession r phase) a w' l'
  | revokeUser {r : RevokeUserRequest} {phase : RevokeUserPhase} {a : Action} {w' : World} {l' : Local}
      (hstep : RevokeUserStep p w r phase w' l') :
      Step settings p w (.revokeUser r phase) a w' l'
  | deleteMe {r : DeleteMeRequest} {phase : DeleteMePhase} {a : Action} {w' : World} {l' : Local}
      (hstep : DeleteMeStep p w r phase w' l') : Step settings p w (.deleteMe r phase) a w' l'
  | legacySweep {phase : LegacySweepPhase} {a : Action} {w' : World} {l' : Local}
      (hstep : LegacySweepStep p w phase w' l') : Step settings p w (.legacySweep phase) a w' l'
  | drain {r : DrainRequest} {phase : DrainPhase} {a : Action} {w' : World} {l' : Local}
      (hstep : DrainStep settings p w r phase w' l') : Step settings p w (.drain r phase) a w' l'
  | postCommit {targets : List RevocationTarget} {a : Action} :
      Step settings p w (.postCommit targets) a w
        (.commands (applyPostCommitRevocation w.now targets))
  | commandsDone {a : Action} : Step settings p w (.commands []) a w .idle
  | command {command : RedisCommand} {rest : List RedisCommand} {a : Action} {w' : World}
      (hsend : w.send command = some w') :
      Step settings p w (.commands (command :: rest)) a w' (.commands rest)

section soundness

variable {settings : Settings} {p : Pid} {w w' : World} {l' : Local}

/-- The outcome of an error. -/
def RolledBack (p : Pid) (w w' : World) (l' : Local) : Prop := w' = w.release p ∧ l' = .idle

theorem failed_eq_some (hstep : failed p w = some (w', l')) : RolledBack p w w' l' := by
  rw [failed, Option.some.injEq, Prod.mk.injEq] at hstep
  exact ⟨hstep.1.symm, hstep.2.symm⟩

theorem committing_eq_some {writes : List Write} {events : Db → List Event} {after : Local}
    (hstep : committing w p writes events after = some (w', l')) :
    RolledBack p w w' l' ∨ ∃ db', commit writes w.db = .ok db' ∧
      w' = w.committed p db' (events db') ∧ l' = after := by
  rw [committing] at hstep
  split at hstep
  · next w₁ htransact =>
      obtain ⟨db', hcommit, rfl⟩ := World.transact_eq_some htransact
      rw [Option.some.injEq, Prod.mk.injEq] at hstep
      exact .inr ⟨db', hcommit, hstep.1.symm, hstep.2.symm⟩
  · exact .inl (failed_eq_some hstep)

theorem purging_eq_some {doomed : List SessionId} {after : Local}
    (hstep : purging w p doomed after = some (w', l')) :
    w.locks.sessionsFree p doomed = true ∧ w' = w.lockSessions p doomed ∧ l' = after := by
  rw [purging] at hstep
  split at hstep
  · next hfree =>
      rw [Option.some.injEq, Prod.mk.injEq] at hstep
      exact ⟨hfree, hstep.1.symm, hstep.2.symm⟩
  · cases hstep

theorem sending_eq_some {command : RedisCommand} {onError : Option (World × Local)} {after : Local}
    (hstep : sending w command onError after = some (w', l')) :
    (w.send command = none ∧ onError = some (w', l')) ∨ (w.send command = some w' ∧ l' = after) := by
  rw [sending] at hstep
  split at hstep
  · next w₁ hsend =>
      rw [Option.some.injEq, Prod.mk.injEq] at hstep
      obtain ⟨rfl, rfl⟩ := hstep
      exact .inr ⟨hsend, rfl⟩
  · next hsend => exact .inl ⟨hsend, hstep⟩

theorem World.send_revoke_eq_none {jti : Jti} (hsend : w.send (.revoke jti) = none) :
    w.redisUp = false := by
  simpa [World.send, Redis.execute] using hsend

theorem moving_eq_some {w₁ : World} {l₁ : Local} (hstep : some (w₁, l₁) = some (w', l')) :
    w' = w₁ ∧ l' = l₁ := by
  rw [Option.some.injEq, Prod.mk.injEq] at hstep
  exact ⟨hstep.1.symm, hstep.2.symm⟩

theorem UpdateRequest.step_sound {r : UpdateRequest} {phase : UpdatePhase}
    (hstep : r.step settings p w phase = some (w', l')) :
    RolledBack p w w' l' ∨ UpdateStep settings p w r phase w' l' := by
  cases phase with
  | load =>
      simp only [UpdateRequest.step] at hstep
      split at hstep
      · exact .inl (failed_eq_some hstep)
      · next copy hcopy =>
          obtain ⟨rfl, rfl⟩ := moving_eq_some hstep
          exact .inr (.load hcopy)
  | checkEmail copy =>
      simp only [UpdateRequest.step] at hstep
      split at hstep
      · exact .inl (failed_eq_some hstep)
      · split at hstep
        · exact .inl (failed_eq_some hstep)
        · next hpromotion =>
            split at hstep
            · next haffects =>
                obtain ⟨rfl, rfl⟩ := moving_eq_some hstep
                exact .inr (.checkEmail hpromotion haffects)
            · next haffects =>
                obtain ⟨rfl, rfl⟩ := moving_eq_some hstep
                exact .inr (.checkEmailOnly hpromotion (Bool.not_eq_true _ ▸ haffects))
  | lockPolicy copy =>
      simp only [UpdateRequest.step] at hstep
      split at hstep
      · next hfree =>
          obtain ⟨rfl, rfl⟩ := moving_eq_some hstep
          exact .inr (.lockPolicy hfree)
      · cases hstep
  | lockUser copy revision =>
      simp only [UpdateRequest.step] at hstep
      split at hstep
      · next hfree =>
          obtain ⟨rfl, rfl⟩ := moving_eq_some hstep
          exact .inr (.lockUser hfree)
      · cases hstep
  | enforce copy revision =>
      simp only [UpdateRequest.step] at hstep
      split at hstep
      · split at hstep
        · next hfree =>
            split at hstep
            · exact .inl (failed_eq_some hstep)
            · next hguard =>
                obtain ⟨rfl, rfl⟩ := moving_eq_some hstep
                exact .inr (.enforceCount hfree hguard)
        · cases hstep
      · next hskip =>
          obtain ⟨rfl, rfl⟩ := moving_eq_some hstep
          refine .inr (.enforceSkip fun hcanonical => ?_)
          simpa [hcanonical] using hskip
  | apply copy revision =>
      simp only [UpdateRequest.step] at hstep
      split at hstep
      · exact .inl (failed_eq_some hstep)
      · next plan hplan =>
          split at hstep
          · next hchanged =>
              obtain ⟨rfl, rfl⟩ := moving_eq_some hstep
              exact .inr (.apply hplan hchanged)
          · next hchanged =>
              obtain ⟨rfl, rfl⟩ := moving_eq_some hstep
              exact .inr (.applyUnchanged hplan (Bool.not_eq_true _ ▸ hchanged))
  | purge copy plan revision targets =>
      simp only [UpdateRequest.step] at hstep
      obtain ⟨hfree, rfl, rfl⟩ := purging_eq_some hstep
      exact .inr (.purge hfree)
  | commit copy plan revision targets doomed =>
      simp only [UpdateRequest.step] at hstep
      split at hstep
      · next hfree =>
          obtain hfail | ⟨db', hcommit, rfl, rfl⟩ := committing_eq_some hstep
          · exact .inl hfail
          · exact .inr (.commit hfree hcommit)
      · cases hstep

theorem DeleteRequest.step_sound {r : DeleteRequest} {phase : DeletePhase}
    (hstep : r.step p w phase = some (w', l')) :
    RolledBack p w w' l' ∨ DeleteStep p w r phase w' l' := by
  cases phase with
  | load =>
      simp only [DeleteRequest.step] at hstep
      split at hstep
      · exact .inl (failed_eq_some hstep)
      · next copy hcopy =>
          obtain ⟨rfl, rfl⟩ := moving_eq_some hstep
          exact .inr (.load hcopy)
  | lockPolicy copy =>
      simp only [DeleteRequest.step] at hstep
      split at hstep
      · next hfree =>
          obtain ⟨rfl, rfl⟩ := moving_eq_some hstep
          exact .inr (.lockPolicy hfree)
      · cases hstep
  | lockUser copy revision =>
      simp only [DeleteRequest.step] at hstep
      split at hstep
      · next hfree =>
          obtain ⟨rfl, rfl⟩ := moving_eq_some hstep
          exact .inr (.lockUser hfree)
      · cases hstep
  | enforce copy revision =>
      simp only [DeleteRequest.step] at hstep
      split at hstep
      · exact .inl (failed_eq_some hstep)
      · next terminal hterminal =>
          split at hstep
          · split at hstep
            · next hfree =>
                split at hstep
                · exact .inl (failed_eq_some hstep)
                · next hguard =>
                    obtain ⟨rfl, rfl⟩ := moving_eq_some hstep
                    exact .inr (.enforceCount hterminal hfree hguard)
            · cases hstep
          · next hskip =>
              obtain ⟨rfl, rfl⟩ := moving_eq_some hstep
              exact .inr (.enforceSkip hterminal (Bool.not_eq_true _ ▸ hskip))
  | purge copy terminal revision =>
      simp only [DeleteRequest.step] at hstep
      obtain ⟨hfree, rfl, rfl⟩ := purging_eq_some hstep
      exact .inr (.purge hfree)
  | commit copy terminal revision doomed =>
      simp only [DeleteRequest.step] at hstep
      obtain hfail | ⟨db', hcommit, rfl, rfl⟩ := committing_eq_some hstep
      · exact .inl hfail
      · exact .inr (.commit hcommit)

theorem RepairRequest.step_sound {r : RepairRequest} {phase : RepairPhase}
    (hstep : r.step p w phase = some (w', l')) :
    RolledBack p w w' l' ∨ RepairStep p w r phase w' l' := by
  cases phase with
  | load =>
      simp only [RepairRequest.step] at hstep
      split at hstep
      · next hfree =>
          split at hstep
          · exact .inl (failed_eq_some hstep)
          · next current hcurrent =>
              split at hstep
              · exact .inl (failed_eq_some hstep)
              · next hmismatch =>
                  split at hstep
                  · exact .inl (failed_eq_some hstep)
                  · next newGeneration hnext =>
                      obtain ⟨rfl, rfl⟩ := moving_eq_some hstep
                      refine .inr (.load hfree hcurrent ?_ hnext)
                      rw [← Bool.not_eq_true, privilegeClaimsAreConsistent_iff]
                      simpa using hmismatch
      · cases hstep
  | capture newGeneration =>
      simp only [RepairRequest.step] at hstep
      obtain ⟨rfl, rfl⟩ := moving_eq_some hstep
      exact .inr .capture
  | purge newGeneration targets =>
      simp only [RepairRequest.step] at hstep
      obtain ⟨hfree, rfl, rfl⟩ := purging_eq_some hstep
      exact .inr (.purge hfree)
  | commit newGeneration targets doomed =>
      simp only [RepairRequest.step] at hstep
      obtain hfail | ⟨db', hcommit, rfl, rfl⟩ := committing_eq_some hstep
      · exact .inl hfail
      · exact .inr (.commit hcommit)

theorem LoginRequest.step_sound {r : LoginRequest} {phase : LoginPhase}
    {pick : Option (Option SessionId)} (hstep : r.step settings p w pick phase = some (w', l')) :
    RolledBack p w w' l' ∨ LoginStep settings p w r phase w' l' := by
  cases phase with
  | read =>
      simp only [LoginRequest.step] at hstep
      split at hstep
      · next email password hcredentials =>
          split at hstep
          · exact .inl (failed_eq_some hstep)
          · next uid copy hfound =>
              split at hstep
              · next hactive =>
                  obtain ⟨rfl, rfl⟩ := moving_eq_some hstep
                  exact .inr (.read (getUserByEmail_eq_some (authenticate_eq_some hfound)).1 fun _ => hactive)
              · exact .inl (failed_eq_some hstep)
      · next token hcredentials =>
          split at hstep
          · next uid copy hfound =>
              obtain ⟨rfl, rfl⟩ := moving_eq_some hstep
              refine .inr (.read (getUserByEmail_eq_some hfound).1 fun hexternal => ?_)
              simp [LoginRequest.external, hcredentials] at hexternal
          · obtain hfail | ⟨db', hcommit, rfl, rfl⟩ := committing_eq_some hstep
            · exact .inl hfail
            · exact .inr (.create hcredentials hcommit)
  | reload uid =>
      simp only [LoginRequest.step] at hstep
      split at hstep
      · exact .inl (failed_eq_some hstep)
      · next copy hcopy =>
          obtain ⟨rfl, rfl⟩ := moving_eq_some hstep
          exact .inr (.reload hcopy)
  | sign uid copy =>
      simp only [LoginRequest.step] at hstep
      split at hstep
      · exact .inl (failed_eq_some hstep)
      · next pair hpair =>
          obtain ⟨rfl, rfl⟩ := moving_eq_some hstep
          refine .inr (.sign hpair ?_)
          split
          · exact .inl rfl
          · exact .inr rfl
  | load uid copy pair =>
      simp only [LoginRequest.step] at hstep
      split at hstep
      · cases hstep
      · next existing hselect =>
          obtain ⟨pick', -, hselect'⟩ := Option.bind_eq_some_iff.1 hselect
          obtain ⟨rfl, rfl⟩ := moving_eq_some hstep
          exact .inr (.load hselect')
  | save uid copy pair data existing =>
      simp only [LoginRequest.step] at hstep
      split at hstep
      · next hfree =>
          obtain hfail | ⟨db', hcommit, rfl, rfl⟩ := committing_eq_some hstep
          · exact .inl hfail
          · exact .inr (.save hfree hcommit)
      · cases hstep
  | register uid pair =>
      simp only [LoginRequest.step] at hstep
      obtain ⟨-, herror⟩ | ⟨hsend, rfl⟩ := sending_eq_some hstep
      · exact .inl (failed_eq_some herror)
      · refine .inr (.register hsend ?_)
        split
        · exact .inl rfl
        · exact .inr rfl
  | purgeExpired uid pair =>
      simp only [LoginRequest.step] at hstep
      obtain ⟨hfree, rfl, rfl⟩ := purging_eq_some hstep
      exact .inr (.purgeExpired hfree)
  | purgeCommit pair doomed =>
      simp only [LoginRequest.step] at hstep
      obtain hfail | ⟨db', hcommit, rfl, rfl⟩ := committing_eq_some hstep
      · exact .inl hfail
      · obtain rfl := Except.ok.inj hcommit
        exact .inr .purgeCommit
  | respond pair =>
      simp only [LoginRequest.step] at hstep
      obtain ⟨rfl, rfl⟩ := moving_eq_some hstep
      exact .inr .respond

theorem RefreshRequest.step_sound {r : RefreshRequest} {phase : RefreshPhase}
    {pick : Option (Option SessionId)} (hstep : r.step settings p w pick phase = some (w', l')) :
    RolledBack p w w' l' ∨ RefreshStep settings p w r phase w' l' := by
  cases phase with
  | allowlist =>
      simp only [RefreshRequest.step] at hstep
      split at hstep
      · obtain ⟨rfl, rfl⟩ := moving_eq_some hstep
        exact .inr .allowlist
      · split at hstep
        · split at hstep
          · obtain ⟨rfl, rfl⟩ := moving_eq_some hstep
            exact .inr .allowlist
          · exact .inl (failed_eq_some hstep)
        · split at hstep
          · exact .inl (failed_eq_some hstep)
          · obtain ⟨rfl, rfl⟩ := moving_eq_some hstep
            exact .inr .allowlist
  | lock =>
      simp only [RefreshRequest.step] at hstep
      split at hstep
      · next hfree =>
          split at hstep
          · exact .inl (failed_eq_some hstep)
          · next copy hcopy =>
              split at hstep
              · next hactive =>
                  obtain ⟨rfl, rfl⟩ := moving_eq_some hstep
                  exact .inr (.lock hfree hcopy hactive)
              · exact .inl (failed_eq_some hstep)
      · cases hstep
  | lineage copy =>
      simp only [RefreshRequest.step] at hstep
      split at hstep
      · next hlineage =>
          obtain ⟨rfl, rfl⟩ := moving_eq_some hstep
          exact .inr (.lineage hlineage)
      · exact .inl (failed_eq_some hstep)
  | sign copy =>
      simp only [RefreshRequest.step] at hstep
      split at hstep
      · exact .inl (failed_eq_some hstep)
      · next pair hpair =>
          obtain ⟨rfl, rfl⟩ := moving_eq_some hstep
          exact .inr (.sign hpair)
  | rotate copy pair =>
      simp only [RefreshRequest.step] at hstep
      split at hstep
      · next hredis =>
          split at hstep
          · next hreuse =>
              obtain ⟨rfl, rfl⟩ := moving_eq_some hstep
              rw [Bool.and_eq_true, Bool.not_eq_true'] at hreuse
              exact .inr (.reuse hreuse.2)
          · obtain ⟨-, herror⟩ | ⟨hsend, rfl⟩ := sending_eq_some hstep
            · exact .inl (failed_eq_some herror)
            · exact .inr (.rotate hredis hsend)
      · next hredis =>
          obtain ⟨rfl, rfl⟩ := moving_eq_some hstep
          exact .inr (.rotateSkip (Bool.not_eq_true _ ▸ hredis))
  | load copy pair =>
      simp only [RefreshRequest.step] at hstep
      split at hstep
      · cases hstep
      · next existing hselect =>
          obtain ⟨pick', -, hselect'⟩ := Option.bind_eq_some_iff.1 hselect
          obtain ⟨rfl, rfl⟩ := moving_eq_some hstep
          exact .inr (.load hselect')
  | save copy pair data existing =>
      simp only [RefreshRequest.step] at hstep
      split at hstep
      · next hfree =>
          obtain hfail | ⟨db', hcommit, rfl, rfl⟩ := committing_eq_some hstep
          · exact .inl hfail
          · exact .inr (.save hfree hcommit)
      · cases hstep
  | respond pair =>
      simp only [RefreshRequest.step] at hstep
      obtain ⟨rfl, rfl⟩ := moving_eq_some hstep
      exact .inr .respond

theorem LogoutRequest.step_sound {r : LogoutRequest} {phase : LogoutPhase}
    (hstep : r.step settings p w phase = some (w', l')) :
    RolledBack p w w' l' ∨ LogoutStep settings p w r phase w' l' := by
  cases phase with
  | accessPurge =>
      simp only [LogoutRequest.step] at hstep
      split at hstep
      · next hcurrent =>
          obtain ⟨hfree, rfl, rfl⟩ := purging_eq_some hstep
          exact .inr (.accessPurge hcurrent hfree)
      · next hcurrent =>
          obtain ⟨rfl, rfl⟩ := moving_eq_some hstep
          exact .inr (.accessExpired (Bool.not_eq_true _ ▸ hcurrent))
  | accessCommit doomed =>
      simp only [LogoutRequest.step] at hstep
      obtain hfail | ⟨db', hcommit, rfl, rfl⟩ := committing_eq_some hstep
      · exact .inl hfail
      · obtain rfl := Except.ok.inj hcommit
        exact .inr .accessCommit
  | blacklist =>
      simp only [LogoutRequest.step] at hstep
      split at hstep
      · obtain ⟨-, herror⟩ | ⟨hsend, rfl⟩ := sending_eq_some hstep
        · obtain ⟨rfl, rfl⟩ := moving_eq_some herror
          exact .inr .blacklistFailed
        · exact .inr (.blacklist hsend)
      · obtain ⟨rfl, rfl⟩ := moving_eq_some hstep
        exact .inr .blacklistSkip
  | refreshRevoke accessJti accessFailed =>
      simp only [LogoutRequest.step] at hstep
      split at hstep
      · next hredis =>
          split at hstep
          · obtain ⟨hdown, herror⟩ | ⟨hsend, rfl⟩ := sending_eq_some hstep
            · obtain ⟨rfl, rfl⟩ := moving_eq_some herror
              exact .inr (.refreshFailed hredis fun _ => World.send_revoke_eq_none hdown)
            · exact .inr (.refreshRevoke hredis hsend)
          · next hcurrent =>
              obtain ⟨rfl, rfl⟩ := moving_eq_some hstep
              exact .inr (.refreshFailed hredis fun h => absurd h hcurrent)
      · next hredis =>
          obtain ⟨rfl, rfl⟩ := moving_eq_some hstep
          exact .inr (.refreshSkip (Bool.not_eq_true _ ▸ hredis))
  | sessionPurge jti anyFailed =>
      simp only [LogoutRequest.step] at hstep
      obtain ⟨hfree, rfl, rfl⟩ := purging_eq_some hstep
      exact .inr (.sessionPurge hfree)
  | sessionCommit jti doomed anyFailed =>
      simp only [LogoutRequest.step] at hstep
      obtain hfail | ⟨db', hcommit, rfl, rfl⟩ := committing_eq_some hstep
      · exact .inl hfail
      · obtain rfl := Except.ok.inj hcommit
        exact .inr .sessionCommit
  | respond jti anyFailed =>
      simp only [LogoutRequest.step] at hstep
      split at hstep
      · exact .inl (failed_eq_some hstep)
      · next hanswer =>
          obtain ⟨rfl, rfl⟩ := moving_eq_some hstep
          refine .inr (.respond fun hfailed => ?_)
          cases hmode : settings.effectiveFailureMode .sessionWrite with
          | failOpen => rfl
          | failClosed => simp [hfailed, hmode] at hanswer

theorem RevokeSessionRequest.step_sound {r : RevokeSessionRequest} {phase : RevokeSessionPhase}
    (hstep : r.step p w phase = some (w', l')) :
    RolledBack p w w' l' ∨ RevokeSessionStep p w r phase w' l' := by
  cases phase with
  | load =>
      simp only [RevokeSessionRequest.step] at hstep
      split at hstep
      · exact .inl (failed_eq_some hstep)
      · next row hrow =>
          obtain ⟨rfl, rfl⟩ := moving_eq_some hstep
          exact .inr (.load hrow)
  | purge row =>
      simp only [RevokeSessionRequest.step] at hstep
      obtain ⟨hfree, rfl, rfl⟩ := purging_eq_some hstep
      exact .inr (.purge rfl hfree)
  | commit row doomed =>
      simp only [RevokeSessionRequest.step] at hstep
      obtain hfail | ⟨db', hcommit, rfl, rfl⟩ := committing_eq_some hstep
      · exact .inl hfail
      · exact .inr (.commit hcommit)

theorem RevokeUserRequest.step_sound {r : RevokeUserRequest} {phase : RevokeUserPhase}
    (hstep : r.step p w phase = some (w', l')) :
    RolledBack p w w' l' ∨ RevokeUserStep p w r phase w' l' := by
  cases phase with
  | capture =>
      simp only [RevokeUserRequest.step] at hstep
      obtain ⟨rfl, rfl⟩ := moving_eq_some hstep
      exact .inr .capture
  | purge targets =>
      simp only [RevokeUserRequest.step] at hstep
      obtain ⟨hfree, rfl, rfl⟩ := purging_eq_some hstep
      exact .inr (.purge hfree)
  | commit targets doomed =>
      simp only [RevokeUserRequest.step] at hstep
      obtain hfail | ⟨db', hcommit, rfl, rfl⟩ := committing_eq_some hstep
      · exact .inl hfail
      · exact .inr (.commit hcommit)

theorem getCurrentUser_eq_ok {redis : Option Redis} {now : Int} {token user : AccessToken}
    (haccepted : getCurrentUser settings redis now token = .ok user) :
    user = token ∧ token.isCurrent now = true ∧ token.isActive = true := by
  rw [getCurrentUser] at haccepted
  split at haccepted
  · cases haccepted
  · next hcurrent =>
      split at haccepted
      · cases haccepted
      · split at haccepted
        · next hactive => exact ⟨(Except.ok.inj haccepted).symm, by simpa using hcurrent, hactive⟩
        · cases haccepted

theorem DeleteMeRequest.step_sound {r : DeleteMeRequest} {phase : DeleteMePhase}
    (hstep : r.step settings p w phase = some (w', l')) :
    RolledBack p w w' l' ∨ DeleteMeStep p w r phase w' l' := by
  cases phase with
  | authenticate =>
      simp only [DeleteMeRequest.step] at hstep
      split at hstep
      · exact .inl (failed_eq_some hstep)
      · next currentUser haccepted =>
          split at hstep
          · exact .inl (failed_eq_some hstep)
          · next hclaims =>
              obtain ⟨rfl, rfl⟩ := moving_eq_some hstep
              obtain ⟨rfl, -⟩ := getCurrentUser_eq_ok haccepted
              exact .inr (.authenticate (Bool.not_eq_true _ ▸ hclaims))
  | load =>
      simp only [DeleteMeRequest.step] at hstep
      split at hstep
      · next huser =>
          obtain ⟨rfl, rfl⟩ := moving_eq_some hstep
          exact .inr (.load huser)
      · exact .inl (failed_eq_some hstep)
  | commit =>
      simp only [DeleteMeRequest.step] at hstep
      split at hstep
      · next hfree =>
          obtain hfail | ⟨db', hcommit, rfl, rfl⟩ := committing_eq_some hstep
          · exact .inl hfail
          · obtain rfl := Except.ok.inj hcommit
            exact .inr (.commit hfree)
      · cases hstep

theorem LegacySweepPhase.step_sound {phase : LegacySweepPhase}
    (hstep : phase.step p w = some (w', l')) :
    RolledBack p w w' l' ∨ LegacySweepStep p w phase w' l' := by
  cases phase with
  | purge =>
      simp only [LegacySweepPhase.step] at hstep
      obtain ⟨hfree, rfl, rfl⟩ := purging_eq_some hstep
      exact .inr (.purge hfree)
  | commit doomed =>
      simp only [LegacySweepPhase.step] at hstep
      obtain hfail | ⟨db', hcommit, rfl, rfl⟩ := committing_eq_some hstep
      · exact .inl hfail
      · obtain rfl := Except.ok.inj hcommit
        exact .inr .commit

theorem DrainRequest.claim_sound {r : DrainRequest} {ids : List OutboxId}
    (hstep : r.claim settings p w ids = some (w', l')) :
    RolledBack p w w' l' ∨ DrainStep settings p w r .claim w' l' := by
  rw [DrainRequest.claim] at hstep
  split at hstep
  · next hguard =>
      obtain hfail | ⟨db', hcommit, rfl, rfl⟩ := committing_eq_some hstep
      · exact .inl hfail
      · refine .inr (.claim (fun id hid => ?_) hcommit)
        have hdue := List.all_eq_true.1 hguard.2.2 id hid
        cases hrow : w.db.outbox.lookup id with
        | none => simp [hrow] at hdue
        | some row => exact ⟨row, rfl, by simpa [hrow] using hdue⟩
  · cases hstep

theorem DrainRequest.step_sound {r : DrainRequest} {phase : DrainPhase}
    (hstep : r.step settings p w phase = some (w', l')) :
    RolledBack p w w' l' ∨ DrainStep settings p w r phase w' l' := by
  cases phase with
  | claim => cases hstep
  | next ids =>
      cases ids with
      | nil =>
          simp only [DrainRequest.step] at hstep
          obtain ⟨rfl, rfl⟩ := moving_eq_some hstep
          exact .inr .done
      | cons id rest =>
          simp only [DrainRequest.step] at hstep
          split at hstep
          · exact .inl (failed_eq_some hstep)
          · next copy hcopy =>
              obtain ⟨rfl, rfl⟩ := moving_eq_some hstep
              exact .inr (.next hcopy)
  | deliver id copy rest =>
      simp only [DrainRequest.step] at hstep
      split at hstep
      · next jti expiresAt heffect =>
          split at hstep
          · next httl =>
              obtain ⟨rfl, rfl⟩ := moving_eq_some hstep
              exact .inr (.lapsed heffect httl)
          · split at hstep
            · obtain ⟨-, herror⟩ | ⟨hsend, rfl⟩ := sending_eq_some hstep
              · obtain ⟨rfl, rfl⟩ := moving_eq_some herror
                exact .inr (.deliveryFailed (.inl rfl))
              · exact .inr (.blacklist heffect hsend)
            · obtain ⟨rfl, rfl⟩ := moving_eq_some hstep
              exact .inr (.deliveryFailed (.inl rfl))
      · next event heffect =>
          obtain ⟨rfl, rfl⟩ := moving_eq_some hstep
          exact .inr (.publish heffect)
  | revoke jti id copy rest =>
      simp only [DrainRequest.step] at hstep
      obtain ⟨-, herror⟩ | ⟨hsend, rfl⟩ := sending_eq_some hstep
      · obtain ⟨rfl, rfl⟩ := moving_eq_some herror
        exact .inr (.deliveryFailed (.inr ⟨jti, rfl⟩))
      · exact .inr (.revoke hsend)
  | finish success id copy rest =>
      simp only [DrainRequest.step] at hstep
      obtain hfail | ⟨db', hcommit, rfl, rfl⟩ := committing_eq_some hstep
      · exact .inl hfail
      · exact .inr (.finish hcommit)

/-- Every step of the issuer is an instance of a rule. -/
theorem step_sound {l : Local} {a : Action} (hstep : step settings p w l a = some (w', l')) :
    Step settings p w l a w' l' := by
  have hback {l : Local} {a : Action} (hopen : l.isOpen = true) (hfail : RolledBack p w w' l') :
      Step settings p w l a w' l' := by
    obtain ⟨rfl, rfl⟩ := hfail
    exact .error hopen
  have habort {l : Local} (hfailed : failed p w = some (w', l')) :
      Step settings p w l .abort w' l' := by
    obtain ⟨rfl, rfl⟩ := failed_eq_some hfailed
    exact .abort
  cases l with
  | idle =>
      cases a with
      | begin request =>
          simp only [step] at hstep
          split at hstep
          · next hmay =>
              obtain ⟨rfl, rfl⟩ := moving_eq_some hstep
              exact .begin (Local.mayBegin_sound hmay)
          · cases hstep
      | tick elapsed =>
          obtain ⟨rfl, rfl⟩ := moving_eq_some hstep
          exact .tick
      | setRedis available =>
          obtain ⟨rfl, rfl⟩ := moving_eq_some hstep
          exact .setRedis
      | reap =>
          simp only [step] at hstep
          rw [committing, World.transact, commit, Write.apply] at hstep
          obtain ⟨rfl, rfl⟩ := moving_eq_some hstep
          exact .reap rfl
      | proceed | select | claim | abort => cases hstep
  | update r phase =>
      cases a with
      | abort => exact habort hstep
      | proceed => exact (UpdateRequest.step_sound hstep).elim (hback rfl) .update
      | begin | select | claim | reap | tick | setRedis => cases hstep
  | delete r phase =>
      cases a with
      | abort => exact habort hstep
      | proceed => exact (DeleteRequest.step_sound hstep).elim (hback rfl) .delete
      | begin | select | claim | reap | tick | setRedis => cases hstep
  | repair r phase =>
      cases a with
      | abort => exact habort hstep
      | proceed => exact (RepairRequest.step_sound hstep).elim (hback rfl) .repair
      | begin | select | claim | reap | tick | setRedis => cases hstep
  | login r phase =>
      cases a with
      | abort => exact habort hstep
      | proceed =>
          have hrequest : r.step settings p w none phase = some (w', l') := hstep
          exact (LoginRequest.step_sound hrequest).elim (hback rfl) .login
      | select pick =>
          have hrequest : r.step settings p w (some pick) phase = some (w', l') := hstep
          exact (LoginRequest.step_sound hrequest).elim (hback rfl) .login
      | begin | claim | reap | tick | setRedis => cases hstep
  | refresh r phase =>
      cases a with
      | abort => exact habort hstep
      | proceed =>
          have hrequest : r.step settings p w none phase = some (w', l') := hstep
          exact (RefreshRequest.step_sound hrequest).elim (hback rfl) .refresh
      | select pick =>
          have hrequest : r.step settings p w (some pick) phase = some (w', l') := hstep
          exact (RefreshRequest.step_sound hrequest).elim (hback rfl) .refresh
      | begin | claim | reap | tick | setRedis => cases hstep
  | logout r phase =>
      cases a with
      | abort => exact habort hstep
      | proceed => exact (LogoutRequest.step_sound hstep).elim (hback rfl) .logout
      | begin | select | claim | reap | tick | setRedis => cases hstep
  | revokeSession r phase =>
      cases a with
      | abort => exact habort hstep
      | proceed => exact (RevokeSessionRequest.step_sound hstep).elim (hback rfl) .revokeSession
      | begin | select | claim | reap | tick | setRedis => cases hstep
  | revokeUser r phase =>
      cases a with
      | abort => exact habort hstep
      | proceed => exact (RevokeUserRequest.step_sound hstep).elim (hback rfl) .revokeUser
      | begin | select | claim | reap | tick | setRedis => cases hstep
  | deleteMe r phase =>
      cases a with
      | abort => exact habort hstep
      | proceed => exact (DeleteMeRequest.step_sound hstep).elim (hback rfl) .deleteMe
      | begin | select | claim | reap | tick | setRedis => cases hstep
  | legacySweep phase =>
      cases a with
      | abort => exact habort hstep
      | proceed => exact (LegacySweepPhase.step_sound hstep).elim (hback rfl) .legacySweep
      | begin | select | claim | reap | tick | setRedis => cases hstep
  | drain r phase =>
      cases a with
      | abort => exact habort hstep
      | proceed =>
          cases phase with
          | claim => cases hstep
          | next ids => exact (DrainRequest.step_sound hstep).elim (hback rfl) .drain
          | deliver id copy rest =>
              have hrequest : r.step settings p w (.deliver id copy rest) = some (w', l') := hstep
              exact (DrainRequest.step_sound hrequest).elim (hback rfl) .drain
          | revoke jti id copy rest =>
              have hrequest : r.step settings p w (.revoke jti id copy rest) = some (w', l') := hstep
              exact (DrainRequest.step_sound hrequest).elim (hback rfl) .drain
          | finish success id copy rest =>
              have hrequest : r.step settings p w (.finish success id copy rest) = some (w', l') :=
                hstep
              exact (DrainRequest.step_sound hrequest).elim (hback rfl) .drain
      | claim ids =>
          cases phase with
          | claim => exact (DrainRequest.claim_sound hstep).elim (hback rfl) .drain
          | next | deliver | revoke | finish => cases hstep
      | begin | select | reap | tick | setRedis => cases hstep
  | postCommit targets =>
      cases a with
      | abort => exact habort hstep
      | proceed =>
          obtain ⟨rfl, rfl⟩ := moving_eq_some hstep
          exact .postCommit
      | begin | select | claim | reap | tick | setRedis => cases hstep
  | commands rest =>
      cases a with
      | abort =>
          cases rest with
          | nil => exact habort hstep
          | cons command rest => exact habort hstep
      | proceed =>
          cases rest with
          | nil =>
              obtain ⟨rfl, rfl⟩ := moving_eq_some hstep
              exact .commandsDone
          | cons command rest =>
              obtain ⟨hsend, herror⟩ | ⟨hsend, rfl⟩ := sending_eq_some hstep
              · obtain ⟨rfl, rfl⟩ := failed_eq_some herror
                exact .commandError hsend
              · exact .command hsend
      | begin | select | claim | reap | tick | setRedis => cases rest <;> cases hstep

theorem step_abort {l : Local} (hstep : step settings p w l .abort = some (w', l')) :
    RolledBack p w w' l' := by
  refine failed_eq_some ?_
  cases l with
  | idle => cases hstep
  | commands rest => cases rest <;> exact hstep
  | _ => exact hstep

end soundness

/-! ### Which request a process serves

A process that serves a request has just begun it, or served it before and made one of its steps. Only the
response to a reused refresh token and what follows a commit start in the middle of another request.
-/

inductive RequestKind
  | idle
  | update
  | delete
  | repair
  | login
  | refresh
  | logout
  | revokeSession
  | revokeUser
  | deleteMe
  | legacySweep
  | drain
  | followUp
deriving DecidableEq

def Local.kind : Local → RequestKind
  | .idle => .idle
  | .update _ _ => .update
  | .delete _ _ => .delete
  | .repair _ _ => .repair
  | .login _ _ => .login
  | .refresh _ _ => .refresh
  | .logout _ _ => .logout
  | .revokeSession _ _ => .revokeSession
  | .revokeUser _ _ => .revokeUser
  | .deleteMe _ _ => .deleteMe
  | .legacySweep _ => .legacySweep
  | .drain _ _ => .drain
  | .postCommit _ | .commands _ => .followUp

section serving

variable {settings : Settings} {p : Pid} {w w' : World} {l l' : Local} {a : Action}

/-- How a process comes to be in local state `l'`. -/
inductive Comes (settings : Settings) (w : World) (l : Local) (a : Action) (w' : World) (l' : Local) : Prop
  | same (hkind : l'.kind = l.kind)
  | ended (hidle : l' = .idle)
  | begun (hworld : w' = w) (hidle : l = .idle) (haction : a = .begin l') (hbegins : Begins settings w l')
  | reuse (hfrom : l.kind = .refresh) (hto : l'.kind = .revokeUser)
  | followUp (hto : l'.kind = .followUp)

theorem Step.comes (hstep : Step settings p w l a w' l') : Comes settings w l a w' l' := by
  cases hstep with
  | begin hbegins => exact .begun rfl rfl rfl hbegins
  | tick | setRedis | reap | abort | error | commandError | commandsDone => exact .ended rfl
  | postCommit | command => exact .followUp rfl
  | update hstep =>
      cases hstep with
      | commit => exact .ended rfl
      | _ => exact .same rfl
  | delete hstep =>
      cases hstep with
      | commit => exact .ended rfl
      | _ => exact .same rfl
  | repair hstep =>
      cases hstep with
      | commit => exact .ended rfl
      | _ => exact .same rfl
  | login hstep =>
      cases hstep with
      | respond => exact .ended rfl
      | _ => exact .same rfl
  | refresh hstep =>
      cases hstep with
      | reuse => exact .reuse rfl rfl
      | respond => exact .ended rfl
      | _ => exact .same rfl
  | @logout r _ _ _ _ hstep =>
      cases hstep with
      | refreshRevoke | refreshFailed | refreshSkip =>
          obtain ⟨phase, heq, -⟩ := r.finish_eq _ _
          rw [heq]
          exact .same rfl
      | respond => exact .ended rfl
      | _ => exact .same rfl
  | revokeSession hstep =>
      cases hstep with
      | load | purge => exact .same rfl
      | commit =>
          split
          · exact .followUp rfl
          · exact .ended rfl
  | revokeUser hstep =>
      cases hstep with
      | capture | purge => exact .same rfl
      | commit =>
          split
          · exact .followUp rfl
          · exact .ended rfl
  | deleteMe hstep =>
      cases hstep with
      | commit => exact .ended rfl
      | _ => exact .same rfl
  | legacySweep hstep =>
      cases hstep with
      | purge => exact .same rfl
      | commit => exact .ended rfl
  | drain hstep =>
      cases hstep with
      | done => exact .ended rfl
      | _ => exact .same rfl

theorem UpdateStep.stays {r : UpdateRequest} {phase : UpdatePhase}
    (hstep : UpdateStep settings p w r phase w' l') : l' = .idle ∨ ∃ phase', l' = .update r phase' := by
  cases hstep with
  | commit => exact .inl rfl
  | _ => exact .inr ⟨_, rfl⟩

theorem DeleteStep.stays {r : DeleteRequest} {phase : DeletePhase}
    (hstep : DeleteStep p w r phase w' l') : l' = .idle ∨ ∃ phase', l' = .delete r phase' := by
  cases hstep with
  | commit => exact .inl rfl
  | _ => exact .inr ⟨_, rfl⟩

/-- A process in an update has just begun it, or was in it before and made one of its steps. -/
theorem Step.of_update {r : UpdateRequest} {phase' : UpdatePhase}
    (hstep : Step settings p w l a w' (.update r phase')) :
    (w' = w ∧ l = .idle ∧ phase' = .load) ∨
      ∃ phase, l = .update r phase ∧ UpdateStep settings p w r phase w' (.update r phase') := by
  cases hstep.comes with
  | same hkind =>
      cases l with
      | update r₀ phase =>
          cases hstep with
          | update hupdate =>
              obtain hidle | ⟨phase'', heq⟩ := hupdate.stays
              · cases hidle
              · cases heq
                exact .inr ⟨phase, rfl, hupdate⟩
      | _ => cases hkind
  | begun hworld hidle _ hbegins =>
      cases hbegins
      exact .inl ⟨hworld, hidle, rfl⟩
  | ended hidle => cases hidle
  | reuse _ hto | followUp hto => cases hto

theorem Step.of_delete {r : DeleteRequest} {phase' : DeletePhase}
    (hstep : Step settings p w l a w' (.delete r phase')) :
    (w' = w ∧ l = .idle ∧ phase' = .load) ∨
      ∃ phase, l = .delete r phase ∧ DeleteStep p w r phase w' (.delete r phase') := by
  cases hstep.comes with
  | same hkind =>
      cases l with
      | delete r₀ phase =>
          cases hstep with
          | delete hdelete =>
              obtain hidle | ⟨phase'', heq⟩ := hdelete.stays
              · cases hidle
              · cases heq
                exact .inr ⟨phase, rfl, hdelete⟩
      | _ => cases hkind
  | begun hworld hidle _ hbegins =>
      cases hbegins
      exact .inl ⟨hworld, hidle, rfl⟩
  | ended hidle => cases hidle
  | reuse _ hto | followUp hto => cases hto

end serving

theorem asserted_next {settings : Settings} {I : World → Prop} {A : Pid → World → Local → Prop}
    {c c' : Interleaving.Config World Local} {move : Pid × Action}
    (hnext : (issuer settings).next c move = some c')
    (hstep : ∀ l', Step settings move.1 c.shared (c.locals move.1) move.2 c'.shared l' →
      I c'.shared ∧ A move.1 c'.shared l' ∧ ∀ q, q ≠ move.1 → A q c'.shared (c.locals q)) :
    Interleaving.Asserted I A c' :=
  Interleaving.Asserted.next hnext fun l' heq => hstep l' (step_sound heq)

theorem next_sound {settings : Settings} {c c' : Interleaving.Config World Local}
    {move : Pid × Action} (hnext : (issuer settings).next c move = some c') :
    ∃ l', c'.locals = Function.update c.locals move.1 l' ∧
      Step settings move.1 c.shared (c.locals move.1) move.2 c'.shared l' := by
  obtain ⟨s', l', heq, rfl⟩ := Interleaving.System.next_eq_some.1 hnext
  exact ⟨l', rfl, step_sound heq⟩

end FaAuthM8

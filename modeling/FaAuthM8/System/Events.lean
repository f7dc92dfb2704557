import FaAuthM8.System.Tables

/-!
# What a step records

Each event of the log with the point of the request that records it and what held there. The log only grows,
and so do the clock and the counter of token identifiers.
-/

namespace FaAuthM8

/-- The point at which a request signs a token pair for user `uid` from its copy of the row. -/
inductive Local.Signs (uid : UserId) (copy : User) : Local → Prop
  | login {r : LoginRequest} : Signs uid copy (.login r (.sign uid copy))
  | refresh {r : RefreshRequest} (huser : r.token.sub = uid) : Signs uid copy (.refresh r (.sign copy))

inductive Local.Responds (pair : TokenPair) : Local → Prop
  | login {r : LoginRequest} : Responds pair (.login r (.respond pair))
  | refresh {r : RefreshRequest} : Responds pair (.refresh r (.respond pair))

inductive RevokesUser (w w' : World) (uid : UserId) (targets : List RevocationTarget) : Local → Prop
  | transition {l : Local} {generation : Nat}
      (hcommits : CommitsTransition w w' uid generation targets l) : RevokesUser w w' uid targets l
  | erase {l : Local} (hlocal : l.Erases uid) (htargets : targets = [])
      (hcommit : w'.db.users = w.db.users.erase uid)
      (hsessions : ∀ id row, w'.db.sessions.lookup id = some row → row.userId ≠ uid) :
      RevokesUser w w' uid targets l
  | revokeUser {r : RevokeUserRequest} {doomed : List SessionId} (huser : r.userId = uid)
      (hcommit : SameRecords (w.db.deleteSessions doomed) w'.db) :
      RevokesUser w w' uid targets (.revokeUser r (.commit targets doomed))

/-- The step from `w` to `w'` commits a revocation of single sessions. -/
inductive RevokesSessions (w w' : World) (doomed : List SessionId) (targets : List RevocationTarget) :
    Local → Prop
  | logoutAccess {r : LogoutRequest} (htargets : targets = [])
      (hcommit : w'.db = w.db.deleteSessions doomed) :
      RevokesSessions w w' doomed targets (.logout r (.accessCommit doomed))
  | logoutSession {r : LogoutRequest} {jti : Jti} {anyFailed : Bool} (htargets : targets = [])
      (hcommit : w'.db = w.db.deleteSessions doomed) :
      RevokesSessions w w' doomed targets (.logout r (.sessionCommit jti doomed anyFailed))
  | revokeSession {r : RevokeSessionRequest} {row : ClientSession} (htargets : targets = [row.target])
      (hcommit : SameRecords (w.db.deleteSessions doomed) w'.db) :
      RevokesSessions w w' doomed targets (.revokeSession r (.commit row doomed))
  | legacySweep (htargets : targets = []) (hcommit : w'.db = w.db.deleteSessions doomed) :
      RevokesSessions w w' doomed targets (.legacySweep (.commit doomed))

/-- A step of a request in local state `l` records the event. -/
inductive Logged (settings : Settings) (p : Pid) (w : World) (l : Local) (w' : World) : Event → Prop
  | signed {uid : UserId} {copy : User} {pair : TokenPair} (hlocal : l.Signs uid copy)
      (hpair : createAuthTokens settings w.now w.nextJti uid copy = some pair)
      (hnext : w'.nextJti = w.nextJti + 1) :
      Logged settings p w l w' (.signed p pair.access copy.authGeneration)
  | stamped {uid : UserId} {copy : User} {pair : TokenPair} {data : ClientSessionCreate}
      {existing : Option (SessionId × ClientSession)} {id : SessionId} {row : ClientSession}
      (hlocal : l.Saves uid copy pair data existing)
      (hfound : sessionByJti w'.db data.jwtJti = some (id, row)) :
      Logged settings p w l w' (.stamped row)
  | exchanged {r : RefreshRequest} {copy : User} {pair : TokenPair} {data : ClientSessionCreate}
      {existing : Option (SessionId × ClientSession)}
      (hlocal : l = .refresh r (.save copy pair data existing))
      (hcommit : commit [createClientSession r.token.sub copy data existing] w.db = .ok w'.db) :
      Logged settings p w l w' (.exchanged r.token.sub r.token.jti data.jwtJti)
  | issued {pair : TokenPair} (hlocal : l.Responds pair) : Logged settings p w l w' (.issued pair)
  | loggedOut {r : LogoutRequest} {jti : Option Jti} {anyFailed : Bool}
      (hlocal : l = .logout r (.respond jti anyFailed))
      (hanswer : anyFailed = true → settings.effectiveFailureMode .sessionWrite = .failOpen) :
      Logged settings p w l w' (.loggedOut r.access r.refresh jti)
  | transition {uid : UserId} {generation : Nat} {targets : List RevocationTarget}
      (hcommits : CommitsTransition w w' uid generation targets l) :
      Logged settings p w l w' (.transition uid generation)
  | revokedUser {uid : UserId} {targets : List RevocationTarget} (hrevokes : RevokesUser w w' uid targets l) :
      Logged settings p w l w' (.revoked (.user uid) targets)
  | revokedSessions {doomed : List SessionId} {targets : List RevocationTarget}
      (hrevokes : RevokesSessions w w' doomed targets l) :
      Logged settings p w l w' (.revoked (.sessions (jtisOf w.db doomed)) targets)
  | redis {command : RedisCommand} (hsend : w.send command = some w') :
      Logged settings p w l w' (.redis command)
  | emitted {r : DrainRequest} {id : OutboxId} {copy : RevocationOutbox} {rest : List OutboxId}
      {event : SessionRevokedEvent} (hlocal : l = .drain r (.deliver id copy rest))
      (heffect : copy.effect = .publish event) : Logged settings p w l w' (.emitted event)
  | deliveryFailed {r : DrainRequest} {phase : DrainPhase} {id : OutboxId} {copy : RevocationOutbox}
      {rest : List OutboxId} (hlocal : l = .drain r phase)
      (hphase : phase = .deliver id copy rest ∨ ∃ jti, phase = .revoke jti id copy rest) :
      Logged settings p w l w' (.deliveryFailed id)

/-- The events a step adds to the log, each recorded by it. -/
def Records (settings : Settings) (p : Pid) (w : World) (l : Local) (w' : World) : Prop :=
  ∃ events, w'.log = events ++ w.log ∧ ∀ event ∈ events, Logged settings p w l w' event

section

variable {settings : Settings} {p : Pid} {w w' : World} {l l' : Local} {a : Action}

private theorem Records.nothing (hlog : w'.log = w.log) : Records settings p w l w' :=
  ⟨[], hlog, by simp⟩

private theorem Records.one {event : Event} (hlog : w'.log = event :: w.log)
    (hlogged : Logged settings p w l w' event) : Records settings p w l w' :=
  ⟨[event], hlog, by simpa using hlogged⟩

private theorem Records.two {first second : Event} (hlog : w'.log = first :: second :: w.log)
    (hfirst : Logged settings p w l w' first) (hsecond : Logged settings p w l w' second) :
    Records settings p w l w' :=
  ⟨[first, second], hlog, by simpa using ⟨hfirst, hsecond⟩⟩

private theorem Records.sent {command : RedisCommand} (hsend : w.send command = some w') :
    Records settings p w l w' :=
  .one (World.send_frame hsend).2.2.2.2.2 (.redis hsend)

private theorem stampEvents_logged {uid : UserId} {copy : User} {pair : TokenPair}
    {data : ClientSessionCreate} {existing : Option (SessionId × ClientSession)}
    (hlocal : l.Saves uid copy pair data existing) :
    ∀ event ∈ stampEvents data.jwtJti w'.db, Logged settings p w l w' event := by
  intro event hevent
  rw [stampEvents, List.mem_map] at hevent
  obtain ⟨found, hfound, rfl⟩ := hevent
  exact .stamped hlocal (Option.mem_toList.1 hfound)

theorem Step.records (hstep : Step settings p w l a w' l') : Records settings p w l w' := by
  cases hstep with
  | begin | tick | setRedis | reap | abort | error | commandError | postCommit | commandsDone =>
      exact .nothing rfl
  | command hsend => exact .sent hsend
  | @update r _ _ _ _ hstep =>
      cases hstep with
      | @commit copy plan revision targets doomed db' hfree hcommit =>
          cases hchanged : plan.authorizationChanged with
          | true =>
              simp only [if_true]
              exact .two rfl (.revokedUser (.transition (.update rfl rfl hchanged hcommit)))
                (.transition (.update rfl rfl hchanged hcommit))
          | false => exact .nothing rfl
      | _ => exact .nothing rfl
  | delete hstep =>
      cases hstep with
      | commit hcommit =>
          have hcommitted := commit_deletionWrites hcommit
          refine .one rfl (.revokedUser (.erase (.delete rfl) rfl hcommitted.users fun id row hrow => ?_))
          rw [World.committed, hcommitted.sessions, Db.lookup_deleteUser_sessions] at hrow
          exact hrow.2
      | _ => exact .nothing rfl
  | repair hstep =>
      cases hstep with
      | commit hcommit =>
          exact .two rfl (.revokedUser (.transition (.repair rfl hcommit)))
            (.transition (.repair rfl hcommit))
      | _ => exact .nothing rfl
  | login hstep =>
      cases hstep with
      | sign hpair => exact .one rfl (.signed .login hpair rfl)
      | save => exact ⟨_, rfl, fun event hevent => stampEvents_logged .login event hevent⟩
      | register hsend => exact .sent hsend
      | respond => exact .one rfl (.issued .login)
      | _ => exact .nothing rfl
  | refresh hstep =>
      cases hstep with
      | sign hpair => exact .one rfl (.signed (.refresh rfl) hpair rfl)
      | rotate _ hsend => exact .sent hsend
      | save _ hcommit =>
          refine ⟨_, rfl, fun event hevent => ?_⟩
          rcases List.mem_cons.1 hevent with rfl | hstamp
          · exact .exchanged rfl hcommit
          · exact stampEvents_logged (.refresh rfl) event hstamp
      | respond => exact .one rfl (.issued .refresh)
      | _ => exact .nothing rfl
  | logout hstep =>
      cases hstep with
      | accessCommit => exact .one rfl (.revokedSessions (.logoutAccess rfl rfl))
      | sessionCommit => exact .one rfl (.revokedSessions (.logoutSession rfl rfl))
      | blacklist hsend | refreshRevoke _ hsend => exact .sent hsend
      | respond hanswer => exact .one rfl (.loggedOut rfl hanswer)
      | _ => exact .nothing rfl
  | revokeSession hstep =>
      cases hstep with
      | commit hcommit =>
          exact .one rfl (.revokedSessions (.revokeSession rfl (revokeSession_deletion hcommit)))
      | _ => exact .nothing rfl
  | revokeUser hstep =>
      cases hstep with
      | commit hcommit => exact .one rfl (.revokedUser (.revokeUser rfl (revokeUser_deletion hcommit)))
      | _ => exact .nothing rfl
  | deleteMe hstep =>
      cases hstep with
      | commit =>
          refine .one rfl (.revokedUser (.erase (.deleteMe rfl) rfl rfl fun id row hrow => ?_))
          exact (Db.lookup_deleteUser_sessions.1 hrow).2
      | _ => exact .nothing rfl
  | legacySweep hstep =>
      cases hstep with
      | purge => exact .nothing rfl
      | commit => exact .one rfl (.revokedSessions (.legacySweep rfl rfl))
  | drain hstep =>
      cases hstep with
      | blacklist _ hsend | revoke hsend => exact .sent hsend
      | publish heffect => exact .one rfl (.emitted rfl heffect)
      | deliveryFailed hphase => exact .one rfl (.deliveryFailed rfl hphase)
      | _ => exact .nothing rfl

theorem Step.mem_log (hstep : Step settings p w l a w' l') {event : Event} :
    event ∈ w'.log → event ∈ w.log ∨ Logged settings p w l w' event := by
  obtain ⟨events, hlog, hlogged⟩ := hstep.records
  intro hevent
  rw [hlog, List.mem_append] at hevent
  exact hevent.symm.imp id (hlogged event)

theorem Step.log_mono (hstep : Step settings p w l a w' l') {event : Event} (hevent : event ∈ w.log) :
    event ∈ w'.log := by
  obtain ⟨events, hlog, -⟩ := hstep.records
  rw [hlog]
  exact List.mem_append_right _ hevent

/-- The clock moves only when time passes, and the counter of identifiers only when a pair is signed. -/
theorem Step.clocks (hstep : Step settings p w l a w' l') :
    w.now ≤ w'.now ∧ (w'.nextJti = w.nextJti ∨
      ∃ uid copy pair, l.Signs uid copy ∧ w'.nextJti = w.nextJti + 1 ∧
        createAuthTokens settings w.now w.nextJti uid copy = some pair) := by
  have hsend {command : RedisCommand} (hsend : w.send command = some w') :
      w.now ≤ w'.now ∧ (w'.nextJti = w.nextJti ∨
        ∃ uid copy pair, l.Signs uid copy ∧ w'.nextJti = w.nextJti + 1 ∧
          createAuthTokens settings w.now w.nextJti uid copy = some pair) := by
    obtain ⟨-, -, hnow, hnext, -⟩ := World.send_frame hsend
    exact ⟨Int.le_of_eq hnow.symm, .inl hnext⟩
  cases hstep with
  | tick => exact ⟨Int.le_add_of_nonneg_right (Int.natCast_nonneg _), .inl rfl⟩
  | command h => exact hsend h
  | login hstep =>
      cases hstep with
      | sign hpair => exact ⟨Int.le_refl _, .inr ⟨_, _, _, .login, rfl, hpair⟩⟩
      | register h => exact hsend h
      | _ => exact ⟨Int.le_refl _, .inl rfl⟩
  | refresh hstep =>
      cases hstep with
      | sign hpair => exact ⟨Int.le_refl _, .inr ⟨_, _, _, .refresh rfl, rfl, hpair⟩⟩
      | rotate _ h => exact hsend h
      | _ => exact ⟨Int.le_refl _, .inl rfl⟩
  | logout hstep =>
      cases hstep with
      | blacklist h | refreshRevoke _ h => exact hsend h
      | _ => exact ⟨Int.le_refl _, .inl rfl⟩
  | drain hstep =>
      cases hstep with
      | blacklist _ h | revoke h => exact hsend h
      | _ => exact ⟨Int.le_refl _, .inl rfl⟩
  | update hstep | delete hstep | repair hstep | revokeSession hstep | revokeUser hstep
  | deleteMe hstep | legacySweep hstep =>
      cases hstep with
      | _ => exact ⟨Int.le_refl _, .inl rfl⟩
  | _ => exact ⟨Int.le_refl _, .inl rfl⟩

theorem Step.nextJti_le (hstep : Step settings p w l a w' l') : w.nextJti ≤ w'.nextJti := by
  obtain ⟨-, hsame | ⟨uid, copy, pair, -, hnext, -⟩⟩ := hstep.clocks
  · exact Nat.le_of_eq hsame.symm
  · rw [hnext]
    exact Nat.le_succ _

def NoSession (w : World) (uid : UserId) : Prop :=
  ∀ id row, w.db.sessions.lookup id = some row → row.userId ≠ uid

theorem noSession_deleted {uid : UserId} {doomed : List SessionId}
    (hall : ∀ id row, w.db.sessions.lookup id = some row → row.userId = uid → id ∈ doomed)
    (hsessions : w'.db.sessions = (w.db.deleteSessions doomed).sessions) : NoSession w' uid := by
  intro id row hrow huser
  rw [hsessions, Db.lookup_deleteSessions] at hrow
  exact hrow.2 (hall id row hrow.1 huser)

end

end FaAuthM8

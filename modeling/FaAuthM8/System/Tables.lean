import FaAuthM8.System.Effects

/-!
# How each table changes

The ways a step can change the users, the sessions, the outbox and the tombstones, each with the point of the
request that makes the change.
-/

namespace FaAuthM8

theorem UserDraft.saveOver_eq_ok {draft : UserDraft} {loaded current user : User}
    (hsave : draft.saveOver loaded current = .ok user) :
    ∃ email role, draft.email = some email ∧ draft.role = some role ∧
      user.role = Column.writeBack loaded.role role current.role ∧
      user.isSuperuser = Column.writeBack loaded.isSuperuser draft.isSuperuser current.isSuperuser ∧
      user.isActive = Column.writeBack loaded.isActive draft.isActive current.isActive ∧
      user.authGeneration =
        Column.writeBack loaded.authGeneration draft.authGeneration current.authGeneration ∧
      user.email = Column.writeBack loaded.email email current.email := by
  rw [UserDraft.saveOver] at hsave
  split at hsave
  · next email role hemail hrole =>
      obtain rfl := Except.ok.inj hsave
      exact ⟨email, role, hemail, hrole, rfl, rfl, rfl, rfl, rfl⟩
  · cases hsave

/-- The end of a request that deletes the row of user `uid`. -/
inductive Local.Erases (uid : UserId) : Local → Prop
  | delete {r : DeleteRequest} {copy : User} {terminal revision : Nat} {doomed : List SessionId}
      (huser : r.userId = uid) : Erases uid (.delete r (.commit copy terminal revision doomed))
  | deleteMe {r : DeleteMeRequest} (huser : r.token.sub = uid) : Erases uid (.deleteMe r .commit)

/-- How a step of `p`, in local state `l`, may change the users. -/
inductive UsersChange (p : Pid) (w : World) (l : Local) (w' : World) : Prop
  | same (husers : w'.db.users = w.db.users)
  | created {user : User} (huser : ∃ token, user = googleUser token)
      (husers : w'.db.users = w.db.users.insert w.db.nextUserId user)
  | updated {r : UpdateRequest} {copy : User} {plan : UpdatePlan} {revision : Option Nat}
      {targets : List RevocationTarget} {doomed : List SessionId} {current user : User}
      (hlocal : l = .update r (.commit copy plan revision targets doomed))
      (hcommit : commit (updateWrites r.actor r.userId copy plan targets doomed revision w.now) w.db
        = .ok w'.db)
      (hfree : free (w.locks.user r.userId) p = true)
      (hcurrent : w.db.users.lookup r.userId = some current)
      (hsave : plan.draft.saveOver copy current = .ok user)
      (husers : w'.db.users = w.db.users.insert r.userId user)
  | repaired {r : RepairRequest} {generation : Nat} {targets : List RevocationTarget}
      {doomed : List SessionId} {current : User}
      (hlocal : l = .repair r (.commit generation targets doomed))
      (hcommit : commit (repairWrites r.userId r.intendedRole generation targets doomed w.now) w.db
        = .ok w'.db)
      (hcurrent : w.db.users.lookup r.userId = some current)
      (husers : w'.db.users = w.db.users.insert r.userId
        { current with
          role := r.intendedRole
          isSuperuser := deriveIsSuperuser (some r.intendedRole)
          authGeneration := generation })
  | deleted {r : DeleteRequest} {copy : User} {terminal revision : Nat} {doomed : List SessionId}
      (hlocal : l = .delete r (.commit copy terminal revision doomed))
      (hcommit : commit (deletionWrites r.actor r.userId terminal doomed revision w.now) w.db
        = .ok w'.db)
      (husers : w'.db.users = w.db.users.erase r.userId)
  | selfDeleted {r : DeleteMeRequest} (hlocal : l = .deleteMe r .commit)
      (hcommit : commit [.deleteUser r.token.sub] w.db = .ok w'.db)
      (hfree : free (w.locks.user r.token.sub) p = true)
      (husers : w'.db.users = w.db.users.erase r.token.sub)

section

variable {settings : Settings} {p : Pid} {w w' : World} {l l' : Local} {a : Action}

private theorem users_send {command : RedisCommand} (hsend : w.send command = some w') :
    w'.db.users = w.db.users := by
  rw [(World.send_frame hsend).1]

private theorem users_commit {writes : List Write} {db' : Db} {events : List Event}
    (hcommit : commit writes w.db = .ok db') (hno : ∀ write ∈ writes, write.changesUsers = false) :
    (w.committed p db' events).db.users = w.db.users :=
  commit_users hcommit hno

theorem commit_auditedDeletion {audits : List PrivilegedActionAudit} {doomed : List SessionId}
    {db db' : Db} (hcommit : commit (audits.map .appendAudit ++ [.deleteSessions doomed]) db = .ok db') :
    SameRecords (db.deleteSessions doomed) db' := by
  obtain ⟨db₁, haudit, hdelete⟩ := commit_append_eq_ok.1 hcommit
  obtain rfl : db₁.deleteSessions doomed = db' := by simpa [commit, Write.apply, Except.bind] using hdelete
  have hsame : SameRecords db db₁ := by
    refine commit_peripheral haudit fun write hmem => ?_
    obtain ⟨row, -, rfl⟩ := List.mem_map.1 hmem
    rfl
  refine ⟨hsame.users, ?_, hsame.outbox, hsame.tombstones⟩
  rw [Db.deleteSessions, Db.deleteSessions, hsame.sessions]

theorem revokeSession_deletion {row : ClientSession} {doomed : List SessionId} {db' : Db}
    {r : RevokeSessionRequest}
    (hcommit : commit [.appendAudit (r.actor.audit .delete .clientSession r.sessionId row.userId),
      .deleteSessions doomed] w.db = .ok db') : SameRecords (w.db.deleteSessions doomed) db' := by
  have haudited : commit ([r.actor.audit .delete .clientSession r.sessionId row.userId].map .appendAudit
      ++ [.deleteSessions doomed]) w.db = .ok db' := hcommit
  exact commit_auditedDeletion haudited

theorem revokeUser_deletion {doomed : List SessionId} {db' : Db} {r : RevokeUserRequest}
    (hcommit : commit ((r.actor.toList.map fun actor =>
        .appendAudit (actor.audit .delete .clientSession r.userId r.userId)) ++
      [.deleteSessions doomed]) w.db = .ok db') : SameRecords (w.db.deleteSessions doomed) db' := by
  rw [show (r.actor.toList.map fun actor =>
      Write.appendAudit (actor.audit .delete .clientSession r.userId r.userId)) =
      (r.actor.toList.map fun actor => actor.audit .delete .clientSession r.userId r.userId).map
        .appendAudit by simp] at hcommit
  exact commit_auditedDeletion hcommit

theorem createClientSession_changesUsers (uid : UserId) (user : User) (data : ClientSessionCreate)
    (existing : Option (SessionId × ClientSession)) :
    (createClientSession uid user data existing).changesUsers = false := by
  cases existing with
  | none => rfl
  | some found => rfl

theorem leaseWrites_mem {settings : Settings} {now : Int} {db : Db} {ids : List OutboxId}
    {write : Write} (hmem : write ∈ leaseWrites settings now db ids) :
    ∃ id row, id ∈ ids ∧ db.outbox.lookup id = some row ∧
      write = .updateOutbox id row (OutboxWorker.lease settings now row) := by
  rw [leaseWrites, List.mem_filterMap] at hmem
  obtain ⟨id, hid, hwrite⟩ := hmem
  obtain ⟨row, hrow, rfl⟩ := Option.map_eq_some_iff.1 hwrite
  exact ⟨id, row, hid, hrow, rfl⟩

theorem Step.usersChange (hfresh : w.db.IdsFresh) (hstep : Step settings p w l a w' l') :
    UsersChange p w l w' := by
  cases hstep with
  | begin | tick | setRedis | postCommit | commandsDone | abort | error | commandError =>
      exact .same rfl
  | reap hcommit => exact .same (users_commit hcommit (by simp [Write.changesUsers]))
  | command hsend => exact .same (users_send hsend)
  | update hstep =>
      cases hstep with
      | @commit copy plan revision targets doomed db' hfree hcommit =>
          obtain ⟨db₁, hupdate, husers⟩ := (commit_updateWrites hfresh hcommit).users
          obtain ⟨-, rfl⟩ | ⟨current, user, hcurrent, hsave, hput⟩ := Db.updateUser_eq_ok hupdate
          · exact .same husers
          · obtain ⟨-, -, rfl⟩ := Db.putUser_eq_ok.1 hput
            exact .updated rfl hcommit hfree hcurrent hsave husers
      | _ => exact .same rfl
  | delete hstep =>
      cases hstep with
      | commit hcommit => exact .deleted rfl hcommit (commit_deletionWrites hcommit).users
      | _ => exact .same rfl
  | @repair r _ _ _ _ hstep =>
      cases hstep with
      | commit hcommit =>
          obtain ⟨db₁, hset, husers⟩ := (commit_repairWrites hfresh hcommit).users
          obtain ⟨-, rfl⟩ | ⟨current, hcurrent, hput⟩ := Db.setRole_eq_ok hset
          · exact .same husers
          · obtain ⟨-, -, rfl⟩ := Db.putUser_eq_ok.1 hput
            exact .repaired rfl hcommit hcurrent husers
      | _ => exact .same rfl
  | login hstep =>
      cases hstep with
      | @create token db' _ hcommit =>
          obtain ⟨db₁, hinsert, hrest⟩ := commit_cons_eq_ok.1 hcommit
          obtain rfl := Except.ok.inj hrest
          refine .created ⟨token, rfl⟩ ?_
          exact congrArg Db.users (Db.insertUser_eq_ok hinsert)
      | save _ hcommit =>
          refine .same (users_commit hcommit fun write hmem => ?_)
          obtain rfl := List.mem_singleton.1 hmem
          exact createClientSession_changesUsers _ _ _ _
      | register hsend => exact .same (users_send hsend)
      | _ => exact .same rfl
  | refresh hstep =>
      cases hstep with
      | save _ hcommit =>
          refine .same (users_commit hcommit fun write hmem => ?_)
          obtain rfl := List.mem_singleton.1 hmem
          exact createClientSession_changesUsers _ _ _ _
      | rotate _ hsend => exact .same (users_send hsend)
      | _ => exact .same rfl
  | logout hstep =>
      cases hstep with
      | blacklist hsend | refreshRevoke _ hsend => exact .same (users_send hsend)
      | _ => exact .same rfl
  | revokeSession hstep =>
      cases hstep with
      | commit hcommit => exact .same (revokeSession_deletion hcommit).users
      | _ => exact .same rfl
  | revokeUser hstep =>
      cases hstep with
      | commit hcommit => exact .same (revokeUser_deletion hcommit).users
      | _ => exact .same rfl
  | deleteMe hstep =>
      cases hstep with
      | commit hfree => exact .selfDeleted rfl rfl hfree rfl
      | _ => exact .same rfl
  | legacySweep hstep =>
      cases hstep with
      | _ => exact .same rfl
  | drain hstep =>
      cases hstep with
      | claim _ hcommit =>
          refine .same (users_commit hcommit fun write hmem => ?_)
          obtain ⟨id, row, -, -, rfl⟩ := leaseWrites_mem hmem
          rfl
      | finish hcommit => exact .same (users_commit hcommit (by simp [Write.changesUsers]))
      | blacklist _ hsend | revoke hsend => exact .same (users_send hsend)
      | _ => exact .same rfl

/-- The end of a request that saves the session row of an issue. -/
inductive Local.Saves (uid : UserId) (copy : User) (pair : TokenPair) (data : ClientSessionCreate)
    (existing : Option (SessionId × ClientSession)) : Local → Prop
  | login {r : LoginRequest} :
      Saves uid copy pair data existing (.login r (.save uid copy pair data existing))
  | refresh {r : RefreshRequest} (huser : r.token.sub = uid) :
      Saves uid copy pair data existing (.refresh r (.save copy pair data existing))

/-- The end of a request that has deleted the session rows `doomed`. -/
inductive Local.Dooms (doomed : List SessionId) : Local → Prop
  | update {r : UpdateRequest} {copy : User} {plan : UpdatePlan} {revision : Option Nat}
      {targets : List RevocationTarget} (hchanged : plan.authorizationChanged = true) :
      Dooms doomed (.update r (.commit copy plan revision targets doomed))
  | delete {r : DeleteRequest} {copy : User} {terminal revision : Nat} :
      Dooms doomed (.delete r (.commit copy terminal revision doomed))
  | repair {r : RepairRequest} {generation : Nat} {targets : List RevocationTarget} :
      Dooms doomed (.repair r (.commit generation targets doomed))
  | login {r : LoginRequest} {pair : TokenPair} : Dooms doomed (.login r (.purgeCommit pair doomed))
  | logoutAccess {r : LogoutRequest} : Dooms doomed (.logout r (.accessCommit doomed))
  | logoutSession {r : LogoutRequest} {jti : Jti} {anyFailed : Bool} :
      Dooms doomed (.logout r (.sessionCommit jti doomed anyFailed))
  | legacySweep : Dooms doomed (.legacySweep (.commit doomed))
  | revokeSession {r : RevokeSessionRequest} {row : ClientSession} :
      Dooms doomed (.revokeSession r (.commit row doomed))
  | revokeUser {r : RevokeUserRequest} {targets : List RevocationTarget} :
      Dooms doomed (.revokeUser r (.commit targets doomed))

/-- The row with identifier `id` is stored as `row'` by a request in local state `l` that saves a session:
over the row its query returned, or as a new row. -/
inductive SavesRow (p : Pid) (w : World) (id : SessionId) (row' : ClientSession) (l : Local) : Prop
  | inserted {uid : UserId} {copy : User} {pair : TokenPair} {data : ClientSessionCreate}
      (hlocal : l.Saves uid copy pair data none) (howner : (w.db.users.lookup uid).isSome = true)
      (hid : id = w.db.nextSessionId) (hrow : row' = newSession uid copy data)
  | restamped {uid : UserId} {copy : User} {pair : TokenPair} {data : ClientSessionCreate}
      {row current : ClientSession} (hlocal : l.Saves uid copy pair data (some (id, row)))
      (hfree : free (w.locks.session id) p = true)
      (hcurrent : w.db.sessions.lookup id = some current)
      (hrow : row' = (restampSession row copy data).saveOver row current)

/-- How a step of `p`, in local state `l`, may change the sessions. -/
inductive SessionsChange (p : Pid) (w : World) (l : Local) (w' : World) : Prop
  | same (hsessions : w'.db.sessions = w.db.sessions)
  | saved {id : SessionId} {row : ClientSession} (hsaves : SavesRow p w id row l)
      (hsessions : w'.db.sessions = w.db.sessions.insert id row)
  | deleted {doomed : List SessionId} (hlocal : l.Dooms doomed)
      (hsessions : ∀ id row, w'.db.sessions.lookup id = some row ↔
        w.db.sessions.lookup id = some row ∧ id ∉ doomed)
  | erased {uid : UserId} {doomed : List SessionId} (hlocal : l.Erases uid)
      (hdoomed : l.Dooms doomed ∨ doomed = [])
      (hsessions : ∀ id row, w'.db.sessions.lookup id = some row ↔
        (w.db.sessions.lookup id = some row ∧ id ∉ doomed) ∧ row.userId ≠ uid)

theorem Db.lookup_deleteSessions {db : Db} {ids : List SessionId} {id : SessionId}
    {row : ClientSession} :
    (db.deleteSessions ids).sessions.lookup id = some row ↔
      db.sessions.lookup id = some row ∧ id ∉ ids := by
  rw [Db.deleteSessions, Table.lookup_filter, Option.filter_eq_some_iff]
  simp

theorem Db.lookup_deleteUser_sessions {db : Db} {uid : UserId} {id : SessionId} {row : ClientSession} :
    (db.deleteUser uid).sessions.lookup id = some row ↔
      db.sessions.lookup id = some row ∧ row.userId ≠ uid := by
  rw [Db.deleteUser, Table.lookup_filter, Option.filter_eq_some_iff, bne_iff_ne]

private theorem sessions_send {command : RedisCommand} (hsend : w.send command = some w') :
    w'.db.sessions = w.db.sessions := by
  rw [(World.send_frame hsend).1]

private theorem sessions_commit {writes : List Write} {db' : Db} {events : List Event}
    (hcommit : commit writes w.db = .ok db') (hno : ∀ write ∈ writes, write.changesSessions = false) :
    (w.committed p db' events).db.sessions = w.db.sessions :=
  commit_sessions hcommit hno

private theorem SessionsChange.deletes {doomed : List SessionId} (hlocal : l.Dooms doomed)
    (hsessions : w'.db.sessions = (w.db.deleteSessions doomed).sessions) :
    SessionsChange p w l w' := by
  refine .deleted hlocal fun id row => ?_
  rw [hsessions, Db.lookup_deleteSessions]

private theorem SessionsChange.erases {uid : UserId} {doomed : List SessionId} (hlocal : l.Erases uid)
    (hdoomed : l.Dooms doomed ∨ doomed = [])
    (hsessions : w'.db.sessions = ((w.db.deleteSessions doomed).deleteUser uid).sessions) :
    SessionsChange p w l w' := by
  refine .erased hlocal hdoomed fun id row => ?_
  rw [hsessions, Db.lookup_deleteUser_sessions, Db.lookup_deleteSessions]

private theorem SessionsChange.save {uid : UserId} {copy : User} {pair : TokenPair}
    {data : ClientSessionCreate} {existing : Option (SessionId × ClientSession)}
    (hlocal : l.Saves uid copy pair data existing)
    (hfree : w.locks.sessionsFree p (existing.toList.map (·.1)) = true)
    (hcommit : commit [createClientSession uid copy data existing] w.db = .ok w'.db) :
    SessionsChange p w l w' := by
  obtain ⟨db₁, happly, hrest⟩ := commit_cons_eq_ok.1 hcommit
  have hdb : db₁ = w'.db := Except.ok.inj hrest
  cases existing with
  | none =>
      obtain ⟨howner, hinsert⟩ := Db.insertSession_eq_ok.1 happly
      refine .saved (.inserted hlocal howner rfl rfl) ?_
      rw [← hdb, hinsert]
  | some found =>
      obtain ⟨id, row⟩ := found
      obtain ⟨-, hsame⟩ | ⟨current, hcurrent, hsave⟩ := Db.updateSession_eq_ok happly
      · refine .same ?_
        rw [← hdb, hsame]
      · refine .saved (.restamped hlocal ?_ hcurrent rfl) (by rw [← hdb, hsave])
        simpa [Locks.sessionsFree] using hfree

theorem Step.sessionsChange (hfresh : w.db.IdsFresh) (hstep : Step settings p w l a w' l') :
    SessionsChange p w l w' := by
  cases hstep with
  | begin | tick | setRedis | postCommit | commandsDone | abort | error | commandError =>
      exact .same rfl
  | reap hcommit => exact .same (sessions_commit hcommit (by simp [Write.changesSessions]))
  | command hsend => exact .same (sessions_send hsend)
  | update hstep =>
      cases hstep with
      | @commit copy plan revision targets doomed db' hfree hcommit =>
          have hcommitted := commit_updateWrites hfresh hcommit
          cases hchanged : plan.authorizationChanged with
          | true => exact .deletes (.update hchanged) (hcommitted.revoked hchanged).sessions
          | false => exact .same (hcommitted.untouched hchanged).1
      | _ => exact .same rfl
  | delete hstep =>
      cases hstep with
      | commit hcommit =>
          exact .erases (.delete rfl) (.inl .delete) (commit_deletionWrites hcommit).sessions
      | _ => exact .same rfl
  | repair hstep =>
      cases hstep with
      | commit hcommit => exact .deletes .repair (commit_repairWrites hfresh hcommit).revoked.sessions
      | _ => exact .same rfl
  | login hstep =>
      cases hstep with
      | create _ hcommit => exact .same (sessions_commit hcommit (by simp [Write.changesSessions]))
      | save hfree hcommit => exact .save .login hfree hcommit
      | purgeCommit => exact .deletes .login rfl
      | register hsend => exact .same (sessions_send hsend)
      | _ => exact .same rfl
  | refresh hstep =>
      cases hstep with
      | save hfree hcommit => exact .save (.refresh rfl) hfree hcommit
      | rotate _ hsend => exact .same (sessions_send hsend)
      | _ => exact .same rfl
  | logout hstep =>
      cases hstep with
      | accessCommit => exact .deletes .logoutAccess rfl
      | sessionCommit => exact .deletes .logoutSession rfl
      | blacklist hsend | refreshRevoke _ hsend => exact .same (sessions_send hsend)
      | _ => exact .same rfl
  | revokeSession hstep =>
      cases hstep with
      | commit hcommit => exact .deletes .revokeSession (revokeSession_deletion hcommit).sessions
      | _ => exact .same rfl
  | revokeUser hstep =>
      cases hstep with
      | commit hcommit => exact .deletes .revokeUser (revokeUser_deletion hcommit).sessions
      | _ => exact .same rfl
  | deleteMe hstep =>
      cases hstep with
      | commit =>
          refine .erased (.deleteMe rfl) (.inr rfl) fun id row => ?_
          exact Db.lookup_deleteUser_sessions.trans (by simp)
      | _ => exact .same rfl
  | legacySweep hstep =>
      cases hstep with
      | purge => exact .same rfl
      | commit => exact .deletes .legacySweep rfl
  | drain hstep =>
      cases hstep with
      | claim _ hcommit =>
          refine .same (sessions_commit hcommit fun write hmem => ?_)
          obtain ⟨id, row, -, -, rfl⟩ := leaseWrites_mem hmem
          rfl
      | finish hcommit => exact .same (sessions_commit hcommit (by simp [Write.changesSessions]))
      | blacklist _ hsend | revoke hsend => exact .same (sessions_send hsend)
      | _ => exact .same rfl

/-- A row after a step was there before, or the step saved it. -/
theorem Step.row_origin (hfresh : w.db.IdsFresh) (hstep : Step settings p w l a w' l')
    {id : SessionId} {row : ClientSession} (hrow : w'.db.sessions.lookup id = some row) :
    w.db.sessions.lookup id = some row ∨ SavesRow p w id row l := by
  cases hstep.sessionsChange hfresh with
  | same hsessions => exact .inl (hsessions ▸ hrow)
  | saved hsaves hsessions =>
      rw [hsessions, Table.lookup_insert_eq] at hrow
      split at hrow
      · next hid =>
          obtain rfl := Option.some.inj hrow
          exact .inr (hid ▸ hsaves)
      · exact .inl hrow
  | deleted _ hsessions => exact .inl ((hsessions id row).1 hrow).1
  | erased _ _ hsessions => exact .inl ((hsessions id row).1 hrow).1.1

/-- The step from `w` to `w'` commits an authorization transition of user `uid` to `generation`. -/
inductive CommitsTransition (w w' : World) (uid : UserId) (generation : Nat)
    (targets : List RevocationTarget) : Local → Prop
  | update {r : UpdateRequest} {copy : User} {plan : UpdatePlan} {revision : Option Nat}
      {doomed : List SessionId} (huser : r.userId = uid)
      (hgeneration : plan.draft.authGeneration = generation)
      (hchanged : plan.authorizationChanged = true)
      (hcommit : commit (updateWrites r.actor r.userId copy plan targets doomed revision w.now) w.db
        = .ok w'.db) :
      CommitsTransition w w' uid generation targets
        (.update r (.commit copy plan revision targets doomed))
  | repair {r : RepairRequest} {doomed : List SessionId} (huser : r.userId = uid)
      (hcommit : commit (repairWrites r.userId r.intendedRole generation targets doomed w.now) w.db
        = .ok w'.db) :
      CommitsTransition w w' uid generation targets (.repair r (.commit generation targets doomed))

/-- What claiming a batch does to the outbox: some due rows are leased. -/
def Leased (settings : Settings) (now : Int) (db db' : Db) : Prop :=
  ∀ id, db'.outbox.lookup id = db.outbox.lookup id ∨
    ∃ row, db.outbox.lookup id = some row ∧ OutboxWorker.isDue now row = true ∧
      db'.outbox.lookup id = some (OutboxWorker.lease settings now row)

/-- How a step of `p`, in local state `l`, may change the outbox. -/
inductive OutboxChange (settings : Settings) (w : World) (l : Local) (a : Action) (w' : World) : Prop
  | same (houtbox : w'.db.outbox = w.db.outbox)
  | enqueued {uid : UserId} {generation : Nat} {targets : List RevocationTarget}
      (hcommits : CommitsTransition w w' uid generation targets l)
      (henqueued : Enqueued (enqueueRoleChangeEffects uid generation targets w.now) w.db w'.db)
  | leased {r : DrainRequest} (hlocal : l = .drain r .claim)
      (hleased : Leased settings r.now w.db w'.db)
  | finished {r : DrainRequest} {success : Bool} {id : OutboxId} {copy current : RevocationOutbox}
      {rest : List OutboxId} (hlocal : l = .drain r (.finish success id copy rest))
      (hcurrent : w.db.outbox.lookup id = some current)
      (houtbox : w'.db.outbox = w.db.outbox.insert id
        ((if success then OutboxWorker.completed r.now copy
          else OutboxWorker.failed settings r.now copy).saveOver copy current))
  | reaped (hlocal : l = .idle) (haction : a = .reap)
      (houtbox : ∀ id row, w'.db.outbox.lookup id = some row ↔ w.db.outbox.lookup id = some row ∧
        (row.status = .completed →
          ∀ t, row.completedAt = some t → OutboxWorker.reapHorizon settings w.now ≤ t))

theorem OutboxWorker.lease_saveOver (settings : Settings) (now : Int) (row : RevocationOutbox)
    {current : RevocationOutbox} (hcurrent : current = row ∨ current = lease settings now row) :
    (lease settings now row).saveOver row current = lease settings now row := by
  rcases hcurrent with rfl | rfl
  · simp [RevocationOutbox.saveOver, lease]
  · rw [RevocationOutbox.saveOver]
    simp only [lease, Column.writeBack_same]
    congr 1
    · exact (Column.writeBack_eq_or _ _ _).elim id id
    · exact (Column.writeBack_eq_or _ _ _).elim id id

theorem commit_leaseWrites {settings : Settings} {now : Int} {ids : List OutboxId} {db db₁ db' : Db}
    (hdue : ∀ id ∈ ids, ∃ row, db.outbox.lookup id = some row ∧ OutboxWorker.isDue now row = true)
    (hleased : Leased settings now db db₁)
    (hcommit : commit (leaseWrites settings now db ids) db₁ = .ok db') : Leased settings now db db' := by
  induction ids generalizing db₁ with
  | nil =>
      obtain rfl := Except.ok.inj hcommit
      exact hleased
  | cons id rest ih =>
      obtain ⟨row, hrow, hdueRow⟩ := hdue id List.mem_cons_self
      have hwrites : leaseWrites settings now db (id :: rest) =
          .updateOutbox id row (OutboxWorker.lease settings now row) ::
            leaseWrites settings now db rest := by
        simp [leaseWrites, hrow]
      rw [hwrites] at hcommit
      obtain ⟨db₂, hupdate, hrest⟩ := commit_cons_eq_ok.1 hcommit
      refine ih (fun id hid => hdue id (List.mem_cons_of_mem _ hid)) ?_ hrest
      obtain ⟨-, rfl⟩ | ⟨current, hcurrent, rfl⟩ := Db.updateOutbox_eq_ok hupdate
      · exact hleased
      · have hwas : current = row ∨ current = OutboxWorker.lease settings now row := by
          obtain hsame | ⟨row', hrow', -, hlease⟩ := hleased id
          · rw [hcurrent, hrow, Option.some.injEq] at hsame
            exact .inl hsame
          · rw [hrow, Option.some.injEq] at hrow'
            rw [hcurrent, Option.some.injEq] at hlease
            exact .inr (hrow' ▸ hlease)
        intro id'
        dsimp only
        rw [Table.lookup_insert_eq, OutboxWorker.lease_saveOver settings now row hwas]
        split
        · next heq => exact .inr ⟨row, heq ▸ hrow, hdueRow, rfl⟩
        · exact hleased id'

private theorem outbox_send {command : RedisCommand} (hsend : w.send command = some w') :
    w'.db.outbox = w.db.outbox := by
  rw [(World.send_frame hsend).1]

private theorem outbox_commit {writes : List Write} {db' : Db} {events : List Event}
    (hcommit : commit writes w.db = .ok db') (hno : ∀ write ∈ writes, write.changesOutbox = false) :
    (w.committed p db' events).db.outbox = w.db.outbox :=
  commit_outbox hcommit hno

theorem createClientSession_changesOutbox (uid : UserId) (user : User) (data : ClientSessionCreate)
    (existing : Option (SessionId × ClientSession)) :
    (createClientSession uid user data existing).changesOutbox = false := by
  cases existing with
  | none => rfl
  | some found => rfl

theorem Step.outboxChange (hfresh : w.db.IdsFresh) (hstep : Step settings p w l a w' l') :
    OutboxChange settings w l a w' := by
  cases hstep with
  | begin | tick | setRedis | postCommit | commandsDone | abort | error | commandError =>
      exact .same rfl
  | reap hcommit =>
      obtain rfl := Except.ok.inj hcommit
      refine .reaped rfl rfl fun id row => ?_
      simp only [World.committed]
      rw [Table.lookup_filter, Option.filter_eq_some_iff]
      refine and_congr_right fun _ => ?_
      cases hcompleted : row.completedAt with
      | none => simp
      | some t =>
          by_cases hstatus : row.status = .completed
          · simp [hstatus]
          · simp [hstatus]
  | command hsend => exact .same (outbox_send hsend)
  | update hstep =>
      cases hstep with
      | @commit copy plan revision targets doomed db' hfree hcommit =>
          have hcommitted := commit_updateWrites hfresh hcommit
          cases hchanged : plan.authorizationChanged with
          | true => exact .enqueued (.update rfl rfl hchanged hcommit) (hcommitted.revoked hchanged).outbox
          | false => exact .same (hcommitted.untouched hchanged).2
      | _ => exact .same rfl
  | delete hstep =>
      cases hstep with
      | commit hcommit => exact .same (commit_deletionWrites hcommit).outbox
      | _ => exact .same rfl
  | repair hstep =>
      cases hstep with
      | commit hcommit =>
          exact .enqueued (.repair rfl hcommit) (commit_repairWrites hfresh hcommit).revoked.outbox
      | _ => exact .same rfl
  | login hstep =>
      cases hstep with
      | create _ hcommit => exact .same (outbox_commit hcommit (by simp [Write.changesOutbox]))
      | save _ hcommit =>
          refine .same (outbox_commit hcommit fun write hmem => ?_)
          obtain rfl := List.mem_singleton.1 hmem
          exact createClientSession_changesOutbox _ _ _ _
      | register hsend => exact .same (outbox_send hsend)
      | _ => exact .same rfl
  | refresh hstep =>
      cases hstep with
      | save _ hcommit =>
          refine .same (outbox_commit hcommit fun write hmem => ?_)
          obtain rfl := List.mem_singleton.1 hmem
          exact createClientSession_changesOutbox _ _ _ _
      | rotate _ hsend => exact .same (outbox_send hsend)
      | _ => exact .same rfl
  | logout hstep =>
      cases hstep with
      | blacklist hsend | refreshRevoke _ hsend => exact .same (outbox_send hsend)
      | _ => exact .same rfl
  | revokeSession hstep =>
      cases hstep with
      | commit hcommit => exact .same (revokeSession_deletion hcommit).outbox
      | _ => exact .same rfl
  | revokeUser hstep =>
      cases hstep with
      | commit hcommit => exact .same (revokeUser_deletion hcommit).outbox
      | _ => exact .same rfl
  | deleteMe hstep =>
      cases hstep with
      | _ => exact .same rfl
  | legacySweep hstep =>
      cases hstep with
      | _ => exact .same rfl
  | drain hstep =>
      cases hstep with
      | claim hdue hcommit =>
          exact .leased rfl (commit_leaseWrites hdue (fun id => .inl rfl) hcommit)
      | @finish success id rest copy db' hcommit =>
          obtain ⟨db₁, hupdate, hrest⟩ := commit_cons_eq_ok.1 hcommit
          obtain rfl := Except.ok.inj hrest
          obtain ⟨-, rfl⟩ | ⟨current, hcurrent, rfl⟩ := Db.updateOutbox_eq_ok hupdate
          · exact .same rfl
          · exact .finished rfl hcurrent rfl
      | blacklist _ hsend | revoke hsend => exact .same (outbox_send hsend)
      | _ => exact .same rfl

/-- A row of the outbox stays, with its key and its effect, until it is reaped. -/
theorem Step.outbox_kept (hfresh : w.db.IdsFresh) (hstep : Step settings p w l a w' l') {id : OutboxId}
    {row : RevocationOutbox} (hrow : w.db.outbox.lookup id = some row) :
    (∃ row', w'.db.outbox.lookup id = some row' ∧ row'.uniqueKey = row.uniqueKey ∧
      row'.effect = row.effect) ∨
    (w'.db.outbox.lookup id = none ∧ a = .reap ∧ row.status = .completed ∧
      ∃ t, row.completedAt = some t ∧ t < OutboxWorker.reapHorizon settings w.now) := by
  cases hstep.outboxChange hfresh with
  | same houtbox => exact .inl ⟨row, houtbox ▸ hrow, rfl, rfl⟩
  | enqueued _ henqueued => exact .inl ⟨row, henqueued.kept id row hrow, rfl, rfl⟩
  | leased _ hleased =>
      left
      rcases hleased id with hsame | ⟨before, hbefore, -, hlease⟩
      · exact ⟨row, hsame ▸ hrow, rfl, rfl⟩
      · obtain rfl := Option.some.inj (hrow.symm.trans hbefore)
        exact ⟨_, hlease, rfl, rfl⟩
  | @finished _ _ id' _ current _ _ hcurrent houtbox =>
      left
      rw [houtbox]
      by_cases hid : id = id'
      · subst hid
        obtain rfl := Option.some.inj (hrow.symm.trans hcurrent)
        exact ⟨_, AList.lookup_insert _, rfl, rfl⟩
      · exact ⟨row, by rw [Table.lookup_insert_eq, if_neg hid, hrow], rfl, rfl⟩
  | reaped _ haction houtbox =>
      by_cases hstays : row.status = .completed →
          ∀ t, row.completedAt = some t → OutboxWorker.reapHorizon settings w.now ≤ t
      · exact .inl ⟨row, (houtbox id row).2 ⟨hrow, hstays⟩, rfl, rfl⟩
      · refine .inr ⟨?_, haction, ?_⟩
        · cases hafter : w'.db.outbox.lookup id with
          | none => rfl
          | some row' =>
              obtain ⟨hwas, hkept⟩ := (houtbox id row').1 hafter
              obtain rfl := Option.some.inj (hrow.symm.trans hwas)
              exact absurd hkept hstays
        · obtain ⟨hcompleted, hsome⟩ := Classical.not_imp.1 hstays
          obtain ⟨t, hlate⟩ := Classical.not_forall.1 hsome
          obtain ⟨ht, hlt⟩ := Classical.not_imp.1 hlate
          exact ⟨hcompleted, t, ht, Int.not_le.1 hlt⟩

/-- How a step, in local state `l`, may change the tombstones. -/
inductive TombstonesChange (w : World) (l : Local) (w' : World) : Prop
  | same (htombstones : w'.db.tombstones = w.db.tombstones)
  | raised {r : DeleteRequest} {copy : User} {terminal revision : Nat} {doomed : List SessionId}
      (hlocal : l = .delete r (.commit copy terminal revision doomed))
      (hcommit : commit (deletionWrites r.actor r.userId terminal doomed revision w.now) w.db
        = .ok w'.db)

private theorem tombstones_send {command : RedisCommand} (hsend : w.send command = some w') :
    w'.db.tombstones = w.db.tombstones := by
  rw [(World.send_frame hsend).1]

private theorem tombstones_commit {writes : List Write} {db' : Db} {events : List Event}
    (hcommit : commit writes w.db = .ok db')
    (hno : ∀ write ∈ writes, write.changesTombstones = false) :
    (w.committed p db' events).db.tombstones = w.db.tombstones :=
  commit_tombstones hcommit hno

theorem createClientSession_changesTombstones (uid : UserId) (user : User) (data : ClientSessionCreate)
    (existing : Option (SessionId × ClientSession)) :
    (createClientSession uid user data existing).changesTombstones = false := by
  cases existing with
  | none => rfl
  | some found => rfl

/-- Only the administrator's deletion of an account writes a tombstone. -/
theorem Step.tombstonesChange (hfresh : w.db.IdsFresh) (hstep : Step settings p w l a w' l') :
    TombstonesChange w l w' := by
  cases hstep with
  | begin | tick | setRedis | postCommit | commandsDone | abort | error | commandError =>
      exact .same rfl
  | reap hcommit => exact .same (tombstones_commit hcommit (by simp [Write.changesTombstones]))
  | command hsend => exact .same (tombstones_send hsend)
  | update hstep =>
      cases hstep with
      | commit _ hcommit => exact .same (commit_updateWrites hfresh hcommit).tombstones
      | _ => exact .same rfl
  | delete hstep =>
      cases hstep with
      | commit hcommit => exact .raised rfl hcommit
      | _ => exact .same rfl
  | repair hstep =>
      cases hstep with
      | commit hcommit => exact .same (commit_repairWrites hfresh hcommit).tombstones
      | _ => exact .same rfl
  | login hstep =>
      cases hstep with
      | create _ hcommit => exact .same (tombstones_commit hcommit (by simp [Write.changesTombstones]))
      | save _ hcommit =>
          refine .same (tombstones_commit hcommit fun write hmem => ?_)
          obtain rfl := List.mem_singleton.1 hmem
          exact createClientSession_changesTombstones _ _ _ _
      | register hsend => exact .same (tombstones_send hsend)
      | _ => exact .same rfl
  | refresh hstep =>
      cases hstep with
      | save _ hcommit =>
          refine .same (tombstones_commit hcommit fun write hmem => ?_)
          obtain rfl := List.mem_singleton.1 hmem
          exact createClientSession_changesTombstones _ _ _ _
      | rotate _ hsend => exact .same (tombstones_send hsend)
      | _ => exact .same rfl
  | logout hstep =>
      cases hstep with
      | blacklist hsend | refreshRevoke _ hsend => exact .same (tombstones_send hsend)
      | _ => exact .same rfl
  | revokeSession hstep =>
      cases hstep with
      | commit hcommit => exact .same (revokeSession_deletion hcommit).tombstones
      | _ => exact .same rfl
  | revokeUser hstep =>
      cases hstep with
      | commit hcommit => exact .same (revokeUser_deletion hcommit).tombstones
      | _ => exact .same rfl
  | deleteMe hstep =>
      cases hstep with
      | _ => exact .same rfl
  | legacySweep hstep =>
      cases hstep with
      | _ => exact .same rfl
  | drain hstep =>
      cases hstep with
      | claim _ hcommit =>
          refine .same (tombstones_commit hcommit fun write hmem => ?_)
          obtain ⟨id, row, -, -, rfl⟩ := leaseWrites_mem hmem
          rfl
      | finish hcommit => exact .same (tombstones_commit hcommit (by simp [Write.changesTombstones]))
      | blacklist _ hsend | revoke hsend => exact .same (tombstones_send hsend)
      | _ => exact .same rfl

end

end FaAuthM8

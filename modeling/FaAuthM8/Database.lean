import FaAuthM8.Lib.Rendering
import FaAuthM8.Models

/-!
# The database and its writes

A transaction is a list of writes that the commit applies together or not at all. A write fails as the
engine or the ORM makes it fail: a missing value in a required column, the role check constraint, a unique
or foreign key, or an update that matches no row. An update carries the row as it was loaded and the object
as it was left in memory, and stores the columns in which the two differ.
-/

namespace FaAuthM8

structure Db where
  users : Table UserId User := ∅
  sessions : Table SessionId ClientSession := ∅
  outbox : Table OutboxId RevocationOutbox := ∅
  tombstones : Table UserId AuthTombstone := ∅
  apiKeys : Table Uuid ApiKey := ∅
  policyRevision : Option Nat := none
  audit : List PrivilegedActionAudit := []
  /-- Whether the constraint `is_superuser = (role = 'SUPERADMIN')` is in force. -/
  superuserRoleCheck : Bool := true
  nextUserId : UserId := 0
  nextSessionId : SessionId := 0
  nextOutboxId : OutboxId := 0

inductive DbError
  | notNull
  | check
  | unique
  | foreignKey
  | staleData
deriving DecidableEq, Repr

/-- The columns of a user an admin update may leave changed in memory; a required column may be null there
and is refused only when it is written. -/
structure UserDraft where
  email : Option String
  fullName : Option String
  avatar : Option String
  isActive : Bool
  isSuperuser : Bool
  role : Option RoleType
  hashedPassword : Option String
  oauthUserId : Option String
  authGeneration : Nat
deriving DecidableEq, Repr

def User.draft (user : User) : UserDraft where
  email := some user.email
  fullName := user.fullName
  avatar := user.avatar
  isActive := user.isActive
  isSuperuser := user.isSuperuser
  role := some user.role
  hashedPassword := user.hashedPassword
  oauthUserId := user.oauthUserId
  authGeneration := user.authGeneration

open Column in
/-- The stored row after the changed columns of `draft` are written over `current`. -/
def UserDraft.saveOver (draft : UserDraft) (loaded current : User) : Except DbError User :=
  match draft.email, draft.role with
  | some email, some role => .ok
      { current with
        email := writeBack loaded.email email current.email
        fullName := writeBack loaded.fullName draft.fullName current.fullName
        avatar := writeBack loaded.avatar draft.avatar current.avatar
        isActive := writeBack loaded.isActive draft.isActive current.isActive
        isSuperuser := writeBack loaded.isSuperuser draft.isSuperuser current.isSuperuser
        role := writeBack loaded.role role current.role
        hashedPassword := writeBack loaded.hashedPassword draft.hashedPassword current.hashedPassword
        oauthUserId := writeBack loaded.oauthUserId draft.oauthUserId current.oauthUserId
        authGeneration :=
          writeBack loaded.authGeneration draft.authGeneration current.authGeneration }
  | _, _ => .error .notNull

open Column in
def ClientSession.saveOver (new loaded current : ClientSession) : ClientSession :=
  { current with
    provider := writeBack loaded.provider new.provider current.provider
    jwtJti := writeBack loaded.jwtJti new.jwtJti current.jwtJti
    refreshTokenHash :=
      writeBack loaded.refreshTokenHash new.refreshTokenHash current.refreshTokenHash
    jwtExpiresAt := writeBack loaded.jwtExpiresAt new.jwtExpiresAt current.jwtExpiresAt
    refreshExpiresAt :=
      writeBack loaded.refreshExpiresAt new.refreshExpiresAt current.refreshExpiresAt
    externalAccessToken :=
      writeBack loaded.externalAccessToken new.externalAccessToken current.externalAccessToken
    externalRefreshToken :=
      writeBack loaded.externalRefreshToken new.externalRefreshToken current.externalRefreshToken
    externalTokenExpiresAt :=
      writeBack loaded.externalTokenExpiresAt new.externalTokenExpiresAt
        current.externalTokenExpiresAt
    authGeneration := writeBack loaded.authGeneration new.authGeneration current.authGeneration }

open Column in
def RevocationOutbox.saveOver (new loaded current : RevocationOutbox) : RevocationOutbox :=
  { current with
    status := writeBack loaded.status new.status current.status
    attempts := writeBack loaded.attempts new.attempts current.attempts
    leaseUntil := writeBack loaded.leaseUntil new.leaseUntil current.leaseUntil
    nextAttemptAt := writeBack loaded.nextAttemptAt new.nextAttemptAt current.nextAttemptAt
    completedAt := writeBack loaded.completedAt new.completedAt current.completedAt }

namespace Db

/-- Whether another row holds the email or the provider identity of `user`. -/
def userConflicts (db : Db) (uid : UserId) (user : User) : Bool :=
  !(db.users.rows fun other row => other != uid &&
    (row.email == user.email ||
      (user.oauthUserId.isSome && row.oauthUserId == user.oauthUserId))).isEmpty

def putUser (uid : UserId) (user : User) (db : Db) : Except DbError Db :=
  if db.superuserRoleCheck && !privilegeClaimsAreConsistent user.role user.isSuperuser then
    .error .check
  else if db.userConflicts uid user then
    .error .unique
  else
    .ok { db with users := db.users.insert uid user }

def insertUser (user : User) (db : Db) : Except DbError Db :=
  (db.putUser db.nextUserId user).map fun db' => { db' with nextUserId := db.nextUserId + 1 }

def updateUser (uid : UserId) (loaded : User) (draft : UserDraft) (db : Db) : Except DbError Db :=
  if draft = loaded.draft then
    .ok db
  else
    match db.users.lookup uid with
    | none => .error .staleData
    | some current => (draft.saveOver loaded current).bind fun user => db.putUser uid user

/-- A column update addressed by id, which may match no row. -/
def setRole (uid : UserId) (role : RoleType) (isSuperuser : Bool) (authGeneration : Nat) (db : Db) :
    Except DbError Db :=
  match db.users.lookup uid with
  | none => .ok db
  | some current => db.putUser uid { current with role, isSuperuser, authGeneration }

/-- Deletes the user row; its sessions and API keys go with it. -/
def deleteUser (uid : UserId) (db : Db) : Db :=
  { db with
    users := db.users.erase uid
    sessions := db.sessions.filter fun _ row => row.userId != uid
    apiKeys := db.apiKeys.filter fun _ key => key.userId != uid }

def insertSession (row : ClientSession) (db : Db) : Except DbError Db :=
  if (db.users.lookup row.userId).isNone then
    .error .foreignKey
  else
    .ok { db with
      sessions := db.sessions.insert db.nextSessionId row
      nextSessionId := db.nextSessionId + 1 }

def updateSession (id : SessionId) (loaded new : ClientSession) (db : Db) : Except DbError Db :=
  if new = loaded then
    .ok db
  else
    match db.sessions.lookup id with
    | none => .error .staleData
    | some current => .ok { db with sessions := db.sessions.insert id (new.saveOver loaded current) }

def deleteSessions (ids : List SessionId) (db : Db) : Db :=
  { db with sessions := db.sessions.filter fun id _ => !ids.contains id }

def insertOutbox (row : RevocationOutbox) (db : Db) : Except DbError Db :=
  if (db.outbox.rows fun _ other => other.uniqueKey == row.uniqueKey).isEmpty then
    .ok { db with
      outbox := db.outbox.insert db.nextOutboxId row
      nextOutboxId := db.nextOutboxId + 1 }
  else
    .error .unique

def updateOutbox (id : OutboxId) (loaded new : RevocationOutbox) (db : Db) : Except DbError Db :=
  if new = loaded then
    .ok db
  else
    match db.outbox.lookup id with
    | none => .error .staleData
    | some current => .ok { db with outbox := db.outbox.insert id (new.saveOver loaded current) }

/-- Idempotent max-generation upsert. -/
def raiseTombstone (uid : UserId) (terminal : Nat) (now : Int) (db : Db) : Db :=
  match db.tombstones.lookup uid with
  | none => { db with tombstones := db.tombstones.insert uid ⟨terminal, now⟩ }
  | some existing =>
      if existing.terminalGeneration < terminal then
        { db with tombstones := db.tombstones.insert uid ⟨terminal, now⟩ }
      else
        db

def revokeUserKeys (uid : UserId) (db : Db) : Db :=
  { db with
    apiKeys := db.apiKeys.map fun _ key =>
      if key.userId = uid then { key with revoked := true } else key }

def setPolicyRevision (revision : Nat) (db : Db) : Db :=
  { db with policyRevision := some revision }

def appendAudit (row : PrivilegedActionAudit) (db : Db) : Db :=
  { db with audit := row :: db.audit }

end Db

/-- One write of a transaction. -/
inductive Write
  | insertUser (user : User)
  | updateUser (uid : UserId) (loaded : User) (draft : UserDraft)
  | setRole (uid : UserId) (role : RoleType) (isSuperuser : Bool) (authGeneration : Nat)
  | deleteUser (uid : UserId)
  | insertSession (row : ClientSession)
  | updateSession (id : SessionId) (loaded new : ClientSession)
  | deleteSessions (ids : List SessionId)
  | insertOutbox (row : RevocationOutbox)
  | updateOutbox (id : OutboxId) (loaded new : RevocationOutbox)
  | reapOutbox (horizon : Int)
  | raiseTombstone (uid : UserId) (terminal : Nat) (now : Int)
  | revokeUserKeys (uid : UserId)
  | setPolicyRevision (revision : Nat)
  | appendAudit (row : PrivilegedActionAudit)

namespace Write

def apply : Write → Db → Except DbError Db
  | insertUser user, db => db.insertUser user
  | updateUser uid loaded draft, db => db.updateUser uid loaded draft
  | setRole uid role isSuperuser authGeneration, db =>
      db.setRole uid role isSuperuser authGeneration
  | deleteUser uid, db => .ok (db.deleteUser uid)
  | insertSession row, db => db.insertSession row
  | updateSession id loaded new, db => db.updateSession id loaded new
  | deleteSessions ids, db => .ok (db.deleteSessions ids)
  | insertOutbox row, db => db.insertOutbox row
  | updateOutbox id loaded new, db => db.updateOutbox id loaded new
  | reapOutbox horizon, db => .ok
      { db with outbox := db.outbox.filter fun _ row =>
          !(row.status == .completed && row.completedAt.any (· < horizon)) }
  | raiseTombstone uid terminal now, db => .ok (db.raiseTombstone uid terminal now)
  | revokeUserKeys uid, db => .ok (db.revokeUserKeys uid)
  | setPolicyRevision revision, db => .ok (db.setPolicyRevision revision)
  | appendAudit row, db => .ok (db.appendAudit row)

def changesUsers : Write → Bool
  | insertUser .. | updateUser .. | setRole .. | deleteUser .. => true
  | _ => false

def changesSessions : Write → Bool
  | deleteUser .. | insertSession .. | updateSession .. | deleteSessions .. => true
  | _ => false

def changesOutbox : Write → Bool
  | insertOutbox .. | updateOutbox .. | reapOutbox .. => true
  | _ => false

def changesTombstones : Write → Bool
  | raiseTombstone .. => true
  | _ => false

end Write

/-- Applies the writes of one transaction in order, or none of them. -/
def commit : List Write → Db → Except DbError Db
  | [], db => .ok db
  | write :: rest, db => (write.apply db).bind (commit rest)

@[simp] theorem commit_nil (db : Db) : commit [] db = .ok db := rfl

theorem commit_cons_eq_ok {write : Write} {rest : List Write} {db db'' : Db} :
    commit (write :: rest) db = .ok db'' ↔
      ∃ db', write.apply db = .ok db' ∧ commit rest db' = .ok db'' := by
  cases happly : write.apply db with
  | error e => simp [commit, happly, Except.bind]
  | ok db' => simp [commit, happly, Except.bind]

theorem commit_append_eq_ok {first second : List Write} {db db'' : Db} :
    commit (first ++ second) db = .ok db'' ↔
      ∃ db', commit first db = .ok db' ∧ commit second db' = .ok db'' := by
  induction first generalizing db with
  | nil => simp
  | cons write rest ih =>
      rw [List.cons_append, commit_cons_eq_ok]
      simp only [ih, commit_cons_eq_ok]
      constructor
      · rintro ⟨db₁, happly, db', hrest, hsecond⟩
        exact ⟨db', ⟨db₁, happly, hrest⟩, hsecond⟩
      · rintro ⟨db', ⟨db₁, happly, hrest⟩, hsecond⟩
        exact ⟨db₁, happly, db', hrest, hsecond⟩

/-- What every write of a transaction preserves step by step, the transaction preserves. -/
theorem commit_rel {R : Db → Db → Prop} (hrefl : ∀ db, R db db)
    (htrans : ∀ a b c, R a b → R b c → R a c) {writes : List Write} {db db' : Db}
    (hcommit : commit writes db = .ok db')
    (hwrites : ∀ write ∈ writes, ∀ a b, write.apply a = .ok b → R a b) : R db db' := by
  induction writes generalizing db with
  | nil =>
      rw [commit_nil, Except.ok.injEq] at hcommit
      exact hcommit ▸ hrefl db
  | cons write rest ih =>
      obtain ⟨db₁, happly, hrest⟩ := commit_cons_eq_ok.1 hcommit
      have hfirst := hwrites write List.mem_cons_self db db₁ happly
      have hlater := ih hrest fun w hw => hwrites w (List.mem_cons_of_mem _ hw)
      exact htrans _ _ _ hfirst hlater

namespace Db

theorem putUser_eq_ok {uid : UserId} {user : User} {db db' : Db} :
    db.putUser uid user = .ok db' ↔
      (db.superuserRoleCheck = true → privilegeClaimsAreConsistent user.role user.isSuperuser = true) ∧
        db.userConflicts uid user = false ∧ db' = { db with users := db.users.insert uid user } := by
  rw [putUser, eq_comm (a := db')]
  by_cases hcheck : (db.superuserRoleCheck &&
      !privilegeClaimsAreConsistent user.role user.isSuperuser) = true
  · rw [if_pos hcheck]
    rw [Bool.and_eq_true, Bool.not_eq_true'] at hcheck
    simp [hcheck.1, hcheck.2]
  · rw [if_neg hcheck]
    have hconsistent : db.superuserRoleCheck = true →
        privilegeClaimsAreConsistent user.role user.isSuperuser = true := by
      simpa using hcheck
    cases hconflict : db.userConflicts uid user with
    | true => simp
    | false =>
        simp only [Bool.false_eq_true, if_false, Except.ok.injEq, true_and]
        exact ⟨fun heq => ⟨hconsistent, heq⟩, fun h => h.2⟩

theorem insertUser_eq_ok {user : User} {db db' : Db} (hinsert : db.insertUser user = .ok db') :
    db' = { db with
      users := db.users.insert db.nextUserId user, nextUserId := db.nextUserId + 1 } := by
  rw [insertUser] at hinsert
  cases hput : db.putUser db.nextUserId user with
  | error e => simp [hput, Except.map] at hinsert
  | ok db₁ =>
      obtain ⟨-, -, rfl⟩ := putUser_eq_ok.1 hput
      simp only [hput, Except.map, Except.ok.injEq] at hinsert
      exact hinsert.symm

theorem updateUser_eq_ok {uid : UserId} {loaded : User} {draft : UserDraft} {db db' : Db}
    (hupdate : db.updateUser uid loaded draft = .ok db') :
    (draft = loaded.draft ∧ db' = db) ∨
      ∃ current user, db.users.lookup uid = some current ∧
        draft.saveOver loaded current = .ok user ∧ db.putUser uid user = .ok db' := by
  rw [updateUser] at hupdate
  split at hupdate
  · next hsame => exact .inl ⟨hsame, (Except.ok.inj hupdate).symm⟩
  · right
    split at hupdate
    · cases hupdate
    · next current hcurrent =>
        cases hsave : draft.saveOver loaded current with
        | error e => simp [hsave, Except.bind] at hupdate
        | ok user =>
            simp only [hsave, Except.bind] at hupdate
            exact ⟨current, user, hcurrent, hsave, hupdate⟩

theorem setRole_eq_ok {uid : UserId} {role : RoleType} {isSuperuser : Bool} {generation : Nat}
    {db db' : Db} (hset : db.setRole uid role isSuperuser generation = .ok db') :
    (db.users.lookup uid = none ∧ db' = db) ∨
      ∃ current, db.users.lookup uid = some current ∧
        db.putUser uid
          { current with role, isSuperuser, authGeneration := generation } = .ok db' := by
  rw [setRole] at hset
  split at hset
  · next hnone => exact .inl ⟨hnone, (Except.ok.inj hset).symm⟩
  · next current hcurrent => exact .inr ⟨current, hcurrent, hset⟩

theorem insertSession_eq_ok {row : ClientSession} {db db' : Db} :
    db.insertSession row = .ok db' ↔
      (db.users.lookup row.userId).isSome = true ∧ db' = { db with
        sessions := db.sessions.insert db.nextSessionId row
        nextSessionId := db.nextSessionId + 1 } := by
  rw [insertSession]
  split
  · next hnone => simp_all
  · next hsome =>
      rw [Option.isNone_iff_eq_none, ← ne_eq, Option.ne_none_iff_isSome] at hsome
      rw [Except.ok.injEq, eq_comm]
      exact ⟨fun heq => ⟨hsome, heq⟩, fun h => h.2⟩

theorem updateSession_eq_ok {id : SessionId} {loaded new : ClientSession} {db db' : Db}
    (hupdate : db.updateSession id loaded new = .ok db') :
    (new = loaded ∧ db' = db) ∨
      ∃ current, db.sessions.lookup id = some current ∧
        db' = { db with sessions := db.sessions.insert id (new.saveOver loaded current) } := by
  rw [updateSession] at hupdate
  split at hupdate
  · next hsame => exact .inl ⟨hsame, (Except.ok.inj hupdate).symm⟩
  · split at hupdate
    · cases hupdate
    · next current hcurrent => exact .inr ⟨current, hcurrent, (Except.ok.inj hupdate).symm⟩

theorem insertOutbox_eq_ok {row : RevocationOutbox} {db db' : Db} :
    db.insertOutbox row = .ok db' ↔
      (∀ id other, db.outbox.lookup id = some other → other.uniqueKey ≠ row.uniqueKey) ∧
        db' = { db with
          outbox := db.outbox.insert db.nextOutboxId row
          nextOutboxId := db.nextOutboxId + 1 } := by
  rw [insertOutbox]
  split
  · next hempty =>
      rw [List.isEmpty_iff, Table.rows_eq_nil_iff] at hempty
      simp only [beq_eq_false_iff_ne] at hempty
      rw [Except.ok.injEq, eq_comm]
      exact ⟨fun heq => ⟨hempty, heq⟩, fun h => h.2⟩
  · next hfull =>
      rw [List.isEmpty_iff, Table.rows_eq_nil_iff] at hfull
      simp only [beq_eq_false_iff_ne] at hfull
      simp [hfull]

theorem updateOutbox_eq_ok {id : OutboxId} {loaded new : RevocationOutbox} {db db' : Db}
    (hupdate : db.updateOutbox id loaded new = .ok db') :
    (new = loaded ∧ db' = db) ∨
      ∃ current, db.outbox.lookup id = some current ∧
        db' = { db with outbox := db.outbox.insert id (new.saveOver loaded current) } := by
  rw [updateOutbox] at hupdate
  split at hupdate
  · next hsame => exact .inl ⟨hsame, (Except.ok.inj hupdate).symm⟩
  · split at hupdate
    · cases hupdate
    · next current hcurrent => exact .inr ⟨current, hcurrent, (Except.ok.inj hupdate).symm⟩

theorem raiseTombstone_eq (uid : UserId) (terminal : Nat) (now : Int) (db : Db) :
    ∃ tombstones, db.raiseTombstone uid terminal now = { db with tombstones } := by
  rw [raiseTombstone]
  split
  · exact ⟨_, rfl⟩
  · split
    · exact ⟨_, rfl⟩
    · exact ⟨db.tombstones, rfl⟩

end Db

/-- What a write of its kind leaves as it was. -/
structure Write.Frame (write : Write) (db db' : Db) : Prop where
  users : write.changesUsers = false → db'.users = db.users
  sessions : write.changesSessions = false → db'.sessions = db.sessions
  outbox : write.changesOutbox = false → db'.outbox = db.outbox
  tombstones : write.changesTombstones = false → db'.tombstones = db.tombstones
  nextUserId : db.nextUserId ≤ db'.nextUserId
  nextSessionId : db.nextSessionId ≤ db'.nextSessionId
  nextOutboxId : db.nextOutboxId ≤ db'.nextOutboxId

theorem Write.frame_refl (write : Write) (db : Db) : write.Frame db db :=
  ⟨fun _ => rfl, fun _ => rfl, fun _ => rfl, fun _ => rfl, le_rfl, le_rfl, le_rfl⟩

theorem Db.putUser_frame {write : Write} {uid : UserId} {user : User} {db db' : Db}
    (hwrite : write.changesUsers = true) (hput : db.putUser uid user = .ok db') :
    write.Frame db db' := by
  obtain ⟨-, -, rfl⟩ := Db.putUser_eq_ok.1 hput
  exact ⟨by simp [hwrite], fun _ => rfl, fun _ => rfl, fun _ => rfl, le_rfl, le_rfl, le_rfl⟩

theorem Write.apply_frame {write : Write} {db db' : Db} (happly : write.apply db = .ok db') :
    write.Frame db db' := by
  cases write with
  | insertUser user =>
      rw [Db.insertUser_eq_ok happly]
      exact ⟨nofun, fun _ => rfl, fun _ => rfl, fun _ => rfl, Nat.le_succ _, le_rfl, le_rfl⟩
  | updateUser uid loaded draft =>
      obtain ⟨-, rfl⟩ | ⟨current, user, -, -, hput⟩ := Db.updateUser_eq_ok happly
      · exact frame_refl _ _
      · exact Db.putUser_frame rfl hput
  | setRole uid role isSuperuser generation =>
      obtain ⟨-, rfl⟩ | ⟨current, -, hput⟩ := Db.setRole_eq_ok happly
      · exact frame_refl _ _
      · exact Db.putUser_frame rfl hput
  | deleteUser uid =>
      rw [← Except.ok.inj happly]
      exact ⟨nofun, nofun, fun _ => rfl, fun _ => rfl, le_rfl, le_rfl, le_rfl⟩
  | insertSession row =>
      rw [(Db.insertSession_eq_ok.1 happly).2]
      exact ⟨fun _ => rfl, nofun, fun _ => rfl, fun _ => rfl, le_rfl, Nat.le_succ _, le_rfl⟩
  | updateSession id loaded new =>
      obtain ⟨-, rfl⟩ | ⟨current, -, rfl⟩ := Db.updateSession_eq_ok happly
      · exact frame_refl _ _
      · exact ⟨fun _ => rfl, nofun, fun _ => rfl, fun _ => rfl, le_rfl, le_rfl, le_rfl⟩
  | deleteSessions ids =>
      rw [← Except.ok.inj happly]
      exact ⟨fun _ => rfl, nofun, fun _ => rfl, fun _ => rfl, le_rfl, le_rfl, le_rfl⟩
  | insertOutbox row =>
      rw [(Db.insertOutbox_eq_ok.1 happly).2]
      exact ⟨fun _ => rfl, fun _ => rfl, nofun, fun _ => rfl, le_rfl, le_rfl, Nat.le_succ _⟩
  | updateOutbox id loaded new =>
      obtain ⟨-, rfl⟩ | ⟨current, -, rfl⟩ := Db.updateOutbox_eq_ok happly
      · exact frame_refl _ _
      · exact ⟨fun _ => rfl, fun _ => rfl, nofun, fun _ => rfl, le_rfl, le_rfl, le_rfl⟩
  | reapOutbox horizon =>
      rw [← Except.ok.inj happly]
      exact ⟨fun _ => rfl, fun _ => rfl, nofun, fun _ => rfl, le_rfl, le_rfl, le_rfl⟩
  | raiseTombstone uid terminal now =>
      obtain ⟨tombstones, heq⟩ := db.raiseTombstone_eq uid terminal now
      rw [← Except.ok.inj happly, heq]
      exact ⟨fun _ => rfl, fun _ => rfl, fun _ => rfl, nofun, le_rfl, le_rfl, le_rfl⟩
  | revokeUserKeys | setPolicyRevision | appendAudit =>
      rw [← Except.ok.inj happly]
      exact ⟨fun _ => rfl, fun _ => rfl, fun _ => rfl, fun _ => rfl, le_rfl, le_rfl, le_rfl⟩

section commit

variable {writes : List Write} {db db' : Db}

theorem commit_users (hcommit : commit writes db = .ok db')
    (hno : ∀ write ∈ writes, write.changesUsers = false) : db'.users = db.users := by
  refine commit_rel (R := fun a b => b.users = a.users) (fun _ => rfl)
    (fun _ _ _ h₁ h₂ => h₂.trans h₁) hcommit ?_
  intro write hwrite a b happly
  exact (Write.apply_frame happly).users (hno write hwrite)

theorem commit_sessions (hcommit : commit writes db = .ok db')
    (hno : ∀ write ∈ writes, write.changesSessions = false) : db'.sessions = db.sessions := by
  refine commit_rel (R := fun a b => b.sessions = a.sessions) (fun _ => rfl)
    (fun _ _ _ h₁ h₂ => h₂.trans h₁) hcommit ?_
  intro write hwrite a b happly
  exact (Write.apply_frame happly).sessions (hno write hwrite)

theorem commit_outbox (hcommit : commit writes db = .ok db')
    (hno : ∀ write ∈ writes, write.changesOutbox = false) : db'.outbox = db.outbox := by
  refine commit_rel (R := fun a b => b.outbox = a.outbox) (fun _ => rfl)
    (fun _ _ _ h₁ h₂ => h₂.trans h₁) hcommit ?_
  intro write hwrite a b happly
  exact (Write.apply_frame happly).outbox (hno write hwrite)

theorem commit_tombstones (hcommit : commit writes db = .ok db')
    (hno : ∀ write ∈ writes, write.changesTombstones = false) :
    db'.tombstones = db.tombstones := by
  refine commit_rel (R := fun a b => b.tombstones = a.tombstones) (fun _ => rfl)
    (fun _ _ _ h₁ h₂ => h₂.trans h₁) hcommit ?_
  intro write hwrite a b happly
  exact (Write.apply_frame happly).tombstones (hno write hwrite)

theorem commit_nextSessionId (hcommit : commit writes db = .ok db') :
    db.nextSessionId ≤ db'.nextSessionId :=
  commit_rel (R := fun a b => a.nextSessionId ≤ b.nextSessionId) (fun _ => le_rfl)
    (fun _ _ _ h₁ h₂ => le_trans h₁ h₂) hcommit fun _ _ _ _ happly =>
      (Write.apply_frame happly).nextSessionId

theorem commit_nextOutboxId (hcommit : commit writes db = .ok db') :
    db.nextOutboxId ≤ db'.nextOutboxId :=
  commit_rel (R := fun a b => a.nextOutboxId ≤ b.nextOutboxId) (fun _ => le_rfl)
    (fun _ _ _ h₁ h₂ => le_trans h₁ h₂) hcommit fun _ _ _ _ happly =>
      (Write.apply_frame happly).nextOutboxId

theorem commit_nextUserId (hcommit : commit writes db = .ok db') :
    db.nextUserId ≤ db'.nextUserId :=
  commit_rel (R := fun a b => a.nextUserId ≤ b.nextUserId) (fun _ => le_rfl)
    (fun _ _ _ h₁ h₂ => le_trans h₁ h₂) hcommit fun _ _ _ _ happly =>
      (Write.apply_frame happly).nextUserId

end commit

/-- Every row was inserted under an identifier drawn from its counter. -/
structure Db.IdsFresh (db : Db) : Prop where
  users : ∀ uid user, db.users.lookup uid = some user → uid < db.nextUserId
  sessions : ∀ id row, db.sessions.lookup id = some row → id < db.nextSessionId
  outbox : ∀ id row, db.outbox.lookup id = some row → id < db.nextOutboxId

theorem Db.IdsFresh.of_keys {db : Db} (husers : ∀ uid ∈ db.users.keys, uid < db.nextUserId)
    (hsessions : ∀ id ∈ db.sessions.keys, id < db.nextSessionId)
    (houtbox : ∀ id ∈ db.outbox.keys, id < db.nextOutboxId) : db.IdsFresh where
  users uid _ huser := husers uid (Table.mem_keys huser)
  sessions id _ hrow := hsessions id (Table.mem_keys hrow)
  outbox id _ hrow := houtbox id (Table.mem_keys hrow)

theorem Db.IdsFresh.putUser {db db' : Db} {uid : UserId} {current user : User} (hfresh : db.IdsFresh)
    (hcurrent : db.users.lookup uid = some current) (hput : db.putUser uid user = .ok db') :
    db'.IdsFresh := by
  obtain ⟨-, -, rfl⟩ := Db.putUser_eq_ok.1 hput
  exact ⟨Table.insert_lt hfresh.users le_rfl (hfresh.users uid current hcurrent), hfresh.sessions,
    hfresh.outbox⟩

theorem Write.apply_idsFresh {write : Write} {db db' : Db} (hfresh : db.IdsFresh)
    (happly : write.apply db = .ok db') : db'.IdsFresh := by
  cases write with
  | insertUser user =>
      rw [Db.insertUser_eq_ok happly]
      exact ⟨Table.insert_lt hfresh.users (Nat.le_succ _) (Nat.lt_succ_self _), hfresh.sessions,
        hfresh.outbox⟩
  | updateUser uid loaded draft =>
      obtain ⟨-, rfl⟩ | ⟨current, user, hcurrent, -, hput⟩ := Db.updateUser_eq_ok happly
      · exact hfresh
      · exact hfresh.putUser hcurrent hput
  | setRole uid role isSuperuser generation =>
      obtain ⟨-, rfl⟩ | ⟨current, hcurrent, hput⟩ := Db.setRole_eq_ok happly
      · exact hfresh
      · exact hfresh.putUser hcurrent hput
  | deleteUser uid =>
      rw [← Except.ok.inj happly]
      refine ⟨?_, Table.filter_lt _ hfresh.sessions, hfresh.outbox⟩
      intro uid' user huser
      simp only [Db.deleteUser] at huser
      rw [Table.lookup_erase_eq] at huser
      split at huser
      · cases huser
      · exact hfresh.users uid' user huser
  | insertSession row =>
      rw [(Db.insertSession_eq_ok.1 happly).2]
      exact ⟨hfresh.users, Table.insert_lt hfresh.sessions (Nat.le_succ _) (Nat.lt_succ_self _),
        hfresh.outbox⟩
  | updateSession id loaded new =>
      obtain ⟨-, rfl⟩ | ⟨current, hcurrent, rfl⟩ := Db.updateSession_eq_ok happly
      · exact hfresh
      · exact ⟨hfresh.users,
          Table.insert_lt hfresh.sessions le_rfl (hfresh.sessions id current hcurrent),
          hfresh.outbox⟩
  | deleteSessions ids =>
      rw [← Except.ok.inj happly]
      exact ⟨hfresh.users, Table.filter_lt _ hfresh.sessions, hfresh.outbox⟩
  | insertOutbox row =>
      rw [(Db.insertOutbox_eq_ok.1 happly).2]
      exact ⟨hfresh.users, hfresh.sessions,
        Table.insert_lt hfresh.outbox (Nat.le_succ _) (Nat.lt_succ_self _)⟩
  | updateOutbox id loaded new =>
      obtain ⟨-, rfl⟩ | ⟨current, hcurrent, rfl⟩ := Db.updateOutbox_eq_ok happly
      · exact hfresh
      · exact ⟨hfresh.users, hfresh.sessions,
          Table.insert_lt hfresh.outbox le_rfl (hfresh.outbox id current hcurrent)⟩
  | reapOutbox horizon =>
      rw [← Except.ok.inj happly]
      exact ⟨hfresh.users, hfresh.sessions, Table.filter_lt _ hfresh.outbox⟩
  | raiseTombstone uid terminal now =>
      obtain ⟨tombstones, heq⟩ := db.raiseTombstone_eq uid terminal now
      rw [← Except.ok.inj happly, heq]
      exact ⟨hfresh.users, hfresh.sessions, hfresh.outbox⟩
  | revokeUserKeys | setPolicyRevision | appendAudit =>
      rw [← Except.ok.inj happly]
      exact ⟨hfresh.users, hfresh.sessions, hfresh.outbox⟩

theorem commit_idsFresh {writes : List Write} {db db' : Db} (hfresh : db.IdsFresh)
    (hcommit : commit writes db = .ok db') : db'.IdsFresh :=
  commit_rel (R := fun a b => a.IdsFresh → b.IdsFresh) (fun _ h => h)
    (fun _ _ _ h₁ h₂ h => h₂ (h₁ h)) hcommit
    (fun _ _ _ _ happly h => Write.apply_idsFresh h happly) hfresh

/-- What inserting `rows` does to the outbox: no row repeats the key of a stored one, all of them are stored,
and nothing else changes. -/
structure Enqueued (rows : List RevocationOutbox) (db db' : Db) : Prop where
  kept : ∀ id row, db.outbox.lookup id = some row → db'.outbox.lookup id = some row
  origin : ∀ id row, db'.outbox.lookup id = some row →
    db.outbox.lookup id = some row ∨ (row ∈ rows ∧ db.nextOutboxId ≤ id)
  stored : ∀ row ∈ rows, ∃ id, db'.outbox.lookup id = some row
  unused : ∀ row ∈ rows, ∀ id other, db.outbox.lookup id = some other → other.uniqueKey ≠ row.uniqueKey

theorem commit_insertOutbox {rows : List RevocationOutbox} {db db' : Db} (hfresh : db.IdsFresh)
    (hcommit : commit (rows.map .insertOutbox) db = .ok db') : Enqueued rows db db' := by
  induction rows generalizing db with
  | nil =>
      rw [List.map_nil, commit_nil, Except.ok.injEq] at hcommit
      subst hcommit
      exact ⟨fun _ _ h => h, fun _ _ h => .inl h, by simp, by simp⟩
  | cons row rest ih =>
      rw [List.map_cons] at hcommit
      obtain ⟨db₁, hinsert, hrest⟩ := commit_cons_eq_ok.1 hcommit
      have hfresh₁ := Write.apply_idsFresh hfresh hinsert
      obtain ⟨hunused, rfl⟩ := Db.insertOutbox_eq_ok.1 hinsert
      have hlookup (id : OutboxId) : (AList.insert db.nextOutboxId row db.outbox).lookup id =
          if id = db.nextOutboxId then some row else db.outbox.lookup id :=
        Table.lookup_insert_eq _ _ _ _
      have hkept : ∀ id old, db.outbox.lookup id = some old →
          (AList.insert db.nextOutboxId row db.outbox).lookup id = some old := by
        intro id old hold
        rw [hlookup, if_neg (Nat.ne_of_lt (hfresh.outbox id old hold)), hold]
      have henqueued := ih hfresh₁ hrest
      refine ⟨?_, ?_, ?_, ?_⟩
      · intro id old hold
        exact henqueued.kept id old (hkept id old hold)
      · intro id new hnew
        obtain hold | ⟨hmem, hid⟩ := henqueued.origin id new hnew
        · dsimp only at hold
          rw [hlookup] at hold
          split at hold
          · next hid =>
              obtain rfl := Option.some.inj hold
              exact .inr ⟨List.mem_cons_self, hid ▸ Nat.le_refl _⟩
          · exact .inl hold
        · exact .inr ⟨List.mem_cons_of_mem _ hmem, Nat.le_of_succ_le hid⟩
      · intro new hmem
        obtain rfl | hmem := List.mem_cons.1 hmem
        · refine ⟨db.nextOutboxId, henqueued.kept _ _ ?_⟩
          dsimp only
          rw [hlookup, if_pos rfl]
        · exact henqueued.stored new hmem
      · intro new hmem id other hother
        obtain rfl | hmem := List.mem_cons.1 hmem
        · exact hunused id other hother
        · exact henqueued.unused new hmem id other (hkept id other hother)

theorem Enqueued.congr {rows : List RevocationOutbox} {a b a' b' : Db} (henqueued : Enqueued rows a b)
    (hbefore : a'.outbox = a.outbox) (hnext : a'.nextOutboxId = a.nextOutboxId)
    (hafter : b'.outbox = b.outbox) : Enqueued rows a' b' where
  kept := by rw [hbefore, hafter]; exact henqueued.kept
  origin := by rw [hbefore, hafter, hnext]; exact henqueued.origin
  stored := by rw [hafter]; exact henqueued.stored
  unused := by rw [hbefore]; exact henqueued.unused

/-- A write to none of the users, the sessions, the outbox and the tombstones. -/
def Write.isPeripheral (write : Write) : Bool :=
  !write.changesUsers && !write.changesSessions && !write.changesOutbox && !write.changesTombstones

/-- Equality of the four tables the proofs are about. -/
structure SameRecords (db db' : Db) : Prop where
  users : db'.users = db.users
  sessions : db'.sessions = db.sessions
  outbox : db'.outbox = db.outbox
  tombstones : db'.tombstones = db.tombstones

theorem commit_peripheral {writes : List Write} {db db' : Db} (hcommit : commit writes db = .ok db')
    (hperipheral : ∀ write ∈ writes, write.isPeripheral = true) : SameRecords db db' := by
  have hno : ∀ write ∈ writes, write.changesUsers = false ∧ write.changesSessions = false ∧
      write.changesOutbox = false ∧ write.changesTombstones = false := by
    intro write hmem
    have hwrite := hperipheral write hmem
    simp only [Write.isPeripheral, Bool.and_eq_true, Bool.not_eq_true'] at hwrite
    exact ⟨hwrite.1.1.1, hwrite.1.1.2, hwrite.1.2, hwrite.2⟩
  exact ⟨commit_users hcommit fun write h => (hno write h).1,
    commit_sessions hcommit fun write h => (hno write h).2.1,
    commit_outbox hcommit fun write h => (hno write h).2.2.1,
    commit_tombstones hcommit fun write h => (hno write h).2.2.2⟩

end FaAuthM8

import FaAuthM8.Core.Client
import FaAuthM8.Services.Generation

/-!
# Client sessions

Issuing reuses a row of the user when there is one and inserts otherwise; revoking captures the active
rows' identifiers, deletes every row, and pushes the captured targets to Redis after the commit.
-/

namespace FaAuthM8

structure ClientSessionCreate where
  jwtJti : Jti
  refreshTokenHash : String
  jwtExpiresAt : Int
  refreshExpiresAt : Int
  externalAccessToken : Option String := none
  externalRefreshToken : Option String := none
  externalTokenExpiresAt : Option Int := none
deriving DecidableEq, Repr

/-- The loaded row with every issued column set, stamped with the owner's generation. -/
def restampSession (row : ClientSession) (currentUser : User) (data : ClientSessionCreate) :
    ClientSession :=
  { row with
    provider := currentUser.provider
    jwtJti := data.jwtJti
    refreshTokenHash := data.refreshTokenHash
    jwtExpiresAt := data.jwtExpiresAt
    refreshExpiresAt := data.refreshExpiresAt
    externalAccessToken := data.externalAccessToken
    externalRefreshToken := data.externalRefreshToken
    externalTokenExpiresAt := data.externalTokenExpiresAt
    authGeneration := some currentUser.authGeneration }

def newSession (uid : UserId) (currentUser : User) (data : ClientSessionCreate) : ClientSession where
  userId := uid
  provider := currentUser.provider
  jwtJti := data.jwtJti
  refreshTokenHash := data.refreshTokenHash
  jwtExpiresAt := data.jwtExpiresAt
  refreshExpiresAt := data.refreshExpiresAt
  revoked := false
  externalAccessToken := data.externalAccessToken
  externalRefreshToken := data.externalRefreshToken
  externalTokenExpiresAt := data.externalTokenExpiresAt
  authGeneration := some currentUser.authGeneration

/-- The write of `create_client_session`, given the row its query returned. -/
def createClientSession (uid : UserId) (currentUser : User) (data : ClientSessionCreate) :
    Option (SessionId × ClientSession) → Write
  | some (id, row) => .updateSession id row (restampSession row currentUser data)
  | none => .insertSession (newSession uid currentUser data)

/-- The row the query of `create_client_session` may return. -/
def sessionOfUser (db : Db) (uid : UserId) : Option (SessionId × ClientSession) :=
  db.sessions.first fun _ row => row.userId == uid

def sessionIds (db : Db) (p : ClientSession → Bool) : List SessionId :=
  (db.sessions.rows fun _ row => p row).map (·.1)

theorem mem_sessionIds {db : Db} {p : ClientSession → Bool} {id : SessionId} :
    id ∈ sessionIds db p ↔ ∃ row, db.sessions.lookup id = some row ∧ p row = true := by
  simp only [sessionIds, List.mem_map, Prod.exists, exists_and_right, exists_eq_right]
  exact exists_congr fun row => Table.mem_rows

def ownedBy (uid : UserId) (row : ClientSession) : Bool := row.userId == uid

theorem mem_sessionIds_ownedBy {db : Db} {uid : UserId} {id : SessionId} {row : ClientSession}
    (hrow : db.sessions.lookup id = some row) (huser : row.userId = uid) :
    id ∈ sessionIds db (ownedBy uid) :=
  mem_sessionIds.2 ⟨row, hrow, by simp [ownedBy, huser]⟩

def carries (jti : Jti) (row : ClientSession) : Bool := row.jwtJti == jti

def isActiveSession (now : Int) (row : ClientSession) : Bool :=
  !row.revoked && now < row.refreshExpiresAt

def getUserActiveSessions (db : Db) (uid : UserId) (now : Int) : List ClientSession :=
  (db.sessions.rows fun _ row => ownedBy uid row && isActiveSession now row).map (·.2)

def ClientSession.target (row : ClientSession) : RevocationTarget := ⟨row.jwtJti, row.jwtExpiresAt⟩

/-- The targets `capture_and_delete_user_sessions` records before it deletes the rows. -/
def captureTargets (db : Db) (uid : UserId) (now : Int) : List RevocationTarget :=
  (getUserActiveSessions db uid now).map (·.target)

theorem mem_captureTargets {db : Db} {uid : UserId} {now : Int} {target : RevocationTarget} :
    target ∈ captureTargets db uid now ↔ ∃ id row, db.sessions.lookup id = some row ∧
      row.userId = uid ∧ isActiveSession now row = true ∧ row.target = target := by
  simp only [captureTargets, getUserActiveSessions, List.map_map, List.mem_map, Prod.exists,
    Table.mem_rows, ownedBy, Bool.and_eq_true, beq_iff_eq, Function.comp_apply]
  constructor
  · rintro ⟨id, row, ⟨hrow, huser, hactive⟩, htarget⟩
    exact ⟨id, row, hrow, huser, hactive, htarget⟩
  · rintro ⟨id, row, hrow, huser, hactive, htarget⟩
    exact ⟨id, row, ⟨hrow, huser, hactive⟩, htarget⟩

/-- The command `revoke_session_jti` sends when it has a Redis client. -/
def revokeSessionJtiCommands (now : Int) (jti : Jti) (expiresAt : Int) : List RedisCommand :=
  let rawTtl := wholeSeconds (expiresAt - now)
  if 0 ≤ rawTtl then [.blacklistJti jti rawTtl] else []

/-- The commands `apply_post_commit_revocation` sends for one target. -/
def postCommitCommands (now : Int) (target : RevocationTarget) : List RedisCommand :=
  let ttl := wholeSeconds (target.expiresAt - now)
  if 0 < ttl then [.blacklistJti target.jti ttl, .revoke target.jti] else [.revoke target.jti]

def applyPostCommitRevocation (now : Int) (targets : List RevocationTarget) : List RedisCommand :=
  targets.flatMap (postCommitCommands now)

/-- The rows `purge_expired_sessions` deletes. -/
def isExpiredSession (uid : UserId) (now : Int) (row : ClientSession) : Bool :=
  row.userId == uid && row.refreshExpiresAt < now

end FaAuthM8

import FaAuthM8.System.World

/-!
# Requests as processes

A request runs as a sequence of atomic steps, one for each statement it sends. Its local state is the point
it has reached together with what it has read so far: a loaded row is a copy, and stays the copy it was
loaded as, also after the row is locked. A step that must wait for a lock is not enabled. An error rolls the
transaction back and ends the request.
-/

namespace FaAuthM8

structure UpdateRequest where
  actor : Actor
  userId : UserId
  userIn : UserUpdate
deriving DecidableEq, Repr

inductive UpdatePhase
  | load
  | checkEmail (copy : User)
  | lockPolicy (copy : User)
  | lockUser (copy : User) (revision : Nat)
  | enforce (copy : User) (revision : Nat)
  | apply (copy : User) (revision : Option Nat)
  | purge (copy : User) (plan : UpdatePlan) (revision : Option Nat) (targets : List RevocationTarget)
  | commit (copy : User) (plan : UpdatePlan) (revision : Option Nat)
      (targets : List RevocationTarget) (doomed : List SessionId)
deriving DecidableEq, Repr

structure DeleteRequest where
  actor : Actor
  userId : UserId
deriving DecidableEq, Repr

inductive DeletePhase
  | load
  | lockPolicy (copy : User)
  | lockUser (copy : User) (revision : Nat)
  | enforce (copy : User) (revision : Nat)
  | purge (copy : User) (terminal revision : Nat)
  | commit (copy : User) (terminal revision : Nat) (doomed : List SessionId)
deriving DecidableEq, Repr

structure RepairRequest where
  userId : UserId
  intendedRole : RoleType
deriving DecidableEq, Repr

inductive RepairPhase
  | load
  | capture (newGeneration : Nat)
  | purge (newGeneration : Nat) (targets : List RevocationTarget)
  | commit (newGeneration : Nat) (targets : List RevocationTarget) (doomed : List SessionId)
deriving DecidableEq, Repr

structure OAuthGoogleToken where
  accessToken : String
  expiresIn : Nat
  refreshToken : String
  userId : String
  email : String
  emailVerified : Bool
  name : String
deriving DecidableEq, Repr

inductive Credentials
  | password (email password : String)
  | google (token : OAuthGoogleToken)
deriving DecidableEq, Repr

structure LoginRequest where
  credentials : Credentials
  /-- Whether the request obtained a Redis client. -/
  redis : Bool
deriving DecidableEq, Repr

inductive LoginPhase
  | read
  | reload (uid : UserId)
  | sign (uid : UserId) (copy : User)
  | load (uid : UserId) (copy : User) (pair : TokenPair)
  | save (uid : UserId) (copy : User) (pair : TokenPair) (data : ClientSessionCreate)
      (existing : Option (SessionId × ClientSession))
  | register (uid : UserId) (pair : TokenPair)
  | purgeExpired (uid : UserId) (pair : TokenPair)
  | purgeCommit (pair : TokenPair) (doomed : List SessionId)
  | respond (pair : TokenPair)
deriving DecidableEq, Repr

structure RefreshRequest where
  token : RefreshToken
  redis : Bool
deriving DecidableEq, Repr

inductive RefreshPhase
  | allowlist
  | lock
  | lineage (copy : User)
  | sign (copy : User)
  | rotate (copy : User) (pair : TokenPair)
  | load (copy : User) (pair : TokenPair)
  | save (copy : User) (pair : TokenPair) (data : ClientSessionCreate)
      (existing : Option (SessionId × ClientSession))
  | respond (pair : TokenPair)
deriving DecidableEq, Repr

structure LogoutRequest where
  access : AccessToken
  refresh : RefreshToken
  redis : Bool
deriving DecidableEq, Repr

inductive LogoutPhase
  | accessPurge
  | accessCommit (doomed : List SessionId)
  | blacklist
  | refreshRevoke (accessJti : Option Jti) (anyFailed : Bool)
  | sessionPurge (jti : Jti) (anyFailed : Bool)
  | sessionCommit (jti : Jti) (doomed : List SessionId) (anyFailed : Bool)
  | respond (jti : Option Jti) (anyFailed : Bool)
deriving DecidableEq, Repr

structure RevokeSessionRequest where
  actor : Actor
  sessionId : SessionId
  redis : Bool
deriving DecidableEq, Repr

inductive RevokeSessionPhase
  | load
  | purge (row : ClientSession)
  | commit (row : ClientSession) (doomed : List SessionId)
deriving DecidableEq, Repr

structure RevokeUserRequest where
  /-- The administrator, or none for the response to a reused refresh token. -/
  actor : Option Actor
  userId : UserId
  redis : Bool
deriving DecidableEq, Repr

inductive RevokeUserPhase
  | capture
  | purge (targets : List RevocationTarget)
  | commit (targets : List RevocationTarget) (doomed : List SessionId)
deriving DecidableEq, Repr

/-- The operator's sweep of the sessions that carry no generation. -/
inductive LegacySweepPhase
  | purge
  | commit (doomed : List SessionId)
deriving DecidableEq, Repr

structure DeleteMeRequest where
  token : AccessToken
  redis : Bool
deriving DecidableEq, Repr

inductive DeleteMePhase
  | authenticate
  | load
  | commit
deriving DecidableEq, Repr

structure DrainRequest where
  /-- The clock of the batch. -/
  now : Int
  redis : Bool
deriving DecidableEq, Repr

inductive DrainPhase
  | claim
  | next (ids : List OutboxId)
  | deliver (id : OutboxId) (copy : RevocationOutbox) (rest : List OutboxId)
  | revoke (jti : Jti) (id : OutboxId) (copy : RevocationOutbox) (rest : List OutboxId)
  | finish (success : Bool) (id : OutboxId) (copy : RevocationOutbox) (rest : List OutboxId)
deriving DecidableEq, Repr

inductive Local
  | idle
  | update (request : UpdateRequest) (phase : UpdatePhase)
  | delete (request : DeleteRequest) (phase : DeletePhase)
  | repair (request : RepairRequest) (phase : RepairPhase)
  | login (request : LoginRequest) (phase : LoginPhase)
  | refresh (request : RefreshRequest) (phase : RefreshPhase)
  | logout (request : LogoutRequest) (phase : LogoutPhase)
  | revokeSession (request : RevokeSessionRequest) (phase : RevokeSessionPhase)
  | revokeUser (request : RevokeUserRequest) (phase : RevokeUserPhase)
  | deleteMe (request : DeleteMeRequest) (phase : DeleteMePhase)
  | legacySweep (phase : LegacySweepPhase)
  | drain (request : DrainRequest) (phase : DrainPhase)
  /-- The committed revocation has not been pushed to Redis yet. -/
  | postCommit (targets : List RevocationTarget)
  | commands (rest : List RedisCommand)
deriving DecidableEq, Repr

/-- What a process does next: a new request, the next statement of its request (with the row or the rows
the database returns for it, where it may return one of several), or an abrupt end. The environment is a
process too: it lets time pass and takes Redis down or up. -/
inductive Action
  | begin (request : Local)
  | proceed
  | select (id : Option SessionId)
  | claim (ids : List OutboxId)
  | abort
  | reap
  | tick (elapsed : Nat)
  | setRedis (available : Bool)
deriving DecidableEq, Repr

def failed (p : Pid) (w : World) : Option (World × Local) := some (w.release p, .idle)

/-- The commit of a transaction, after which the request is in state `after`. -/
def committing (w : World) (p : Pid) (writes : List Write) (events : Db → List Event) (after : Local) :
    Option (World × Local) :=
  match w.transact p writes events with
  | some w' => some (w', after)
  | none => failed p w

/-- The deletion of the rows with the given ids, which waits for their locks. -/
def purging (w : World) (p : Pid) (doomed : List SessionId) (after : Local) :
    Option (World × Local) :=
  if w.locks.sessionsFree p doomed then some (w.lockSessions p doomed, after) else none

/-- A Redis command, whose failure is `onError`. -/
def sending (w : World) (command : RedisCommand) (onError : Option (World × Local)) (after : Local) :
    Option (World × Local) :=
  match w.send command with
  | some w' => some (w', after)
  | none => onError

def jtisOf (db : Db) (ids : List SessionId) : List Jti :=
  ids.filterMap fun id => (db.sessions.lookup id).map (·.jwtJti)

def stampEvents (jti : Jti) (db : Db) : List Event :=
  (sessionByJti db jti).toList.map fun found => .stamped found.2

/-- A row that the query of `create_client_session` may return in the committed state. -/
def selectSession (db : Db) (uid : UserId) :
    Option SessionId → Option (Option (SessionId × ClientSession))
  | none => if (sessionIds db (ownedBy uid)).isEmpty then some none else none
  | some id =>
      match db.sessions.lookup id with
      | none => none
      | some row => if ownedBy uid row then some (some (id, row)) else none

theorem selectSession_eq_some {db : Db} {uid : UserId} {pick : Option SessionId}
    {found : Option (SessionId × ClientSession)} (hselect : selectSession db uid pick = some found) :
    (found = none ∧ ∀ id row, db.sessions.lookup id = some row → row.userId ≠ uid) ∨
      ∃ id row, found = some (id, row) ∧ db.sessions.lookup id = some row ∧ row.userId = uid := by
  cases pick with
  | none =>
      rw [selectSession] at hselect
      split at hselect
      · next hempty =>
          refine .inl ⟨(Option.some.inj hselect).symm, fun id row hrow huser => ?_⟩
          have hmem : id ∈ sessionIds db (ownedBy uid) :=
            mem_sessionIds.2 ⟨row, hrow, by simp [ownedBy, huser]⟩
          rw [List.isEmpty_iff] at hempty
          simp [hempty] at hmem
      · cases hselect
  | some id =>
      rw [selectSession] at hselect
      split at hselect
      · cases hselect
      · next row hrow =>
          split at hselect
          · next howned =>
              refine .inr ⟨id, row, (Option.some.inj hselect).symm, hrow, ?_⟩
              simpa [ownedBy] using howned
          · cases hselect

end FaAuthM8

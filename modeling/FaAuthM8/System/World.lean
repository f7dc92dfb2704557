import FaAuthM8.Services.SecurityPreflight
import FaAuthM8.Services.Auth

/-!
# The shared state

What concurrent requests share: the committed database, Redis, the clock, and the row locks. Reads see the
committed rows. A lock is held from the statement that takes it to the end of the transaction; a deleted row
stays visible to others, and locked, until the deleting transaction commits. The lock a foreign key takes on
the parent row is left out, so more interleavings are admitted here than some engines allow.

The log records what has happened, newest first. No step reads it, except that a client can only present a
token that was issued.
-/

namespace FaAuthM8

abbrev Pid := Nat

/-- A lock process `p` can take: nobody holds it, or `p` does. -/
def free (holder : Option Pid) (p : Pid) : Bool := holder == none || holder == some p

theorem free_iff {holder : Option Pid} {p : Pid} :
    free holder p = true ↔ ∀ q, holder = some q → q = p := by
  cases holder with
  | none => simp [free]
  | some q => simp [free]

def drop (p : Pid) (holder : Option Pid) : Option Pid :=
  if holder = some p then none else holder

theorem drop_eq_some {p q : Pid} {holder : Option Pid} :
    drop p holder = some q ↔ holder = some q ∧ q ≠ p := by
  rw [drop]
  split
  · next hp =>
      refine ⟨nofun, fun h => absurd ?_ h.2⟩
      exact Option.some.inj (h.1.symm.trans hp)
  · next hp =>
      refine ⟨fun hq => ⟨hq, ?_⟩, fun h => h.1⟩
      rintro rfl
      exact hp hq

/-- The holders of the row locks. -/
structure Locks where
  policy : Option Pid := none
  user : UserId → Option Pid := fun _ => none
  session : SessionId → Option Pid := fun _ => none

namespace Locks

/-- The end of a transaction of `p`. -/
def release (p : Pid) (locks : Locks) : Locks where
  policy := drop p locks.policy
  user uid := drop p (locks.user uid)
  session id := drop p (locks.session id)

def takeUsers (p : Pid) (which : UserId → Bool) (locks : Locks) : Locks :=
  { locks with user := fun uid => if which uid then some p else locks.user uid }

def takeSessions (p : Pid) (ids : List SessionId) (locks : Locks) : Locks :=
  { locks with session := fun id => if ids.contains id then some p else locks.session id }

def sessionsFree (locks : Locks) (p : Pid) (ids : List SessionId) : Bool :=
  ids.all fun id => free (locks.session id) p

end Locks

inductive RevocationScope
  | user (uid : UserId)
  | sessions (jtis : List Jti)
deriving DecidableEq, Repr

inductive Event
  | signed (signer : Pid) (token : AccessToken) (generation : Nat)
  /-- A session row as an issue stored it. -/
  | stamped (row : ClientSession)
  | exchanged (uid : UserId) (presented new : Jti)
  /-- A response handed the pair to the client. -/
  | issued (pair : TokenPair)
  /-- A logout answered success; `jti` is the identifier whose rows it deleted, if any. -/
  | loggedOut (access : AccessToken) (refresh : RefreshToken) (jti : Option Jti)
  | transition (uid : UserId) (generation : Nat)
  | revoked (scope : RevocationScope) (targets : List RevocationTarget)
  | redis (command : RedisCommand)
  | emitted (event : SessionRevokedEvent)
  | deliveryFailed (id : OutboxId)
deriving DecidableEq, Repr

structure World where
  db : Db
  redis : Redis := {}
  redisUp : Bool := true
  now : Int := 0
  locks : Locks := {}
  nextJti : Jti := 0
  log : List Event := []

namespace World

@[simp] def release (p : Pid) (w : World) : World := { w with locks := w.locks.release p }

@[simp] def lockPolicy (p : Pid) (w : World) : World :=
  { w with locks := { w.locks with policy := some p } }

@[simp] def lockUser (p : Pid) (uid : UserId) (w : World) : World :=
  { w with locks := w.locks.takeUsers p (· == uid) }

@[simp] def lockSessions (p : Pid) (ids : List SessionId) (w : World) : World :=
  { w with locks := w.locks.takeSessions p ids }

@[simp] def record (events : List Event) (w : World) : World := { w with log := events ++ w.log }

/-- Another user that the locking count of the superuser set reads. -/
def isOtherSuperuser (w : World) (exclude uid : UserId) : Bool :=
  uid != exclude && (w.db.users.lookup uid).any isActiveCanonicalSuperuser

def superusersFree (w : World) (p : Pid) (exclude : UserId) : Bool :=
  w.db.users.keys.all fun uid => !w.isOtherSuperuser exclude uid || free (w.locks.user uid) p

@[simp] def lockSuperusers (p : Pid) (exclude : UserId) (w : World) : World :=
  { w with locks := w.locks.takeUsers p (w.isOtherSuperuser exclude) }

/-- The world after a transaction of `p` has committed `db'` and released its locks. -/
@[simp] def committed (p : Pid) (db' : Db) (events : List Event) (w : World) : World :=
  { w with db := db', locks := w.locks.release p, log := events ++ w.log }

/-- Commits the writes of `p`, records the events they amount to, and releases the locks of `p`. -/
def transact (w : World) (p : Pid) (writes : List Write) (events : Db → List Event) : Option World :=
  match commit writes w.db with
  | .ok db' => some (w.committed p db' (events db'))
  | .error _ => none

def send (w : World) (command : RedisCommand) : Option World :=
  if w.redisUp then
    (w.redis.execute w.now command).map fun redis =>
      { w with redis, log := .redis command :: w.log }
  else
    none

theorem transact_eq_some {w w' : World} {p : Pid} {writes : List Write} {events : Db → List Event}
    (htransact : w.transact p writes events = some w') :
    ∃ db', commit writes w.db = .ok db' ∧ w' = w.committed p db' (events db') := by
  rw [transact] at htransact
  split at htransact
  · next db' hcommit => exact ⟨db', hcommit, (Option.some.inj htransact).symm⟩
  · cases htransact

theorem send_eq_some {w w' : World} {command : RedisCommand} (hsend : w.send command = some w') :
    w.redisUp = true ∧ ∃ redis, w.redis.execute w.now command = some redis ∧
      w' = { w with redis, log := .redis command :: w.log } := by
  rw [send] at hsend
  split at hsend
  · next hup =>
      obtain ⟨redis, hexecute, rfl⟩ := Option.map_eq_some_iff.1 hsend
      exact ⟨hup, redis, hexecute, rfl⟩
  · cases hsend

end World
end FaAuthM8

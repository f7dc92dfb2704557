import FaAuthM8.Lib.Rendering
import FaAuthM8.Models
import Mathlib.Data.Finset.Basic
import Mathlib.Data.List.Sort

/-!
# The retention purges

Two tables are purged of what is older than a window: the audit log of its old rows, and the API keys of those
that have been dead for long enough. Both sweep their table in batches, committing each before they claim the
next, and then write a row of their own to the audit log.
-/

namespace FaAuthM8

inductive RetentionWindow
  | oneWeek
  | oneMonth
  | threeMonths
  | sixMonths
  | oneYear
deriving DecidableEq, Repr

namespace RetentionWindow

def value : RetentionWindow → String
  | oneWeek => "1w"
  | oneMonth => "1m"
  | threeMonths => "3m"
  | sixMonths => "6m"
  | oneYear => "1y"

def seconds : RetentionWindow → Nat
  | oneWeek => 7 * 86400
  | oneMonth => 30 * 86400
  | threeMonths => 90 * 86400
  | sixMonths => 180 * 86400
  | oneYear => 365 * 86400

end RetentionWindow

structure PurgeSettings where
  tablesPrefix : String := "auth"
  auditPurgeMinRetentionSeconds : Nat := 90 * 86400
  auditPurgeBatchSize : Nat := 500
  apiKeyPurgeMinRetentionSeconds : Nat := 90 * 86400
  apiKeyPurgeBatchSize : Nat := 500

/-- A row of the audit log, with the instant it was recorded. -/
structure AuditRow where
  createdAt : Int
  actorUserId : UserId
  actorRole : RoleType
  action : AuditAction
  tableName : String
  rowPk : String
  targetOwnerId : Option String := none
deriving DecidableEq, Repr

/-- An API key with the instant it was last updated. -/
structure StoredApiKey extends ApiKey where
  updatedAt : Int
deriving DecidableEq, Repr

/-- The tables a purge reads and writes. -/
structure PurgeDb where
  auditLog : Table Uuid AuditRow := ∅
  apiKeys : Table Uuid StoredApiKey := ∅

/-- `_claim_purge_batch`; a row that another transaction has locked is skipped. -/
def claimPurgeBatch (db : PurgeDb) (horizon : Int) (batch : Nat) (locked : Uuid → Bool) : List Uuid :=
  let rows := db.auditLog.rows fun id row => row.createdAt < horizon && !locked id
  ((rows.insertionSort fun a b => a.2.createdAt ≤ b.2.createdAt).take batch).map Prod.fst

def deadKeyPredicate (horizon : Int) (key : StoredApiKey) : Bool :=
  (key.revoked && key.updatedAt < horizon) || key.expiresAt.any (· < horizon)

/-- The statement of `_sweep_dead_keys` that claims a batch. -/
def claimDeadKeys (db : PurgeDb) (horizon : Int) (batch : Nat) (locked : Uuid → Bool) : List Uuid :=
  let rows := db.apiKeys.rows fun id key => deadKeyPredicate horizon key && !locked id
  ((rows.insertionSort fun a b => a.1.value ≤ b.1.value).take batch).map Prod.fst

/-- What the two purges differ in. -/
structure Purge where
  label : String
  tableName : String
  floorSeconds : Nat
  batchSize : Nat
  claim : PurgeDb → Int → Nat → (Uuid → Bool) → List Uuid
  stored : PurgeDb → Uuid → Bool
  /-- Deletes the rows that satisfy the predicate. -/
  delete : PurgeDb → (Uuid → Bool) → PurgeDb

def purgeExpiredAuditRows (settings : PurgeSettings) : Purge where
  label := "audit purge"
  tableName := settings.tablesPrefix ++ "_privileged_action_audit"
  floorSeconds := settings.auditPurgeMinRetentionSeconds
  batchSize := settings.auditPurgeBatchSize
  claim := claimPurgeBatch
  stored db id := (db.auditLog.lookup id).isSome
  delete db doomed := { db with auditLog := db.auditLog.filter fun id _ => !doomed id }

def purgeDeadApiKeys (settings : PurgeSettings) : Purge where
  label := "api-key purge"
  tableName := settings.tablesPrefix ++ "_api_key"
  floorSeconds := settings.apiKeyPurgeMinRetentionSeconds
  batchSize := settings.apiKeyPurgeBatchSize
  claim := claimDeadKeys
  stored db id := (db.apiKeys.lookup id).isSome
  delete db doomed := { db with apiKeys := db.apiKeys.filter fun id _ => !doomed id }

inductive PurgeTarget
  | auditLog
  | apiKeys
deriving DecidableEq, Repr

def PurgeTarget.purge (settings : PurgeSettings) : PurgeTarget → Purge
  | auditLog => purgeExpiredAuditRows settings
  | apiKeys => purgeDeadApiKeys settings

/-- A call of a purge; without a batch size, or with zero, the configured one is used. -/
structure PurgeRequest where
  target : PurgeTarget
  window : RetentionWindow
  actorUserId : UserId
  actorRole : RoleType
  batchSize : Option Nat := none
  now : Option Int := none
deriving DecidableEq, Repr

inductive PurgeError
  | retentionFloor (window : RetentionWindow) (floorSeconds : Nat)
  | stalled (label : String) (count : Nat)
deriving DecidableEq, Repr

def PurgeError.message : PurgeError → String
  | .retentionFloor window floorSeconds =>
      "retention window '" ++ window.value ++ "' (" ++ toString window.seconds ++
        "s) is below the configured minimum-retention floor (" ++ toString floorSeconds ++
        "s); lowering the floor requires an explicit operator config change"
  | .stalled label count =>
      label ++ " made no progress: the same " ++ toString count ++
        " row(s) were re-selected after a commit — deletes are being silently suppressed"

/-- The row a purge writes about itself. -/
def PurgeRequest.maintenanceRow (r : PurgeRequest) (settings : PurgeSettings) (removed : Nat) (now : Int) :
    AuditRow where
  createdAt := now
  actorUserId := r.actorUserId
  actorRole := r.actorRole
  action := .delete
  tableName := (r.target.purge settings).tableName
  rowPk := "retention_purge:window=" ++ r.window.value ++ ":removed=" ++ toString removed

/-- The point a sweep has reached: about to claim, with the identifiers of the batch before; about to delete
and commit a batch; or done. -/
inductive SweepPhase
  | claim (removed : Nat) (previousIds : Option (Finset Uuid))
  | delete (rows : List Uuid) (removed : Nat)
  | swept (removed : Nat)
deriving DecidableEq

namespace SweepPhase

/-- How a sweep goes on after it has committed a batch. -/
def afterBatch (batch : Nat) (rows : List Uuid) (removed : Nat) : SweepPhase :=
  if rows.length < batch then .swept (removed + rows.length)
  else .claim (removed + rows.length) (some rows.toFinset)

/-- The count a sweep has reached. -/
def removed : SweepPhase → Nat
  | claim removed _ => removed
  | delete _ removed => removed
  | swept removed => removed

@[simp] theorem removed_afterBatch (batch : Nat) (rows : List Uuid) (removed : Nat) :
    (afterBatch batch rows removed).removed = removed + rows.length := by
  rw [afterBatch]
  split <;> rfl

end SweepPhase

end FaAuthM8

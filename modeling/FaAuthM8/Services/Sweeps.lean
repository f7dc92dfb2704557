import FaAuthM8.Lib.Sweep
import FaAuthM8.Services.ApiKeys
import FaAuthM8.System.Purges

/-!
# Sweeping a table

The loops of the two purges, and the purge of the dead API keys as a whole, while nothing else writes to the
database. Rows of the audit log that were recorded at the same time may be returned in any order, and in
another one by each query; the deletion of a row may be suppressed without an error.
-/

namespace FaAuthM8

/-- `_claim_purge_batch`, where the rank orders the rows that tie. -/
def claimPurgeBatchBy (rank : Uuid → Nat) (db : PurgeDb) (horizon : Int) (batch : Nat) : List Uuid :=
  let rows := db.auditLog.rows fun _ row => row.createdAt < horizon
  ((rows.insertionSort fun a b => a.2.createdAt < b.2.createdAt ∨
    a.2.createdAt = b.2.createdAt ∧ rank a.1 ≤ rank b.1).take batch).map Prod.fst

/-- How a sweep returns or raises. -/
def Purge.result (purge : Purge) : BatchSweep.Outcome → Except PurgeError Nat
  | .finished removed => .ok removed
  | .stalled count => .error (.stalled purge.label count)

/-- `_sweep_expired_rows`; the queries of the loop are ranked one by one. -/
def sweepExpiredRows (settings : PurgeSettings) (ranks : Nat → Uuid → Nat) (suppressed : Uuid → Bool)
    (horizon : Int) (batch fuel : Nat) (db : PurgeDb) : Option (Except PurgeError Nat × PurgeDb) :=
  let purge := purgeExpiredAuditRows settings
  (BatchSweep.loop (fun n db => claimPurgeBatchBy (ranks n) db horizon batch)
    (fun db rows => purge.delete db fun id => rows.contains id && !suppressed id) batch fuel 0 db 0 none).map
      fun ended => (purge.result ended.1, ended.2)

def sweepDeadKeys (settings : PurgeSettings) (suppressed : Uuid → Bool) (horizon : Int) (batch fuel : Nat)
    (db : PurgeDb) : Option (Except PurgeError Nat × PurgeDb) :=
  let purge := purgeDeadApiKeys settings
  (BatchSweep.loop (fun _ db => claimDeadKeys db horizon batch fun _ => false)
    (fun db rows => purge.delete db fun id => rows.contains id && !suppressed id) batch fuel 0 db 0 none).map
      fun ended => (purge.result ended.1, ended.2)

/-! ### Purging the dead keys -/

/-- The database with the limits bound to keys and users. -/
structure KeyPurgeDb extends PurgeDb where
  rateLimits : List RateLimit := []

/-- Deletes keys with what is bound to them; the audiences are part of the key. -/
def KeyPurgeDb.deleteKeys (settings : PurgeSettings) (db : KeyPurgeDb) (doomed : Uuid → Bool) : KeyPurgeDb where
  toPurgeDb := (purgeDeadApiKeys settings).delete db.toPurgeDb doomed
  rateLimits := db.rateLimits.filter fun row => !row.apiKeyId.any doomed

/-- `purge_dead_api_keys`; `id` is the identifier of its own audit row, and `clock` shows the time. -/
def PurgeRequest.purgeDeadApiKeys (r : PurgeRequest) (settings : PurgeSettings) (clock : Int) (id : Uuid)
    (fuel : Nat) (db : KeyPurgeDb) : Option (Except PurgeError Nat × KeyPurgeDb) :=
  let r := { r with target := .apiKeys }
  if r.window.seconds < settings.apiKeyPurgeMinRetentionSeconds then
    some (.error (.retentionFloor r.window settings.apiKeyPurgeMinRetentionSeconds), db)
  else
    let horizon := r.now.getD clock - r.window.seconds * second
    let batch := r.batch settings
    (BatchSweep.loop (fun _ (db : KeyPurgeDb) => claimDeadKeys db.toPurgeDb horizon batch fun _ => false)
      (fun db rows => db.deleteKeys settings fun id => rows.contains id) batch fuel 0 db 0 none).map
        fun
        | (.finished removed, db) =>
            (.ok removed, { db with
              auditLog := AList.insert id (r.maintenanceRow settings removed clock) db.auditLog })
        | (.stalled count, db) => (.error (.stalled (r.purge settings).label count), db)

end FaAuthM8

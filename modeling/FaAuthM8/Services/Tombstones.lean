import FaAuthM8.Lib.Interleaving
import FaAuthM8.Services.Auth

/-!
# Deletion tombstones

The deletion of a user leaves a tombstone, which a cleanup removes when it has not been written for longer
than anything that could still speak for the user lasts, and no effect that names the user is undelivered.
Users may be deleted, effects change their status and cleanups run in any order, as time passes; when the
tombstone of a user was first written is remembered, and no step reads it.
-/

namespace FaAuthM8

structure TombstoneSettings extends Settings where
  tombstoneConsumerHorizonSeconds : Nat := 3600

def tombstoneRetentionSeconds (settings : TombstoneSettings) : Nat :=
  max (max (max (settings.accessTokenExpireMinutes * 60) (settings.refreshTokenExpireMinutes * 60))
    settings.outboxCompletedRetentionSeconds) settings.tombstoneConsumerHorizonSeconds

def UNDELIVERED_OUTBOX_STATUSES : List OutboxStatus := [.pending, .leased, .dead]

def subjectsWithUndeliveredEffects (db : Db) : List UserId :=
  (db.outbox.rows fun _ row => UNDELIVERED_OUTBOX_STATUSES.contains row.status).map (·.2.userId)

def writeDeletionTombstone (db : Db) (now : Int) (uid : UserId) (user : User) : Except ServiceError Db :=
  match nextGeneration user.authGeneration with
  | .error e => .error e
  | .ok terminal => .ok (db.raiseTombstone uid terminal now)

/-- The tombstone of a subject that no undelivered effect names, past its retention. -/
def isExpiredTombstone (settings : TombstoneSettings) (db : Db) (now : Int) (uid : UserId)
    (tombstone : AuthTombstone) : Bool :=
  !(subjectsWithUndeliveredEffects db).contains uid &&
    decide (tombstoneRetentionSeconds settings * second ≤ now - tombstone.updatedAt)

/-- `cleanup_expired_tombstones`, with the number deleted. -/
def cleanupExpiredTombstones (settings : TombstoneSettings) (db : Db) (now : Int) : Nat × Db :=
  ((db.tombstones.rows (isExpiredTombstone settings db now)).length,
    { db with tombstones := db.tombstones.filter fun uid tombstone =>
        !isExpiredTombstone settings db now uid tombstone })

/-! ### Runs -/

structure TombstoneWorld where
  db : Db := {}
  now : Int := 0
  firstWritten : UserId → Int := fun _ => 0

inductive TombstoneAction
  | write (uid : UserId) (user : User)
  | cleanup
  /-- Effects are recorded, leased, delivered, dead-lettered, replayed or reaped. -/
  | outbox (outbox : Table OutboxId RevocationOutbox)
  | tick (now : Int)

/-- The number the last cleanup of a process reported. -/
abbrev Reported := Option Nat

def tombstoneStep (settings : TombstoneSettings) (w : TombstoneWorld) (reported : Reported) :
    TombstoneAction → Option (TombstoneWorld × Reported)
  | .write uid user =>
      match writeDeletionTombstone w.db w.now uid user with
      | .error _ => none
      | .ok db =>
          some ({ w with
            db := db
            firstWritten := if subjectIsTombstoned w.db uid then w.firstWritten
              else Function.update w.firstWritten uid w.now }, reported)
  | .cleanup =>
      let cleaned := cleanupExpiredTombstones settings w.db w.now
      some ({ w with db := cleaned.2 }, some cleaned.1)
  | .outbox outbox => some ({ w with db := { w.db with outbox } }, reported)
  | .tick now => if w.now ≤ now then some ({ w with now }, reported) else none

def tombstones (settings : TombstoneSettings) :
    Interleaving.System TombstoneWorld Reported TombstoneAction where
  step _ := tombstoneStep settings

/-! ### What a step does to a tombstone -/

section

variable {settings : TombstoneSettings} {db db' : Db} {now : Int} {uid uid' : UserId}

theorem mem_subjectsWithUndeliveredEffects :
    uid ∈ subjectsWithUndeliveredEffects db ↔
      ∃ oid row, db.outbox.lookup oid = some row ∧ row.userId = uid ∧ row.status ≠ .completed := by
  have hstatus (status : OutboxStatus) :
      UNDELIVERED_OUTBOX_STATUSES.contains status = true ↔ status ≠ .completed := by
    cases status <;> decide
  simp only [subjectsWithUndeliveredEffects, List.mem_map, Prod.exists, Table.mem_rows, hstatus]
  constructor
  · intro hnamed
    obtain ⟨oid, row, ⟨hrow, hundelivered⟩, huser⟩ := hnamed
    exact ⟨oid, row, hrow, huser, hundelivered⟩
  · intro hnamed
    obtain ⟨oid, row, hrow, huser, hundelivered⟩ := hnamed
    exact ⟨oid, row, ⟨hrow, hundelivered⟩, huser⟩

theorem isExpiredTombstone_iff {tombstone : AuthTombstone} :
    isExpiredTombstone settings db now uid tombstone = true ↔
      tombstoneRetentionSeconds settings * second ≤ now - tombstone.updatedAt ∧
        ∀ oid row, db.outbox.lookup oid = some row → row.userId = uid → row.status = .completed := by
  rw [isExpiredTombstone, Bool.and_eq_true, and_comm, decide_eq_true_eq]
  refine and_congr_right fun _ => ?_
  rw [Bool.not_eq_true', List.contains_eq_mem, decide_eq_false_iff_not, mem_subjectsWithUndeliveredEffects]
  constructor
  · intro hnone oid row hrow huser
    by_contra hundelivered
    exact hnone ⟨oid, row, hrow, huser, hundelivered⟩
  · intro hcompleted hnamed
    obtain ⟨oid, row, hrow, huser, hundelivered⟩ := hnamed
    exact hundelivered (hcompleted oid row hrow huser)

theorem lookup_cleanup : (cleanupExpiredTombstones settings db now).2.tombstones.lookup uid =
    (db.tombstones.lookup uid).filter fun tombstone => !isExpiredTombstone settings db now uid tombstone :=
  Table.lookup_filter _ _ _

/-- A write raises the tombstone of its subject or leaves it, and dates it when it changes it. -/
theorem lookup_raiseTombstone (terminal : Nat) (tombstone : AuthTombstone)
    (hrow : (db.raiseTombstone uid terminal now).tombstones.lookup uid' = some tombstone) :
    db.tombstones.lookup uid' = some tombstone ∨ uid' = uid ∧ tombstone.updatedAt = now ∧
      ∀ existing, db.tombstones.lookup uid = some existing →
        existing.terminalGeneration ≤ tombstone.terminalGeneration := by
  rw [Db.raiseTombstone] at hrow
  split at hrow
  · next hnone =>
      rw [Table.lookup_insert_eq] at hrow
      split at hrow
      · next hsame =>
          obtain rfl := Option.some.inj hrow
          exact .inr ⟨hsame, rfl, fun existing hexisting => by simp [hnone] at hexisting⟩
      · exact .inl hrow
  · next existing hexisting =>
      split at hrow
      · next hlt =>
          rw [Table.lookup_insert_eq] at hrow
          split at hrow
          · next hsame =>
              obtain rfl := Option.some.inj hrow
              refine .inr ⟨hsame, rfl, fun existing' hexisting' => ?_⟩
              obtain rfl : existing = existing' := Option.some.inj (hexisting.symm.trans hexisting')
              exact Nat.le_of_lt hlt
          · exact .inl hrow
      · exact .inl hrow

theorem raiseTombstone_isSome (terminal : Nat) (hsome : (db.tombstones.lookup uid').isSome = true) :
    ((db.raiseTombstone uid terminal now).tombstones.lookup uid').isSome = true := by
  rw [Db.raiseTombstone]
  split
  · rw [Table.lookup_insert_eq]
    split <;> simp [hsome]
  · split
    · rw [Table.lookup_insert_eq]
      split <;> simp [hsome]
    · exact hsome

end

end FaAuthM8

import FaAuthM8.Core.Client
import FaAuthM8.Services.Generation

/-!
# The revocation outbox

The effects of an authorization change, recorded with it, and the worker that delivers them: it claims due
rows under a lease, applies each effect, and marks the row completed, retried or dead.
-/

namespace FaAuthM8

def blacklistRow (uid : UserId) (authGeneration : Nat) (now : Int) (target : RevocationTarget) :
    RevocationOutbox where
  userId := uid
  authGeneration := authGeneration
  effect := .blacklist target.jti target.expiresAt
  targetDigest := .jti target.jti
  createdAt := now

def publishRow (uid : UserId) (authGeneration : Nat) (now : Int) : RevocationOutbox where
  userId := uid
  authGeneration := authGeneration
  effect := .publish
    { userId := uid
      jti := none
      authGeneration := some authGeneration
      eventId := some (uid, authGeneration, .userWide) }
  targetDigest := .userWide
  createdAt := now

/-- One blacklist row for each captured target, and one user-wide publish row. -/
def enqueueRoleChangeEffects (uid : UserId) (authGeneration : Nat)
    (targets : List RevocationTarget) (now : Int) : List RevocationOutbox :=
  targets.map (blacklistRow uid authGeneration now) ++ [publishRow uid authGeneration now]

theorem mem_enqueueRoleChangeEffects {uid : UserId} {generation : Nat}
    {targets : List RevocationTarget} {now : Int} {row : RevocationOutbox} :
    row ∈ enqueueRoleChangeEffects uid generation targets now ↔
      (∃ target ∈ targets, row = blacklistRow uid generation now target) ∨
        row = publishRow uid generation now := by
  rw [enqueueRoleChangeEffects, List.mem_append, List.mem_map, List.mem_singleton]
  constructor
  · rintro (⟨target, htarget, rfl⟩ | hpublish)
    · exact .inl ⟨target, htarget, rfl⟩
    · exact .inr hpublish
  · rintro (⟨target, htarget, rfl⟩ | hpublish)
    · exact .inl ⟨target, htarget, rfl⟩
    · exact .inr hpublish

namespace OutboxWorker

/-- Whether a row may be claimed at `now`. -/
def isDue (now : Int) (row : RevocationOutbox) : Bool :=
  (row.status == .pending || (row.status == .leased && row.leaseUntil.any (· < now))) &&
    row.nextAttemptAt.all (· ≤ now)

def lease (settings : Settings) (now : Int) (row : RevocationOutbox) : RevocationOutbox :=
  { row with
    status := .leased
    leaseUntil := some (now + settings.outboxLeaseSeconds * second) }

/-- The commands `_apply_effect` sends for one effect. A publication sends none. -/
def effectCommands (now : Int) : OutboxEffect → List RedisCommand
  | .blacklist jti expiresAt =>
      let ttl := wholeSeconds (expiresAt - now)
      if ttl ≤ 0 then [] else [.blacklistJti jti ttl, .revoke jti]
  | .publish _ => []

def backoff (settings : Settings) (attempts : Nat) : Int :=
  min (settings.outboxBackoffBase * 2 ^ (attempts - 1)) settings.outboxBackoffCap

/-- The row after a successful delivery. -/
def completed (now : Int) (row : RevocationOutbox) : RevocationOutbox :=
  { row with status := .completed, completedAt := some now, leaseUntil := none }

def failed (settings : Settings) (now : Int) (row : RevocationOutbox) : RevocationOutbox :=
  if settings.outboxMaxAttempts ≤ row.attempts + 1 then
    { row with attempts := row.attempts + 1, leaseUntil := none, status := .dead }
  else
    { row with
      attempts := row.attempts + 1
      leaseUntil := none
      status := .pending
      nextAttemptAt := some (now + backoff settings (row.attempts + 1)) }

/-- The instant before which `reap_completed` deletes completed rows. -/
def reapHorizon (settings : Settings) (now : Int) : Int :=
  now - settings.outboxCompletedRetentionSeconds * second

end OutboxWorker
end FaAuthM8

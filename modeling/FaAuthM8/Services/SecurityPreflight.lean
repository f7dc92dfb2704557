import FaAuthM8.Services.RoleAdmin

/-!
# The security preflight and the audited role repair

The preflight reports the rows whose superuser flag disagrees with their role, on either side of the
disagreement. `repair_user` makes one such row consistent with an intended role. It reads the columns under
the row lock, so nothing it decides on is stale.
-/

namespace FaAuthM8

structure SecurityPreflightReport where
  flaggedNotSuperadminIds : List UserId
  superadminNotFlaggedIds : List UserId
  activeCanonicalSuperuserCount : Nat
  inconsistentIdsWithActiveSessions : List UserId
deriving DecidableEq, Repr

namespace SecurityPreflightReport

def flaggedNotSuperadminCount (report : SecurityPreflightReport) : Nat :=
  report.flaggedNotSuperadminIds.length

def superadminNotFlaggedCount (report : SecurityPreflightReport) : Nat :=
  report.superadminNotFlaggedIds.length

def clean (report : SecurityPreflightReport) : Bool :=
  report.flaggedNotSuperadminIds.isEmpty && report.superadminNotFlaggedIds.isEmpty

end SecurityPreflightReport

def isFlaggedNotSuperadmin (user : User) : Bool :=
  user.isSuperuser && user.role != .superadmin

def isSuperadminNotFlagged (user : User) : Bool :=
  user.role == .superadmin && !user.isSuperuser

/-- Distinct owners among `userIds` holding an active session. -/
def idsWithActiveSessions (db : Db) (now : Int) (userIds : List UserId) : List UserId :=
  ((db.sessions.rows fun _ row => userIds.contains row.userId && isActiveSession now row).map
    fun entry => entry.2.userId).dedup

def runPreflight (db : Db) (now : Int) : SecurityPreflightReport :=
  let flagged := (db.users.rows fun _ user => isFlaggedNotSuperadmin user).map (·.1)
  let unflagged := (db.users.rows fun _ user => isSuperadminNotFlagged user).map (·.1)
  { flaggedNotSuperadminIds := flagged
    superadminNotFlaggedIds := unflagged
    activeCanonicalSuperuserCount :=
      (db.users.rows fun _ user => isActiveCanonicalSuperuser user).length
    inconsistentIdsWithActiveSessions := idsWithActiveSessions db now (flagged ++ unflagged) }

structure RepairResult where
  userId : UserId
  previousRole : RoleType
  previousIsSuperuser : Bool
  intendedRole : RoleType
  authGeneration : Nat
  revocationEnqueued : Bool
  alreadyRepaired : Bool
deriving DecidableEq, Repr

def resolveAlreadyConsistentRow (uid : UserId) (previousRole : RoleType) (previousIsSuperuser : Bool)
    (intendedRole : RoleType) (currentGeneration : Nat) : Except ServiceError RepairResult :=
  if previousRole != intendedRole then
    .error .notMismatched
  else
    .ok
      { userId := uid
        previousRole := previousRole
        previousIsSuperuser := previousIsSuperuser
        intendedRole := intendedRole
        authGeneration := currentGeneration
        revocationEnqueued := false
        alreadyRepaired := true }

def repairWrites (uid : UserId) (intendedRole : RoleType) (newGeneration : Nat)
    (targets : List RevocationTarget) (doomed : List SessionId) (now : Int) : List Write :=
  .setRole uid intendedRole (deriveIsSuperuser (some intendedRole)) newGeneration ::
    .deleteSessions doomed ::
    (enqueueRoleChangeEffects uid newGeneration targets now).map .insertOutbox

structure RepairCommitted (uid : UserId) (intendedRole : RoleType) (generation : Nat)
    (targets : List RevocationTarget) (doomed : List SessionId) (now : Int) (db db' : Db) : Prop where
  users : ∃ db₁, db.setRole uid intendedRole (deriveIsSuperuser (some intendedRole)) generation
    = .ok db₁ ∧ db'.users = db₁.users
  revoked : RevokedAndEnqueued uid generation targets doomed now db db'
  tombstones : db'.tombstones = db.tombstones

theorem commit_repairWrites {uid : UserId} {intendedRole : RoleType} {generation : Nat}
    {targets : List RevocationTarget} {doomed : List SessionId} {now : Int} {db db' : Db}
    (hfresh : db.IdsFresh)
    (hcommit : commit (repairWrites uid intendedRole generation targets doomed now) db = .ok db') :
    RepairCommitted uid intendedRole generation targets doomed now db db' := by
  rw [repairWrites] at hcommit
  obtain ⟨db₁, hset, hrest⟩ := commit_cons_eq_ok.1 hcommit
  have hset' : db.setRole uid intendedRole (deriveIsSuperuser (some intendedRole)) generation
      = .ok db₁ := hset
  have hrecords : db₁.sessions = db.sessions ∧ db₁.outbox = db.outbox ∧
      db₁.tombstones = db.tombstones ∧ db₁.nextOutboxId = db.nextOutboxId := by
    obtain ⟨-, rfl⟩ | ⟨current, -, hput⟩ := Db.setRole_eq_ok hset'
    · exact ⟨rfl, rfl, rfl, rfl⟩
    · obtain ⟨-, -, rfl⟩ := Db.putUser_eq_ok.1 hput
      exact ⟨rfl, rfl, rfl, rfl⟩
  obtain ⟨hsessions, houtbox, htombstones, hnext⟩ := hrecords
  obtain ⟨hrevoked, husers, htombs⟩ :=
    commit_revokeAndEnqueue (Write.apply_idsFresh hfresh hset) hrest
  refine ⟨⟨db₁, hset', husers⟩, ⟨?_, ?_⟩, htombs.trans htombstones⟩
  · rw [hrevoked.sessions, Db.deleteSessions, Db.deleteSessions, hsessions]
  · exact hrevoked.outbox.congr houtbox.symm hnext.symm rfl

def repairUser (uid : UserId) (intendedRole : RoleType) (now : Int) (db : Db) :
    Except ServiceError (Db × RepairResult) :=
  match db.users.lookup uid with
  | none => .error .userNotFound
  | some current =>
      if current.isSuperuser == deriveIsSuperuser (some current.role) then
        (resolveAlreadyConsistentRow uid current.role current.isSuperuser intendedRole
          current.authGeneration).map fun result => (db, result)
      else
        match nextGeneration current.authGeneration with
        | .error e => .error e
        | .ok newGeneration =>
            match commit (repairWrites uid intendedRole newGeneration (captureTargets db uid now)
                (sessionIds db (ownedBy uid)) now) db with
            | .error e => .error (.database e)
            | .ok db' => .ok (db',
                { userId := uid
                  previousRole := current.role
                  previousIsSuperuser := current.isSuperuser
                  intendedRole := intendedRole
                  authGeneration := newGeneration
                  revocationEnqueued := true
                  alreadyRepaired := false })

/-- How a call of `repair_user` can end. -/
inductive RepairOutcome (uid : UserId) (intendedRole : RoleType) (now : Int) (db : Db) :
    Except ServiceError (Db × RepairResult) → Prop
  | notFound (hnone : db.users.lookup uid = none) :
      RepairOutcome uid intendedRole now db (.error .userNotFound)
  | notMismatched {current : User} (hcurrent : db.users.lookup uid = some current)
      (hconsistent : current.isSuperuser = deriveIsSuperuser (some current.role))
      (hrole : current.role ≠ intendedRole) :
      RepairOutcome uid intendedRole now db (.error .notMismatched)
  | alreadyRepaired {current : User} (hcurrent : db.users.lookup uid = some current)
      (hconsistent : current.isSuperuser = deriveIsSuperuser (some current.role))
      (hrole : current.role = intendedRole) :
      RepairOutcome uid intendedRole now db (.ok (db,
        ⟨uid, current.role, current.isSuperuser, intendedRole, current.authGeneration, false, true⟩))
  | exhausted {current : User} (hcurrent : db.users.lookup uid = some current)
      (hmismatched : current.isSuperuser ≠ deriveIsSuperuser (some current.role))
      (hmax : GENERATION_MAX ≤ current.authGeneration) :
      RepairOutcome uid intendedRole now db (.error .generationOverflow)
  | refused {current : User} {e : DbError} (hcurrent : db.users.lookup uid = some current)
      (hmismatched : current.isSuperuser ≠ deriveIsSuperuser (some current.role))
      (hcommit : commit (repairWrites uid intendedRole (current.authGeneration + 1)
        (captureTargets db uid now) (sessionIds db (ownedBy uid)) now) db = .error e) :
      RepairOutcome uid intendedRole now db (.error (.database e))
  | repaired {current : User} {db' : Db} (hcurrent : db.users.lookup uid = some current)
      (hmismatched : current.isSuperuser ≠ deriveIsSuperuser (some current.role))
      (hmax : current.authGeneration < GENERATION_MAX)
      (hcommit : commit (repairWrites uid intendedRole (current.authGeneration + 1)
        (captureTargets db uid now) (sessionIds db (ownedBy uid)) now) db = .ok db') :
      RepairOutcome uid intendedRole now db (.ok (db',
        ⟨uid, current.role, current.isSuperuser, intendedRole, current.authGeneration + 1, true,
          false⟩))

theorem repairUser_outcome (uid : UserId) (intendedRole : RoleType) (now : Int) (db : Db) :
    RepairOutcome uid intendedRole now db (repairUser uid intendedRole now db) := by
  rw [repairUser]
  split
  · next hnone => exact .notFound hnone
  · next current hcurrent =>
      split
      · next hconsistent =>
          have hconsistent := beq_iff_eq.1 hconsistent
          by_cases hrole : current.role = intendedRole
          · simp only [resolveAlreadyConsistentRow, hrole, bne_self_eq_false, Bool.false_eq_true,
              if_false, Except.map]
            have houtcome : RepairOutcome uid intendedRole now db _ :=
              .alreadyRepaired hcurrent hconsistent hrole
            rwa [hrole] at houtcome
          · have hbne : (current.role != intendedRole) = true := bne_iff_ne.2 hrole
            rw [resolveAlreadyConsistentRow, if_pos hbne]
            exact .notMismatched hcurrent hconsistent hrole
      · next hmismatched =>
          have hmismatched : current.isSuperuser ≠ deriveIsSuperuser (some current.role) :=
            fun heq => hmismatched (beq_iff_eq.2 heq)
          by_cases hmax : GENERATION_MAX ≤ current.authGeneration
          · rw [nextGeneration, if_pos hmax]
            exact .exhausted hcurrent hmismatched hmax
          · rw [nextGeneration, if_neg hmax]
            dsimp only
            split
            · next e hcommit => exact .refused hcurrent hmismatched hcommit
            · next db' hcommit =>
                exact .repaired hcurrent hmismatched (Nat.not_le.1 hmax) hcommit

end FaAuthM8

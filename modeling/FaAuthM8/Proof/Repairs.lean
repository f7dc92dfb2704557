import FaAuthM8.Services.SecurityPreflight

/-!
# Repairs one after another

The operator's command neither takes the lock on the superuser set nor asks whether another superuser is
left. It needs neither: a row it changes is one whose flag and role disagree, and such a row is not an active
canonical superuser. So a sequence of calls only ever adds superusers, and the rows that agree stay what they
are.
-/

namespace FaAuthM8

/-- The flag agrees with the role. -/
def User.IsConsistent (user : User) : Prop :=
  user.isSuperuser = deriveIsSuperuser (some user.role)

instance (user : User) : Decidable user.IsConsistent :=
  inferInstanceAs (Decidable (user.isSuperuser = deriveIsSuperuser (some user.role)))

def SecurityPreflightReport.mismatchCount (report : SecurityPreflightReport) : Nat :=
  report.flaggedNotSuperadminCount + report.superadminNotFlaggedCount

/-- One call of the command. -/
structure RepairCall where
  userId : UserId
  intendedRole : RoleType
  now : Int
deriving DecidableEq, Repr

namespace RepairCall

def result (call : RepairCall) (db : Db) : Except ServiceError (Db × RepairResult) :=
  repairUser call.userId call.intendedRole call.now db

/-- The database after the call; a call that raises has committed nothing. -/
def perform (db : Db) (call : RepairCall) : Db :=
  match call.result db with
  | .ok (db', _) => db'
  | .error _ => db

/-- The row the call leaves of a mismatched one. -/
def repairedRow (call : RepairCall) (current : User) : User :=
  { current with
    role := call.intendedRole
    isSuperuser := deriveIsSuperuser (some call.intendedRole)
    authGeneration := current.authGeneration + 1 }

end RepairCall

def performRepairs (db : Db) (calls : List RepairCall) : Db :=
  calls.foldl RepairCall.perform db

section rows

variable {user : User}

theorem isConsistent_iff_preflight :
    user.IsConsistent ↔ isFlaggedNotSuperadmin user = false ∧ isSuperadminNotFlagged user = false := by
  rw [User.IsConsistent, isFlaggedNotSuperadmin, isSuperadminNotFlagged]
  cases user.isSuperuser <;> simp [deriveIsSuperuser]

theorem isConsistent_of_canonical (hcanonical : isActiveCanonicalSuperuser user = true) :
    user.IsConsistent := by
  simp only [isActiveCanonicalSuperuser, hasSuperuserPrivileges, Bool.and_eq_true,
    beq_iff_eq] at hcanonical
  obtain ⟨⟨hrole, hflag⟩, -⟩ := hcanonical
  rw [User.IsConsistent, hflag, hrole]
  rfl

/-- A mismatched row is on exactly one side of the preflight. -/
theorem preflight_sides (hmismatched : ¬ user.IsConsistent) :
    (if isFlaggedNotSuperadmin user then 1 else 0) + (if isSuperadminNotFlagged user then 1 else 0)
      = 1 := by
  rw [User.IsConsistent] at hmismatched
  rw [isFlaggedNotSuperadmin, isSuperadminNotFlagged]
  cases hflag : user.isSuperuser with
  | true =>
      have hrole : user.role ≠ .superadmin := by simpa [hflag, deriveIsSuperuser] using hmismatched
      simp [hrole]
  | false =>
      have hrole : user.role = .superadmin := by simpa [hflag, deriveIsSuperuser] using hmismatched
      simp [hrole]

theorem RepairCall.repairedRow_isConsistent (call : RepairCall) (current : User) :
    (call.repairedRow current).IsConsistent :=
  rfl

end rows

theorem preflight_clean_iff {db : Db} {now : Int} :
    (runPreflight db now).clean = true ↔
      ∀ uid user, db.users.lookup uid = some user → user.IsConsistent := by
  simp only [runPreflight, SecurityPreflightReport.clean, Bool.and_eq_true, List.isEmpty_iff,
    List.map_eq_nil_iff, Table.rows_eq_nil_iff, isConsistent_iff_preflight]
  constructor
  · intro hnone uid user hrow
    exact ⟨hnone.1 uid user hrow, hnone.2 uid user hrow⟩
  · intro hall
    exact ⟨fun uid user hrow => (hall uid user hrow).1, fun uid user hrow => (hall uid user hrow).2⟩

/-- What an effective repair does to the database. -/
structure Repaired (call : RepairCall) (current : User) (db db' : Db) : Prop where
  row : db'.users.lookup call.userId = some (call.repairedRow current)
  others : ∀ uid, uid ≠ call.userId → db'.users.lookup uid = db.users.lookup uid
  sessions : ∀ id, db'.sessions.lookup id =
    (db.sessions.lookup id).filter fun row => row.userId != call.userId
  count : ∀ now, (runPreflight db' now).mismatchCount + 1 = (runPreflight db now).mismatchCount

theorem commit_repairWrites_users {uid : UserId} {intendedRole : RoleType} {generation : Nat}
    {targets : List RevocationTarget} {doomed : List SessionId} {now : Int} {current : User}
    {db db' : Db} (hcurrent : db.users.lookup uid = some current)
    (hcommit : commit (repairWrites uid intendedRole generation targets doomed now) db = .ok db') :
    db'.users = db.users.insert uid
        { current with
          role := intendedRole
          isSuperuser := deriveIsSuperuser (some intendedRole)
          authGeneration := generation } ∧
      db'.sessions = (db.deleteSessions doomed).sessions := by
  rw [repairWrites] at hcommit
  obtain ⟨db₁, hset, hrest⟩ := commit_cons_eq_ok.1 hcommit
  obtain ⟨db₂, hdelete, hinsert⟩ := commit_cons_eq_ok.1 hrest
  obtain rfl : db₁.deleteSessions doomed = db₂ := Except.ok.inj hdelete
  have hno : ∀ write ∈ (enqueueRoleChangeEffects uid generation targets now).map Write.insertOutbox,
      write.changesUsers = false ∧ write.changesSessions = false := by
    intro write hmem
    obtain ⟨row, -, rfl⟩ := List.mem_map.1 hmem
    exact ⟨rfl, rfl⟩
  have husers := commit_users hinsert fun write h => (hno write h).1
  have hsessions := commit_sessions hinsert fun write h => (hno write h).2
  obtain ⟨hnone, -⟩ | ⟨current', hcurrent', hput⟩ := Db.setRole_eq_ok hset
  · rw [hcurrent] at hnone
    cases hnone
  · obtain rfl : current = current' := Option.some.inj (hcurrent.symm.trans hcurrent')
    obtain ⟨-, -, rfl⟩ := Db.putUser_eq_ok.1 hput
    exact ⟨husers, hsessions⟩

theorem lookup_deleteSessions_ownedBy (db : Db) (uid : UserId) (id : SessionId) :
    (db.deleteSessions (sessionIds db (ownedBy uid))).sessions.lookup id =
      (db.sessions.lookup id).filter fun row => row.userId != uid := by
  rw [Db.deleteSessions, Table.lookup_filter]
  cases hrow : db.sessions.lookup id with
  | none => rfl
  | some row =>
      have hmem : id ∈ sessionIds db (ownedBy uid) ↔ row.userId = uid := by
        constructor
        · intro hmem
          obtain ⟨row', hrow', howned⟩ := mem_sessionIds.1 hmem
          obtain rfl := Option.some.inj (hrow.symm.trans hrow')
          simpa [ownedBy] using howned
        · intro huser
          exact mem_sessionIds_ownedBy hrow huser
      by_cases huser : row.userId = uid
      · simp [hmem, huser, Option.filter]
      · simp [hmem, huser, Option.filter]

theorem mismatchCount_insert {db db' : Db} {uid : UserId} {current user : User} {now : Int}
    (hcurrent : db.users.lookup uid = some current) (hmismatched : ¬ current.IsConsistent)
    (husers : db'.users = db.users.insert uid user) (hconsistent : user.IsConsistent) :
    (runPreflight db' now).mismatchCount + 1 = (runPreflight db now).mismatchCount := by
  have hsides := preflight_sides hmismatched
  obtain ⟨hflagged, hunflagged⟩ := isConsistent_iff_preflight.1 hconsistent
  have hone := Table.length_rows_insert (fun _ row => isFlaggedNotSuperadmin row) user hcurrent
  have htwo := Table.length_rows_insert (fun _ row => isSuperadminNotFlagged row) user hcurrent
  simp only [hflagged, hunflagged, Bool.false_eq_true, if_false] at hone htwo
  simp only [SecurityPreflightReport.mismatchCount, SecurityPreflightReport.flaggedNotSuperadminCount,
    SecurityPreflightReport.superadminNotFlaggedCount, runPreflight, List.length_map, husers]
  omega

theorem repaired_of_commit {call : RepairCall} {current : User} {db db' : Db}
    (hcurrent : db.users.lookup call.userId = some current) (hmismatched : ¬ current.IsConsistent)
    (hcommit : commit (repairWrites call.userId call.intendedRole (current.authGeneration + 1)
      (captureTargets db call.userId call.now) (sessionIds db (ownedBy call.userId)) call.now) db
        = .ok db') : Repaired call current db db' := by
  obtain ⟨husers, hsessions⟩ := commit_repairWrites_users hcurrent hcommit
  have hlookup (uid : UserId) : db'.users.lookup uid =
      if uid = call.userId then some (call.repairedRow current) else db.users.lookup uid := by
    rw [husers]
    exact Table.lookup_insert_eq _ _ _ _
  refine ⟨?_, ?_, ?_, ?_⟩
  · rw [hlookup, if_pos rfl]
  · intro uid hne
    rw [hlookup, if_neg hne]
  · intro id
    rw [hsessions]
    exact lookup_deleteSessions_ownedBy db call.userId id
  · intro now
    exact mismatchCount_insert hcurrent hmismatched husers (call.repairedRow_isConsistent current)

/-- A call of the command changes the database only if the row it names is mismatched, and then as an
effective repair does. -/
theorem perform_cases (db : Db) (call : RepairCall) :
    call.perform db = db ∨ ∃ current, db.users.lookup call.userId = some current ∧
      ¬ current.IsConsistent ∧ Repaired call current db (call.perform db) := by
  have houtcome := repairUser_outcome call.userId call.intendedRole call.now db
  rw [RepairCall.perform, RepairCall.result]
  generalize repairUser call.userId call.intendedRole call.now db = result at houtcome
  cases houtcome with
  | notFound | notMismatched | alreadyRepaired | exhausted | refused => exact .inl rfl
  | repaired hcurrent hmismatched hmax hcommit =>
      exact .inr ⟨_, hcurrent, hmismatched, repaired_of_commit hcurrent hmismatched hcommit⟩

theorem perform_keeps_consistent {db : Db} (call : RepairCall) {uid : UserId} {user : User}
    (hrow : db.users.lookup uid = some user) (hconsistent : user.IsConsistent) :
    (call.perform db).users.lookup uid = some user := by
  obtain hsame | ⟨current, hcurrent, hmismatched, hrepaired⟩ := perform_cases db call
  · rw [hsame, hrow]
  · have hne : uid ≠ call.userId := by
      rintro rfl
      obtain rfl := Option.some.inj (hcurrent.symm.trans hrow)
      exact hmismatched hconsistent
    rw [hrepaired.others uid hne, hrow]

theorem performRepairs_keeps_consistent {db : Db} (calls : List RepairCall) {uid : UserId} {user : User}
    (hrow : db.users.lookup uid = some user) (hconsistent : user.IsConsistent) :
    (performRepairs db calls).users.lookup uid = some user := by
  induction calls generalizing db with
  | nil => exact hrow
  | cons call rest ih => exact ih (perform_keeps_consistent call hrow hconsistent)

/-- What one call of the command does, and what it cannot do. -/
structure SoundRepair (call : RepairCall) (db : Db) : Prop where
  outcome : RepairOutcome call.userId call.intendedRole call.now db (call.result db)
  failed : ∀ e, call.result db = .error e → call.perform db = db
  effective : ∀ db' result, call.result db = .ok (db', result) → result.alreadyRepaired = false →
    call.perform db = db' ∧ ∃ current, db.users.lookup call.userId = some current ∧
      ¬ current.IsConsistent ∧ current.authGeneration < (call.repairedRow current).authGeneration ∧
      Repaired call current db db' ∧
      ∀ later, ∃ again, ({ call with now := later } : RepairCall).result db' = .ok (db', again) ∧
        again.alreadyRepaired = true
  repeated : ∀ db' result, call.result db = .ok (db', result) → result.alreadyRepaired = true →
    db' = db

theorem RepairCall.repeated {call : RepairCall} {current : User} {db db' : Db}
    (hrepaired : Repaired call current db db') (later : Int) :
    ({ call with now := later } : RepairCall).result db' = .ok (db',
      ⟨call.userId, call.intendedRole, deriveIsSuperuser (some call.intendedRole), call.intendedRole,
        current.authGeneration + 1, false, true⟩) := by
  rw [RepairCall.result, repairUser]
  simp only [hrepaired.row, repairedRow, beq_self_eq_true, if_true, resolveAlreadyConsistentRow,
    bne_self_eq_false, Bool.false_eq_true, if_false, Except.map]

theorem soundRepair (call : RepairCall) (db : Db) : SoundRepair call db := by
  have houtcome : RepairOutcome call.userId call.intendedRole call.now db (call.result db) :=
    repairUser_outcome call.userId call.intendedRole call.now db
  refine ⟨houtcome, ?_, ?_, ?_⟩
  · intro e hfailed
    rw [RepairCall.perform, hfailed]
  · intro db' result hok hfresh
    have hperform : call.perform db = db' := by rw [RepairCall.perform, hok]
    refine ⟨hperform, ?_⟩
    rw [hok] at houtcome
    cases houtcome with
    | alreadyRepaired => cases hfresh
    | repaired hcurrent hmismatched hmax hcommit =>
        have hrepaired := repaired_of_commit hcurrent hmismatched hcommit
        exact ⟨_, hcurrent, hmismatched, Nat.lt_succ_self _, hrepaired, fun later =>
          ⟨_, RepairCall.repeated hrepaired later, rfl⟩⟩
  · intro db' result hok hrepeated
    rw [hok] at houtcome
    cases houtcome with
    | alreadyRepaired => rfl
    | repaired => cases hrepeated

/-- Whatever calls have been made before, the rows that agreed with their role at the start are as they were,
every active canonical superuser still is one, the next call is sound, and the preflight is clean exactly if
every row agrees with its role. -/
theorem repairs_sound (db : Db) (calls : List RepairCall) :
    (∀ uid user, db.users.lookup uid = some user → user.IsConsistent →
      (performRepairs db calls).users.lookup uid = some user) ∧
    (∀ uid user, db.users.lookup uid = some user → isActiveCanonicalSuperuser user = true →
      ∃ user', (performRepairs db calls).users.lookup uid = some user' ∧
        isActiveCanonicalSuperuser user' = true) ∧
    (∀ call, SoundRepair call (performRepairs db calls)) ∧
    ∀ now, (runPreflight (performRepairs db calls) now).clean = true ↔
      ∀ uid user, (performRepairs db calls).users.lookup uid = some user →
        user.isSuperuser = decide (user.role = .superadmin) := by
  refine ⟨?_, ?_, ?_, ?_⟩
  · intro uid user hrow hconsistent
    exact performRepairs_keeps_consistent calls hrow hconsistent
  · intro uid user hrow hcanonical
    exact ⟨user, performRepairs_keeps_consistent calls hrow (isConsistent_of_canonical hcanonical),
      hcanonical⟩
  · intro call
    exact soundRepair call _
  · intro now
    rw [preflight_clean_iff]
    exact Iff.rfl

end FaAuthM8

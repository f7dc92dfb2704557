import FaAuthM8.Services.ClientSessions
import FaAuthM8.Services.Outbox
import FaAuthM8.Services.Users

/-!
# Role administration

An admin update is classified against the loaded target, guarded, applied in memory, and written in one
transaction together with the revocation it entails. The guards read the loaded object; only the count of
the other superusers reads the database.
-/

namespace FaAuthM8

def isActiveCanonicalSuperuser (user : User) : Bool :=
  hasSuperuserPrivileges user.role user.isSuperuser && user.isActive

def wouldBeActiveCanonicalSuperuser (role : RoleType) (isActive : Bool) : Bool :=
  hasSuperuserPrivileges role (deriveIsSuperuser (some role)) && isActive

def countActiveCanonicalSuperusers (db : Db) (excludeUserId : UserId) : Nat :=
  (db.users.rows fun uid user => isActiveCanonicalSuperuser user && uid != excludeUserId).length

theorem countActiveCanonicalSuperusers_ne_zero {db : Db} {uid : UserId} :
    countActiveCanonicalSuperusers db uid ≠ 0 ↔ ∃ other user, other ≠ uid ∧
      db.users.lookup other = some user ∧ isActiveCanonicalSuperuser user = true := by
  rw [countActiveCanonicalSuperusers, ne_eq, List.length_eq_zero_iff, Table.rows_eq_nil_iff]
  push Not
  simp only [ne_eq, Bool.not_eq_false, Bool.and_eq_true, bne_iff_ne]
  constructor
  · rintro ⟨other, user, huser, hcanonical, hne⟩
    exact ⟨other, user, hne, huser, hcanonical⟩
  · rintro ⟨other, user, hne, huser, hcanonical⟩
    exact ⟨other, user, huser, hcanonical, hne⟩

def isPromotion (previousRole intendedRole : RoleType) : Bool :=
  intendedRole != previousRole && hasMinimumRole intendedRole previousRole

structure UpdateIntent where
  roleRequested : Bool
  activeRequested : Bool
  previousRole : RoleType
  previousActive : Bool
  intendedRole : RoleType
  intendedActive : Bool
deriving DecidableEq, Repr

namespace UpdateIntent

def affectsSet (intent : UpdateIntent) : Bool :=
  intent.roleRequested || intent.activeRequested

def activationChanged (intent : UpdateIntent) : Bool :=
  intent.activeRequested && intent.intendedActive != intent.previousActive

def deactivated (intent : UpdateIntent) : Bool :=
  intent.activeRequested && intent.previousActive && !intent.intendedActive

end UpdateIntent

/-- A field sent as null counts as not requested. -/
def resolveUpdateIntent (dbUser : User) (userIn : UserUpdate) : UpdateIntent where
  roleRequested := userIn.role.join.isSome
  activeRequested := userIn.isActive.join.isSome
  previousRole := dbUser.role
  previousActive := dbUser.isActive
  intendedRole := userIn.role.join.getD dbUser.role
  intendedActive := userIn.isActive.join.getD dbUser.isActive

def rejectSelfPromotion (actorId uid : UserId) (intent : UpdateIntent) : Except ServiceError Unit :=
  if intent.roleRequested && actorId == uid &&
      isPromotion intent.previousRole intent.intendedRole then
    .error .selfPromotionForbidden
  else
    .ok ()

def enforceLastSuperuserInvariant (db : Db) (uid : UserId) (dbUser : User) (intent : UpdateIntent) :
    Except ServiceError Unit :=
  if !isActiveCanonicalSuperuser dbUser then
    .ok ()
  else if wouldBeActiveCanonicalSuperuser intent.intendedRole intent.intendedActive then
    .ok ()
  else if countActiveCanonicalSuperusers db uid = 0 then
    .error .lastSuperuserRequired
  else
    .ok ()

/-- The guard of `delete_user_account`. -/
def enforceLastSuperuserOnDelete (db : Db) (uid : UserId) (dbUser : User) : Except ServiceError Unit :=
  if isActiveCanonicalSuperuser dbUser && countActiveCanonicalSuperusers db uid == 0 then
    .error .lastSuperuserRequired
  else
    .ok ()

/-- The target in memory when the update has been applied, its generation advanced if the update is an
authorization transition. -/
structure UpdatePlan where
  intent : UpdateIntent
  draft : UserDraft
  authorizationChanged : Bool
deriving DecidableEq, Repr

def planUpdate (settings : Settings) (dbUser : User) (userIn : UserUpdate) :
    Except ServiceError UpdatePlan := do
  let intent := resolveUpdateIntent dbUser userIn
  let applied ← applyUserUpdate settings dbUser.draft userIn
  let draft :=
    if intent.activeRequested then { applied with isActive := intent.intendedActive } else applied
  if draft.role != some dbUser.role || intent.activationChanged then
    let newGeneration ← nextGeneration draft.authGeneration
    return ⟨intent, { draft with authGeneration := newGeneration }, true⟩
  else
    return ⟨intent, draft, false⟩

/-- What a plan leaves in memory of a loaded user. -/
structure UpdatePlan.PlannedFrom (plan : UpdatePlan) (dbUser : User) (userIn : UserUpdate) : Prop where
  intent : plan.intent = resolveUpdateIntent dbUser userIn
  role : plan.draft.role = userIn.role.getD (some dbUser.role)
  isSuperuser : plan.draft.isSuperuser =
    (userIn.role.map deriveIsSuperuser).getD dbUser.isSuperuser
  isActive : plan.draft.isActive = userIn.isActive.join.getD dbUser.isActive
  changed : plan.authorizationChanged = true ↔
    plan.draft.role ≠ some dbUser.role ∨ plan.draft.isActive ≠ dbUser.isActive
  advanced : plan.authorizationChanged = true →
    dbUser.authGeneration < GENERATION_MAX ∧ plan.draft.authGeneration = dbUser.authGeneration + 1
  kept : plan.authorizationChanged = false → plan.draft.authGeneration = dbUser.authGeneration

theorem applyUserUpdate_eq_ok {settings : Settings} {before after : UserDraft} {userIn : UserUpdate}
    (happlied : applyUserUpdate settings before userIn = .ok after) :
    after.role = userIn.role.getD before.role ∧
      after.isSuperuser = (userIn.role.map deriveIsSuperuser).getD before.isSuperuser ∧
      after.isActive = before.isActive ∧ after.authGeneration = before.authGeneration := by
  rw [applyUserUpdate] at happlied
  split at happlied
  · cases happlied
  · obtain rfl := Except.ok.inj happlied
    refine ⟨rfl, ?_, rfl, rfl⟩
    cases hrole : userIn.role with
    | none => rfl
    | some role => rfl

theorem activationChanged_iff (dbUser : User) (userIn : UserUpdate) :
    (resolveUpdateIntent dbUser userIn).activationChanged = true ↔
      userIn.isActive.join.getD dbUser.isActive ≠ dbUser.isActive := by
  cases hactive : userIn.isActive.join with
  | none => simp [UpdateIntent.activationChanged, resolveUpdateIntent, hactive]
  | some isActive => simp [UpdateIntent.activationChanged, resolveUpdateIntent, hactive]

theorem planUpdate_eq_ok {settings : Settings} {dbUser : User} {userIn : UserUpdate} {plan : UpdatePlan}
    (hplan : planUpdate settings dbUser userIn = .ok plan) : plan.PlannedFrom dbUser userIn := by
  simp only [planUpdate] at hplan
  cases happlied : applyUserUpdate settings dbUser.draft userIn with
  | error e => simp [happlied, bind, Except.bind] at hplan
  | ok applied =>
      obtain ⟨hrole, hsuperuser, hactive, hgeneration⟩ := applyUserUpdate_eq_ok happlied
      simp only [happlied, bind, Except.bind] at hplan
      generalize hdraft : (if (resolveUpdateIntent dbUser userIn).activeRequested = true then
        { applied with isActive := (resolveUpdateIntent dbUser userIn).intendedActive }
        else applied) = draft at hplan
      have hfields : draft.role = applied.role ∧ draft.isSuperuser = applied.isSuperuser ∧
          draft.authGeneration = applied.authGeneration ∧
          draft.isActive = userIn.isActive.join.getD dbUser.isActive := by
        subst hdraft
        split
        · exact ⟨rfl, rfl, rfl, rfl⟩
        · next hnone =>
            refine ⟨rfl, rfl, rfl, ?_⟩
            have hjoin : userIn.isActive.join = none := by
              simpa [resolveUpdateIntent] using hnone
            rw [hactive, hjoin]
            rfl
      obtain ⟨hrole', hsuperuser', hgeneration', hactive'⟩ := hfields
      have hcondition : (draft.role != some dbUser.role ||
          (resolveUpdateIntent dbUser userIn).activationChanged) = true ↔
          draft.role ≠ some dbUser.role ∨ draft.isActive ≠ dbUser.isActive := by
        rw [Bool.or_eq_true, bne_iff_ne, activationChanged_iff, hactive']
      split at hplan
      · next hchanged =>
          cases hnext : nextGeneration draft.authGeneration with
          | error e => simp [hnext] at hplan
          | ok newGeneration =>
              simp only [hnext] at hplan
              obtain rfl := Except.ok.inj hplan
              obtain ⟨hlt, hnew⟩ := nextGeneration_eq_ok.1 hnext
              rw [hgeneration', hgeneration] at hlt hnew
              exact ⟨rfl, hrole'.trans hrole, hsuperuser'.trans hsuperuser, hactive',
                iff_of_true rfl (hcondition.1 hchanged), fun _ => ⟨hlt, hnew⟩, nofun⟩
      · next hchanged =>
          obtain rfl := Except.ok.inj hplan
          refine ⟨rfl, hrole'.trans hrole, hsuperuser'.trans hsuperuser, hactive', ?_, nofun, fun _ =>
            hgeneration'.trans hgeneration⟩
          exact iff_of_false Bool.false_ne_true fun h => hchanged (hcondition.2 h)

structure Actor where
  id : UserId
  role : RoleType
deriving DecidableEq, Repr

def Actor.audit (actor : Actor) (action : AuditAction) (tableName : TableName) (rowPk : Nat)
    (owner : UserId) : PrivilegedActionAudit :=
  ⟨actor.id, actor.role, action, tableName, rowPk, some owner⟩

/-- The writes of `change_user_authorization`. `revision` is what the locked policy row held, when the
update takes that lock. -/
def updateWrites (actor : Actor) (uid : UserId) (dbUser : User) (plan : UpdatePlan)
    (targets : List RevocationTarget) (doomed : List SessionId) (revision : Option Nat) (now : Int) :
    List Write :=
  .updateUser uid dbUser plan.draft ::
    ((if plan.authorizationChanged then
        .deleteSessions doomed ::
          (enqueueRoleChangeEffects uid plan.draft.authGeneration targets now).map .insertOutbox
      else []) ++
    ((if plan.intent.deactivated then [.revokeUserKeys uid] else []) ++
    (revision.toList.map fun current =>
      .setPolicyRevision (if plan.authorizationChanged then current + 1 else current)) ++
    [.appendAudit (actor.audit .edit .user uid uid)]))

/-- The writes of `delete_user_account`; the captured targets are not used. -/
def deletionWrites (actor : Actor) (uid : UserId) (terminal : Nat) (doomed : List SessionId)
    (revision : Nat) (now : Int) : List Write :=
  [.appendAudit (actor.audit .delete .user uid uid), .raiseTombstone uid terminal now,
    .deleteSessions doomed, .deleteUser uid, .setPolicyRevision (revision + 1)]

/-- What the revocation part of an authorization transition does to the sessions and the outbox. -/
structure RevokedAndEnqueued (uid : UserId) (generation : Nat) (targets : List RevocationTarget)
    (doomed : List SessionId) (now : Int) (db db' : Db) : Prop where
  sessions : db'.sessions = (db.deleteSessions doomed).sessions
  outbox : Enqueued (enqueueRoleChangeEffects uid generation targets now) db db'

theorem commit_revokeAndEnqueue {uid : UserId} {generation : Nat} {targets : List RevocationTarget}
    {doomed : List SessionId} {now : Int} {db db' : Db} (hfresh : db.IdsFresh)
    (hcommit : commit (.deleteSessions doomed ::
      (enqueueRoleChangeEffects uid generation targets now).map .insertOutbox) db = .ok db') :
    RevokedAndEnqueued uid generation targets doomed now db db' ∧ db'.users = db.users ∧
      db'.tombstones = db.tombstones := by
  obtain ⟨db₁, hdelete, hinsert⟩ := commit_cons_eq_ok.1 hcommit
  have hfresh₁ := Write.apply_idsFresh hfresh hdelete
  obtain rfl : db.deleteSessions doomed = db₁ := Except.ok.inj hdelete
  have henqueued := commit_insertOutbox hfresh₁ hinsert
  have hno : ∀ write ∈ (enqueueRoleChangeEffects uid generation targets now).map Write.insertOutbox,
      write.changesUsers = false ∧ write.changesSessions = false ∧
        write.changesTombstones = false := by
    intro write hmem
    obtain ⟨row, -, rfl⟩ := List.mem_map.1 hmem
    exact ⟨rfl, rfl, rfl⟩
  have husers := commit_users hinsert fun write h => (hno write h).1
  have hsessions := commit_sessions hinsert fun write h => (hno write h).2.1
  have htombstones := commit_tombstones hinsert fun write h => (hno write h).2.2
  exact ⟨⟨hsessions, henqueued.congr rfl rfl rfl⟩, husers, htombstones⟩

structure UpdateCommitted (uid : UserId) (dbUser : User) (plan : UpdatePlan)
    (targets : List RevocationTarget) (doomed : List SessionId) (now : Int) (db db' : Db) : Prop where
  users : ∃ db₁, db.updateUser uid dbUser plan.draft = .ok db₁ ∧ db'.users = db₁.users
  revoked : plan.authorizationChanged = true →
    RevokedAndEnqueued uid plan.draft.authGeneration targets doomed now db db'
  untouched : plan.authorizationChanged = false →
    db'.sessions = db.sessions ∧ db'.outbox = db.outbox
  tombstones : db'.tombstones = db.tombstones

theorem User.draft_saveOver (loaded current : User) :
    loaded.draft.saveOver loaded current = .ok current := by
  simp [User.draft, UserDraft.saveOver]

theorem Db.updateUser_lookup {uid : UserId} {loaded current : User} {draft : UserDraft} {db db' : Db}
    (hupdate : db.updateUser uid loaded draft = .ok db')
    (hcurrent : db.users.lookup uid = some current) :
    ∃ user, draft.saveOver loaded current = .ok user ∧
      ∀ other, db'.users.lookup other = if other = uid then some user else db.users.lookup other := by
  obtain ⟨rfl, rfl⟩ | ⟨current', user, hcurrent', hsave, hput⟩ := Db.updateUser_eq_ok hupdate
  · refine ⟨current, User.draft_saveOver loaded current, fun other => ?_⟩
    split
    · next hother => rw [hother, hcurrent]
    · rfl
  · rw [hcurrent, Option.some.injEq] at hcurrent'
    subst hcurrent'
    obtain ⟨-, -, rfl⟩ := Db.putUser_eq_ok.1 hput
    exact ⟨user, hsave, fun other => Table.lookup_insert_eq _ _ _ _⟩

theorem Db.updateUser_records {uid : UserId} {loaded : User} {draft : UserDraft} {db db' : Db}
    (hupdate : db.updateUser uid loaded draft = .ok db') :
    db'.sessions = db.sessions ∧ db'.outbox = db.outbox ∧ db'.tombstones = db.tombstones ∧
      db'.nextOutboxId = db.nextOutboxId := by
  obtain ⟨-, rfl⟩ | ⟨current, user, -, -, hput⟩ := Db.updateUser_eq_ok hupdate
  · exact ⟨rfl, rfl, rfl, rfl⟩
  · obtain ⟨-, -, rfl⟩ := Db.putUser_eq_ok.1 hput
    exact ⟨rfl, rfl, rfl, rfl⟩

theorem commit_updateWrites {actor : Actor} {uid : UserId} {dbUser : User} {plan : UpdatePlan}
    {targets : List RevocationTarget} {doomed : List SessionId} {revision : Option Nat} {now : Int}
    {db db' : Db} (hfresh : db.IdsFresh)
    (hcommit : commit (updateWrites actor uid dbUser plan targets doomed revision now) db
      = .ok db') : UpdateCommitted uid dbUser plan targets doomed now db db' := by
  rw [updateWrites] at hcommit
  obtain ⟨db₁, hupdate, hrest⟩ := commit_cons_eq_ok.1 hcommit
  obtain ⟨db₂, hrevoke, htail⟩ := commit_append_eq_ok.1 hrest
  have hsame : SameRecords db₂ db' := by
    refine commit_peripheral htail fun write hmem => ?_
    simp only [List.mem_append, List.mem_map, Option.mem_toList, List.mem_singleton] at hmem
    rcases hmem with (hmem | ⟨current, -, rfl⟩) | rfl
    · split at hmem
      · obtain rfl := List.mem_singleton.1 hmem
        rfl
      · cases hmem
    · rfl
    · rfl
  have hupdate' : db.updateUser uid dbUser plan.draft = .ok db₁ := hupdate
  obtain ⟨hsessions, houtbox, htombstones, hnext⟩ := Db.updateUser_records hupdate'
  have hfresh₁ := Write.apply_idsFresh hfresh hupdate
  cases hchanged : plan.authorizationChanged with
  | true =>
      rw [hchanged, if_pos rfl] at hrevoke
      obtain ⟨hrevoked, husers, htombs⟩ := commit_revokeAndEnqueue hfresh₁ hrevoke
      refine ⟨⟨db₁, hupdate', hsame.users.trans husers⟩, fun _ => ⟨?_, ?_⟩, ?_, ?_⟩
      · rw [hsame.sessions, hrevoked.sessions, Db.deleteSessions, Db.deleteSessions, hsessions]
      · exact hrevoked.outbox.congr houtbox.symm hnext.symm hsame.outbox
      · intro hno
        rw [hchanged] at hno
        cases hno
      · rw [hsame.tombstones, htombs, htombstones]
  | false =>
      rw [hchanged, if_neg Bool.false_ne_true, commit_nil, Except.ok.injEq] at hrevoke
      subst hrevoke
      refine ⟨⟨db₁, hupdate', hsame.users⟩, ?_, fun _ => ⟨?_, ?_⟩, ?_⟩
      · intro hyes
        rw [hchanged] at hyes
        cases hyes
      · exact hsame.sessions.trans hsessions
      · exact hsame.outbox.trans houtbox
      · exact hsame.tombstones.trans htombstones

structure DeletionCommitted (uid : UserId) (terminal : Nat) (doomed : List SessionId) (now : Int)
    (db db' : Db) : Prop where
  users : db'.users = db.users.erase uid
  sessions : db'.sessions = ((db.deleteSessions doomed).deleteUser uid).sessions
  tombstones : db'.tombstones = (db.raiseTombstone uid terminal now).tombstones
  outbox : db'.outbox = db.outbox

theorem commit_deletionWrites {actor : Actor} {uid : UserId} {terminal : Nat}
    {doomed : List SessionId} {revision : Nat} {now : Int} {db db' : Db}
    (hcommit : commit (deletionWrites actor uid terminal doomed revision now) db = .ok db') :
    DeletionCommitted uid terminal doomed now db db' := by
  obtain ⟨tombstones, hraise⟩ :=
    (db.appendAudit (actor.audit .delete .user uid uid)).raiseTombstone_eq uid terminal now
  have hsame : (db.raiseTombstone uid terminal now).tombstones = tombstones := by
    have hraised : (db.appendAudit (actor.audit .delete .user uid uid)).raiseTombstone uid terminal now
        = (db.raiseTombstone uid terminal now).appendAudit (actor.audit .delete .user uid uid) := by
      simp only [Db.raiseTombstone, Db.appendAudit]
      split
      · rfl
      · split <;> rfl
    rw [hraised] at hraise
    simpa [Db.appendAudit] using congrArg Db.tombstones hraise
  simp only [deletionWrites, commit, Write.apply, Except.bind, Except.ok.injEq, hraise] at hcommit
  subst hcommit
  exact ⟨rfl, rfl, hsame.symm, rfl⟩

end FaAuthM8

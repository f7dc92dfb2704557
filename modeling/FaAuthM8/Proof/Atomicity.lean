import FaAuthM8.Proof.Serial

/-!
# Administrative transitions are all or nothing

A request that changes what a user may do writes to most tables in one transaction. Wherever it fails, the
database is as it was; when it succeeds, the audit trail, the policy revision, the sessions and the keys
change as the transition demands, and only for its target.
-/

namespace FaAuthM8

/-- A write to the audit trail, the policy revision or the API keys. -/
def Write.changesLedger : Write → Bool
  | deleteUser .. | revokeUserKeys .. | setPolicyRevision .. | appendAudit .. => true
  | _ => false

/-- Equality of what the administration of users keeps besides the users themselves. -/
structure SameLedger (db db' : Db) : Prop where
  audit : db'.audit = db.audit
  policyRevision : db'.policyRevision = db.policyRevision
  apiKeys : db'.apiKeys = db.apiKeys

theorem SameLedger.refl (db : Db) : SameLedger db db := ⟨rfl, rfl, rfl⟩

theorem SameLedger.trans {a b c : Db} (hfirst : SameLedger a b) (hsecond : SameLedger b c) :
    SameLedger a c :=
  ⟨hsecond.audit.trans hfirst.audit, hsecond.policyRevision.trans hfirst.policyRevision,
    hsecond.apiKeys.trans hfirst.apiKeys⟩

theorem Db.putUser_ledger {uid : UserId} {user : User} {db db' : Db}
    (hput : db.putUser uid user = .ok db') : SameLedger db db' := by
  obtain ⟨-, -, rfl⟩ := Db.putUser_eq_ok.1 hput
  exact ⟨rfl, rfl, rfl⟩

theorem Write.apply_ledger {write : Write} {db db' : Db} (hno : write.changesLedger = false)
    (happly : write.apply db = .ok db') : SameLedger db db' := by
  cases write with
  | insertUser user =>
      rw [Db.insertUser_eq_ok happly]
      exact ⟨rfl, rfl, rfl⟩
  | updateUser uid loaded draft =>
      obtain ⟨-, rfl⟩ | ⟨current, user, -, -, hput⟩ := Db.updateUser_eq_ok happly
      · exact .refl db'
      · exact Db.putUser_ledger hput
  | setRole uid role isSuperuser generation =>
      obtain ⟨-, rfl⟩ | ⟨current, -, hput⟩ := Db.setRole_eq_ok happly
      · exact .refl db'
      · exact Db.putUser_ledger hput
  | insertSession row =>
      rw [(Db.insertSession_eq_ok.1 happly).2]
      exact ⟨rfl, rfl, rfl⟩
  | updateSession id loaded new =>
      obtain ⟨-, rfl⟩ | ⟨current, -, rfl⟩ := Db.updateSession_eq_ok happly
      · exact .refl db'
      · exact ⟨rfl, rfl, rfl⟩
  | deleteSessions | reapOutbox =>
      rw [← Except.ok.inj happly]
      exact ⟨rfl, rfl, rfl⟩
  | insertOutbox row =>
      rw [(Db.insertOutbox_eq_ok.1 happly).2]
      exact ⟨rfl, rfl, rfl⟩
  | updateOutbox id loaded new =>
      obtain ⟨-, rfl⟩ | ⟨current, -, rfl⟩ := Db.updateOutbox_eq_ok happly
      · exact .refl db'
      · exact ⟨rfl, rfl, rfl⟩
  | raiseTombstone uid terminal now =>
      obtain ⟨tombstones, heq⟩ := db.raiseTombstone_eq uid terminal now
      rw [← Except.ok.inj happly, heq]
      exact ⟨rfl, rfl, rfl⟩
  | deleteUser | revokeUserKeys | setPolicyRevision | appendAudit => cases hno

theorem commit_ledger {writes : List Write} {db db' : Db} (hcommit : commit writes db = .ok db')
    (hno : ∀ write ∈ writes, write.changesLedger = false) : SameLedger db db' :=
  commit_rel (R := SameLedger) SameLedger.refl (fun _ _ _ => SameLedger.trans) hcommit
    fun write hwrite _ _ happly => Write.apply_ledger (hno write hwrite) happly

theorem commit_setPolicyRevision {revision : Option Nat} {next : Nat → Nat} {db db' : Db}
    (hcommit : commit (revision.toList.map fun current => .setPolicyRevision (next current)) db = .ok db') :
    db'.audit = db.audit ∧ db'.policyRevision = (revision.map next).or db.policyRevision ∧
      db'.apiKeys = db.apiKeys := by
  cases revision with
  | none =>
      obtain rfl := Except.ok.inj hcommit
      exact ⟨rfl, rfl, rfl⟩
  | some current =>
      have hset : db.setPolicyRevision (next current) = db' := Except.ok.inj hcommit
      subst hset
      exact ⟨rfl, rfl, rfl⟩

theorem commit_revokeUserKeys {uid : UserId} {deactivated : Bool} {db db' : Db}
    (hcommit : commit (if deactivated then [.revokeUserKeys uid] else []) db = .ok db') :
    db'.audit = db.audit ∧ db'.policyRevision = db.policyRevision ∧
      db'.apiKeys = if deactivated then (db.revokeUserKeys uid).apiKeys else db.apiKeys := by
  cases deactivated with
  | true =>
      have hrevoke : db.revokeUserKeys uid = db' := Except.ok.inj hcommit
      subst hrevoke
      exact ⟨rfl, rfl, rfl⟩
  | false =>
      obtain rfl := Except.ok.inj hcommit
      exact ⟨rfl, rfl, rfl⟩

/-- The ledger after a committed update. -/
structure UpdateRecorded (r : UpdateRequest) (plan : UpdatePlan) (revision : Option Nat) (db db' : Db) :
    Prop where
  audit : db'.audit = r.actor.audit .edit .user r.userId r.userId :: db.audit
  policyRevision : db'.policyRevision =
    (revision.map fun current => if plan.authorizationChanged then current + 1 else current).or
      db.policyRevision
  apiKeys : db'.apiKeys = if plan.intent.deactivated then (db.revokeUserKeys r.userId).apiKeys else db.apiKeys

theorem commit_updateWrites_recorded {r : UpdateRequest} {copy : User} {plan : UpdatePlan}
    {targets : List RevocationTarget} {doomed : List SessionId} {revision : Option Nat} {now : Int}
    {db db' : Db}
    (hcommit : commit (updateWrites r.actor r.userId copy plan targets doomed revision now) db = .ok db') :
    UpdateRecorded r plan revision db db' := by
  rw [updateWrites] at hcommit
  obtain ⟨db₁, hupdate, hrest⟩ := commit_cons_eq_ok.1 hcommit
  obtain ⟨db₂, hrevoke, htail⟩ := commit_append_eq_ok.1 hrest
  obtain ⟨db₄, hboth, haudit⟩ := commit_append_eq_ok.1 htail
  obtain ⟨db₃, hkeys, hrevision⟩ := commit_append_eq_ok.1 hboth
  have hledger : SameLedger db db₂ := by
    refine (Write.apply_ledger rfl hupdate).trans (commit_ledger hrevoke fun write hmem => ?_)
    split at hmem
    · rcases List.mem_cons.1 hmem with rfl | hmem
      · rfl
      · obtain ⟨row, -, rfl⟩ := List.mem_map.1 hmem
        rfl
    · cases hmem
  obtain ⟨haudit₃, hrevision₃, hkeys₃⟩ := commit_revokeUserKeys hkeys
  obtain ⟨haudit₄, hrevision₄, hkeys₄⟩ := commit_setPolicyRevision hrevision
  have hlast : db₄.appendAudit (r.actor.audit .edit .user r.userId r.userId) = db' := Except.ok.inj haudit
  subst hlast
  refine ⟨?_, ?_, ?_⟩
  · rw [Db.appendAudit, haudit₄, haudit₃, hledger.audit]
  · rw [Db.appendAudit, hrevision₄, hrevision₃, hledger.policyRevision]
  · rw [Db.appendAudit, hkeys₄, hkeys₃, Db.revokeUserKeys, Db.revokeUserKeys, hledger.apiKeys]

/-- Some update deactivates its target. -/
def Deactivates (uid : UserId) (db db' : Db) : Prop :=
  (db.users.lookup uid).map (·.isActive) = some true ∧ (db'.users.lookup uid).map (·.isActive) = some false

instance (uid : UserId) (db db' : Db) : Decidable (Deactivates uid db db') :=
  inferInstanceAs (Decidable (_ ∧ _))

/-- What a successful update does. -/
structure UpdateApplied (r : UpdateRequest) (db db' : Db) : Prop where
  audit : db'.audit = r.actor.audit .edit .user r.userId r.userId :: db.audit
  policyRevision : db'.policyRevision.getD 0 = db.policyRevision.getD 0 +
    if authorizationOf db' r.userId ≠ authorizationOf db r.userId then 1 else 0
  removed : authorizationOf db' r.userId ≠ authorizationOf db r.userId →
    ∀ id row, db'.sessions.lookup id = some row ↔ db.sessions.lookup id = some row ∧ row.userId ≠ r.userId
  untouched : authorizationOf db' r.userId = authorizationOf db r.userId → db'.sessions = db.sessions
  keys : ∀ id, db'.apiKeys.lookup id = (db.apiKeys.lookup id).map fun key =>
    if Deactivates r.userId db db' ∧ key.userId = r.userId then { key with revoked := true } else key
  others : ∀ other, other ≠ r.userId → db'.users.lookup other = db.users.lookup other

/-- What a successful deletion does. -/
structure DeletionApplied (r : DeleteRequest) (db db' : Db) : Prop where
  audit : db'.audit = r.actor.audit .delete .user r.userId r.userId :: db.audit
  policyRevision : db'.policyRevision = some (db.policyRevision.getD 0 + 1)
  removed : ∀ id row, db'.sessions.lookup id = some row ↔
    db.sessions.lookup id = some row ∧ row.userId ≠ r.userId
  keys : ∀ id key, db'.apiKeys.lookup id = some key ↔ db.apiKeys.lookup id = some key ∧ key.userId ≠ r.userId
  users : ∀ other, db'.users.lookup other = if other = r.userId then none else db.users.lookup other

/-- What a successful repair does. -/
structure RepairApplied (r : RepairRequest) (db db' : Db) : Prop where
  ledger : SameLedger db db'
  removed : ∀ id row, db'.sessions.lookup id = some row ↔
    db.sessions.lookup id = some row ∧ row.userId ≠ r.userId
  others : ∀ other, other ≠ r.userId → db'.users.lookup other = db.users.lookup other

def AdminRequest.Applied (db db' : Db) : AdminRequest → Prop
  | update r => UpdateApplied r db db'
  | delete r => DeletionApplied r db db'
  | repair r => RepairApplied r db db'

section

variable {settings : Settings} {db db' : Db} {now : Int}

theorem lookup_deleteOwned {uid : UserId}
    (hsessions : db'.sessions = (db.deleteSessions (sessionIds db (ownedBy uid))).sessions)
    (id : SessionId) (row : ClientSession) : db'.sessions.lookup id = some row ↔
      db.sessions.lookup id = some row ∧ row.userId ≠ uid := by
  rw [hsessions, Db.lookup_deleteSessions]
  refine and_congr_right fun hrow => not_congr ?_
  rw [mem_sessionIds]
  constructor
  · rintro ⟨row', hrow', howned⟩
    obtain rfl := Option.some.inj (hrow.symm.trans hrow')
    exact beq_iff_eq.1 howned
  · intro huser
    exact ⟨row, hrow, beq_iff_eq.2 huser⟩

theorem affectsSet_of_changed {copy user : User} {userIn : UserUpdate} {plan : UpdatePlan}
    (hplan : plan.PlannedFrom copy userIn) (hrole : plan.draft.role = some user.role)
    (hchanged : plan.authorizationChanged = true) :
    (resolveUpdateIntent copy userIn).affectsSet = true := by
  rw [UpdateIntent.affectsSet, Bool.or_eq_true]
  rcases hplan.changed.1 hchanged with hother | hother
  · left
    rw [hplan.role] at hrole hother
    cases hrequested : userIn.role with
    | none => simp [hrequested] at hother
    | some requested =>
        rw [hrequested, Option.getD_some] at hrole
        simp [resolveUpdateIntent, hrequested, hrole]
  · right
    rw [hplan.isActive] at hother
    cases hrequested : userIn.isActive.join with
    | none => simp [hrequested] at hother
    | some requested => simp [resolveUpdateIntent, hrequested]

theorem deactivated_iff {copy : User} {userIn : UserUpdate} {plan : UpdatePlan}
    (hplan : plan.PlannedFrom copy userIn) :
    plan.intent.deactivated = true ↔ copy.isActive = true ∧ plan.draft.isActive = false := by
  rw [hplan.intent, hplan.isActive]
  cases hrequested : userIn.isActive.join with
  | none =>
      simp only [UpdateIntent.deactivated, resolveUpdateIntent, hrequested]
      cases copy.isActive <;> simp
  | some requested => simp [UpdateIntent.deactivated, resolveUpdateIntent, hrequested]

theorem update_applied {r : UpdateRequest} (hfresh : db.IdsFresh)
    (hcommits : AdminRequest.Commits settings db now db' (.update r)) : UpdateApplied r db db' := by
  cases hcommits with
  | @update _ copy plan targets doomed hcopy hplan hread hcommit =>
      obtain ⟨user, hlookup, hrole, hactive, -⟩ := commit_updateWrites_user hfresh hcopy hcommit
      have huser : db'.users.lookup r.userId = some user := by rw [hlookup, if_pos rfl]
      have hcommitted := commit_updateWrites hfresh hcommit
      have hrecorded := commit_updateWrites_recorded hcommit
      have hplanned := planUpdate_eq_ok hplan
      have hiff := authorizationOf_changed_iff hplan hcopy huser hrole hactive
      refine ⟨hrecorded.audit, ?_, fun hchanges => ?_, fun hsame => ?_, fun id => ?_, fun other hother => ?_⟩
      · rw [hrecorded.policyRevision, lockedRevision]
        cases hchanged : plan.authorizationChanged with
        | true =>
            rw [if_pos (hiff.2 hchanged), if_pos (affectsSet_of_changed hplanned hrole hchanged)]
            rfl
        | false =>
            rw [if_neg fun h => Bool.false_ne_true (hchanged.symm.trans (hiff.1 h))]
            cases (resolveUpdateIntent copy r.userIn).affectsSet with
            | true => rfl
            | false => rfl
      · have hchanged := hiff.1 hchanges
        obtain ⟨-, rfl⟩ := hread hchanged
        exact lookup_deleteOwned (hcommitted.revoked hchanged).sessions
      · refine (hcommitted.untouched ?_).1
        rw [← Bool.not_eq_true, ← hiff]
        exact not_not_intro hsame
      · have hdeactivates : Deactivates r.userId db db' ↔ plan.intent.deactivated = true := by
          rw [deactivated_iff hplanned, Deactivates, hcopy, huser, ← hactive]
          simp
        rw [hrecorded.apiKeys]
        simp only [hdeactivates]
        split
        · next hdeactivated => simp [Db.revokeUserKeys, hdeactivated]
        · next hkept => simp [hkept]
      · rw [hlookup, if_neg hother]

theorem deletion_applied {r : DeleteRequest}
    (hcommits : AdminRequest.Commits settings db now db' (.delete r)) : DeletionApplied r db db' := by
  cases hcommits with
  | @delete _ copy terminal hcopy hterminal hcommit =>
      have hcommitted := commit_deletionWrites hcommit
      obtain ⟨tombstones, hraise⟩ :=
        (db.appendAudit (r.actor.audit .delete .user r.userId r.userId)).raiseTombstone_eq r.userId terminal now
      have hledger : db'.audit = r.actor.audit .delete .user r.userId r.userId :: db.audit ∧
          db'.policyRevision = some (db.policyRevision.getD 0 + 1) ∧
          db'.apiKeys = (db.deleteUser r.userId).apiKeys := by
        simp only [deletionWrites, commit, Write.apply, Except.bind, Except.ok.injEq, hraise] at hcommit
        subst hcommit
        exact ⟨rfl, rfl, rfl⟩
      refine ⟨hledger.1, hledger.2.1, fun id row => ?_, fun id key => ?_, fun other => ?_⟩
      · rw [hcommitted.sessions, Db.lookup_deleteUser_sessions, Db.lookup_deleteSessions]
        constructor
        · rintro ⟨⟨hrow, -⟩, huser⟩
          exact ⟨hrow, huser⟩
        · rintro ⟨hrow, huser⟩
          refine ⟨⟨hrow, fun hdoomed => huser ?_⟩, huser⟩
          obtain ⟨row', hrow', howned⟩ := mem_sessionIds.1 hdoomed
          obtain rfl := Option.some.inj (hrow.symm.trans hrow')
          exact beq_iff_eq.1 howned
      · rw [hledger.2.2, Db.deleteUser, Table.lookup_filter, Option.filter_eq_some_iff, bne_iff_ne]
      · rw [hcommitted.users, Table.lookup_erase_eq]

theorem repair_applied {r : RepairRequest} (hfresh : db.IdsFresh)
    (hcommits : AdminRequest.Commits settings db now db' (.repair r)) : RepairApplied r db db' := by
  cases hcommits with
  | @repair _ newGeneration hrepairs hcommit =>
      have hcommitted := commit_repairWrites hfresh hcommit
      refine ⟨commit_ledger hcommit fun write hmem => ?_, lookup_deleteOwned hcommitted.revoked.sessions,
        fun other hother => ?_⟩
      · rw [repairWrites, List.mem_cons, List.mem_cons] at hmem
        rcases hmem with rfl | rfl | hmem
        · rfl
        · rfl
        · obtain ⟨row, -, rfl⟩ := List.mem_map.1 hmem
          rfl
      · obtain ⟨db₁, hset, husers⟩ := hcommitted.users
        obtain ⟨-, rfl⟩ | ⟨current, -, hput⟩ := Db.setRole_eq_ok hset
        · rw [husers]
        · obtain ⟨-, -, rfl⟩ := Db.putUser_eq_ok.1 hput
          rw [husers, AList.lookup_insert_ne hother]

theorem AdminRequest.Commits.applied {request : AdminRequest} (hfresh : db.IdsFresh)
    (hcommits : request.Commits settings db now db') : request.Applied db db' := by
  cases request with
  | update r => exact update_applied hfresh hcommits
  | delete r => exact deletion_applied hcommits
  | repair r => exact repair_applied hfresh hcommits

/-- The next statement of `p` is the commit of its request, and the database accepts it. -/
def Accepted (p : Pid) (c : Interleaving.Config World Local) (a : Action) : Prop :=
  a = .proceed ∧ ∃ writes db', (c.locals p).transaction c.shared.now = some writes ∧
    commit writes c.shared.db = .ok db'

/-- A request served on its own leaves the database as it was at every statement but an accepted commit,
which ends it and applies the whole transition. -/
theorem admin_transition_atomic (settings : Settings) {p : Pid} {c c₁ c' : Interleaving.Config World Local}
    {request : AdminRequest} {moves : List Action} {a : Action} (hfresh : c.shared.db.IdsFresh)
    (hidle : c.locals p = .idle) (hmoves : ∀ b ∈ moves ++ [a], b = .proceed ∨ b = .abort)
    (hrun : (issuer settings).run c (servedBy p request moves) = some c₁)
    (hnext : (issuer settings).next c₁ (p, a) = some c') :
    (¬ Accepted p c₁ a → c'.shared.db = c.shared.db) ∧
    (Accepted p c₁ a → c'.locals p = .idle ∧ request.Applied c.shared.db c'.shared.db) := by
  have hserved := served_run hidle (fun b hmem => hmoves b (List.mem_append_left _ hmem)) hrun
  have haction := hmoves a (List.mem_append_right _ List.mem_cons_self)
  obtain ⟨w', l', hstep, rfl⟩ := Interleaving.System.next_eq_some.1 hnext
  cases hserved with
  | ended hended | committed hended =>
      have hnone : step settings p c₁.shared (c₁.locals p) a = none := by
        rw [hended]
        exact step_idle_eq_none haction
      exact absurd (hnone.symm.trans hstep) nofun
  | unfinished hserves hdb hnow =>
      constructor
      · intro hrefused
        rcases haction with rfl | rfl
        · have hserves₁ : (c₁.locals p).Serves settings c₁.shared.db c₁.shared.now request := by
            rw [hdb, hnow]
            exact hserves
          rcases (step_sound hstep).serves hserves₁ with hgoes | ⟨-, writes, htransaction, hcommit⟩
          · exact hgoes.db.trans hdb
          · exact absurd ⟨rfl, writes, w'.db, htransaction, hcommit⟩ hrefused
        · exact (congrArg World.db (step_abort hstep).1).trans hdb
      · rintro ⟨rfl, writes, db', htransaction, hcommit⟩
        obtain ⟨hstored, rfl⟩ := step_transaction htransaction hcommit hstep
        refine ⟨Function.update_self .., ?_⟩
        rw [hnow] at htransaction
        rw [hdb, ← hstored] at hcommit
        exact (hserves.commits htransaction hcommit).applied hfresh

end

theorem admin_transition_atomic_promoteReader :
    ∃ c₁ c', (issuer {}).run twoSessions (servedBy 0 promoteReader (List.replicate 7 .proceed)) = some c₁ ∧
      (issuer {}).next c₁ (0, .proceed) = some c' ∧ Accepted 0 c₁ .proceed ∧
      promoteReader.Applied twoSessions.shared.db c'.shared.db := by
  have hruns : (((issuer {}).run twoSessions
      (servedBy 0 promoteReader (List.replicate 7 .proceed))).bind fun c₁ =>
        ((issuer {}).next c₁ (0, .proceed)).map fun c' => c'.shared.db.audit.length) = some 1 := by
    decide +kernel
  obtain ⟨c₁, hrun, hlast⟩ := Option.bind_eq_some_iff.1 hruns
  obtain ⟨c', hnext, haudit⟩ := Option.map_eq_some_iff.1 hlast
  have hatomic := admin_transition_atomic {} twoSessions_fresh rfl
    (fun a hmem => .inl (List.eq_of_mem_replicate (n := 8) hmem)) hrun hnext
  have haccepted : Accepted 0 c₁ .proceed := by
    by_contra hrefused
    rw [hatomic.1 hrefused] at haudit
    cases haudit
  exact ⟨c₁, c', hrun, hnext, haccepted, (hatomic.2 haccepted).2⟩

end FaAuthM8

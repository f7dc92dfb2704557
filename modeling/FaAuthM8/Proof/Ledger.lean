import FaAuthM8.Proof.Atomicity
import FaAuthM8.Proof.Intents

/-!
# The ledger of the administration

The audit trail and the policy revision are the ledger of what administrators have done. Every transaction of
theirs enters one row; those that change the superuser set or an authorization also advance the revision, by
a value they have read some statements before. The revision is read under the lock on the policy row, which
is held until the commit, so no two transactions advance it from the same value, whatever runs beside them.
-/

namespace FaAuthM8

/-- What a transaction enters in the ledger: its audit row, and whether it advances the policy revision. -/
structure LedgerEntry where
  row : PrivilegedActionAudit
  advances : Bool
deriving DecidableEq, Repr

/-- The writes of the transaction whose commit is the next statement, and what it enters in the ledger. -/
def Local.entering (now : Int) : Local → Option (List Write × LedgerEntry)
  | .update r (.commit copy plan revision targets doomed) =>
      some (updateWrites r.actor r.userId copy plan targets doomed revision now,
        ⟨r.actor.audit .edit .user r.userId r.userId, plan.authorizationChanged⟩)
  | .delete r (.commit _ terminal revision doomed) =>
      some (deletionWrites r.actor r.userId terminal doomed revision now,
        ⟨r.actor.audit .delete .user r.userId r.userId, true⟩)
  | .revokeSession r (.commit row doomed) =>
      some ([.appendAudit (r.actor.audit .delete .clientSession r.sessionId row.userId), .deleteSessions doomed],
        ⟨r.actor.audit .delete .clientSession r.sessionId row.userId, false⟩)
  | .revokeUser r (.commit _ doomed) =>
      r.actor.map fun actor =>
        ([.appendAudit (actor.audit .delete .clientSession r.userId r.userId), .deleteSessions doomed],
          ⟨actor.audit .delete .clientSession r.userId r.userId, false⟩)
  | _ => none

/-- What a statement enters in the ledger: it is a commit, and the database accepts the writes. -/
def entered (w : World) (l : Local) : Action → Option LedgerEntry
  | .proceed => (l.entering w.now).bind fun transaction =>
      if (commit transaction.1 w.db).isOk then some transaction.2 else none
  | _ => none

/-- The entries of a run, in the order of the commits. -/
def ledgerEntries (settings : Settings) :
    Interleaving.Config World Local → List (Pid × Action) → List LedgerEntry
  | _, [] => []
  | c, move :: rest =>
      match (issuer settings).next c move with
      | none => []
      | some c' => (entered c.shared (c.locals move.1) move.2).toList ++ ledgerEntries settings c' rest

/-- The database after a statement that enters `entry`. -/
structure EnteredIn (entry : Option LedgerEntry) (db db' : Db) : Prop where
  audit : db'.audit = (entry.map (·.row)).toList ++ db.audit
  policyRevision : db'.policyRevision.getD 0 =
    db.policyRevision.getD 0 + entry.toList.countP (·.advances)

/-- The revision a request has read under the lock on the policy row. -/
def Local.lockedRevision : Local → Option Nat
  | .update _ (.lockUser _ revision) | .update _ (.enforce _ revision) => some revision
  | .update _ (.apply _ revision) | .update _ (.purge _ _ revision _) | .update _ (.commit _ _ revision _ _) =>
      revision
  | .delete _ (.lockUser _ revision) | .delete _ (.enforce _ revision) | .delete _ (.purge _ _ revision)
  | .delete _ (.commit _ _ revision _) => some revision
  | _ => none

/-- It holds the lock, and the revision is still what it has read. -/
def HoldsRevision (p : Pid) (w : World) (l : Local) : Prop :=
  ∀ revision, l.lockedRevision = some revision →
    w.locks.policy = some p ∧ w.db.policyRevision.getD 0 = revision

section

variable {settings : Settings} {p q : Pid} {w w' : World} {l l' : Local} {a : Action}

theorem EnteredIn.of_same {db db' : Db} (haudit : db'.audit = db.audit)
    (hrevision : db'.policyRevision = db.policyRevision) : EnteredIn none db db' :=
  ⟨haudit, congrArg (·.getD 0) hrevision⟩

theorem SameLedger.entered {db db' : Db} (hledger : SameLedger db db') : EnteredIn none db db' :=
  .of_same hledger.audit hledger.policyRevision

theorem commit_auditedDeletion_entered {row : PrivilegedActionAudit} {doomed : List SessionId} {db db' : Db}
    (hcommit : commit [.appendAudit row, .deleteSessions doomed] db = .ok db') :
    EnteredIn (some ⟨row, false⟩) db db' := by
  have hlast : (db.appendAudit row).deleteSessions doomed = db' := Except.ok.inj hcommit
  subst hlast
  exact ⟨rfl, rfl⟩

theorem commit_deletionWrites_entered {r : DeleteRequest} {terminal revision : Nat} {doomed : List SessionId}
    {now : Int} {db db' : Db} (hrevision : db.policyRevision.getD 0 = revision)
    (hcommit : commit (deletionWrites r.actor r.userId terminal doomed revision now) db = .ok db') :
    EnteredIn (some ⟨r.actor.audit .delete .user r.userId r.userId, true⟩) db db' := by
  obtain ⟨tombstones, hraise⟩ :=
    (db.appendAudit (r.actor.audit .delete .user r.userId r.userId)).raiseTombstone_eq r.userId terminal now
  simp only [deletionWrites, commit, Write.apply, Except.bind, Except.ok.injEq, hraise] at hcommit
  subst hcommit
  refine ⟨rfl, ?_⟩
  show revision + 1 = _
  rw [hrevision]
  rfl

theorem commit_updateWrites_asked {r : UpdateRequest} {copy : User} {plan : UpdatePlan}
    {targets : List RevocationTarget} {doomed : List SessionId} {revision : Option Nat} {now : Int}
    {db db' : Db} (hplan : plan.PlannedFrom copy r.userIn) (hchanged : plan.authorizationChanged = true)
    (hcommit : commit (updateWrites r.actor r.userId copy plan targets doomed revision now) db = .ok db') :
    (resolveUpdateIntent copy r.userIn).affectsSet = true := by
  have hnull : r.userIn.role ≠ some none := by
    intro hnull
    rw [updateWrites] at hcommit
    obtain ⟨db₁, hupdate, -⟩ := commit_cons_eq_ok.1 hcommit
    exact hplan.null_refused hnull hupdate
  exact hplan.asked hnull (hplan.changed.1 hchanged)

theorem commit_updateWrites_entered {r : UpdateRequest} {copy : User} {plan : UpdatePlan}
    {targets : List RevocationTarget} {doomed : List SessionId} {revision : Option Nat} {now : Int}
    {db db' : Db} (hheld : ∀ current, revision = some current → db.policyRevision.getD 0 = current)
    (hlocked : plan.authorizationChanged = true → revision.isSome = true)
    (hcommit : commit (updateWrites r.actor r.userId copy plan targets doomed revision now) db = .ok db') :
    EnteredIn (some ⟨r.actor.audit .edit .user r.userId r.userId, plan.authorizationChanged⟩) db db' := by
  have hrecorded := commit_updateWrites_recorded hcommit
  refine ⟨hrecorded.audit, ?_⟩
  rw [hrecorded.policyRevision]
  cases hchanged : plan.authorizationChanged with
  | false =>
      cases revision with
      | none => rfl
      | some current => exact (hheld current rfl).symm
  | true =>
      obtain ⟨current, rfl⟩ := Option.isSome_iff_exists.1 (hlocked hchanged)
      rw [hheld current rfl]
      rfl

/-- A transaction that is about to commit either commits now or changes nothing. -/
theorem step_entering {writes : List Write} {entry : LedgerEntry}
    (hentering : l.entering w.now = some (writes, entry)) (hstep : step settings p w l a = some (w', l')) :
    (entered w l a = some entry ∧ commit writes w.db = .ok w'.db) ∨
      (entered w l a = none ∧ w'.db = w.db) := by
  have hproceed : entered w l .proceed = if (commit writes w.db).isOk then some entry else none := by
    rw [entered, hentering]
    rfl
  have hends {events : Db → List Event} {after : Local}
      (hcommitting : committing w p writes events after = some (w', l')) :
      (entered w l .proceed = some entry ∧ commit writes w.db = .ok w'.db) ∨
        (entered w l .proceed = none ∧ w'.db = w.db) := by
    rw [committing, World.transact] at hcommitting
    cases hcommit : commit writes w.db with
    | ok db' =>
        rw [hcommit] at hcommitting
        obtain ⟨rfl, -⟩ := moving_eq_some hcommitting
        left
        rw [hproceed, hcommit]
        exact ⟨rfl, rfl⟩
    | error e =>
        rw [hcommit] at hcommitting
        obtain ⟨rfl, -⟩ := failed_eq_some hcommitting
        right
        rw [hproceed, hcommit]
        exact ⟨rfl, rfl⟩
  by_cases habort : a = .abort
  · subst habort
    obtain ⟨rfl, -⟩ := step_abort hstep
    exact .inr ⟨rfl, rfl⟩
  by_cases hnext : a = .proceed
  · subst hnext
    cases l with
    | update r phase =>
        cases phase with
        | commit copy plan revision targets doomed =>
            obtain ⟨rfl, -⟩ := Prod.mk.inj (Option.some.inj hentering)
            simp only [step, UpdateRequest.step] at hstep
            split at hstep
            · exact hends hstep
            · cases hstep
        | _ => cases hentering
    | delete r phase =>
        cases phase with
        | commit copy terminal revision doomed =>
            obtain ⟨rfl, -⟩ := Prod.mk.inj (Option.some.inj hentering)
            simp only [step, DeleteRequest.step] at hstep
            exact hends hstep
        | _ => cases hentering
    | revokeSession r phase =>
        cases phase with
        | commit row doomed =>
            obtain ⟨rfl, -⟩ := Prod.mk.inj (Option.some.inj hentering)
            simp only [step, RevokeSessionRequest.step] at hstep
            exact hends hstep
        | _ => cases hentering
    | revokeUser r phase =>
        cases phase with
        | commit targets doomed =>
            obtain ⟨actor, hactor, heq⟩ := Option.map_eq_some_iff.1 hentering
            obtain ⟨rfl, -⟩ := Prod.mk.inj heq
            simp only [step, RevokeUserRequest.step, hactor] at hstep
            exact hends hstep
        | _ => cases hentering
    | _ => cases hentering
  · have hnone : step settings p w l a = none := by
      cases l with
      | update | delete | revokeSession | revokeUser => cases a <;> first | rfl | contradiction
      | _ => cases hentering
    cases hnone.symm.trans hstep

theorem Step.ledger_same (hstep : Step settings p w l a w' l') (hentering : l.entering w.now = none) :
    EnteredIn none w.db w'.db := by
  have hwrites {writes : List Write} {db' : Db} (hcommit : commit writes w.db = .ok db')
      (hno : ∀ write ∈ writes, write.changesLedger = false) : EnteredIn none w.db db' :=
    (commit_ledger hcommit hno).entered
  have hone {write : Write} {db' : Db} (hcommit : commit [write] w.db = .ok db')
      (hno : write.changesLedger = false) : EnteredIn none w.db db' := by
    refine hwrites hcommit fun other hmem => ?_
    rw [List.mem_singleton.1 hmem]
    exact hno
  have hkept {db' : Db} (heq : db' = w.db) : EnteredIn none w.db db' := heq ▸ .of_same rfl rfl
  cases hstep with
  | begin | tick | setRedis | postCommit | commandsDone | abort | error | commandError => exact hkept rfl
  | reap hcommit => exact hone hcommit rfl
  | command hsend => exact hkept (World.send_frame hsend).1
  | update hstep =>
      cases hstep with
      | commit => cases hentering
      | _ => exact hkept rfl
  | delete hstep =>
      cases hstep with
      | commit => cases hentering
      | _ => exact hkept rfl
  | repair hstep =>
      cases hstep with
      | commit hcommit =>
          refine hwrites hcommit fun write hmem => ?_
          rw [repairWrites, List.mem_cons, List.mem_cons] at hmem
          rcases hmem with rfl | rfl | hmem
          · rfl
          · rfl
          · obtain ⟨row, -, rfl⟩ := List.mem_map.1 hmem
            rfl
      | _ => exact hkept rfl
  | login hstep =>
      cases hstep with
      | create _ hcommit => exact hone hcommit rfl
      | @save _ _ _ _ existing _ _ hcommit =>
          refine hone hcommit ?_
          cases existing with
          | none => rfl
          | some found => rfl
      | purgeCommit => exact .of_same rfl rfl
      | register hsend => exact hkept (World.send_frame hsend).1
      | _ => exact hkept rfl
  | refresh hstep =>
      cases hstep with
      | @save _ _ _ existing _ _ hcommit =>
          refine hone hcommit ?_
          cases existing with
          | none => rfl
          | some found => rfl
      | rotate _ hsend => exact hkept (World.send_frame hsend).1
      | _ => exact hkept rfl
  | logout hstep =>
      cases hstep with
      | accessCommit | sessionCommit => exact .of_same rfl rfl
      | blacklist hsend | refreshRevoke _ hsend => exact hkept (World.send_frame hsend).1
      | _ => exact hkept rfl
  | revokeSession hstep =>
      cases hstep with
      | commit => cases hentering
      | _ => exact hkept rfl
  | @revokeUser r _ _ _ _ hstep =>
      cases hstep with
      | commit hcommit =>
          have hactor : r.actor = none := Option.map_eq_none_iff.1 hentering
          rw [hactor] at hcommit
          exact hone hcommit rfl
      | _ => exact hkept rfl
  | deleteMe hstep =>
      cases hstep with
      | commit => exact .of_same rfl rfl
      | _ => exact hkept rfl
  | legacySweep hstep =>
      cases hstep with
      | purge => exact hkept rfl
      | commit => exact .of_same rfl rfl
  | drain hstep =>
      cases hstep with
      | claim _ hcommit =>
          refine hwrites hcommit fun write hmem => ?_
          obtain ⟨id, row, -, -, rfl⟩ := leaseWrites_mem hmem
          rfl
      | finish hcommit => exact hone hcommit rfl
      | blacklist _ hsend | revoke hsend => exact hkept (World.send_frame hsend).1
      | _ => exact hkept rfl

/-- What is known of a request that may enter something in the ledger. -/
structure LedgerTracked (settings : Settings) (p : Pid) (w : World) (l : Local) : Prop where
  planned : Planned settings l
  intent : HoldsForIntent p w l
  revision : HoldsRevision p w l

theorem LedgerTracked.idle : LedgerTracked settings p w .idle := ⟨.of_none rfl, trivial, nofun⟩

/-- What a step does to the ledger; it advances the revision only under the lock on the policy row. -/
theorem LedgerTracked.step (htracked : LedgerTracked settings p w l)
    (hstep : step settings p w l a = some (w', l')) :
    EnteredIn (entered w l a) w.db w'.db ∧
      ∀ entry, entered w l a = some entry → entry.advances = true → w.locks.policy = some p := by
  cases hentering : l.entering w.now with
  | none =>
      have hnone : entered w l a = none := by
        cases a with
        | proceed => rw [entered, hentering, Option.bind_none]
        | _ => rfl
      rw [hnone]
      exact ⟨(step_sound hstep).ledger_same hentering, nofun⟩
  | some transaction =>
      obtain ⟨writes, entry⟩ := transaction
      obtain ⟨hentered, hcommit⟩ | ⟨hnone, hdb⟩ := step_entering hentering hstep
      · rw [hentered]
        have honly {P : Prop} (himp : entry.advances = true → P) :
            ∀ other, some entry = some other → other.advances = true → P := by
          rintro other heq
          rwa [← Option.some.inj heq]
        obtain ⟨hplanned, hintent, hholds⟩ := htracked
        cases l with
        | update r phase =>
            cases phase with
            | commit copy plan revision targets doomed =>
                obtain ⟨rfl, rfl⟩ := Prod.mk.inj (Option.some.inj hentering)
                have hplan : plan.PlannedFrom copy r.userIn :=
                  planUpdate_eq_ok (hplanned copy r.userIn plan rfl)
                have hlocked (hchanged : plan.authorizationChanged = true) :
                    revision.isSome = true ∧ w.locks.policy = some p :=
                  hintent (commit_updateWrites_asked hplan hchanged hcommit)
                refine ⟨commit_updateWrites_entered ?_ (fun hchanged => (hlocked hchanged).1) hcommit,
                  honly fun hchanged => (hlocked hchanged).2⟩
                intro current heq
                exact (hholds current heq).2
            | _ => cases hentering
        | delete r phase =>
            cases phase with
            | commit copy terminal revision doomed =>
                obtain ⟨rfl, rfl⟩ := Prod.mk.inj (Option.some.inj hentering)
                obtain ⟨hlock, hrevision⟩ := hholds revision rfl
                exact ⟨commit_deletionWrites_entered hrevision hcommit, honly fun _ => hlock⟩
            | _ => cases hentering
        | revokeSession r phase =>
            cases phase with
            | commit row doomed =>
                obtain ⟨rfl, rfl⟩ := Prod.mk.inj (Option.some.inj hentering)
                exact ⟨commit_auditedDeletion_entered hcommit, honly nofun⟩
            | _ => cases hentering
        | revokeUser r phase =>
            cases phase with
            | commit targets doomed =>
                obtain ⟨actor, -, heq⟩ := Option.map_eq_some_iff.1 hentering
                obtain ⟨rfl, rfl⟩ := Prod.mk.inj heq
                exact ⟨commit_auditedDeletion_entered hcommit, honly nofun⟩
            | _ => cases hentering
        | _ => cases hentering
      · rw [hnone, hdb]
        exact ⟨.of_same rfl rfl, nofun⟩

theorem Step.holdsRevision (hstep : Step settings p w l a w' l') (hholds : HoldsRevision p w l) :
    HoldsRevision p w' l' := by
  cases l' with
  | update r phase' =>
      obtain ⟨-, -, rfl⟩ | ⟨phase, rfl, hupdate⟩ := hstep.of_update
      · exact nofun
      · cases hupdate with
        | lockPolicy =>
            intro revision heq
            exact ⟨rfl, Option.some.inj heq⟩
        | load | checkEmail | checkEmailOnly => exact nofun
        | _ => exact hholds
  | delete r phase' =>
      obtain ⟨-, -, rfl⟩ | ⟨phase, rfl, hdelete⟩ := hstep.of_delete
      · exact nofun
      · cases hdelete with
        | lockPolicy =>
            intro revision heq
            exact ⟨rfl, Option.some.inj heq⟩
        | load => exact nofun
        | _ => exact hholds
  | _ => exact nofun

/-- While a process holds the lock on the policy row, no other advances the revision. -/
theorem LedgerTracked.othersHoldRevision (htracked : LedgerTracked settings p w l)
    (hstep : FaAuthM8.step settings p w l a = some (w', l')) (hq : q ≠ p) {m : Local}
    (hholds : HoldsRevision q w m) : HoldsRevision q w' m := by
  intro revision hread
  obtain ⟨hlock, hrevision⟩ := hholds revision hread
  obtain ⟨hentered, hadvances⟩ := htracked.step hstep
  refine ⟨((step_sound hstep).sameLocks hq).policy.2 hlock, ?_⟩
  rw [hentered.policyRevision, hrevision]
  cases hentry : entered w l a with
  | none => rfl
  | some entry =>
      cases hadvance : entry.advances with
      | false => simp [hadvance]
      | true => exact absurd (Option.some.inj (hlock.symm.trans (hadvances entry hentry hadvance))) hq

theorem ledger_tracked_next {c c' : Interleaving.Config World Local} {move : Pid × Action}
    (hinv : Interleaving.Asserted (fun _ => True) (LedgerTracked settings) c)
    (hnext : (issuer settings).next c move = some c') :
    Interleaving.Asserted (fun _ => True) (LedgerTracked settings) c' := by
  have hstep : FaAuthM8.step settings move.1 c.shared (c.locals move.1) move.2 =
      some (c'.shared, c'.locals move.1) := Interleaving.System.step_of_next hnext
  have hrule := step_sound hstep
  have hmover := hinv.locals move.1
  refine .moved hnext trivial ?_ fun q hq => ?_
  · exact ⟨hrule.planned hmover.planned, hrule.holdsForIntent hmover.intent, hrule.holdsRevision hmover.revision⟩
  · obtain ⟨hplanned, hintent, hrevision⟩ := hinv.locals q
    exact ⟨hplanned, hrule.othersHoldForIntent hq hintent, hmover.othersHoldRevision hstep hq hrevision⟩

theorem LedgerTracked.run {c c' : Interleaving.Config World Local} {schedule : List (Pid × Action)}
    (hinv : Interleaving.Asserted (fun _ => True) (LedgerTracked settings) c)
    (hrun : (issuer settings).run c schedule = some c') :
    c'.shared.db.audit = ((ledgerEntries settings c schedule).map (·.row)).reverse ++ c.shared.db.audit ∧
      c'.shared.db.policyRevision.getD 0 =
        c.shared.db.policyRevision.getD 0 + (ledgerEntries settings c schedule).countP (·.advances) := by
  induction schedule generalizing c with
  | nil =>
      obtain rfl := Option.some.inj hrun
      exact ⟨rfl, rfl⟩
  | cons move rest ih =>
      obtain ⟨c₁, hnext, hrest⟩ := Interleaving.System.run_cons.1 hrun
      obtain ⟨haudit, hrevision⟩ := ih (ledger_tracked_next hinv hnext) hrest
      obtain ⟨⟨hrow, hadvanced⟩, -⟩ :=
        (hinv.locals move.1).step (Interleaving.System.step_of_next hnext)
      rw [ledgerEntries, hnext]
      dsimp only
      rw [haudit, hrevision, hrow, hadvanced, List.countP_append]
      constructor
      · cases entered c.shared (c.locals move.1) move.2 with
        | none => rfl
        | some entry => simp
      · omega

/-- In every run the audit trail is extended by the rows of the accepted transactions, in the order of their
commits, and the policy revision by the number of those that advance it. -/
theorem ledger_accounts (settings : Settings) {c c' : Interleaving.Config World Local}
    {schedule : List (Pid × Action)} (hidle : ∀ p, c.locals p = .idle)
    (hrun : (issuer settings).run c schedule = some c') :
    c'.shared.db.audit = ((ledgerEntries settings c schedule).map (·.row)).reverse ++ c.shared.db.audit ∧
      c'.shared.db.policyRevision.getD 0 =
        c.shared.db.policyRevision.getD 0 + (ledgerEntries settings c schedule).countP (·.advances) := by
  have hstart : Interleaving.Asserted (fun _ => True) (LedgerTracked settings) c :=
    ⟨trivial, fun p => by rw [hidle p]; exact .idle⟩
  exact LedgerTracked.run hstart hrun

end

/-- A promotion and a deletion of the reader that load it at the same time, and the revocation of one of its
sessions between their commits. -/
def threeAdministrators : List (Pid × Action) :=
  [(0, .begin (.update ⟨⟨9, .superadmin⟩, 1, { role := some (some .writer) }⟩ .load)),
    (1, .begin (.delete ⟨⟨9, .superadmin⟩, 1⟩ .load)), (0, .proceed), (1, .proceed),
    (2, .begin (.revokeSession ⟨⟨8, .superadmin⟩, 1, false⟩ .load))] ++
  List.replicate 3 (2, .proceed) ++ List.replicate 7 (0, .proceed) ++ List.replicate 5 (1, .proceed)

theorem ledger_accounts_threeAdministrators :
    ∃ c', (issuer {}).run twoSessions threeAdministrators = some c' ∧
      ledgerEntries {} twoSessions threeAdministrators =
        [⟨⟨8, .superadmin, .delete, .clientSession, 1, some 1⟩, false⟩,
          ⟨⟨9, .superadmin, .edit, .user, 1, some 1⟩, true⟩,
          ⟨⟨9, .superadmin, .delete, .user, 1, some 1⟩, true⟩] ∧
      c'.shared.db.audit = ((ledgerEntries {} twoSessions threeAdministrators).map (·.row)).reverse ++
        twoSessions.shared.db.audit ∧
      c'.shared.db.policyRevision.getD 0 = twoSessions.shared.db.policyRevision.getD 0 +
        (ledgerEntries {} twoSessions threeAdministrators).countP (·.advances) := by
  have hruns : ((issuer {}).run twoSessions threeAdministrators).isSome = true := by
    decide +kernel
  obtain ⟨c', hrun⟩ := Option.isSome_iff_exists.1 hruns
  exact ⟨c', hrun, by decide +kernel, ledger_accounts {} (fun _ => rfl) hrun⟩

end FaAuthM8

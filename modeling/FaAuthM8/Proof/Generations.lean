import FaAuthM8.Proof.Issuing

/-!
# Generations never repeat

The new generation of an admin update is the loaded one plus one, and the copy may have been loaded before an
earlier transition committed. As long as every transition that commits computes with the committed
generation, the counter of a user only grows and everything that ever recorded a generation recorded one at
or below it. A transition that computes with an older generation repeats one, unless the unique constraint
of the outbox still remembers the effects of the earlier transition.
-/

namespace FaAuthM8

/-- An outbox row names the generation of a user: in its key, or in the identifier of its event. -/
inductive RevocationOutbox.Records (row : RevocationOutbox) (uid : UserId) (generation : Nat) : Prop
  | key (huser : row.userId = uid) (hgeneration : row.authGeneration = generation)
  | event {event : SessionRevokedEvent} {digest : TargetDigest} (heffect : row.effect = .publish event)
      (hid : event.eventId = some (uid, generation, digest))

/-- Something on record names the generation of a user. -/
inductive Recorded (w : World) (uid : UserId) (generation : Nat) : Prop
  | transition (hmem : .transition uid generation ∈ w.log)
  | outbox {id : OutboxId} {row : RevocationOutbox} (hrow : w.db.outbox.lookup id = some row)
      (hrecords : row.Records uid generation)
  | emitted {event : SessionRevokedEvent} {digest : TargetDigest} (hmem : .emitted event ∈ w.log)
      (hid : event.eventId = some (uid, generation, digest))
  | session {id : SessionId} {row : ClientSession} (hrow : w.db.sessions.lookup id = some row)
      (huser : row.userId = uid) (hstamp : row.authGeneration = some generation)
  | stamped {row : ClientSession} (hmem : .stamped row ∈ w.log) (huser : row.userId = uid)
      (hstamp : row.authGeneration = some generation)
  | signed {q : Pid} {token : AccessToken} (hmem : .signed q token generation ∈ w.log)
      (huser : token.sub = uid)

def Reached (w : World) (uid : UserId) (generation : Nat) : Prop :=
  uid < w.db.nextUserId ∧ ∀ user, w.db.users.lookup uid = some user → generation ≤ user.authGeneration

/-- The step from `w` to `w'` commits an authorization transition that was computed from a generation other
than the committed one. -/
inductive StaleTransition (w w' : World) : Local → Prop
  | update {r : UpdateRequest} {copy current : User} {plan : UpdatePlan} {revision : Option Nat}
      {targets : List RevocationTarget} {doomed : List SessionId}
      (hchanged : plan.authorizationChanged = true)
      (hcurrent : w.db.users.lookup r.userId = some current)
      (hstale : copy.authGeneration ≠ current.authGeneration)
      (hcommit : commit (updateWrites r.actor r.userId copy plan targets doomed revision w.now) w.db
        = .ok w'.db) :
      StaleTransition w w' (.update r (.commit copy plan revision targets doomed))

/-- A loaded copy is the committed row, or an older one. -/
structure CopyReached (w : World) (uid : UserId) (copy : User) : Prop where
  reached : Reached w uid copy.authGeneration
  same : ∀ user, w.db.users.lookup uid = some user → copy.authGeneration = user.authGeneration →
    copy.role = user.role ∧ copy.isActive = user.isActive

/-- Every generation on record has been reached. -/
def AllReached (w : World) : Prop :=
  ∀ uid generation, Recorded w uid generation → Reached w uid generation

/-- Every generation a request knows of has been reached. -/
structure KnowsReached (w : World) (l : Local) : Prop where
  copies : ∀ uid copy, l.copy = some (uid, copy) → CopyReached w uid copy
  outboxCopies : ∀ row, l.outboxCopy = some row → ∀ uid generation, row.Records uid generation →
    Reached w uid generation

/-- A committed transition to a generation that nothing has recorded before, and that no stored or ever
stamped session carries. -/
structure FreshTransition (w w' : World) (uid : UserId) (generation : Nat) : Prop where
  increases : ∃ before after, w.db.users.lookup uid = some before ∧
    w'.db.users.lookup uid = some after ∧ before.authGeneration < after.authGeneration ∧
    after.authGeneration = generation
  unrepeated : .transition uid generation ∉ w.log
  publishes : ∃ id, w'.db.outbox.lookup id = some (publishRow uid generation w.now)
  notEnqueued : ∀ id row event digest, w.db.outbox.lookup id = some row →
    row.effect = .publish event → event.eventId ≠ some (uid, generation, digest)
  notEmitted : ∀ event digest, .emitted event ∈ w.log → event.eventId ≠ some (uid, generation, digest)
  stale : ∀ id row, w'.db.sessions.lookup id = some row → row.userId = uid →
    isSessionGenerationStale row.authGeneration generation = true
  stampedStale : ∀ row, .stamped row ∈ w.log → row.userId = uid →
    isSessionGenerationStale row.authGeneration generation = true

section

variable {settings : Settings} {p q : Pid} {w w' : World} {l l' : Local} {a : Action}

theorem Step.nextUserId_le (hstep : Step settings p w l a w' l') :
    w.db.nextUserId ≤ w'.db.nextUserId := by
  obtain ⟨writes, hcommit⟩ := hstep.commits
  exact commit_nextUserId hcommit

theorem Step.user_was (hfresh : w.db.IdsFresh) (hstep : Step settings p w l a w' l') {uid : UserId}
    {user : User} (hdrawn : uid < w.db.nextUserId) (huser : w'.db.users.lookup uid = some user) :
    ∃ before, w.db.users.lookup uid = some before := by
  have hinsert {key : UserId} {row : User} {users : Table UserId User}
      (hkey : key = uid → ∃ before, users.lookup key = some before)
      (hrow : (users.insert key row).lookup uid = some user) :
      ∃ before, users.lookup uid = some before := by
    rw [Table.lookup_insert_eq] at hrow
    split at hrow
    · next heq => exact heq ▸ hkey heq.symm
    · exact ⟨user, hrow⟩
  have herase {key : UserId} {users : Table UserId User}
      (hrow : (users.erase key).lookup uid = some user) : ∃ before, users.lookup uid = some before := by
    rw [Table.lookup_erase_eq] at hrow
    split at hrow
    · cases hrow
    · exact ⟨user, hrow⟩
  cases hstep.usersChange hfresh with
  | same husers => exact ⟨user, husers ▸ huser⟩
  | created _ husers => exact hinsert (fun heq => absurd heq.symm (Nat.ne_of_lt hdrawn)) (husers ▸ huser)
  | updated _ _ _ hcurrent _ husers => exact hinsert (fun _ => ⟨_, hcurrent⟩) (husers ▸ huser)
  | repaired _ _ hcurrent husers => exact hinsert (fun _ => ⟨_, hcurrent⟩) (husers ▸ huser)
  | deleted _ _ husers => exact herase (husers ▸ huser)
  | selfDeleted _ _ _ husers => exact herase (husers ▸ huser)

/-- What a step may do to one user: nothing to its generation, its role and its activation, or one committed
transition to the next generation. -/
theorem Step.user_change (hfresh : w.db.IdsFresh) (hplanned : Planned settings l)
    (hrepairs : RepairsCurrent w l) (hstep : Step settings p w l a w' l')
    (hcurrent : ¬ StaleTransition w w' l) {uid : UserId} {before after : User}
    (hbefore : w.db.users.lookup uid = some before) (hafter : w'.db.users.lookup uid = some after) :
    (after.authGeneration = before.authGeneration ∧ after.role = before.role ∧
      after.isActive = before.isActive) ∨
    (after.authGeneration = before.authGeneration + 1 ∧
      ∃ targets, CommitsTransition w w' uid after.authGeneration targets l) := by
  have hsame (heq : w'.db.users.lookup uid = w.db.users.lookup uid) :
      after.authGeneration = before.authGeneration ∧ after.role = before.role ∧
        after.isActive = before.isActive := by
    rw [hafter, hbefore, Option.some.injEq] at heq
    exact heq ▸ ⟨rfl, rfl, rfl⟩
  cases hstep.usersChange hfresh with
  | same husers => exact .inl (hsame (by rw [husers]))
  | created _ husers =>
      left
      apply hsame
      rw [husers, Table.lookup_insert_eq, if_neg (Nat.ne_of_lt (hfresh.users uid before hbefore))]
  | @updated r copy plan revision targets doomed stored saved hlocal hcommit _ hstored hsave husers =>
      subst hlocal
      by_cases huser : uid = r.userId
      · subst huser
        rw [husers, Table.lookup_insert_eq, if_pos rfl, Option.some.injEq] at hafter
        rw [hstored, Option.some.injEq] at hbefore
        subst hafter hbefore
        obtain ⟨email, role, -, hrole, hsavedRole, -, hsavedActive, hsavedGeneration, -⟩ :=
          UserDraft.saveOver_eq_ok hsave
        have hplan := planUpdate_eq_ok (hplanned copy r.userIn plan rfl)
        cases hchanged : plan.authorizationChanged with
        | true =>
            right
            have hgeneration := (hplan.advanced hchanged).2
            have hequal : copy.authGeneration = stored.authGeneration := by
              by_contra hstale
              exact hcurrent (.update hchanged hstored hstale hcommit)
            have hne : plan.draft.authGeneration ≠ copy.authGeneration := by omega
            rw [Column.writeBack_of_ne hne] at hsavedGeneration
            refine ⟨by omega, targets, .update rfl hsavedGeneration.symm hchanged hcommit⟩
        | false =>
            left
            have hunchanged := mt hplan.changed.2 (by rw [hchanged]; exact Bool.false_ne_true)
            push Not at hunchanged
            rw [hrole, Option.some.injEq] at hunchanged
            rw [hunchanged.1, Column.writeBack_same] at hsavedRole
            rw [hunchanged.2, Column.writeBack_same] at hsavedActive
            rw [hplan.kept hchanged, Column.writeBack_same] at hsavedGeneration
            exact ⟨hsavedGeneration, hsavedRole, hsavedActive⟩
      · left
        apply hsame
        rw [husers, Table.lookup_insert_eq, if_neg huser]
  | @repaired r generation targets doomed stored hlocal hcommit hstored husers =>
      subst hlocal
      by_cases huser : uid = r.userId
      · subst huser
        obtain ⟨user, huser, -, hgeneration⟩ := hrepairs r.userId generation rfl
        rw [husers, Table.lookup_insert_eq, if_pos rfl, Option.some.injEq] at hafter
        rw [huser, Option.some.injEq] at hbefore
        subst hafter hbefore
        exact .inr ⟨hgeneration, targets, .repair rfl hcommit⟩
      · left
        apply hsame
        rw [husers, Table.lookup_insert_eq, if_neg huser]
  | @deleted r _ _ _ _ _ _ husers =>
      left
      apply hsame
      rw [husers, Table.lookup_erase_eq] at hafter ⊢
      split at hafter
      · cases hafter
      · next hne => rw [if_neg hne]
  | @selfDeleted r _ _ _ husers =>
      left
      apply hsame
      rw [husers, Table.lookup_erase_eq] at hafter ⊢
      split at hafter
      · cases hafter
      · next hne => rw [if_neg hne]

theorem CommitsTransition.not_isIssue {uid : UserId} {generation : Nat}
    {targets : List RevocationTarget} (hcommits : CommitsTransition w w' uid generation targets l) :
    l.isIssue = false := by
  cases hcommits <;> rfl

structure TransitionCommitted (w w' : World) (uid : UserId) (generation : Nat)
    (targets : List RevocationTarget) (before after : User) : Prop where
  loaded : w.db.users.lookup uid = some before
  stored : w'.db.users.lookup uid = some after
  advanced : after.authGeneration = generation
  enqueued : Enqueued (enqueueRoleChangeEffects uid generation targets w.now) w.db w'.db

theorem UpdatePlan.PlannedFrom.draft_ne {plan : UpdatePlan} {copy : User} {userIn : UserUpdate}
    (hplan : plan.PlannedFrom copy userIn) (hchanged : plan.authorizationChanged = true) :
    plan.draft ≠ copy.draft := by
  intro hsame
  have hgeneration := (hplan.advanced hchanged).2
  have hkept : plan.draft.authGeneration = copy.authGeneration := by
    rw [hsame]
    rfl
  omega

theorem CommitsTransition.committed (hfresh : w.db.IdsFresh) (hplanned : Planned settings l)
    (hrepairs : RepairsCurrent w l) {uid : UserId} {generation : Nat} {targets : List RevocationTarget}
    (hcommits : CommitsTransition w w' uid generation targets l) (hcurrent : ¬ StaleTransition w w' l) :
    ∃ before after, TransitionCommitted w w' uid generation targets before after ∧
      generation = before.authGeneration + 1 := by
  cases hcommits with
  | @update r copy plan revision doomed huser hgeneration hchanged hcommit =>
      subst huser hgeneration
      have hplan := planUpdate_eq_ok (hplanned copy r.userIn plan rfl)
      have hcommitted := commit_updateWrites hfresh hcommit
      obtain ⟨db₁, hupdate, husers⟩ := hcommitted.users
      obtain ⟨hsame, -⟩ | ⟨before, after, hbefore, hsave, hput⟩ := Db.updateUser_eq_ok hupdate
      · exact absurd hsame (hplan.draft_ne hchanged)
      · obtain ⟨-, -, rfl⟩ := Db.putUser_eq_ok.1 hput
        obtain ⟨-, -, -, -, -, -, -, hafter, -⟩ := UserDraft.saveOver_eq_ok hsave
        have hadvanced := (hplan.advanced hchanged).2
        have hne : plan.draft.authGeneration ≠ copy.authGeneration := by omega
        rw [Column.writeBack_of_ne hne] at hafter
        have hequal : copy.authGeneration = before.authGeneration := by
          by_contra hstale
          exact hcurrent (.update hchanged hbefore hstale hcommit)
        refine ⟨before, after, ⟨hbefore, ?_, hafter, (hcommitted.revoked hchanged).outbox⟩, ?_⟩
        · rw [husers, Table.lookup_insert_eq, if_pos rfl]
        · rw [hadvanced, hequal]
  | @repair r doomed huser hcommit =>
      subst huser
      obtain ⟨before, hbefore, -, hgeneration⟩ := hrepairs r.userId generation rfl
      have hcommitted := commit_repairWrites hfresh hcommit
      obtain ⟨db₁, hset, husers⟩ := hcommitted.users
      obtain ⟨hnone, -⟩ | ⟨current, -, hput⟩ := Db.setRole_eq_ok hset
      · rw [hnone] at hbefore
        cases hbefore
      · obtain ⟨-, -, rfl⟩ := Db.putUser_eq_ok.1 hput
        have hafter : w'.db.users.lookup r.userId = some
            { current with
              role := r.intendedRole
              isSuperuser := deriveIsSuperuser (some r.intendedRole)
              authGeneration := generation } := by
          rw [husers, Table.lookup_insert_eq, if_pos rfl]
        exact ⟨before, _, ⟨hbefore, hafter, rfl, hcommitted.revoked.outbox⟩, hgeneration⟩

theorem records_of_enqueued {uid uid' : UserId} {generation generation' : Nat}
    {targets : List RevocationTarget} {now : Int} {row : RevocationOutbox}
    (hmem : row ∈ enqueueRoleChangeEffects uid generation targets now)
    (hrecords : row.Records uid' generation') : uid' = uid ∧ generation' = generation := by
  rcases mem_enqueueRoleChangeEffects.1 hmem with ⟨target, -, rfl⟩ | rfl
  · cases hrecords with
    | key huser hgeneration => exact ⟨huser.symm, hgeneration.symm⟩
    | event heffect hid => cases heffect
  · cases hrecords with
    | key huser hgeneration => exact ⟨huser.symm, hgeneration.symm⟩
    | event heffect hid =>
        cases heffect
        cases hid
        exact ⟨rfl, rfl⟩

theorem RevocationOutbox.Records.congr {row row' : RevocationOutbox} {uid : UserId} {generation : Nat}
    (hrecords : row'.Records uid generation) (huser : row'.userId = row.userId)
    (hgeneration : row'.authGeneration = row.authGeneration) (heffect : row'.effect = row.effect) :
    row.Records uid generation := by
  cases hrecords with
  | key hkey hkeyGeneration => exact .key (huser ▸ hkey) (hgeneration ▸ hkeyGeneration)
  | event heffect' hid => exact .event (heffect ▸ heffect') hid

/-- A generation on record after a step was on record before, or it is the one of the mover's copy, or of the
outbox row the mover has loaded, or of the transition the step commits. -/
inductive RecordOrigin (w w' : World) (uid : UserId) (generation : Nat) (l : Local) : Prop
  | old (hrecorded : Recorded w uid generation)
  | copy {copy : User} (hcopy : l.copy = some (uid, copy)) (hgeneration : copy.authGeneration = generation)
  | outboxCopy {row : RevocationOutbox} (hcopy : l.outboxCopy = some row)
      (hrecords : row.Records uid generation)
  | transition {targets : List RevocationTarget}
      (hcommits : CommitsTransition w w' uid generation targets l)

theorem Step.session_record_origin (hfresh : w.db.IdsFresh) (hissuing : Issuing settings p w l)
    (hstep : Step settings p w l a w' l') {id : SessionId} {row : ClientSession} {generation : Nat}
    (hrow : w'.db.sessions.lookup id = some row) (hstamp : row.authGeneration = some generation) :
    RecordOrigin w w' row.userId generation l := by
  rcases hstep.row_origin hfresh hrow with hold | hsaves
  · exact .old (.session hold rfl hstamp)
  · cases hsaves with
    | @inserted uid copy pair data hlocal _ _ hnew =>
        subst hnew
        exact .copy hlocal.copy (Option.some.inj hstamp)
    | @restamped uid copy pair data loaded current hlocal _ hcurrent hnew =>
        subst hnew
        have howner := ((hissuing.saves _ _ _ _ _ hlocal).selected id loaded rfl).2.2.2 _ hcurrent
        rcases Column.writeBack_eq_or loaded.authGeneration (some copy.authGeneration)
          current.authGeneration with hnew | hkept
        · have huser : l.copy = some (current.userId, copy) := howner ▸ hlocal.copy
          exact .copy huser (Option.some.inj (hnew.symm.trans hstamp))
        · exact .old (.session hcurrent rfl (hkept.symm.trans hstamp))

theorem Step.outbox_record_origin (hfresh : w.db.IdsFresh) (hstep : Step settings p w l a w' l')
    {id : OutboxId} {row : RevocationOutbox} {uid : UserId} {generation : Nat}
    (hrow : w'.db.outbox.lookup id = some row) (hrecords : row.Records uid generation) :
    RecordOrigin w w' uid generation l := by
  cases hstep.outboxChange hfresh with
  | same houtbox => exact .old (.outbox (houtbox ▸ hrow) hrecords)
  | enqueued hcommits henqueued =>
      rcases henqueued.origin id row hrow with hold | ⟨hmem, -⟩
      · exact .old (.outbox hold hrecords)
      · obtain ⟨rfl, rfl⟩ := records_of_enqueued hmem hrecords
        exact .transition hcommits
  | leased _ hleased =>
      rcases hleased id with hsame | ⟨before, hbefore, -, hlease⟩
      · exact .old (.outbox (hsame ▸ hrow) hrecords)
      · rw [hrow, Option.some.injEq] at hlease
        subst hlease
        exact .old (.outbox hbefore (hrecords.congr rfl rfl rfl))
  | finished _ hcurrent houtbox =>
      rw [houtbox, Table.lookup_insert_eq] at hrow
      split at hrow
      · obtain rfl := Option.some.inj hrow
        exact .old (.outbox hcurrent (hrecords.congr rfl rfl rfl))
      · exact .old (.outbox hrow hrecords)
  | reaped _ _ houtbox => exact .old (.outbox ((houtbox id row).1 hrow).1 hrecords)

theorem Step.record_origin (hfresh : w.db.IdsFresh) (hissuing : Issuing settings p w l)
    (hstep : Step settings p w l a w' l') {uid : UserId} {generation : Nat}
    (hrecorded : Recorded w' uid generation) : RecordOrigin w w' uid generation l := by
  cases hrecorded with
  | transition hmem =>
      rcases hstep.mem_log hmem with hold | hnew
      · exact .old (.transition hold)
      · cases hnew with
        | transition hcommits => exact .transition hcommits
  | outbox hrow hrecords => exact hstep.outbox_record_origin hfresh hrow hrecords
  | emitted hmem hid =>
      rcases hstep.mem_log hmem with hold | hnew
      · exact .old (.emitted hold hid)
      · cases hnew with
        | emitted hlocal heffect =>
            subst hlocal
            exact .outboxCopy rfl (.event heffect hid)
  | session hrow huser hstamp =>
      subst huser
      exact hstep.session_record_origin hfresh hissuing hrow hstamp
  | stamped hmem huser hstamp =>
      rcases hstep.mem_log hmem with hold | hnew
      · exact .old (.stamped hold huser hstamp)
      · cases hnew with
        | stamped _ hfound =>
            subst huser
            exact hstep.session_record_origin hfresh hissuing (sessionByJti_eq_some hfound).1 hstamp
  | signed hmem huser =>
      rcases hstep.mem_log hmem with hold | hnew
      · exact .old (.signed hold huser)
      · cases hnew with
        | signed hsigns hpair =>
            rw [(createAuthTokens_signedFrom hpair).accessSub] at huser
            subst huser
            exact .copy hsigns.copy rfl

private theorem stale_of_reached {uid : UserId} {before : User} {stamp : Option Nat}
    (hbefore : w.db.users.lookup uid = some before)
    (hreached : ∀ generation, stamp = some generation → Reached w uid generation) :
    isSessionGenerationStale stamp (before.authGeneration + 1) = true := by
  rw [← Bool.not_eq_false, isSessionGenerationStale_eq_false]
  intro hstamp
  have hle := (hreached _ hstamp).2 before hbefore
  omega

variable (hgrounded : Grounded w) (htracked : Tracked settings p w l)
  (hstep : Step settings p w l a w' l') (hcurrent : ¬ StaleTransition w w' l)

include hgrounded htracked hstep hcurrent

theorem Step.reached {uid : UserId} {generation : Nat} (hreached : Reached w uid generation) :
    Reached w' uid generation := by
  refine ⟨Nat.lt_of_lt_of_le hreached.1 hstep.nextUserId_le, fun after hafter => ?_⟩
  obtain ⟨before, hbefore⟩ := hstep.user_was hgrounded.fresh hreached.1 hafter
  have hle := hreached.2 before hbefore
  rcases hstep.user_change hgrounded.fresh htracked.planned htracked.repairs hcurrent hbefore hafter
    with ⟨hsame, -⟩ | ⟨hnext, -⟩
  · omega
  · omega

theorem Step.copyReached {uid : UserId} {copy : User} (hcopy : CopyReached w uid copy) :
    CopyReached w' uid copy where
  reached := hstep.reached hgrounded htracked hcurrent hcopy.reached
  same after hafter hgeneration := by
    obtain ⟨before, hbefore⟩ := hstep.user_was hgrounded.fresh hcopy.reached.1 hafter
    have hle := hcopy.reached.2 before hbefore
    rcases hstep.user_change hgrounded.fresh htracked.planned htracked.repairs hcurrent hbefore hafter
      with ⟨hsame, hrole, hactive⟩ | ⟨hnext, -⟩
    · rw [hrole, hactive]
      exact hcopy.same before hbefore (hgeneration.trans hsame)
    · omega

theorem Step.allReached (hall : AllReached w) (hknows : KnowsReached w l) : AllReached w' := by
  intro uid generation hrecorded
  have hkeep {uid : UserId} {generation : Nat} (hreached : Reached w uid generation) :
      Reached w' uid generation :=
    hstep.reached hgrounded htracked hcurrent hreached
  cases hstep.record_origin hgrounded.fresh htracked.issuing hrecorded with
  | old hold => exact hkeep (hall uid generation hold)
  | copy hcopy hgeneration =>
      subst hgeneration
      exact hkeep (hknows.copies uid _ hcopy).reached
  | outboxCopy hcopy hrecords => exact hkeep (hknows.outboxCopies _ hcopy uid generation hrecords)
  | transition hcommits =>
      obtain ⟨before, after, hcommitted, -⟩ :=
        hcommits.committed hgrounded.fresh htracked.planned htracked.repairs hcurrent
      have hdrawn := hgrounded.fresh.users uid before hcommitted.loaded
      refine ⟨Nat.lt_of_lt_of_le hdrawn hstep.nextUserId_le, fun user huser => ?_⟩
      rw [hcommitted.stored, Option.some.injEq] at huser
      rw [← huser, hcommitted.advanced]

theorem Step.knowsReached (hall : AllReached w) (hknows : KnowsReached w l) : KnowsReached w' l' where
  copies uid copy hcopy := by
    rcases hstep.copy hcopy with hold | hloaded
    · exact hstep.copyReached hgrounded htracked hcurrent (hknows.copies uid copy hold)
    · have hdrawn := (hstep.idsFresh hgrounded.fresh).users uid copy hloaded
      refine ⟨⟨hdrawn, fun user huser => ?_⟩, fun user huser _ => ?_⟩
      · obtain rfl : copy = user := Option.some.inj (hloaded.symm.trans huser)
        exact Nat.le_refl _
      · obtain rfl : copy = user := Option.some.inj (hloaded.symm.trans huser)
        exact ⟨rfl, rfl⟩
  outboxCopies row hcopy uid generation hrecords := by
    rcases hstep.outboxCopy hcopy with hold | ⟨id, hstored⟩
    · exact hstep.reached hgrounded htracked hcurrent
        (hknows.outboxCopies row hold uid generation hrecords)
    · exact hstep.allReached hgrounded htracked hcurrent hall hknows uid generation
        (.outbox hstored hrecords)

theorem Step.othersKnowReached {m : Local} (hknows : KnowsReached w m) : KnowsReached w' m where
  copies uid copy hcopy := hstep.copyReached hgrounded htracked hcurrent (hknows.copies uid copy hcopy)
  outboxCopies row hcopy uid generation hrecords :=
    hstep.reached hgrounded htracked hcurrent (hknows.outboxCopies row hcopy uid generation hrecords)

omit hstep in
theorem CommitsTransition.fresh (hall : AllReached w) (hstep : Step settings p w l a w' l')
    {uid : UserId} {generation : Nat} {targets : List RevocationTarget}
    (hcommits : CommitsTransition w w' uid generation targets l) :
    FreshTransition w w' uid generation := by
  obtain ⟨before, after, hcommitted, hgeneration⟩ :=
    hcommits.committed hgrounded.fresh htracked.planned htracked.repairs hcurrent
  have hbefore := hcommitted.loaded
  have hnew : ¬ Recorded w uid generation := by
    intro hrecorded
    have hle := (hall uid generation hrecorded).2 before hbefore
    omega
  have hadvanced := hcommitted.advanced
  subst hgeneration
  refine ⟨⟨before, after, hbefore, hcommitted.stored, by omega, hadvanced⟩,
    fun hmem => hnew (.transition hmem), ?_, ?_, fun event digest hmem hid => hnew (.emitted hmem hid), ?_, ?_⟩
  · exact hcommitted.enqueued.stored _ (mem_enqueueRoleChangeEffects.2 (.inr rfl))
  · exact fun id row event digest hrow heffect hid => hnew (.outbox hrow (.event heffect hid))
  · intro id row hrow huser
    subst huser
    refine stale_of_reached hbefore fun generation hstamp => ?_
    rcases hstep.row_origin hgrounded.fresh hrow with hold | hsaves
    · exact hall _ _ (.session hold rfl hstamp)
    · have hissue := hsaves.isIssue
      rw [hcommits.not_isIssue] at hissue
      cases hissue
  · intro row hmem huser
    subst huser
    exact stale_of_reached hbefore fun generation hstamp => hall _ _ (.stamped hmem rfl hstamp)

end

/-- While the effects of the transition to a generation are in the outbox, the database refuses a second
transition to it. -/
theorem refused_while_enqueued {w : World} {r : UpdateRequest} {copy : User} {plan : UpdatePlan}
    {revision : Option Nat} {targets : List RevocationTarget} {doomed : List SessionId} {id : OutboxId}
    {row : RevocationOutbox} (hfresh : w.db.IdsFresh) (hchanged : plan.authorizationChanged = true)
    (hrow : w.db.outbox.lookup id = some row)
    (hkey : row.uniqueKey = (r.userId, plan.draft.authGeneration, .publish, .userWide)) (db' : Db) :
    commit (updateWrites r.actor r.userId copy plan targets doomed revision w.now) w.db ≠ .ok db' := by
  intro hcommit
  have henqueued := ((commit_updateWrites hfresh hcommit).revoked hchanged).outbox
  have hpublish : publishRow r.userId plan.draft.authGeneration w.now ∈
      enqueueRoleChangeEffects r.userId plan.draft.authGeneration targets w.now :=
    mem_enqueueRoleChangeEffects.2 (.inr rfl)
  exact henqueued.unused _ hpublish id row hrow hkey

/-- What holds in every state of a run whose transitions compute with the committed generation. -/
def GenerationsInv (settings : Settings) : Interleaving.Config World Local → Prop :=
  Interleaving.Asserted (fun w => Grounded w ∧ AllReached w) fun p w l =>
    Tracked settings p w l ∧ KnowsReached w l

theorem GenerationsInv.next {settings : Settings} {c c' : Interleaving.Config World Local}
    {move : Pid × Action} (hinv : GenerationsInv settings c)
    (hnext : (issuer settings).next c move = some c')
    (hcurrent : ¬ StaleTransition c.shared c'.shared (c.locals move.1)) : GenerationsInv settings c' := by
  refine asserted_next hnext fun l' hstep => ?_
  obtain ⟨hgrounded, hall⟩ := hinv.shared
  obtain ⟨htracked, hknows⟩ := hinv.locals move.1
  refine ⟨⟨hstep.grounded hgrounded htracked,
      hstep.allReached hgrounded htracked hcurrent hall hknows⟩,
    ⟨hstep.tracked hgrounded htracked, hstep.knowsReached hgrounded htracked hcurrent hall hknows⟩,
    fun q hq => ?_⟩
  obtain ⟨hother, hknows'⟩ := hinv.locals q
  exact ⟨hstep.othersTracked hgrounded htracked hq hother,
    hstep.othersKnowReached hgrounded htracked hcurrent hknows'⟩

theorem Starts.generationsInv (settings : Settings) {c : Interleaving.Config World Local}
    (hstarts : Starts c) (hall : AllReached c.shared) : GenerationsInv settings c := by
  refine ⟨⟨hstarts.grounded, hall⟩, fun p => ⟨hstarts.tracked p, ?_⟩⟩
  rw [hstarts.idle p]
  refine ⟨fun uid copy hcopy => ?_, fun row hcopy => ?_⟩
  · cases hcopy
  · cases hcopy

/-- In a run of any requests, every committed transition takes its user to a generation never seen before
exactly when none of them was computed from an older generation. -/
theorem generations_never_repeat_iff (settings : Settings) {c : Interleaving.Config World Local}
    (hstarts : Starts c) (hall : AllReached c.shared) (schedule : List (Pid × Action)) :
    (issuer settings).Along (fun c move c' => ¬ StaleTransition c.shared c'.shared (c.locals move.1))
      c schedule ↔
    (issuer settings).Along (fun c move c' => ∀ uid generation targets,
      CommitsTransition c.shared c'.shared uid generation targets (c.locals move.1) →
      FreshTransition c.shared c'.shared uid generation) c schedule := by
  refine Interleaving.System.along_iff ?_ ?_ schedule (hstarts.generationsInv settings hall)
  · intro c move c' hinv hnext
    obtain ⟨l', -, hstep⟩ := next_sound hnext
    obtain ⟨hgrounded, hall⟩ := hinv.shared
    obtain ⟨htracked, hknows⟩ := hinv.locals move.1
    constructor
    · intro hcurrent uid generation targets hcommits
      exact hcommits.fresh hgrounded htracked hcurrent hall hstep
    · intro hfresh hstale
      generalize hlocal : c.locals move.1 = l at hstale hfresh htracked hknows
      cases hstale with
      | @update r copy current plan revision targets doomed hchanged hcurrent hstale hcommit =>
          have hplan := planUpdate_eq_ok (htracked.planned copy r.userIn plan rfl)
          have hadvanced := (hplan.advanced hchanged).2
          obtain ⟨before, after, hbefore, -, hlt, hgeneration⟩ :=
            (hfresh r.userId plan.draft.authGeneration targets
              (.update rfl rfl hchanged hcommit)).increases
          obtain rfl : current = before := Option.some.inj (hcurrent.symm.trans hbefore)
          have hle := (hknows.copies r.userId copy rfl).reached.2 current hcurrent
          omega
  · intro c move c' hinv hnext hcurrent
    exact hinv.next hnext hcurrent

/-- One administrator of generation 1, and no request running. -/
def oneAdministrator : Interleaving.Config World Local where
  shared :=
    { db :=
        { users := AList.insert 1 { email := "a", role := .admin } ∅
          policyRevision := some 0
          nextUserId := 2 } }
  locals _ := .idle

theorem oneAdministrator_starts : Starts oneAdministrator where
  idle _ := rfl
  log := rfl
  fresh := .of_keys (by decide) (by decide) (by decide)
  rows _ _ hrow := by cases hrow

theorem oneAdministrator_allReached : AllReached oneAdministrator.shared := by
  intro uid generation hrecorded
  cases hrecorded with
  | transition hmem | emitted hmem | stamped hmem | signed hmem => cases hmem
  | outbox hrow | session hrow => cases hrow

/-- An update loads the administrator. Another update changes its role, the worker delivers the event, and
the completed row is reaped. Then the first update goes on. -/
def repeatedTransition : List (Pid × Action) :=
  (0, .begin (.update ⟨⟨9, .superadmin⟩, 1, { role := some (some .reader) }⟩ .load)) :: (0, .proceed) ::
    ((1, .begin (.update ⟨⟨9, .superadmin⟩, 1, { role := some (some .writer) }⟩ .load)) ::
      List.replicate 8 (1, .proceed)) ++
    (2, .begin (.drain ⟨0, false⟩ .claim)) :: (2, .claim [0]) ::
      List.replicate 4 (2, .proceed) ++
    (3, .tick 1) :: (3, .reap) :: List.replicate 7 (0, .proceed)

theorem generations_never_repeat_iff_oneAdministrator :
    (issuer {}).Along (fun c move c' => ¬ StaleTransition c.shared c'.shared (c.locals move.1))
      oneAdministrator repeatedTransition ↔
    (issuer {}).Along (fun c move c' => ∀ uid generation targets,
      CommitsTransition c.shared c'.shared uid generation targets (c.locals move.1) →
      FreshTransition c.shared c'.shared uid generation) oneAdministrator repeatedTransition :=
  generations_never_repeat_iff {} oneAdministrator_starts oneAdministrator_allReached repeatedTransition

set_option maxRecDepth 100000 in
/-- Two transitions of one user to generation 2, where completed rows are not retained. -/
theorem generation_repeats :
    ∃ c', (issuer { outboxCompletedRetentionSeconds := 0 }).run oneAdministrator repeatedTransition
        = some c' ∧ c'.shared.log.count (.transition 1 2) = 2 := by
  have hrun : ((issuer { outboxCompletedRetentionSeconds := 0 }).run oneAdministrator
      repeatedTransition).map (fun c' => c'.shared.log.count (.transition 1 2)) = some 2 := by
    decide
  exact Option.map_eq_some_iff.1 hrun

end FaAuthM8

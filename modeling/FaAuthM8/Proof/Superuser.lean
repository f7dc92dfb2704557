import FaAuthM8.Proof.Locking

/-!
# The last superuser

The guard of an admin update or deletion asks two questions: whether the target is an active canonical
superuser, which it asks of the copy it loaded before any lock, and whether there is another one, which it
asks of the committed rows under their locks. The second answer stays true until the request commits. The
first may be out of date. A run keeps a superuser exactly as long as no request whose copy is not one
removes the last one.
-/

namespace FaAuthM8

def HasSuperuser (db : Db) : Prop :=
  ∃ uid user, db.users.lookup uid = some user ∧ isActiveCanonicalSuperuser user = true

def IsLastSuperuser (db : Db) (uid : UserId) : Prop :=
  (∃ user, db.users.lookup uid = some user ∧ isActiveCanonicalSuperuser user = true) ∧
    ∀ other user, db.users.lookup other = some user → isActiveCanonicalSuperuser user = true →
      other = uid

/-- The update writes a column that takes the user out of the superuser set: a lower role, or the activation
flag, where the value sent differs from the loaded one. -/
def withdraws (dbUser : User) (userIn : UserUpdate) : Bool :=
  (userIn.role.join.any fun role => role != .superadmin && (role != dbUser.role || dbUser.isSuperuser)) ||
    (userIn.isActive.join == some false && dbUser.isActive)

/-- The step from `w` to `w'` commits the removal of the last superuser. The guard did not refuse it because
the copy it looked at is not a superuser, or, for the self-service deletion, because there is no guard. -/
inductive UnguardedRemoval (w w' : World) : Local → Prop
  | update {r : UpdateRequest} {copy : User} {plan : UpdatePlan} {revision : Option Nat}
      {targets : List RevocationTarget} {doomed : List SessionId}
      (hlast : IsLastSuperuser w.db r.userId) (hcopy : isActiveCanonicalSuperuser copy = false)
      (hwithdraws : withdraws copy r.userIn = true)
      (hcommit : commit (updateWrites r.actor r.userId copy plan targets doomed revision w.now) w.db
        = .ok w'.db) :
      UnguardedRemoval w w' (.update r (.commit copy plan revision targets doomed))
  | delete {r : DeleteRequest} {copy : User} {terminal revision : Nat} {doomed : List SessionId}
      (hlast : IsLastSuperuser w.db r.userId) (hcopy : isActiveCanonicalSuperuser copy = false)
      (hcommit : commit (deletionWrites r.actor r.userId terminal doomed revision w.now) w.db
        = .ok w'.db) :
      UnguardedRemoval w w' (.delete r (.commit copy terminal revision doomed))
  | deleteMe {r : DeleteMeRequest} (hlast : IsLastSuperuser w.db r.token.sub)
      (hcommit : commit [.deleteUser r.token.sub] w.db = .ok w'.db) :
      UnguardedRemoval w w' (.deleteMe r .commit)

theorem isActiveCanonicalSuperuser_iff {user : User} :
    isActiveCanonicalSuperuser user = true ↔
      user.role = .superadmin ∧ user.isSuperuser = true ∧ user.isActive = true := by
  simp [isActiveCanonicalSuperuser, hasSuperuserPrivileges, and_assoc]

theorem HasSuperuser.last_or_other {db : Db} (hsome : HasSuperuser db) (uid : UserId) :
    IsLastSuperuser db uid ∨ ∃ other user, other ≠ uid ∧ db.users.lookup other = some user ∧
      isActiveCanonicalSuperuser user = true := by
  by_cases hother : ∃ other user, other ≠ uid ∧ db.users.lookup other = some user ∧
      isActiveCanonicalSuperuser user = true
  · exact .inr hother
  · have hall : ∀ other user, db.users.lookup other = some user →
        isActiveCanonicalSuperuser user = true → other = uid := by
      intro other user huser hcanonical
      by_contra hne
      exact hother ⟨other, user, hne, huser, hcanonical⟩
    obtain ⟨uid', user, huser, hcanonical⟩ := hsome
    obtain rfl := hall uid' user huser hcanonical
    exact .inl ⟨⟨user, huser, hcanonical⟩, hall⟩

section columns

private theorem writeBack_bool {loaded new : Bool} :
    Column.writeBack loaded new true = false ↔ loaded = true ∧ new = false := by
  revert loaded new
  decide

/-- Writing a requested role over the row of a superuser takes it out of the set exactly when the role is
lower and differs from what was loaded, or clears a flag that was loaded. -/
private theorem writeBack_role {loaded new : RoleType} {flag : Bool} :
    (Column.writeBack loaded new .superadmin = .superadmin ∧
      Column.writeBack flag (deriveIsSuperuser (some new)) true = true) ↔
      ¬ (new ≠ .superadmin ∧ (new ≠ loaded ∨ flag = true)) := by
  cases loaded <;> cases new <;> cases flag <;> decide

/-- The saved row of a superuser stays one exactly when the update does not withdraw it. -/
theorem UpdatePlan.PlannedFrom.saved_superuser_iff {plan : UpdatePlan} {copy current user : User}
    {userIn : UserUpdate} (hplan : plan.PlannedFrom copy userIn)
    (hsave : plan.draft.saveOver copy current = .ok user)
    (hcurrent : isActiveCanonicalSuperuser current = true) :
    isActiveCanonicalSuperuser user = true ↔ withdraws copy userIn = false := by
  obtain ⟨hrole₀, hflag₀, hactive₀⟩ := isActiveCanonicalSuperuser_iff.1 hcurrent
  obtain ⟨email, role, -, hrole, huserRole, huserFlag, huserActive, -⟩ :=
    UserDraft.saveOver_eq_ok hsave
  have hdraftRole := hplan.role
  have hroles : (user.role = .superadmin ∧ user.isSuperuser = true) ↔
      (userIn.role.join.any fun role =>
        role != .superadmin && (role != copy.role || copy.isSuperuser)) = false := by
    rw [huserRole, huserFlag, hrole₀, hflag₀, hplan.isSuperuser]
    rcases hsent : userIn.role with - | - | sent
    · rw [hsent, hrole] at hdraftRole
      obtain rfl : role = copy.role := Option.some.inj hdraftRole
      simp
    · rw [hsent, hrole] at hdraftRole
      cases hdraftRole
    · rw [hsent, hrole] at hdraftRole
      obtain rfl : role = sent := Option.some.inj hdraftRole
      simp only [Option.map_some, Option.getD_some, writeBack_role]
      simp
  have hactive : user.isActive = true ↔
      (userIn.isActive.join == some false && copy.isActive) = false := by
    rw [huserActive, hactive₀, hplan.isActive, ← Bool.not_eq_false, writeBack_bool]
    rcases hsent : userIn.isActive.join with - | sent
    · simp
    · cases sent <;> simp
  rw [isActiveCanonicalSuperuser_iff, ← and_assoc, hroles, hactive, withdraws, Bool.or_eq_false_iff]

theorem withdraws_leaves {copy : User} {userIn : UserUpdate}
    (hcopy : isActiveCanonicalSuperuser copy = true) (hwithdraws : withdraws copy userIn = true) :
    (resolveUpdateIntent copy userIn).affectsSet = true ∧
      wouldBeActiveCanonicalSuperuser (resolveUpdateIntent copy userIn).intendedRole
        (resolveUpdateIntent copy userIn).intendedActive = false := by
  obtain ⟨hrole, hflag, hactive⟩ := isActiveCanonicalSuperuser_iff.1 hcopy
  rw [withdraws, Bool.or_eq_true] at hwithdraws
  simp only [UpdateIntent.affectsSet, resolveUpdateIntent, wouldBeActiveCanonicalSuperuser,
    hasSuperuserPrivileges]
  rcases hwithdraws with hlower | hdeactivate
  · rw [Option.any_eq_true] at hlower
    obtain ⟨role, hsent, hlower⟩ := hlower
    rw [Bool.and_eq_true, bne_iff_ne] at hlower
    simp [hsent, hlower.1]
  · rw [Bool.and_eq_true, beq_iff_eq] at hdeactivate
    simp [hdeactivate.1]

end columns

/-- Another superuser, whose row `p` has locked. -/
def Guarded (p : Pid) (w : World) (uid : UserId) : Prop :=
  ∃ other user, other ≠ uid ∧ w.locks.user other = some p ∧ w.db.users.lookup other = some user ∧
    isActiveCanonicalSuperuser user = true

/-- What the guard has established for a request that is past it. -/
def GuardPassed (settings : Settings) (p : Pid) (w : World) : Local → Prop
  | .update r (.apply copy _) =>
      isActiveCanonicalSuperuser copy = true → withdraws copy r.userIn = true → Guarded p w r.userId
  | .update r (.purge copy plan _ _) => planUpdate settings copy r.userIn = .ok plan ∧
      (isActiveCanonicalSuperuser copy = true → withdraws copy r.userIn = true → Guarded p w r.userId)
  | .update r (.commit copy plan _ _ _) => planUpdate settings copy r.userIn = .ok plan ∧
      (isActiveCanonicalSuperuser copy = true → withdraws copy r.userIn = true → Guarded p w r.userId)
  | .delete r (.purge copy _ _) => isActiveCanonicalSuperuser copy = true → Guarded p w r.userId
  | .delete r (.commit copy _ _ _) => isActiveCanonicalSuperuser copy = true → Guarded p w r.userId
  | .repair _ .load => True
  | .repair r _ => ∃ user, w.db.users.lookup r.userId = some user ∧
      isActiveCanonicalSuperuser user = false
  | _ => True

section

variable {settings : Settings} {p q : Pid} {w w' : World} {l l' : Local} {a : Action}

theorem guarded_lockSuperusers {uid : UserId} (hcount : countActiveCanonicalSuperusers w.db uid ≠ 0) :
    Guarded p (w.lockSuperusers p uid) uid := by
  obtain ⟨other, user, hne, huser, hcanonical⟩ := countActiveCanonicalSuperusers_ne_zero.1 hcount
  refine ⟨other, user, hne, ?_, huser, hcanonical⟩
  have hother : w.isOtherSuperuser uid other = true := by
    simp [World.isOtherSuperuser, hne, huser, hcanonical]
  simp [Locks.takeUsers, hother]

theorem enforceLastSuperuserInvariant_eq_ok {db : Db} {uid : UserId} {copy : User}
    {intent : UpdateIntent} (hguard : enforceLastSuperuserInvariant db uid copy intent = .ok ())
    (hcopy : isActiveCanonicalSuperuser copy = true)
    (hleaves : wouldBeActiveCanonicalSuperuser intent.intendedRole intent.intendedActive = false) :
    countActiveCanonicalSuperusers db uid ≠ 0 := by
  intro hzero
  simp [enforceLastSuperuserInvariant, hcopy, hleaves, hzero] at hguard

theorem enforceLastSuperuserOnDelete_eq_ok {db : Db} {uid : UserId} {copy : User}
    (hguard : enforceLastSuperuserOnDelete db uid copy = .ok ())
    (hcopy : isActiveCanonicalSuperuser copy = true) : countActiveCanonicalSuperusers db uid ≠ 0 := by
  intro hzero
  simp [enforceLastSuperuserOnDelete, hcopy, hzero] at hguard

/-- A request that passes its guard has established what the guard is for. -/
theorem Step.guardPassed (hstep : Step settings p w l a w' l') (hpassed : GuardPassed settings p w l) :
    GuardPassed settings p w' l' := by
  cases hstep with
  | begin hbegins => cases hbegins <;> exact trivial
  | tick | setRedis | reap | abort | error | commandError | postCommit | commandsDone | command =>
      exact trivial
  | update hstep =>
      cases hstep with
      | load | checkEmail | lockPolicy | lockUser | commit => exact trivial
      | checkEmailOnly _ haffects =>
          intro hcopy hwithdraws
          rw [(withdraws_leaves hcopy hwithdraws).1] at haffects
          cases haffects
      | enforceCount _ hguard =>
          intro hcopy hwithdraws
          have hleaves := (withdraws_leaves hcopy hwithdraws).2
          exact guarded_lockSuperusers (enforceLastSuperuserInvariant_eq_ok hguard hcopy hleaves)
      | enforceSkip hskip =>
          intro hcopy hwithdraws
          rw [(withdraws_leaves hcopy hwithdraws).2] at hskip
          cases hskip hcopy
      | apply hplan | applyUnchanged hplan => exact ⟨hplan, hpassed⟩
      | purge => exact hpassed
  | delete hstep =>
      cases hstep with
      | load | lockPolicy | lockUser | commit => exact trivial
      | enforceCount _ _ hguard =>
          intro hcopy
          exact guarded_lockSuperusers (enforceLastSuperuserOnDelete_eq_ok hguard hcopy)
      | enforceSkip _ hskip =>
          intro hcopy
          rw [hcopy] at hskip
          cases hskip
      | purge => exact hpassed
  | repair hstep =>
      cases hstep with
      | @load current _ _ hcurrent hmismatch =>
          refine ⟨current, hcurrent, ?_⟩
          rw [← Bool.not_eq_true, isActiveCanonicalSuperuser_iff]
          rintro ⟨hrole, hflag, -⟩
          simp [hrole, hflag, privilegeClaimsAreConsistent] at hmismatch
      | capture | purge => exact hpassed
      | commit => exact trivial
  | login hstep => cases hstep <;> exact trivial
  | refresh hstep =>
      cases hstep with
      | lock | sign => split <;> exact trivial
      | _ => exact trivial
  | @logout r _ _ _ _ hstep =>
      cases hstep with
      | refreshRevoke | refreshFailed | refreshSkip =>
          obtain ⟨phase, heq, -⟩ := r.finish_eq _ _
          rw [heq]
          exact trivial
      | _ => exact trivial
  | revokeSession hstep =>
      cases hstep with
      | load | purge => exact trivial
      | commit => split <;> exact trivial
  | revokeUser hstep =>
      cases hstep with
      | capture | purge => exact trivial
      | commit => split <;> exact trivial
  | deleteMe hstep => cases hstep <;> exact trivial
  | legacySweep hstep => cases hstep <;> exact trivial
  | drain hstep => cases hstep <;> exact trivial

theorem Step.guarded (hfresh : w.db.IdsFresh) (hstep : Step settings p w l a w' l')
    (hmover : HoldsUserLock p w l) (hq : q ≠ p) {uid : UserId} (hguarded : Guarded q w uid) :
    Guarded q w' uid := by
  obtain ⟨other, user, hne, hlock, huser, hcanonical⟩ := hguarded
  exact ⟨other, user, hne, ((hstep.sameLocks hq).user other).2 hlock,
    hstep.locked_user_stable hfresh hmover hq hlock huser, hcanonical⟩

/-- What one request's guard has established, no step of another request undoes. -/
theorem Step.othersGuardPassed (hfresh : w.db.IdsFresh) (hstep : Step settings p w l a w' l')
    (hmover : HoldsUserLock p w l) (hq : q ≠ p) {m : Local} (hholds : HoldsUserLock q w m)
    (hpassed : GuardPassed settings q w m) : GuardPassed settings q w' m := by
  have hguarded {uid : UserId} (hguarded : Guarded q w uid) : Guarded q w' uid :=
    hstep.guarded hfresh hmover hq hguarded
  cases m with
  | update r phase =>
      cases phase with
      | apply copy revision => exact fun hcopy hwithdraws => hguarded (hpassed hcopy hwithdraws)
      | purge copy plan revision targets =>
          exact ⟨hpassed.1, fun hcopy hwithdraws => hguarded (hpassed.2 hcopy hwithdraws)⟩
      | commit copy plan revision targets doomed =>
          exact ⟨hpassed.1, fun hcopy hwithdraws => hguarded (hpassed.2 hcopy hwithdraws)⟩
      | _ => exact trivial
  | delete r phase =>
      cases phase with
      | purge copy terminal revision => exact fun hcopy => hguarded (hpassed hcopy)
      | commit copy terminal revision doomed => exact fun hcopy => hguarded (hpassed hcopy)
      | _ => exact trivial
  | repair r phase =>
      cases phase with
      | load => exact trivial
      | capture | purge | commit =>
          obtain ⟨user, huser, hcanonical⟩ := hpassed
          have hlock := hholds r.userId rfl
          exact ⟨user, hstep.locked_user_stable hfresh hmover hq hlock huser, hcanonical⟩
  | _ => exact trivial

private theorem HasSuperuser.keep {db db' : Db} {uid : UserId}
    (hother : ∃ other user, other ≠ uid ∧ db.users.lookup other = some user ∧
      isActiveCanonicalSuperuser user = true)
    (hkept : ∀ other, other ≠ uid → db'.users.lookup other = db.users.lookup other) :
    HasSuperuser db' := by
  obtain ⟨other, user, hne, huser, hcanonical⟩ := hother
  exact ⟨other, user, (hkept other hne).trans huser, hcanonical⟩

private theorem Guarded.other {uid : UserId} (hguarded : Guarded p w uid) :
    ∃ other user, other ≠ uid ∧ w.db.users.lookup other = some user ∧
      isActiveCanonicalSuperuser user = true := by
  obtain ⟨other, user, hne, -, huser, hcanonical⟩ := hguarded
  exact ⟨other, user, hne, huser, hcanonical⟩

private theorem IsLastSuperuser.not_has {db db' : Db} {uid : UserId} (hlast : IsLastSuperuser db uid)
    (htarget : ∀ user, db'.users.lookup uid = some user → isActiveCanonicalSuperuser user = false)
    (hkept : ∀ other, other ≠ uid → db'.users.lookup other = db.users.lookup other) :
    ¬ HasSuperuser db' := by
  rintro ⟨other, user, huser, hcanonical⟩
  by_cases hother : other = uid
  · subst hother
    rw [htarget user huser] at hcanonical
    cases hcanonical
  · rw [hkept other hother] at huser
    exact hother (hlast.2 other user huser hcanonical)

theorem Step.hasSuperuser (hfresh : w.db.IdsFresh) (hsome : HasSuperuser w.db)
    (hpassed : GuardPassed settings p w l) (hstep : Step settings p w l a w' l')
    (hguarded : ¬ UnguardedRemoval w w' l) : HasSuperuser w'.db := by
  obtain ⟨uid, user, huser, hcanonical⟩ := id hsome
  cases hstep.usersChange hfresh with
  | same husers => exact ⟨uid, user, by rw [husers, huser], hcanonical⟩
  | created _ husers =>
      refine ⟨uid, user, ?_, hcanonical⟩
      rw [husers, Table.lookup_insert_eq, if_neg (Nat.ne_of_lt (hfresh.users uid user huser)), huser]
  | @updated r copy plan revision targets doomed current saved hlocal hcommit hfree hcurrent hsave
      husers =>
      subst hlocal
      have hkept : ∀ other, other ≠ r.userId → w'.db.users.lookup other = w.db.users.lookup other := by
        intro other hne
        rw [husers, Table.lookup_insert_eq, if_neg hne]
      rcases hsome.last_or_other r.userId with hlast | hother
      · obtain ⟨⟨target, htarget, hcanonical'⟩, -⟩ := id hlast
        rw [hcurrent, Option.some.injEq] at htarget
        subst htarget
        have hplanned := planUpdate_eq_ok hpassed.1
        by_cases hsaved : isActiveCanonicalSuperuser saved = true
        · exact ⟨r.userId, saved, by rw [husers, Table.lookup_insert_eq, if_pos rfl], hsaved⟩
        · have hwithdraws : withdraws copy r.userIn = true := by
            rw [hplanned.saved_superuser_iff hsave hcanonical'] at hsaved
            simpa using hsaved
          by_cases hcopy : isActiveCanonicalSuperuser copy = true
          · exact .keep (hpassed.2 hcopy hwithdraws).other hkept
          · exact absurd (.update hlast (by simpa using hcopy) hwithdraws hcommit) hguarded
      · exact .keep hother hkept
  | @repaired r generation targets doomed current hlocal _ hcurrent husers =>
      subst hlocal
      obtain ⟨target, htarget, hnot⟩ := hpassed
      refine ⟨uid, user, ?_, hcanonical⟩
      rw [husers, Table.lookup_insert_eq, if_neg ?_, huser]
      rintro rfl
      rw [htarget, Option.some.injEq] at huser
      rw [huser, hcanonical] at hnot
      cases hnot
  | @deleted r copy terminal revision doomed hlocal hcommit husers =>
      subst hlocal
      have hkept : ∀ other, other ≠ r.userId → w'.db.users.lookup other = w.db.users.lookup other := by
        intro other hne
        rw [husers, Table.lookup_erase_eq, if_neg hne]
      rcases hsome.last_or_other r.userId with hlast | hother
      · by_cases hcopy : isActiveCanonicalSuperuser copy = true
        · exact .keep (hpassed hcopy).other hkept
        · exact absurd (.delete hlast (by simpa using hcopy) hcommit) hguarded
      · exact .keep hother hkept
  | @selfDeleted r hlocal hcommit _ husers =>
      subst hlocal
      rcases hsome.last_or_other r.token.sub with hlast | hother
      · exact absurd (.deleteMe hlast hcommit) hguarded
      · refine .keep hother fun other hne => ?_
        rw [husers, Table.lookup_erase_eq, if_neg hne]

theorem UnguardedRemoval.removes (hfresh : w.db.IdsFresh) (hpassed : GuardPassed settings p w l)
    (hremoval : UnguardedRemoval w w' l) : ¬ HasSuperuser w'.db := by
  cases hremoval with
  | @update r copy plan revision targets doomed hlast hcopy hwithdraws hcommit =>
      obtain ⟨db₁, hupdate, husers⟩ := (commit_updateWrites hfresh hcommit).users
      obtain ⟨⟨current, hcurrent, hcanonical⟩, -⟩ := id hlast
      obtain ⟨user, hsave, hlookup⟩ := Db.updateUser_lookup hupdate hcurrent
      have hplanned := planUpdate_eq_ok hpassed.1
      have hleft : isActiveCanonicalSuperuser user = false := by
        rw [← Bool.not_eq_true, hplanned.saved_superuser_iff hsave hcanonical, hwithdraws]
        exact Bool.false_ne_true.symm
      refine hlast.not_has (fun user' huser' => ?_) fun other hne => ?_
      · rw [husers, hlookup, if_pos rfl, Option.some.injEq] at huser'
        exact huser' ▸ hleft
      · rw [husers, hlookup, if_neg hne]
  | delete hlast hcopy hcommit =>
      have husers := (commit_deletionWrites hcommit).users
      refine hlast.not_has (fun user' huser' => ?_) fun other hne => ?_
      · simp [husers] at huser'
      · rw [husers, Table.lookup_erase_eq, if_neg hne]
  | @deleteMe r hlast hcommit =>
      have husers : w'.db.users = w.db.users.erase r.token.sub :=
        (congrArg Db.users (Except.ok.inj hcommit)).symm
      refine hlast.not_has (fun user' huser' => ?_) fun other hne => ?_
      · simp [husers] at huser'
      · rw [husers, Table.lookup_erase_eq, if_neg hne]

/-- What holds in every state of a run that keeps a superuser. -/
def SuperuserInv (settings : Settings) : Interleaving.Config World Local → Prop :=
  Interleaving.Asserted (fun w => w.db.IdsFresh ∧ HasSuperuser w.db) fun p w l =>
    HoldsUserLock p w l ∧ GuardPassed settings p w l

theorem SuperuserInv.next {c c' : Interleaving.Config World Local} {move : Pid × Action}
    (hinv : SuperuserInv settings c) (hnext : (issuer settings).next c move = some c')
    (hguarded : ¬ UnguardedRemoval c.shared c'.shared (c.locals move.1)) :
    SuperuserInv settings c' := by
  refine asserted_next hnext fun l' hstep => ?_
  obtain ⟨hfresh, hsome⟩ := hinv.shared
  obtain ⟨hholds, hpassed⟩ := hinv.locals move.1
  refine ⟨⟨hstep.idsFresh hfresh, hstep.hasSuperuser hfresh hsome hpassed hguarded⟩,
    ⟨hstep.holdsUserLock hholds, hstep.guardPassed hpassed⟩, fun q hq => ?_⟩
  obtain ⟨hholds', hpassed'⟩ := hinv.locals q
  exact ⟨hstep.othersHoldUserLock hq hholds',
    hstep.othersGuardPassed hfresh hholds hq hholds' hpassed'⟩

/-- From any database with a superuser, a run of any requests keeps one after every step exactly when no
step of it is an unguarded removal. -/
theorem superuser_survives_iff (settings : Settings) {c : Interleaving.Config World Local}
    (hrest : ∀ p, c.locals p = .idle) (hfresh : c.shared.db.IdsFresh)
    (hsome : HasSuperuser c.shared.db) (schedule : List (Pid × Action)) :
    (issuer settings).Along (fun c move c' => ¬ UnguardedRemoval c.shared c'.shared (c.locals move.1))
      c schedule ↔
    (issuer settings).Along (fun _ _ c' => HasSuperuser c'.shared.db) c schedule := by
  have hinv : SuperuserInv settings c := by
    refine ⟨⟨hfresh, hsome⟩, fun p => ?_⟩
    rw [hrest p]
    exact ⟨.of_none rfl, trivial⟩
  refine Interleaving.System.along_iff ?_ ?_ schedule hinv
  · intro c move c' hinv hnext
    constructor
    · intro hguarded
      exact (hinv.next hnext hguarded).shared.2
    · intro hafter hremoval
      exact hremoval.removes hinv.shared.1 (hinv.locals move.1).2 hafter
  · intro c move c' hinv hnext hguarded
    exact hinv.next hnext hguarded

end

/-- An administrator's deletion of user 2 loads it while it is an ordinary administrator. User 2 is then
promoted, user 1 demotes itself, and the deletion goes on. -/
def staleDeletion : List (Pid × Action) :=
  (0, .begin (.delete ⟨⟨1, .superadmin⟩, 2⟩ .load)) :: (0, .proceed) ::
    ((1, .begin (.update ⟨⟨1, .superadmin⟩, 2, { role := some (some .superadmin) }⟩ .load)) ::
      List.replicate 8 (1, .proceed)) ++
    ((2, .begin (.update ⟨⟨1, .superadmin⟩, 1, { role := some (some .user) }⟩ .load)) ::
      List.replicate 8 (2, .proceed)) ++
    List.replicate 5 (0, .proceed)

/-- Two administrators, the first of them the only superuser, and no request running. -/
def twoAdministrators : Interleaving.Config World Local where
  shared :=
    { db :=
        { users := AList.insert 2 { email := "b", role := .admin }
            (AList.insert 1 { email := "a", isSuperuser := true, role := .superadmin } ∅)
          policyRevision := some 0
          nextUserId := 3 } }
  locals _ := .idle

theorem twoAdministrators_idsFresh : twoAdministrators.shared.db.IdsFresh :=
  .of_keys (by decide) (by decide) (by decide)

theorem twoAdministrators_hasSuperuser : HasSuperuser twoAdministrators.shared.db :=
  ⟨1, { email := "a", isSuperuser := true, role := .superadmin }, by decide, by decide⟩

theorem superuser_survives_iff_twoAdministrators :
    (issuer {}).Along (fun c move c' => ¬ UnguardedRemoval c.shared c'.shared (c.locals move.1))
      twoAdministrators staleDeletion ↔
    (issuer {}).Along (fun _ _ c' => HasSuperuser c'.shared.db) twoAdministrators staleDeletion :=
  superuser_survives_iff {} (fun _ => rfl) twoAdministrators_idsFresh
    twoAdministrators_hasSuperuser staleDeletion

set_option maxRecDepth 100000 in
/-- The last superuser is lost: the guard of the deletion looks at the copy loaded before the promotion. -/
theorem superuser_lost :
    ∃ c', (issuer {}).run twoAdministrators staleDeletion = some c' ∧
      HasSuperuser twoAdministrators.shared.db ∧ ¬ HasSuperuser c'.shared.db := by
  have hrun : ((issuer {}).run twoAdministrators staleDeletion).map (fun c' =>
      c'.shared.db.users.rows fun _ user => isActiveCanonicalSuperuser user) = some [] := by
    decide
  obtain ⟨c', hreached, hnone⟩ := Option.map_eq_some_iff.1 hrun
  refine ⟨c', hreached, twoAdministrators_hasSuperuser, ?_⟩
  rintro ⟨uid, user, huser, hcanonical⟩
  rw [Table.rows_eq_nil_iff.1 hnone uid user huser] at hcanonical
  cases hcanonical

end FaAuthM8

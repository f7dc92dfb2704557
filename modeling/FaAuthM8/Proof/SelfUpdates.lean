import FaAuthM8.Proof.Authority

/-!
# Updates of one's own account

An administrator may lower its own role and never raise it. The check compares the requested role with the
loaded one, before any lock is taken, so what it rules out is a rise above the role that was loaded. When a
demotion commits in between, a request that passed the check may still be a rise.
-/

namespace FaAuthM8

/-- No update of its own account leaves the actor with a role above the one committed before it. -/
def NoSelfPromotion (w w' : World) (l : Local) : Prop :=
  ∀ r phase before after, l = .update r phase → r.actor.id = r.userId →
    w.db.users.lookup r.userId = some before → w'.db.users.lookup r.userId = some after →
    after.role.rank ≤ before.role.rank

/-- The step commits an update of the actor's own account whose requested role is below the loaded role and
above the committed one. -/
inductive OutrunSelfUpdate (w w' : World) : Local → Prop
  | update {r : UpdateRequest} {copy current : User} {plan : UpdatePlan} {revision : Option Nat}
      {targets : List RevocationTarget} {doomed : List SessionId} {requested : RoleType}
      (hself : r.actor.id = r.userId) (hrequested : r.userIn.role = some (some requested))
      (hcurrent : w.db.users.lookup r.userId = some current)
      (hloaded : requested.rank < copy.role.rank) (hcommitted : current.role.rank < requested.rank)
      (hcommit : commit (updateWrites r.actor r.userId copy plan targets doomed revision w.now) w.db
        = .ok w'.db) :
      OutrunSelfUpdate w w' (.update r (.commit copy plan revision targets doomed))

/-- The copy of an update past the check on self-promotion. -/
def UpdatePhase.checkedCopy : UpdatePhase → Option User
  | .load | .checkEmail _ => none
  | .lockPolicy copy | .lockUser copy _ | .enforce copy _ | .apply copy _ | .purge copy _ _ _
  | .commit copy _ _ _ _ => some copy

/-- An update that is past the check on self-promotion has passed it. -/
def SelfChecked : Local → Prop
  | .update r phase => ∀ copy, phase.checkedCopy = some copy →
      rejectSelfPromotion r.actor.id r.userId (resolveUpdateIntent copy r.userIn) = .ok ()
  | _ => True

section

variable {settings : Settings} {p : Pid} {w w' : World} {l l' : Local} {a : Action}

theorem Step.selfChecked (hstep : Step settings p w l a w' l') (hchecked : SelfChecked l) :
    SelfChecked l' := by
  cases l' with
  | update r phase' =>
      obtain ⟨-, -, rfl⟩ | ⟨phase, rfl, hupdate⟩ := hstep.of_update
      · intro copy hcopy
        cases hcopy
      · cases hupdate with
        | load =>
            intro copy hcopy
            cases hcopy
        | checkEmail hpromotion | checkEmailOnly hpromotion =>
            intro copy hcopy
            exact Option.some.inj hcopy ▸ hpromotion
        | _ => exact hchecked
  | _ => exact trivial

theorem requested_le_loaded {r : UpdateRequest} {copy : User} {requested : RoleType}
    (hself : r.actor.id = r.userId) (hrequested : r.userIn.role = some (some requested))
    (hpassed : rejectSelfPromotion r.actor.id r.userId (resolveUpdateIntent copy r.userIn) = .ok ()) :
    requested = copy.role ∨ requested.rank < copy.role.rank := by
  have hintended : (resolveUpdateIntent copy r.userIn).intendedRole = requested := by
    simp [resolveUpdateIntent, hrequested]
  have hasked : (resolveUpdateIntent copy r.userIn).roleRequested = true := by
    simp [resolveUpdateIntent, hrequested]
  rw [rejectSelfPromotion, hintended, hasked, hself] at hpassed
  by_contra hrises
  rw [not_or, Nat.not_lt] at hrises
  have hpromotion : isPromotion (resolveUpdateIntent copy r.userIn).previousRole requested = true := by
    simp only [isPromotion, hasMinimumRole, Bool.and_eq_true, bne_iff_ne, decide_eq_true_eq]
    exact hrises
  simp [hpromotion] at hpassed

/-- The role an update stores: the requested one when it differs from the loaded one. -/
theorem stored_role {r : UpdateRequest} {copy current after : User} {plan : UpdatePlan}
    {targets : List RevocationTarget} {doomed : List SessionId} {revision : Option Nat}
    (hfresh : w.db.IdsFresh) (hplan : plan.PlannedFrom copy r.userIn)
    (hcommit : commit (updateWrites r.actor r.userId copy plan targets doomed revision w.now) w.db
      = .ok w'.db)
    (hcurrent : w.db.users.lookup r.userId = some current)
    (hafter : w'.db.users.lookup r.userId = some after) :
    after.role = current.role ∨ (r.userIn.role = some (some after.role) ∧ after.role ≠ copy.role) := by
  obtain ⟨db₁, hupdate, husers⟩ := (commit_updateWrites hfresh hcommit).users
  obtain ⟨user, hsave, hlookup⟩ := Db.updateUser_lookup hupdate hcurrent
  rw [husers, hlookup, if_pos rfl] at hafter
  obtain rfl := Option.some.inj hafter
  obtain ⟨email, role, -, hrole, hstored, -⟩ := UserDraft.saveOver_eq_ok hsave
  rw [hstored]
  by_cases hsame : role = copy.role
  · rw [hsame, Column.writeBack_same]
    exact .inl rfl
  · rw [Column.writeBack_of_ne hsame]
    refine .inr ⟨?_, hsame⟩
    rw [hplan.role] at hrole
    cases hrequested : r.userIn.role with
    | none =>
        rw [hrequested] at hrole
        exact absurd (Option.some.inj hrole).symm hsame
    | some requested =>
        rw [hrequested] at hrole
        exact congrArg some hrole

theorem Step.update_users {r : UpdateRequest} {phase : UpdatePhase}
    (hstep : Step settings p w (.update r phase) a w' l') : w'.db = w.db ∨
      ∃ copy plan revision targets doomed, phase = .commit copy plan revision targets doomed ∧
        commit (updateWrites r.actor r.userId copy plan targets doomed revision w.now) w.db = .ok w'.db := by
  cases hstep with
  | abort | error => exact .inl rfl
  | update hstep =>
      cases hstep with
      | commit _ hcommit => exact .inr ⟨_, _, _, _, _, rfl, hcommit⟩
      | _ => exact .inl rfl

theorem noSelfPromotion_iff (hfresh : w.db.IdsFresh) (hplanned : Planned settings l)
    (hchecked : SelfChecked l) (hstep : Step settings p w l a w' l') :
    ¬ OutrunSelfUpdate w w' l ↔ NoSelfPromotion w w' l := by
  constructor
  · intro hfollows r phase before after hlocal hself hbefore hafter
    subst hlocal
    rcases hstep.update_users with hsame | ⟨copy, plan, revision, targets, doomed, rfl, hcommit⟩
    · rw [hsame, hbefore] at hafter
      rw [Option.some.inj hafter]
    · have hplan := planUpdate_eq_ok (hplanned copy r.userIn plan rfl)
      rcases stored_role hfresh hplan hcommit hbefore hafter with hkept | ⟨hrequested, hwritten⟩
      · rw [hkept]
      · by_contra hrises
        have hbelow := (requested_le_loaded hself hrequested (hchecked copy rfl)).resolve_left hwritten
        exact hfollows (.update hself hrequested hbefore hbelow (Nat.not_le.1 hrises) hcommit)
  · intro hnever houtruns
    cases houtruns with
    | @update r copy current plan revision targets doomed requested hself hrequested hcurrent hloaded
        hcommitted hcommit =>
        have hplan := planUpdate_eq_ok (hplanned copy r.userIn plan rfl)
        obtain ⟨db₁, hupdate, husers⟩ := (commit_updateWrites hfresh hcommit).users
        obtain ⟨user, hsave, hlookup⟩ := Db.updateUser_lookup hupdate hcurrent
        obtain ⟨email, role, -, hrole, hstored, -⟩ := UserDraft.saveOver_eq_ok hsave
        rw [hplan.role, hrequested, Option.getD_some, Option.some.injEq] at hrole
        subst hrole
        rw [Column.writeBack_of_ne (fun heq => Nat.lt_irrefl _ (heq ▸ hloaded))] at hstored
        have hle := hnever r _ current user rfl hself hcurrent (by rw [husers, hlookup, if_pos rfl])
        rw [hstored] at hle
        exact Nat.not_le.2 hcommitted hle

/-- What holds in every state of every run. -/
def SelfUpdateInv (settings : Settings) : Interleaving.Config World Local → Prop :=
  Interleaving.Asserted (fun w => w.db.IdsFresh) fun _ _ l => Planned settings l ∧ SelfChecked l

theorem SelfUpdateInv.next {c c' : Interleaving.Config World Local} {move : Pid × Action}
    (hinv : SelfUpdateInv settings c) (hnext : (issuer settings).next c move = some c') :
    SelfUpdateInv settings c' := by
  refine asserted_next hnext fun l' hstep => ?_
  obtain ⟨hplanned, hchecked⟩ := hinv.locals move.1
  exact ⟨hstep.idsFresh hinv.shared, ⟨hstep.planned hplanned, hstep.selfChecked hchecked⟩,
    fun q _ => hinv.locals q⟩

/-- Along a run of any requests nobody raises its own role exactly when no update of one's own account
commits a role between the committed and the loaded one. -/
theorem no_self_promotion_iff (settings : Settings) {c : Interleaving.Config World Local}
    (hstarts : Starts c) (schedule : List (Pid × Action)) :
    (issuer settings).Along (fun c move c' => ¬ OutrunSelfUpdate c.shared c'.shared (c.locals move.1))
      c schedule ↔
    (issuer settings).Along (fun c move c' => NoSelfPromotion c.shared c'.shared (c.locals move.1))
      c schedule := by
  have hinv : SelfUpdateInv settings c := by
    refine ⟨hstarts.fresh, fun p => ?_⟩
    rw [hstarts.idle p]
    exact ⟨.of_none rfl, trivial⟩
  refine Interleaving.System.along_iff ?_ (fun c move c' hinv hnext _ => SelfUpdateInv.next hinv hnext)
    schedule hinv
  intro c move c' hinv hnext
  obtain ⟨l', -, hstep⟩ := next_sound hnext
  obtain ⟨hplanned, hchecked⟩ := hinv.locals move.1
  exact noSelfPromotion_iff hinv.shared hplanned hchecked hstep

/-- A commit that outruns the check is computed from a copy of an older generation. -/
theorem OutrunSelfUpdate.stale (hplanned : Planned settings l) (hknows : KnowsReached w l)
    (houtruns : OutrunSelfUpdate w w' l) : StaleTransition w w' l := by
  cases houtruns with
  | @update r copy current plan revision targets doomed requested hself hrequested hcurrent hloaded
      hcommitted hcommit =>
      have hplan := planUpdate_eq_ok (hplanned copy r.userIn plan rfl)
      have hrole : plan.draft.role = some requested := by
        rw [hplan.role, hrequested, Option.getD_some]
      have hchanged : plan.authorizationChanged = true := by
        refine hplan.changed.2 (.inl fun hsame => ?_)
        have heq : requested = copy.role := Option.some.inj (hrole.symm.trans hsame)
        exact Nat.lt_irrefl _ (heq ▸ hloaded)
      refine .update hchanged hcurrent (fun hgeneration => ?_) hcommit
      have hsame : copy.role = current.role :=
        ((hknows.copies r.userId copy rfl).same current hcurrent hgeneration).1
      rw [hsame] at hloaded
      omega

/-- In a run that reaps no row of a user in transition nobody raises its own role. -/
theorem no_self_promotion_unreaped (settings : Settings) {c : Interleaving.Config World Local}
    (hstarts : Starts c) (hall : AllReached c.shared) {schedule : List (Pid × Action)}
    (hunreaped : (issuer settings).Along (fun c _ c' => ¬ ReapsUnderTransition c c') c schedule) :
    (issuer settings).Along (fun c move c' => NoSelfPromotion c.shared c'.shared (c.locals move.1))
      c schedule := by
  refine (no_self_promotion_iff settings hstarts schedule).1 ?_
  refine Interleaving.System.along_of_guarded ?_ (hstarts.rememberingInv settings hall) hunreaped
  intro c move c' hinv hnext hreaps
  obtain ⟨htracked, hknows, -⟩ := hinv.locals move.1
  exact ⟨fun houtruns => hinv.not_stale (houtruns.stale htracked.planned hknows), hinv.next hnext hreaps⟩

end

def twoSuperusers : Interleaving.Config World Local where
  shared :=
    { db :=
        { users := AList.insert 2 { email := "b", isSuperuser := true, role := .superadmin }
            (AList.insert 1 { email := "a", isSuperuser := true, role := .superadmin } ∅)
          policyRevision := some 0
          nextUserId := 3 } }
  locals _ := .idle

theorem twoSuperusers_starts : Starts twoSuperusers where
  idle _ := rfl
  log := rfl
  fresh := .of_keys (by decide) (by decide) (by decide)
  rows _ _ hrow := by cases hrow

/-- User 1 asks to become an administrator, which passes as a demotion. User 2 makes it a user, the worker
delivers the event, and the completed row is reaped. Then the request of user 1 goes on. -/
def outrunDemotion : List (Pid × Action) :=
  (0, .begin (.update ⟨⟨1, .superadmin⟩, 1, { role := some (some .admin) }⟩ .load)) ::
    List.replicate 2 (0, .proceed) ++
    (1, .begin (.update ⟨⟨2, .superadmin⟩, 1, { role := some (some .user) }⟩ .load)) ::
      List.replicate 8 (1, .proceed) ++
    (2, .begin (.drain ⟨0, false⟩ .claim)) :: (2, .claim [0]) ::
      List.replicate 4 (2, .proceed) ++
    (3, .tick 1) :: (3, .reap) :: List.replicate 5 (0, .proceed)

theorem no_self_promotion_iff_twoSuperusers :
    (issuer { outboxCompletedRetentionSeconds := 0 }).Along
      (fun c move c' => ¬ OutrunSelfUpdate c.shared c'.shared (c.locals move.1))
      twoSuperusers outrunDemotion ↔
    (issuer { outboxCompletedRetentionSeconds := 0 }).Along
      (fun c move c' => NoSelfPromotion c.shared c'.shared (c.locals move.1))
      twoSuperusers outrunDemotion :=
  no_self_promotion_iff { outboxCompletedRetentionSeconds := 0 } twoSuperusers_starts outrunDemotion

/-- The process is in an update of its own actor's account. -/
def Local.isSelfUpdateOf (uid : UserId) : Local → Bool
  | .update r _ => r.actor.id == uid && r.userId == uid
  | _ => false

theorem not_noSelfPromotion {w w' : World} {l : Local} {uid : UserId} {before after : User}
    (hself : l.isSelfUpdateOf uid = true) (hbefore : w.db.users.lookup uid = some before)
    (hafter : w'.db.users.lookup uid = some after) (hrises : before.role.rank < after.role.rank) :
    ¬ NoSelfPromotion w w' l := by
  intro hnever
  cases l with
  | update r phase =>
      obtain ⟨hactor, htarget⟩ := Bool.and_eq_true_iff.1 hself
      have hactor : r.actor.id = uid := beq_iff_eq.1 hactor
      have htarget : r.userId = uid := beq_iff_eq.1 htarget
      subst htarget
      exact Nat.not_le.2 hrises (hnever r phase before after rfl hactor hbefore hafter)
  | _ => cases hself

/-- The next step commits the request of user 1, which was a plain user until then. -/
theorem self_promotion_commits :
    ∃ c c', (issuer { outboxCompletedRetentionSeconds := 0 }).run twoSuperusers outrunDemotion = some c ∧
      (issuer { outboxCompletedRetentionSeconds := 0 }).next c (0, .proceed) = some c' ∧
      (c.shared.db.users.lookup 1).map (·.role) = some .user ∧
      (c'.shared.db.users.lookup 1).map (·.role) = some .admin ∧
      ¬ NoSelfPromotion c.shared c'.shared (c.locals 0) := by
  have hruns : ((issuer { outboxCompletedRetentionSeconds := 0 }).run twoSuperusers outrunDemotion).map
      (fun c => ((c.shared.db.users.lookup 1).map (·.role), (c.locals 0).isSelfUpdateOf 1,
        ((issuer { outboxCompletedRetentionSeconds := 0 }).next c (0, .proceed)).map (fun c' =>
          (c'.shared.db.users.lookup 1).map (·.role))))
      = some (some .user, true, some (some .admin)) := by
    decide +kernel
  obtain ⟨c, hrun, hresult⟩ := Option.map_eq_some_iff.1 hruns
  obtain ⟨huser, hrest⟩ := Prod.mk.inj hresult
  obtain ⟨hself, hcommits⟩ := Prod.mk.inj hrest
  obtain ⟨c', hnext, hadmin⟩ := Option.map_eq_some_iff.1 hcommits
  obtain ⟨before, hbefore, hbeforeRole⟩ := Option.map_eq_some_iff.1 huser
  obtain ⟨after, hafter, hafterRole⟩ := Option.map_eq_some_iff.1 hadmin
  refine ⟨c, c', hrun, hnext, huser, hadmin, not_noSelfPromotion hself hbefore hafter ?_⟩
  rw [hbeforeRole, hafterRole]
  decide

end FaAuthM8

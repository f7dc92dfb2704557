import FaAuthM8.Proof.Issuing

/-!
# The intent of an update and what it applies

The guards of an admin update judge a prediction of the role and the activation flag, made before the update
is applied; what is applied goes through the generic update of the fields. The two treat a field that is not
sent alike, and one that is sent with a value, and an activation flag that is sent as null. A role that is
sent as null is not requested for the one and written by the other.
-/

namespace FaAuthM8

/-- The request has applied its update to the copy in memory. -/
inductive Applied : Local → UpdateRequest → User → UpdatePlan → Prop
  | purge {r : UpdateRequest} {copy : User} {plan : UpdatePlan} {revision : Option Nat}
      {targets : List RevocationTarget} :
      Applied (.update r (.purge copy plan revision targets)) r copy plan
  | commit {r : UpdateRequest} {copy : User} {plan : UpdatePlan} {revision : Option Nat}
      {targets : List RevocationTarget} {doomed : List SessionId} :
      Applied (.update r (.commit copy plan revision targets doomed)) r copy plan

/-- What was predicted is what has been applied, it is treated as a change exactly if it is one, and it is
made under the locks on the superuser set and on the user. -/
structure IntentApplied (p : Pid) (w : World) (r : UpdateRequest) (copy : User) (plan : UpdatePlan) : Prop where
  role : plan.draft.role = some (resolveUpdateIntent copy r.userIn).intendedRole
  active : plan.draft.isActive = (resolveUpdateIntent copy r.userIn).intendedActive
  changed : plan.authorizationChanged = true ↔
    plan.draft.role ≠ some copy.role ∨ plan.draft.isActive ≠ copy.isActive
  flag : copy.isSuperuser = deriveIsSuperuser (some copy.role) →
    plan.draft.isSuperuser = deriveIsSuperuser plan.draft.role
  locked : plan.draft.role ≠ some copy.role ∨ plan.draft.isActive ≠ copy.isActive →
    w.locks.policy = some p ∧ w.locks.user r.userId = some p

/-- The locks a request holds that asks for a role or an activation flag, by the point it has reached. -/
def HoldsForIntent (p : Pid) (w : World) : Local → Prop
  | .update _ (.lockUser _ _) => w.locks.policy = some p
  | .update _ (.enforce _ _) => w.locks.policy = some p
  | .update r (.apply copy revision) => (resolveUpdateIntent copy r.userIn).affectsSet = true →
      revision.isSome = true ∧ w.locks.policy = some p
  | .update r (.purge copy _ revision _) => (resolveUpdateIntent copy r.userIn).affectsSet = true →
      revision.isSome = true ∧ w.locks.policy = some p
  | .update r (.commit copy _ revision _ _) => (resolveUpdateIntent copy r.userIn).affectsSet = true →
      revision.isSome = true ∧ w.locks.policy = some p
  | _ => True

section

variable {settings : Settings} {p q : Pid} {w w' : World} {l l' : Local} {a : Action}

theorem Step.holdsForIntent (hstep : Step settings p w l a w' l') (hholds : HoldsForIntent p w l) :
    HoldsForIntent p w' l' := by
  cases l' with
  | update r phase' =>
      obtain ⟨-, -, rfl⟩ | ⟨phase, rfl, hupdate⟩ := hstep.of_update
      · trivial
      · cases hupdate with
        | load | checkEmail => trivial
        | checkEmailOnly _ haffects =>
            intro hasks
            rw [haffects] at hasks
            cases hasks
        | lockPolicy => rfl
        | lockUser => exact hholds
        | enforceCount => exact fun _ => ⟨rfl, hholds⟩
        | enforceSkip => exact fun _ => ⟨rfl, hholds⟩
        | apply => exact hholds
        | applyUnchanged => exact hholds
        | purge => exact hholds
  | _ => trivial

theorem Step.othersHoldForIntent (hstep : Step settings p w l a w' l') (hq : q ≠ p) {m : Local}
    (hholds : HoldsForIntent q w m) : HoldsForIntent q w' m := by
  have hpolicy : w.locks.policy = some q → w'.locks.policy = some q := (hstep.sameLocks hq).policy.2
  cases m with
  | update r phase =>
      cases phase with
      | lockUser | enforce => exact hpolicy hholds
      | apply | purge | commit =>
          intro hasks
          obtain ⟨hrevision, hlock⟩ := hholds hasks
          exact ⟨hrevision, hpolicy hlock⟩
      | _ => trivial
  | _ => trivial

/-- What is known of a request that updates a user. -/
structure UpdateTracked (settings : Settings) (p : Pid) (w : World) (l : Local) : Prop where
  planned : Planned settings l
  user : HoldsUserLock p w l
  policy : HoldsForIntent p w l

theorem UpdateTracked.idle : UpdateTracked settings p w .idle :=
  ⟨.of_none rfl, .of_none rfl, trivial⟩

theorem update_tracked {c₀ c : Interleaving.Config World Local} {schedule : List (Pid × Action)}
    (hidle : ∀ p, c₀.locals p = .idle) (hrun : (issuer settings).run c₀ schedule = some c) :
    Interleaving.Asserted (fun _ => True) (UpdateTracked settings) c := by
  have hstart : Interleaving.Asserted (fun _ => True) (UpdateTracked settings) c₀ :=
    ⟨trivial, fun p => by rw [hidle p]; exact .idle⟩
  refine Interleaving.System.run_keeps (fun c move c' hinv hnext => ?_) hstart hrun
  refine asserted_next hnext fun l' hstep => ⟨trivial, ?_, fun q hq => ?_⟩
  · obtain ⟨hplanned, huser, hpolicy⟩ := hinv.locals move.1
    exact ⟨hstep.planned hplanned, hstep.holdsUserLock huser, hstep.holdsForIntent hpolicy⟩
  · obtain ⟨hplanned, huser, hpolicy⟩ := hinv.locals q
    exact ⟨hplanned, hstep.othersHoldUserLock hq huser, hstep.othersHoldForIntent hq hpolicy⟩

end

section

variable {plan : UpdatePlan} {copy : User} {userIn : UserUpdate}

theorem UpdatePlan.PlannedFrom.role_iff (hplan : plan.PlannedFrom copy userIn) :
    plan.draft.role = some (resolveUpdateIntent copy userIn).intendedRole ↔ userIn.role ≠ some none := by
  rw [hplan.role]
  cases hrole : userIn.role with
  | none => simp [resolveUpdateIntent, hrole]
  | some requested =>
      cases requested with
      | none => simp
      | some role => simp [resolveUpdateIntent, hrole]

theorem UpdatePlan.PlannedFrom.flag (hplan : plan.PlannedFrom copy userIn)
    (hconsistent : copy.isSuperuser = deriveIsSuperuser (some copy.role)) :
    plan.draft.isSuperuser = deriveIsSuperuser plan.draft.role := by
  rw [hplan.role, hplan.isSuperuser]
  cases userIn.role with
  | none => exact hconsistent
  | some requested => rfl

theorem UpdatePlan.PlannedFrom.asked (hplan : plan.PlannedFrom copy userIn) (hnull : userIn.role ≠ some none)
    (hdiffers : plan.draft.role ≠ some copy.role ∨ plan.draft.isActive ≠ copy.isActive) :
    (resolveUpdateIntent copy userIn).affectsSet = true := by
  rw [UpdateIntent.affectsSet, Bool.or_eq_true]
  rcases hdiffers with hrole | hactive
  · left
    rw [hplan.role] at hrole
    cases hrequested : userIn.role with
    | none => simp [hrequested] at hrole
    | some requested =>
        cases requested with
        | none => exact absurd hrequested hnull
        | some role => simp [resolveUpdateIntent, hrequested]
  · right
    rw [hplan.isActive] at hactive
    cases hrequested : userIn.isActive.join with
    | none => simp [hrequested] at hactive
    | some isActive => simp [resolveUpdateIntent, hrequested]

theorem UpdatePlan.PlannedFrom.null_refused (hplan : plan.PlannedFrom copy userIn)
    (hnull : userIn.role = some none) {uid : UserId} {db db' : Db} :
    db.updateUser uid copy plan.draft ≠ .ok db' := by
  intro hupdate
  have hrole : plan.draft.role = none := by
    rw [hplan.role, hnull]
    rfl
  obtain ⟨heq, -⟩ | ⟨current, user, -, hsave, -⟩ := Db.updateUser_eq_ok hupdate
  · rw [heq] at hrole
    cases hrole
  · rw [UserDraft.saveOver, hrole] at hsave
    cases hemail : plan.draft.email with
    | none => simp [hemail] at hsave
    | some email => simp [hemail] at hsave

end

/-- In every state of every run, an update that has been applied is the one that was predicted exactly if its
payload does not send the role as null. -/
theorem intent_applied_iff {settings : Settings} {c₀ c : Interleaving.Config World Local}
    {schedule : List (Pid × Action)} (hidle : ∀ p, c₀.locals p = .idle)
    (hrun : (issuer settings).run c₀ schedule = some c) {p : Pid} {r : UpdateRequest} {copy : User}
    {plan : UpdatePlan} (happlied : Applied (c.locals p) r copy plan) :
    IntentApplied p c.shared r copy plan ↔ r.userIn.role ≠ some none := by
  obtain ⟨hplanned, huser, hpolicy⟩ := (update_tracked hidle hrun).locals p
  generalize c.locals p = l at happlied hplanned huser hpolicy
  have hplan : plan.PlannedFrom copy r.userIn := by
    cases happlied with
    | purge => exact planUpdate_eq_ok (hplanned copy r.userIn plan rfl)
    | commit => exact planUpdate_eq_ok (hplanned copy r.userIn plan rfl)
  have hlocks : (resolveUpdateIntent copy r.userIn).affectsSet = true →
      c.shared.locks.policy = some p ∧ c.shared.locks.user r.userId = some p := by
    intro hasks
    cases happlied with
    | purge | commit =>
        obtain ⟨hrevision, hlock⟩ := hpolicy hasks
        obtain ⟨revision, rfl⟩ := Option.isSome_iff_exists.1 hrevision
        exact ⟨hlock, huser r.userId rfl⟩
  constructor
  · intro hintent
    exact hplan.role_iff.1 hintent.role
  · intro hnull
    refine ⟨hplan.role_iff.2 hnull, hplan.isActive, hplan.changed, hplan.flag, fun hdiffers => ?_⟩
    exact hlocks (hplan.asked hnull hdiffers)

/-- An administrator promotes the reader, and sends nothing else. -/
def promotion : List (Pid × Action) :=
  (0, .begin (.update ⟨⟨0, .superadmin⟩, 1, { role := some (some .admin) }⟩ .load)) ::
    List.replicate 6 (0, .proceed)

theorem intent_applied_promotion :
    ∃ c r copy plan, (issuer {}).run oneReader promotion = some c ∧ Applied (c.locals 0) r copy plan ∧
      plan.draft.role = some .admin ∧ IntentApplied 0 c.shared r copy plan := by
  have hruns : ((issuer {}).run oneReader promotion).map (fun c => c.locals 0) =
      some (.update ⟨⟨0, .superadmin⟩, 1, { role := some (some .admin) }⟩ (.purge
        { email := "a", role := .reader, hashedPassword := some "secret" }
        ⟨⟨true, false, .reader, true, .admin, true⟩,
          { email := some "a", fullName := none, avatar := none, isActive := true, isSuperuser := false,
            role := some .admin, hashedPassword := some "secret", oauthUserId := none,
            authGeneration := 2 }, true⟩ (some 0) [])) := by
    decide +kernel
  obtain ⟨c, hrun, hlocal⟩ := Option.map_eq_some_iff.1 hruns
  have happlied : Applied (c.locals 0) _ _ _ := hlocal ▸ Applied.purge
  exact ⟨c, _, _, _, hrun, happlied, rfl,
    (intent_applied_iff oneReader_starts.idle hrun happlied).2 (by decide)⟩

def nullRole : List (Pid × Action) :=
  (0, .begin (.update ⟨⟨0, .superadmin⟩, 1, { role := some none }⟩ .load)) ::
    List.replicate 3 (0, .proceed)

/-- No role is requested, and the role is gone; no lock has been taken. -/
theorem intent_not_applied :
    ∃ c r copy plan, (issuer {}).run oneReader nullRole = some c ∧ Applied (c.locals 0) r copy plan ∧
      (resolveUpdateIntent copy r.userIn).intendedRole = .reader ∧ plan.draft.role = none ∧
      c.shared.locks.policy = none ∧ c.shared.locks.user 1 = none ∧
      ¬ IntentApplied 0 c.shared r copy plan := by
  have hruns : ((issuer {}).run oneReader nullRole).map (fun c =>
      (c.locals 0, c.shared.locks.policy, c.shared.locks.user 1)) =
      some (.update ⟨⟨0, .superadmin⟩, 1, { role := some none }⟩ (.purge
        { email := "a", role := .reader, hashedPassword := some "secret" }
        ⟨⟨false, false, .reader, true, .reader, true⟩,
          { email := some "a", fullName := none, avatar := none, isActive := true, isSuperuser := false,
            role := none, hashedPassword := some "secret", oauthUserId := none,
            authGeneration := 2 }, true⟩ none []), none, none) := by
    decide +kernel
  obtain ⟨c, hrun, hresult⟩ := Option.map_eq_some_iff.1 hruns
  simp only [Prod.mk.injEq] at hresult
  obtain ⟨hlocal, hpolicy, huser⟩ := hresult
  refine ⟨c, _, _, _, hrun, hlocal ▸ Applied.purge, rfl, rfl, hpolicy, huser, fun hintent => ?_⟩
  cases hintent.role

end FaAuthM8

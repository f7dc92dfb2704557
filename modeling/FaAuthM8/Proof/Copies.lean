import FaAuthM8.Proof.Locking

/-!
# Loaded rows

The row a request has loaded and decides on, by the point it has reached. A request keeps the copy it loaded,
so whatever can only become truer of an old copy holds of every copy once it holds when a row is loaded.
-/

namespace FaAuthM8

def UpdatePhase.copy : UpdatePhase → Option User
  | .load => none
  | .checkEmail copy => some copy
  | .lockPolicy copy => some copy
  | .lockUser copy _ => some copy
  | .enforce copy _ => some copy
  | .apply copy _ => some copy
  | .purge copy _ _ _ => some copy
  | .commit copy _ _ _ _ => some copy

def DeletePhase.copy : DeletePhase → Option User
  | .load => none
  | .lockPolicy copy => some copy
  | .lockUser copy _ => some copy
  | .enforce copy _ => some copy
  | .purge copy _ _ => some copy
  | .commit copy _ _ _ => some copy

def LoginPhase.copy : LoginPhase → Option (UserId × User)
  | .sign uid copy => some (uid, copy)
  | .load uid copy _ => some (uid, copy)
  | .save uid copy _ _ _ => some (uid, copy)
  | _ => none

def RefreshPhase.copy : RefreshPhase → Option User
  | .lineage copy => some copy
  | .sign copy => some copy
  | .rotate copy _ => some copy
  | .load copy _ => some copy
  | .save copy _ _ _ => some copy
  | _ => none

/-- The user row a request has loaded, with its identifier. -/
def Local.copy : Local → Option (UserId × User)
  | .update r phase => phase.copy.map fun copy => (r.userId, copy)
  | .delete r phase => phase.copy.map fun copy => (r.userId, copy)
  | .login _ phase => phase.copy
  | .refresh r phase => phase.copy.map fun copy => (r.token.sub, copy)
  | _ => none

/-- The outbox row a worker has loaded. -/
def Local.outboxCopy : Local → Option RevocationOutbox
  | .drain _ (.deliver _ copy _) => some copy
  | .drain _ (.revoke _ _ copy _) => some copy
  | .drain _ (.finish _ _ copy _) => some copy
  | _ => none

/-- The plan of an update that has been applied in memory, with the copy and the payload it was made from. -/
def Local.plan : Local → Option (User × UserUpdate × UpdatePlan)
  | .update r (.purge copy plan _ _) => some (copy, r.userIn, plan)
  | .update r (.commit copy plan _ _ _) => some (copy, r.userIn, plan)
  | _ => none

/-- The user and the new generation of a repair that has read its target. -/
def Local.repairs : Local → Option (UserId × Nat)
  | .repair r (.capture generation) => some (r.userId, generation)
  | .repair r (.purge generation _) => some (r.userId, generation)
  | .repair r (.commit generation _ _) => some (r.userId, generation)
  | _ => none

def Planned (settings : Settings) (l : Local) : Prop :=
  ∀ copy userIn plan, l.plan = some (copy, userIn, plan) → planUpdate settings copy userIn = .ok plan

/-- A repair computes with the committed row. -/
def RepairsCurrent (w : World) (l : Local) : Prop :=
  ∀ uid generation, l.repairs = some (uid, generation) → ∃ user, w.db.users.lookup uid = some user ∧
    privilegeClaimsAreConsistent user.role user.isSuperuser = false ∧
    generation = user.authGeneration + 1

theorem Local.Signs.copy {l : Local} {uid : UserId} {copy : User} (hsigns : l.Signs uid copy) :
    l.copy = some (uid, copy) := by
  cases hsigns with
  | login => rfl
  | refresh huser => exact congrArg (fun uid => some (uid, copy)) huser

theorem Local.Saves.copy {l : Local} {uid : UserId} {copy : User} {pair : TokenPair}
    {data : ClientSessionCreate} {existing : Option (SessionId × ClientSession)}
    (hsaves : l.Saves uid copy pair data existing) : l.copy = some (uid, copy) := by
  cases hsaves with
  | login => rfl
  | refresh huser => exact congrArg (fun uid => some (uid, copy)) huser

section

variable {settings : Settings} {p : Pid} {w w' : World} {l l' : Local} {a : Action}

theorem Begins.copies {request : Local} (hbegins : Begins settings w request) :
    request.copy = none ∧ request.outboxCopy = none := by
  cases hbegins <;> exact ⟨rfl, rfl⟩

private theorem loaded_eq {uid : UserId} {copy : User} {found : UserId × User}
    (hcopy : w.db.users.lookup uid = some copy) (hfound : some (uid, copy) = some found) :
    w.db.users.lookup found.1 = some found.2 := by
  obtain rfl := Option.some.inj hfound
  exact hcopy

/-- A request's copy is the one it had, or it is the committed row. -/
theorem Step.copy (hstep : Step settings p w l a w' l') {found : UserId × User}
    (hcopy : l'.copy = some found) :
    l.copy = some found ∨ w'.db.users.lookup found.1 = some found.2 := by
  cases hstep with
  | begin hbegins =>
      rw [hbegins.copies.1] at hcopy
      cases hcopy
  | tick | setRedis | reap | abort | error | commandError | postCommit | commandsDone | command =>
      cases hcopy
  | update hstep =>
      cases hstep with
      | load hload => exact .inr (loaded_eq hload hcopy)
      | commit => cases hcopy
      | _ => exact .inl hcopy
  | delete hstep =>
      cases hstep with
      | load hload => exact .inr (loaded_eq hload hcopy)
      | commit => cases hcopy
      | _ => exact .inl hcopy
  | repair hstep => cases hstep <;> cases hcopy
  | @login r _ _ _ _ hstep =>
      cases hstep with
      | read hload | reload hload => exact .inr (loaded_eq hload hcopy)
      | sign _ hnext =>
          rcases hnext with rfl | rfl
          · cases hcopy
          · exact .inl hcopy
      | load => exact .inl hcopy
      | @save uid _ pair =>
          rcases r.afterSave_eq settings uid pair with heq | heq | heq <;>
            · rw [heq] at hcopy
              cases hcopy
      | register _ hnext => rcases hnext with rfl | rfl <;> cases hcopy
      | create | purgeExpired | purgeCommit | respond => cases hcopy
  | refresh hstep =>
      cases hstep with
      | lock _ hload =>
          refine .inr (loaded_eq hload ?_)
          split at hcopy
          · exact hcopy
          · exact hcopy
      | sign =>
          split at hcopy
          · cases hcopy
          · exact .inl hcopy
      | lineage | rotate | rotateSkip | load => exact .inl hcopy
      | allowlist | reuse | save | respond => cases hcopy
  | @logout r _ _ _ _ hstep =>
      cases hstep with
      | refreshRevoke | refreshFailed | refreshSkip =>
          obtain ⟨phase, heq, -⟩ := r.finish_eq _ _
          rw [heq] at hcopy
          cases hcopy
      | _ => cases hcopy
  | revokeSession hstep =>
      cases hstep with
      | load | purge => cases hcopy
      | commit => split at hcopy <;> cases hcopy
  | revokeUser hstep =>
      cases hstep with
      | capture | purge => cases hcopy
      | commit => split at hcopy <;> cases hcopy
  | deleteMe hstep => cases hstep <;> cases hcopy
  | legacySweep hstep => cases hstep <;> cases hcopy
  | drain hstep => cases hstep <;> cases hcopy

theorem Step.outboxCopy (hstep : Step settings p w l a w' l') {row : RevocationOutbox}
    (hcopy : l'.outboxCopy = some row) :
    l.outboxCopy = some row ∨ ∃ id, w'.db.outbox.lookup id = some row := by
  cases hstep with
  | begin hbegins =>
      rw [hbegins.copies.2] at hcopy
      cases hcopy
  | tick | setRedis | reap | abort | error | commandError | postCommit | commandsDone | command =>
      cases hcopy
  | update hstep => cases hstep <;> cases hcopy
  | delete hstep => cases hstep <;> cases hcopy
  | repair hstep => cases hstep <;> cases hcopy
  | login hstep => cases hstep <;> cases hcopy
  | refresh hstep => cases hstep <;> cases hcopy
  | @logout r _ _ _ _ hstep =>
      cases hstep with
      | refreshRevoke | refreshFailed | refreshSkip =>
          obtain ⟨phase, heq, -⟩ := r.finish_eq _ _
          rw [heq] at hcopy
          cases hcopy
      | _ => cases hcopy
  | revokeSession hstep =>
      cases hstep with
      | load | purge => cases hcopy
      | commit => split at hcopy <;> cases hcopy
  | revokeUser hstep =>
      cases hstep with
      | capture | purge => cases hcopy
      | commit => split at hcopy <;> cases hcopy
  | deleteMe hstep => cases hstep <;> cases hcopy
  | legacySweep hstep => cases hstep <;> cases hcopy
  | drain hstep =>
      cases hstep with
      | next hload =>
          obtain rfl := Option.some.inj hcopy
          exact .inr ⟨_, hload⟩
      | claim | done | finish => cases hcopy
      | @deliveryFailed _ _ _ phase hphase =>
          left
          rcases hphase with rfl | ⟨jti, rfl⟩
          · exact hcopy
          · exact hcopy
      | lapsed | blacklist | publish | revoke => exact .inl hcopy

theorem Planned.of_none (hnone : l.plan = none) : Planned settings l := by
  intro copy userIn plan hplan
  rw [hnone] at hplan
  cases hplan

theorem RepairsCurrent.of_none (hnone : l.repairs = none) : RepairsCurrent w l := by
  intro uid generation hrepairs
  rw [hnone] at hrepairs
  cases hrepairs

theorem Step.planned (hstep : Step settings p w l a w' l') (hplanned : Planned settings l) :
    Planned settings l' := by
  cases l' with
  | update r phase' =>
      obtain ⟨-, -, rfl⟩ | ⟨phase, rfl, hupdate⟩ := hstep.of_update
      · exact .of_none rfl
      · cases hupdate with
        | apply hplan | applyUnchanged hplan =>
            rintro copy userIn plan ⟨⟩
            exact hplan
        | purge => exact hplanned
        | _ => exact .of_none rfl
  | _ => exact .of_none rfl

theorem Step.repairsCurrent (hstep : Step settings p w l a w' l') (hcurrent : RepairsCurrent w l) :
    RepairsCurrent w' l' := by
  cases hstep with
  | begin hbegins => exact .of_none (by cases hbegins <;> rfl)
  | tick | setRedis | reap | abort | error | commandError | postCommit | commandsDone | command =>
      exact .of_none rfl
  | update hstep => exact .of_none (by cases hstep <;> rfl)
  | delete hstep => exact .of_none (by cases hstep <;> rfl)
  | repair hstep =>
      cases hstep with
      | load _ hload hmismatch hnext =>
          rintro uid generation ⟨⟩
          exact ⟨_, hload, hmismatch, (nextGeneration_eq_ok.1 hnext).2⟩
      | capture | purge => exact hcurrent
      | commit => exact .of_none rfl
  | login hstep => exact .of_none (by cases hstep <;> rfl)
  | refresh hstep => exact .of_none (by cases hstep <;> rfl)
  | @logout r _ _ _ _ hstep =>
      refine .of_none ?_
      cases hstep with
      | refreshRevoke | refreshFailed | refreshSkip =>
          obtain ⟨phase, heq, -⟩ := r.finish_eq _ _
          rw [heq]
          rfl
      | _ => rfl
  | revokeSession hstep =>
      refine .of_none ?_
      cases hstep with
      | load | purge => rfl
      | commit => split <;> rfl
  | revokeUser hstep =>
      refine .of_none ?_
      cases hstep with
      | capture | purge => rfl
      | commit => split <;> rfl
  | deleteMe hstep => exact .of_none (by cases hstep <;> rfl)
  | legacySweep hstep => exact .of_none (by cases hstep <;> rfl)
  | drain hstep => exact .of_none (by cases hstep <;> rfl)

theorem Local.lockedUser_of_repairs {uid : UserId} {generation : Nat}
    (hrepairs : l.repairs = some (uid, generation)) : l.lockedUser = some uid := by
  cases l with
  | repair r phase =>
      cases phase with
      | load => cases hrepairs
      | capture | purge | commit =>
          rw [repairs, Option.some.injEq, Prod.mk.injEq] at hrepairs
          exact congrArg some hrepairs.1
  | _ => cases hrepairs

theorem Step.othersRepairCurrent (hfresh : w.db.IdsFresh) (hstep : Step settings p w l a w' l')
    (hmover : HoldsUserLock p w l) {q : Pid} (hq : q ≠ p) {m : Local} (hholds : HoldsUserLock q w m)
    (hcurrent : RepairsCurrent w m) : RepairsCurrent w' m := by
  intro uid generation hrepairs
  obtain ⟨user, huser, hrest⟩ := hcurrent uid generation hrepairs
  have hlock := hholds uid (Local.lockedUser_of_repairs hrepairs)
  exact ⟨user, hstep.locked_user_stable hfresh hmover hq hlock huser, hrest⟩

end

end FaAuthM8

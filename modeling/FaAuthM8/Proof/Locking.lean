import FaAuthM8.System.Events

/-!
# The row lock of a user

Which user row a request has locked, by the point it has reached. A request keeps this lock until its
transaction ends, and no other request can take it meanwhile, so the committed row of a locked user changes
only through the request that holds the lock.
-/

namespace FaAuthM8

/-- The user whose row the request has locked before its last step. -/
def Local.lockedUser : Local → Option UserId
  | .update r (.enforce _ _) => some r.userId
  | .update r (.apply _ (some _)) => some r.userId
  | .update r (.purge _ _ (some _) _) => some r.userId
  | .update r (.commit _ _ (some _) _ _) => some r.userId
  | .delete r (.enforce _ _) => some r.userId
  | .delete r (.purge _ _ _) => some r.userId
  | .delete r (.commit _ _ _ _) => some r.userId
  | .repair r (.capture _) => some r.userId
  | .repair r (.purge _ _) => some r.userId
  | .repair r (.commit _ _ _) => some r.userId
  | .refresh r (.lineage _) => some r.token.sub
  | .refresh r (.sign _) => some r.token.sub
  | .refresh r (.rotate _ _) => some r.token.sub
  | .refresh r (.load _ _) => some r.token.sub
  | .refresh r (.save _ _ _ _) => some r.token.sub
  | .revokeUser ⟨none, uid, _⟩ _ => some uid
  | _ => none

/-- Process `p` holds the lock its local state says it has taken. -/
def HoldsUserLock (p : Pid) (w : World) (l : Local) : Prop :=
  ∀ uid, l.lockedUser = some uid → w.locks.user uid = some p

section

variable {settings : Settings} {p q : Pid} {w w' : World} {l l' : Local} {a : Action}

@[simp] theorem World.lockUser_holder (p : Pid) (uid : UserId) (w : World) :
    (w.lockUser p uid).locks.user uid = some p := by
  simp [Locks.takeUsers]

theorem HoldsUserLock.of_none (hnone : l.lockedUser = none) : HoldsUserLock p w l := by
  intro uid huid
  rw [hnone] at huid
  cases huid

private theorem HoldsUserLock.keep (hholds : HoldsUserLock p w l)
    (hsame : ∀ uid, l'.lockedUser = some uid → l.lockedUser = some uid)
    (hlocks : ∀ uid, w.locks.user uid = some p → w'.locks.user uid = some p) :
    HoldsUserLock p w' l' := by
  intro uid huid
  exact hlocks uid (hholds uid (hsame uid huid))

private theorem HoldsUserLock.took {uid : UserId} (hsame : ∀ uid', l'.lockedUser = some uid' → uid' = uid)
    (hlock : w'.locks.user uid = some p) : HoldsUserLock p w' l' := by
  intro uid' huid
  rw [hsame uid' huid]
  exact hlock

private theorem takeUsers_self {which : UserId → Bool} {locks : Locks} :
    ∀ uid, locks.user uid = some p → (locks.takeUsers p which).user uid = some p := by
  intro uid hholder
  simp only [Locks.takeUsers]
  split
  · rfl
  · exact hholder

theorem Begins.lockedUser {request : Local} (hbegins : Begins settings w request) :
    request.lockedUser = none := by
  cases hbegins with
  | @revokeUser r hactor =>
      obtain ⟨actor, uid, redis⟩ := r
      cases actor with
      | none => cases hactor
      | some actor => rfl
  | _ => rfl

theorem Step.holdsUserLock (hstep : Step settings p w l a w' l') (hholds : HoldsUserLock p w l) :
    HoldsUserLock p w' l' := by
  cases hstep with
  | begin hbegins => exact .of_none hbegins.lockedUser
  | tick | setRedis | reap | abort | error | commandError | postCommit | commandsDone | command =>
      exact .of_none rfl
  | update hstep =>
      cases hstep with
      | load | checkEmail | checkEmailOnly | lockPolicy | commit => exact .of_none rfl
      | @lockUser copy revision hfree =>
          refine .took (fun uid huid => ?_) (World.lockUser_holder _ _ _)
          exact (Option.some.inj huid).symm
      | enforceCount => exact hholds.keep (fun _ h => h) takeUsers_self
      | enforceSkip => exact hholds.keep (fun _ h => h) fun _ h => h
      | @apply copy revision | @applyUnchanged copy revision | @purge copy plan revision =>
          cases revision with
          | none => exact .of_none rfl
          | some revision => exact hholds.keep (fun _ h => h) fun _ h => h
  | delete hstep =>
      cases hstep with
      | load | lockPolicy | commit => exact .of_none rfl
      | lockUser =>
          refine .took (fun uid huid => ?_) (World.lockUser_holder _ _ _)
          exact (Option.some.inj huid).symm
      | enforceCount => exact hholds.keep (fun _ h => h) takeUsers_self
      | enforceSkip | purge => exact hholds.keep (fun _ h => h) fun _ h => h
  | repair hstep =>
      cases hstep with
      | load =>
          refine .took (fun uid huid => ?_) (World.lockUser_holder _ _ _)
          exact (Option.some.inj huid).symm
      | capture | purge => exact hholds.keep (fun _ h => h) fun _ h => h
      | commit => exact .of_none rfl
  | login hstep => exact .of_none (by cases hstep <;> rfl)
  | refresh hstep =>
      cases hstep with
      | allowlist | save | respond => exact .of_none rfl
      | @lock copy =>
          refine .took (fun uid huid => ?_) (World.lockUser_holder _ _ _)
          split at huid
          · exact (Option.some.inj huid).symm
          · exact (Option.some.inj huid).symm
      | lineage | reuse | rotateSkip | load => exact hholds.keep (fun _ h => h) fun _ h => h
      | sign =>
          split
          · exact .of_none rfl
          · exact hholds.keep (fun _ h => h) fun _ h => h
      | rotate _ hsend =>
          refine hholds.keep (fun _ h => h) fun uid huid => ?_
          rw [(World.send_frame hsend).2.1]
          exact huid
  | @logout r _ _ _ _ hstep =>
      refine .of_none ?_
      cases hstep with
      | refreshRevoke | refreshFailed | refreshSkip =>
          obtain ⟨phase, heq, -⟩ := r.finish_eq _ _
          rw [heq]
          rfl
      | _ => rfl
  | revokeSession hstep =>
      refine .of_none ?_
      cases hstep with
      | load | purge => rfl
      | commit => split <;> rfl
  | @revokeUser r _ _ _ _ hstep =>
      obtain ⟨actor, uid, redis⟩ := r
      cases hstep with
      | capture | purge =>
          cases actor with
          | none => exact hholds.keep (fun _ h => h) fun _ h => h
          | some actor => exact .of_none rfl
      | commit => exact .of_none (by split <;> rfl)
  | deleteMe hstep => exact .of_none (by cases hstep <;> rfl)
  | legacySweep hstep => exact .of_none (by cases hstep <;> rfl)
  | drain hstep => exact .of_none (by cases hstep <;> rfl)

theorem Step.othersHoldUserLock (hstep : Step settings p w l a w' l') {m : Local} (hq : q ≠ p)
    (hholds : HoldsUserLock q w m) : HoldsUserLock q w' m := by
  intro uid huid
  exact ((hstep.sameLocks hq).user uid).2 (hholds uid huid)

theorem Step.locked_user_stable (hfresh : w.db.IdsFresh) (hstep : Step settings p w l a w' l')
    (hmover : HoldsUserLock p w l) {uid : UserId} {user : User} (hq : q ≠ p)
    (hlock : w.locks.user uid = some q) (huser : w.db.users.lookup uid = some user) :
    w'.db.users.lookup uid = some user := by
  have hother {uid' : UserId} (hfree : free (w.locks.user uid') p = true) : uid ≠ uid' := by
    rintro rfl
    exact hq (free_iff.1 hfree q hlock)
  have hself {uid' : UserId} (hlocked : l.lockedUser = some uid') : uid ≠ uid' := by
    rintro rfl
    rw [hmover uid hlocked, Option.some.injEq] at hlock
    exact hq hlock.symm
  cases hstep.usersChange hfresh with
  | same husers => rw [husers, huser]
  | created _ husers =>
      rw [husers, Table.lookup_insert_eq, if_neg (Nat.ne_of_lt (hfresh.users uid user huser)), huser]
  | updated hlocal hcommit hfree hcurrent hsave husers =>
      rw [husers, Table.lookup_insert_eq, if_neg (hother hfree), huser]
  | repaired hlocal _ _ husers =>
      subst hlocal
      rw [husers, Table.lookup_insert_eq, if_neg (hself rfl), huser]
  | deleted hlocal _ husers =>
      subst hlocal
      rw [husers, Table.lookup_erase_eq, if_neg (hself rfl), huser]
  | selfDeleted _ _ hfree husers =>
      rw [husers, Table.lookup_erase_eq, if_neg (hother hfree), huser]

end

end FaAuthM8

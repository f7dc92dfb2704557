import FaAuthM8.System.Transitions

/-!
# What a step can change

The rules sorted by what they do to each part of the shared state. A lock is taken only when it is free, so
no step gives or takes a lock of another process; every change of the database is one commit; and each table
changes in one of a few ways. A proof about one table is by cases on these ways, not on all the rules.
-/

namespace FaAuthM8

/-- What a step of `p` may do to the locks. -/
inductive LockChange (p : Pid) (locks : Locks) : Locks → Prop
  | same : LockChange p locks locks
  | release : LockChange p locks (locks.release p)
  | policy (hfree : free locks.policy p = true) : LockChange p locks { locks with policy := some p }
  | users {which : UserId → Bool}
      (hfree : ∀ uid, which uid = true → free (locks.user uid) p = true) :
      LockChange p locks (locks.takeUsers p which)
  | sessions {ids : List SessionId} (hfree : locks.sessionsFree p ids = true) :
      LockChange p locks (locks.takeSessions p ids)

/-- Process `q` holds the same locks in both. -/
structure SameLocks (q : Pid) (locks locks' : Locks) : Prop where
  policy : locks'.policy = some q ↔ locks.policy = some q
  user : ∀ uid, locks'.user uid = some q ↔ locks.user uid = some q
  session : ∀ id, locks'.session id = some q ↔ locks.session id = some q

private theorem taken_iff {holder : Option Pid} {p q : Pid} (hfree : free holder p = true) (hq : q ≠ p) :
    some p = some q ↔ holder = some q := by
  constructor
  · intro heq
    exact absurd (Option.some.inj heq).symm hq
  · intro hholder
    exact absurd (free_iff.1 hfree q hholder) hq

theorem LockChange.others {p q : Pid} {locks locks' : Locks} (hchange : LockChange p locks locks')
    (hq : q ≠ p) : SameLocks q locks locks' := by
  cases hchange with
  | same => exact ⟨Iff.rfl, fun _ => Iff.rfl, fun _ => Iff.rfl⟩
  | release =>
      refine ⟨?_, fun uid => ?_, fun id => ?_⟩
      · exact drop_eq_some.trans (and_iff_left hq)
      · exact drop_eq_some.trans (and_iff_left hq)
      · exact drop_eq_some.trans (and_iff_left hq)
  | policy hfree => exact ⟨taken_iff hfree hq, fun _ => Iff.rfl, fun _ => Iff.rfl⟩
  | @users which hfree =>
      refine ⟨Iff.rfl, fun uid => ?_, fun _ => Iff.rfl⟩
      simp only [Locks.takeUsers]
      split
      · next hwhich => exact taken_iff (hfree uid hwhich) hq
      · exact Iff.rfl
  | @sessions ids hfree =>
      refine ⟨Iff.rfl, fun _ => Iff.rfl, fun id => ?_⟩
      simp only [Locks.takeSessions]
      split
      · next hmem =>
          rw [Locks.sessionsFree, List.all_eq_true] at hfree
          exact taken_iff (hfree id (by simpa using hmem)) hq
      · exact Iff.rfl

theorem World.superusersFree_iff {w : World} {p : Pid} {exclude : UserId} :
    w.superusersFree p exclude = true ↔
      ∀ uid, w.isOtherSuperuser exclude uid = true → free (w.locks.user uid) p = true := by
  rw [superusersFree, List.all_eq_true]
  constructor
  · intro hall uid hother
    have hmem : uid ∈ w.db.users.keys := by
      rw [isOtherSuperuser, Bool.and_eq_true] at hother
      cases huser : w.db.users.lookup uid with
      | none => simp [huser] at hother
      | some user => exact Table.mem_keys huser
    have hfree := hall uid hmem
    rw [hother] at hfree
    simpa using hfree
  · intro hall uid _
    cases hother : w.isOtherSuperuser exclude uid with
    | true => simpa using hall uid hother
    | false => rfl

section

variable {settings : Settings} {p : Pid} {w w' : World} {l l' : Local} {a : Action}

theorem World.send_frame {command : RedisCommand} (hsend : w.send command = some w') :
    w'.db = w.db ∧ w'.locks = w.locks ∧ w'.now = w.now ∧ w'.nextJti = w.nextJti ∧
      w'.redisUp = w.redisUp ∧ w'.log = .redis command :: w.log := by
  obtain ⟨-, redis, -, rfl⟩ := World.send_eq_some hsend
  exact ⟨rfl, rfl, rfl, rfl, rfl, rfl⟩

private theorem lockChange_of_eq {locks : Locks} (heq : locks = w.locks) :
    LockChange p w.locks locks := by
  rw [heq]
  exact .same

theorem Step.lockChange (hstep : Step settings p w l a w' l') : LockChange p w.locks w'.locks := by
  cases hstep with
  | begin | tick | setRedis | postCommit | commandsDone => exact .same
  | reap | abort | error | commandError => exact .release
  | command hsend => exact lockChange_of_eq (World.send_frame hsend).2.1
  | update hstep =>
      cases hstep with
      | load | checkEmail | checkEmailOnly | enforceSkip | apply | applyUnchanged => exact .same
      | lockPolicy hfree => exact .policy hfree
      | lockUser hfree => exact .users fun uid huid => by rwa [beq_iff_eq.1 huid]
      | enforceCount hfree => exact .users (World.superusersFree_iff.1 hfree)
      | purge hfree => exact .sessions hfree
      | commit => exact .release
  | delete hstep =>
      cases hstep with
      | load | enforceSkip => exact .same
      | lockPolicy hfree => exact .policy hfree
      | lockUser hfree => exact .users fun uid huid => by rwa [beq_iff_eq.1 huid]
      | enforceCount _ hfree => exact .users (World.superusersFree_iff.1 hfree)
      | purge hfree => exact .sessions hfree
      | commit => exact .release
  | repair hstep =>
      cases hstep with
      | load hfree => exact .users fun uid huid => by rwa [beq_iff_eq.1 huid]
      | capture => exact .same
      | purge hfree => exact .sessions hfree
      | commit => exact .release
  | login hstep =>
      cases hstep with
      | read | reload | sign | load | respond => exact .same
      | create | save | purgeCommit => exact .release
      | register hsend => exact lockChange_of_eq (World.send_frame hsend).2.1
      | purgeExpired hfree => exact .sessions hfree
  | refresh hstep =>
      cases hstep with
      | allowlist | lineage | sign | reuse | rotateSkip | load => exact .same
      | lock hfree => exact .users fun uid huid => by rwa [beq_iff_eq.1 huid]
      | rotate _ hsend => exact lockChange_of_eq (World.send_frame hsend).2.1
      | save | respond => exact .release
  | logout hstep =>
      cases hstep with
      | accessPurge _ hfree | sessionPurge hfree => exact .sessions hfree
      | accessCommit | sessionCommit => exact .release
      | blacklist hsend | refreshRevoke _ hsend =>
          exact lockChange_of_eq (World.send_frame hsend).2.1
      | _ => exact .same
  | revokeSession hstep =>
      cases hstep with
      | load => exact .same
      | purge _ hfree => exact .sessions hfree
      | commit => exact .release
  | revokeUser hstep =>
      cases hstep with
      | capture => exact .same
      | purge hfree => exact .sessions hfree
      | commit => exact .release
  | deleteMe hstep =>
      cases hstep with
      | authenticate | load => exact .same
      | commit => exact .release
  | legacySweep hstep =>
      cases hstep with
      | purge hfree => exact .sessions hfree
      | commit => exact .release
  | drain hstep =>
      cases hstep with
      | done | next | lapsed | publish | deliveryFailed => exact .same
      | claim | finish => exact .release
      | blacklist _ hsend | revoke hsend =>
          exact lockChange_of_eq (World.send_frame hsend).2.1

theorem Step.sameLocks (hstep : Step settings p w l a w' l') {q : Pid} (hq : q ≠ p) :
    SameLocks q w.locks w'.locks :=
  hstep.lockChange.others hq

theorem Step.commits (hstep : Step settings p w l a w' l') :
    ∃ writes, commit writes w.db = .ok w'.db := by
  have hsame {db' : Db} (heq : db' = w.db) : ∃ writes, commit writes w.db = .ok db' :=
    ⟨[], by rw [heq, commit_nil]⟩
  cases hstep with
  | begin | tick | setRedis | postCommit | commandsDone | abort | error | commandError =>
      exact hsame rfl
  | reap hcommit => exact ⟨_, hcommit⟩
  | command hsend => exact hsame (World.send_frame hsend).1
  | update hstep =>
      cases hstep with
      | commit _ hcommit => exact ⟨_, hcommit⟩
      | _ => exact hsame rfl
  | delete hstep =>
      cases hstep with
      | commit hcommit => exact ⟨_, hcommit⟩
      | _ => exact hsame rfl
  | repair hstep =>
      cases hstep with
      | commit hcommit => exact ⟨_, hcommit⟩
      | _ => exact hsame rfl
  | login hstep =>
      cases hstep with
      | create _ hcommit => exact ⟨_, hcommit⟩
      | save _ hcommit => exact ⟨_, hcommit⟩
      | @purgeCommit _ doomed => exact ⟨[.deleteSessions doomed], rfl⟩
      | register hsend => exact hsame (World.send_frame hsend).1
      | _ => exact hsame rfl
  | refresh hstep =>
      cases hstep with
      | save _ hcommit => exact ⟨_, hcommit⟩
      | rotate _ hsend => exact hsame (World.send_frame hsend).1
      | _ => exact hsame rfl
  | logout hstep =>
      cases hstep with
      | @accessCommit doomed | @sessionCommit _ doomed _ => exact ⟨[.deleteSessions doomed], rfl⟩
      | blacklist hsend | refreshRevoke _ hsend => exact hsame (World.send_frame hsend).1
      | _ => exact hsame rfl
  | revokeSession hstep =>
      cases hstep with
      | commit hcommit => exact ⟨_, hcommit⟩
      | _ => exact hsame rfl
  | revokeUser hstep =>
      cases hstep with
      | commit hcommit => exact ⟨_, hcommit⟩
      | _ => exact hsame rfl
  | @deleteMe r _ _ _ _ hstep =>
      cases hstep with
      | commit => exact ⟨[.deleteUser r.token.sub], rfl⟩
      | _ => exact hsame rfl
  | legacySweep hstep =>
      cases hstep with
      | purge => exact hsame rfl
      | @commit doomed => exact ⟨[.deleteSessions doomed], rfl⟩
  | drain hstep =>
      cases hstep with
      | claim _ hcommit => exact ⟨_, hcommit⟩
      | finish hcommit => exact ⟨_, hcommit⟩
      | blacklist _ hsend | revoke hsend => exact hsame (World.send_frame hsend).1
      | _ => exact hsame rfl

theorem Step.idsFresh (hstep : Step settings p w l a w' l') (hfresh : w.db.IdsFresh) :
    w'.db.IdsFresh := by
  obtain ⟨writes, hcommit⟩ := hstep.commits
  exact commit_idsFresh hfresh hcommit

end

end FaAuthM8

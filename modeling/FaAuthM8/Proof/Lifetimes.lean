import FaAuthM8.Proof.Issuing
import FaAuthM8.Proof.Propagation

/-!
# How long a revoked token stays on the blacklist

Each way to revoke a token turns what is left of its lifetime into whole seconds, and asks Redis to keep the
blacklist entry for as many. What is cut off is missing at the end: the entry vanishes before the token
expires, unless the delay until the write makes up for it. A logout also sends a lifetime of zero seconds,
which Redis refuses.
-/

namespace FaAuthM8

theorem wholeSeconds_mul_second {delta : Int} (hdelta : 0 ≤ delta) :
    wholeSeconds delta * second = delta - delta % second := by
  simp only [wholeSeconds, if_pos hdelta, second]
  omega

theorem wholeSeconds_eq_zero_iff {delta : Int} : wholeSeconds delta = 0 ↔ -second < delta ∧ delta < second := by
  simp only [wholeSeconds, second]
  split <;> omega

theorem wholeSeconds_nonneg_iff {delta : Int} : 0 ≤ wholeSeconds delta ↔ -second < delta := by
  simp only [wholeSeconds, second]
  split <;> omega

/-! ### One revocation -/

inductive RevocationPath
  | logout
  | postCommit
  | outbox
deriving DecidableEq, Repr

/-- The commands a path sends for a token that expires at `expiresAt`, when it reads the clock at `now`. -/
def RevocationPath.commands (now : Int) (jti : Jti) (expiresAt : Int) : RevocationPath → List RedisCommand
  | logout => revokeSessionJtiCommands now jti expiresAt
  | postCommit => postCommitCommands now ⟨jti, expiresAt⟩
  | outbox => OutboxWorker.effectCommands now (.blacklist jti expiresAt)

theorem LogoutRequest.blacklist_sends {settings : Settings} {p : Pid} {w : World} {r : LogoutRequest}
    (hredis : r.redis = true) {command : RedisCommand} {rest : List RedisCommand}
    (hcommands : RevocationPath.logout.commands w.now r.access.jti r.access.exp = command :: rest) :
    r.step settings p w .blacklist =
      sending w command (some (w, .logout r (.refreshRevoke none true)))
        (.logout r (.refreshRevoke (some r.access.jti) false)) := by
  simp only [RevocationPath.commands, revokeSessionJtiCommands] at hcommands
  split at hcommands
  · next hnonneg =>
      cases hcommands
      simp [LogoutRequest.step, hnonneg, hredis]
  · cases hcommands

/-- The keys after commands of which the first that is refused raises. -/
def Redis.afterCommands (redis : Redis) (now : Int) : List RedisCommand → Redis
  | [] => redis
  | command :: rest =>
      match redis.execute now command with
      | some redis' => redis'.afterCommands now rest
      | none => redis

section

variable {redis : Redis} {now clock expiresAt : Int} {jti : Jti}

theorem RevocationPath.commands_of_left (path : RevocationPath) (jti : Jti)
    (hleft : second ≤ expiresAt - clock) : ∃ rest, (rest = [] ∨ rest = [.revoke jti]) ∧
      path.commands clock jti expiresAt =
        .blacklistJti jti (wholeSeconds (expiresAt - clock)) :: rest := by
  rw [← wholeSeconds_pos_iff] at hleft
  cases path with
  | logout =>
      refine ⟨[], .inl rfl, ?_⟩
      rw [commands, revokeSessionJtiCommands]
      exact if_pos (Int.le_of_lt hleft)
  | postCommit =>
      refine ⟨[.revoke jti], .inr rfl, ?_⟩
      rw [commands, postCommitCommands]
      exact if_pos hleft
  | outbox =>
      refine ⟨[.revoke jti], .inr rfl, ?_⟩
      rw [commands, OutboxWorker.effectCommands]
      exact if_neg (Int.not_le.2 hleft)

/-- In the last second a path sends no lifetime, or zero. -/
theorem RevocationPath.commands_of_last (path : RevocationPath) (jti : Jti) (hclock : clock ≤ expiresAt)
    (hlast : expiresAt - clock < second) : path.commands clock jti expiresAt = [] ∨
      path.commands clock jti expiresAt = [.revoke jti] ∨
      path.commands clock jti expiresAt = [.blacklistJti jti 0] := by
  have hzero : wholeSeconds (expiresAt - clock) = 0 := by
    rw [wholeSeconds_eq_zero_iff]
    rw [second] at hlast ⊢
    omega
  cases path with
  | logout =>
      rw [commands, revokeSessionJtiCommands, hzero]
      exact .inr (.inr rfl)
  | postCommit =>
      rw [commands, postCommitCommands, hzero]
      exact .inr (.inl rfl)
  | outbox =>
      rw [commands, OutboxWorker.effectCommands, hzero]
      exact .inl rfl

theorem RevocationPath.blacklist_of_left (path : RevocationPath) (redis : Redis) (jti : Jti) (now : Int)
    (hleft : second ≤ expiresAt - clock) :
    (redis.afterCommands now (path.commands clock jti expiresAt)).blacklist jti =
      some (now + wholeSeconds (expiresAt - clock) * second) := by
  obtain ⟨rest, hrest, hcommands⟩ := path.commands_of_left jti hleft
  rw [hcommands]
  rw [← wholeSeconds_pos_iff] at hleft
  rcases hrest with rfl | rfl
  · simp [Redis.afterCommands, Redis.execute, hleft]
  · simp [Redis.afterCommands, Redis.execute, hleft]

theorem RevocationPath.blacklist_of_last (path : RevocationPath) (redis : Redis) (jti : Jti) (now : Int)
    (hclock : clock ≤ expiresAt) (hlast : expiresAt - clock < second) :
    (redis.afterCommands now (path.commands clock jti expiresAt)).blacklist jti = redis.blacklist jti := by
  obtain hnone | hrevoke | hzero := path.commands_of_last jti hclock hlast
  · rw [hnone]
    rfl
  · rw [hrevoke]
    rfl
  · rw [hzero]
    rfl

theorem blacklisted_until_iff {redis : Redis} {jti : Jti} {now expiresAt : Int} (hnow : now < expiresAt) :
    (∀ instant, now ≤ instant → instant < expiresAt → redis.isBlacklisted instant jti = true) ↔
      ∃ vanishes, redis.blacklist jti = some vanishes ∧ expiresAt ≤ vanishes := by
  simp only [Redis.isBlacklisted, keyExists]
  cases redis.blacklist jti with
  | none =>
      refine iff_of_false (fun hall => ?_) (by simp)
      have habsent := hall now (Int.le_refl now) hnow
      cases habsent
  | some vanishes =>
      simp only [Option.any_some, decide_eq_true_eq, Option.some.injEq, exists_eq_left']
      constructor
      · intro hall
        have hlast := hall (expiresAt - 1) (by omega) (by omega)
        omega
      · intro hvanishes instant _ hinstant
        exact Int.lt_of_lt_of_le hinstant hvanishes

end

/-- For every path, every expiry and every earlier instant `clock` at which the path computes the lifetime,
the token is on the blacklist from the write at `now` up to its expiry exactly if a whole second is left and
what is cut off is made up for by the time from `clock` to `now`, or if less than a second is left and an
earlier entry lasts that long. -/
theorem revocation_outlasts_iff (path : RevocationPath) (redis : Redis) (jti : Jti)
    {clock now expiresAt : Int} (hclock : clock ≤ now) (hnow : now < expiresAt) :
    (∀ instant, now ≤ instant → instant < expiresAt →
      (redis.afterCommands now (path.commands clock jti expiresAt)).isBlacklisted instant jti = true) ↔
      (second ≤ expiresAt - clock ∧ (expiresAt - clock) % second ≤ now - clock) ∨
        (expiresAt - clock < second ∧ ∃ vanishes, redis.blacklist jti = some vanishes ∧ expiresAt ≤ vanishes) := by
  rw [blacklisted_until_iff hnow]
  by_cases hleft : second ≤ expiresAt - clock
  · rw [path.blacklist_of_left redis jti now hleft, wholeSeconds_mul_second (by omega)]
    simp only [Option.some.injEq, exists_eq_left', hleft, Int.not_lt.2 hleft, true_and, false_and, or_false]
    constructor
    · intro hlasts
      omega
    · intro hcovered
      omega
  · have hlast : expiresAt - clock < second := Int.not_le.1 hleft
    rw [path.blacklist_of_last redis jti now (by omega) hlast]
    simp only [hleft, hlast, true_and, false_and, false_or]

theorem revocation_outlasts_wholeSecond :
    (Redis.afterCommands {} 5 (RevocationPath.postCommit.commands 5 7 (5 + 2 * second))).blacklist 7
        = some (5 + 2 * second) ∧
      ∀ instant, 5 ≤ instant → instant < 5 + 2 * second →
        (Redis.afterCommands {} 5 (RevocationPath.postCommit.commands 5 7 (5 + 2 * second))).isBlacklisted
          instant 7 = true :=
  ⟨by decide, (revocation_outlasts_iff .postCommit {} 7 (Int.le_refl 5) (by decide)).2 (.inl (by decide))⟩

/-- Half a second before a token expires whose revocation ran one and a half seconds before, the entry is
gone, whichever path it took. -/
theorem revocation_lapses_early :
    (Redis.afterCommands {} 0 (RevocationPath.logout.commands 0 7 1500000)).isBlacklisted 1000000 7 = false ∧
      (Redis.afterCommands {} 0 (RevocationPath.postCommit.commands 0 7 1500000)).isBlacklisted 1000000 7
        = false ∧
      (Redis.afterCommands {} 0 (RevocationPath.outbox.commands 0 7 1500000)).isBlacklisted 1000000 7
        = false := by
  decide

/-! ### The lifetimes that are sent -/

/-- The blacklist entry that the next step of a revocation path asks Redis for, and its lifetime. -/
def nextSetex (w : World) : Local → Option (Jti × Int)
  | .logout r .blacklist =>
      let rawTtl := wholeSeconds (r.access.exp - w.now)
      if 0 ≤ rawTtl && r.redis then some (r.access.jti, rawTtl) else none
  | .commands (.blacklistJti jti ttl :: _) => some (jti, ttl)
  | .drain r (.deliver _ copy _) =>
      match copy.effect with
      | .blacklist jti expiresAt =>
          let ttl := wholeSeconds (expiresAt - r.now)
          if ttl ≤ 0 then none else if r.redis then some (jti, ttl) else none
      | .publish _ => none
  | _ => none

/-- The process is a logout that blacklists its access token within a second of the expiry. -/
def LastSecond (w : World) (l : Local) (a : Action) : Prop :=
  a = .proceed ∧ ∃ r, l = .logout r .blacklist ∧ r.redis = true ∧ -second < r.access.exp - w.now ∧
    r.access.exp - w.now < second

/-- The pushes that remain have a lifetime. -/
def PushesPositive (l : Local) : Prop :=
  ∀ rest, l = .commands rest → ∀ jti ttl, .blacklistJti jti ttl ∈ rest → 1 ≤ ttl

section

variable {settings : Settings} {p : Pid} {w w' : World} {l l' : Local} {a : Action}

theorem step_setex {jti : Jti} {ttl : Int} (hsetex : nextSetex w l = some (jti, ttl)) :
    ∃ onError after, step settings p w l .proceed = sending w (.blacklistJti jti ttl) onError after := by
  cases l with
  | logout r phase =>
      cases phase with
      | blacklist =>
          simp only [nextSetex] at hsetex
          split at hsetex
          · next hsends =>
              cases hsetex
              refine ⟨some (w, .logout r (.refreshRevoke none true)),
                .logout r (.refreshRevoke (some r.access.jti) false), ?_⟩
              simp only [step, LogoutRequest.step, if_pos hsends]
          · cases hsetex
      | _ => cases hsetex
  | commands rest =>
      cases rest with
      | nil => cases hsetex
      | cons command rest =>
          cases command with
          | blacklistJti jti ttl =>
              cases hsetex
              exact ⟨_, _, rfl⟩
          | _ => cases hsetex
  | drain r phase =>
      cases phase with
      | deliver id copy rest =>
          simp only [nextSetex] at hsetex
          split at hsetex
          · next expiresAt heffect =>
              split at hsetex
              · cases hsetex
              · next httl =>
                  split at hsetex
                  · next hredis =>
                      cases hsetex
                      refine ⟨r.deliveryFailed w id copy rest, .drain r (.revoke jti id copy rest), ?_⟩
                      simp only [step, DrainRequest.step, heffect, if_neg httl, if_pos hredis]
                  · cases hsetex
          · cases hsetex
      | _ => cases hsetex
  | _ => cases hsetex

theorem mem_applyPostCommitRevocation {now : Int} {targets : List RevocationTarget} {jti : Jti} {ttl : Int}
    (hmem : .blacklistJti jti ttl ∈ applyPostCommitRevocation now targets) : 1 ≤ ttl := by
  rw [applyPostCommitRevocation, List.mem_flatMap] at hmem
  obtain ⟨target, -, hmem⟩ := hmem
  rw [postCommitCommands] at hmem
  split at hmem
  · next httl =>
      obtain ⟨rfl, rfl⟩ : jti = target.jti ∧ ttl = wholeSeconds (target.expiresAt - now) := by
        simpa using hmem
      exact httl
  · simp at hmem

theorem Step.pushesPositive (hstep : Step settings p w l a w' l') (hpositive : PushesPositive l) :
    PushesPositive l' := by
  intro rest' hrest'
  subst hrest'
  cases hstep with
  | postCommit =>
      intro jti ttl hmem
      exact mem_applyPostCommitRevocation hmem
  | command =>
      intro jti ttl hmem
      exact hpositive _ rfl jti ttl (List.mem_cons_of_mem _ hmem)
  | begin hbegins => cases hbegins
  | update hstep => cases hstep
  | delete hstep => cases hstep
  | repair hstep => cases hstep
  | login hstep => cases hstep
  | refresh hstep => cases hstep
  | @logout r _ _ _ _ hstep =>
      generalize hrest : Local.commands rest' = m at hstep
      cases hstep with
      | refreshRevoke | refreshFailed | refreshSkip =>
          obtain ⟨phase, heq, -⟩ := r.finish_eq _ _
          rw [heq] at hrest
          cases hrest
      | _ => cases hrest
  | revokeSession hstep =>
      generalize hrest : Local.commands rest' = m at hstep
      cases hstep with
      | commit => split at hrest <;> cases hrest
      | _ => cases hrest
  | revokeUser hstep =>
      generalize hrest : Local.commands rest' = m at hstep
      cases hstep with
      | commit => split at hrest <;> cases hrest
      | _ => cases hrest
  | deleteMe hstep => cases hstep
  | legacySweep hstep => cases hstep
  | drain hstep => cases hstep

/-- A path asks for a lifetime of at least one second, unless it is a logout in the last second. -/
theorem setex_positive_iff (hpositive : PushesPositive l) :
    (a = .proceed → ∀ jti ttl, nextSetex w l = some (jti, ttl) → 1 ≤ ttl) ↔ ¬ LastSecond w l a := by
  constructor
  · rintro hall ⟨ha, r, rfl, hredis, hlow, hhigh⟩
    have hzero : wholeSeconds (r.access.exp - w.now) = 0 := wholeSeconds_eq_zero_iff.2 ⟨hlow, hhigh⟩
    have hsent := hall ha r.access.jti 0 (by simp [nextSetex, hzero, hredis])
    omega
  · intro hnot ha jti ttl hsetex
    cases l with
    | logout r phase =>
        cases phase with
        | blacklist =>
            simp only [nextSetex] at hsetex
            split at hsetex
            · next hsends =>
                cases hsetex
                simp only [Bool.and_eq_true, decide_eq_true_eq] at hsends
                by_contra hnone
                have hzero : wholeSeconds (r.access.exp - w.now) = 0 := by omega
                obtain ⟨hlow, hhigh⟩ := wholeSeconds_eq_zero_iff.1 hzero
                exact hnot ⟨ha, r, rfl, hsends.2, hlow, hhigh⟩
            · cases hsetex
        | _ => cases hsetex
    | commands rest =>
        cases rest with
        | nil => cases hsetex
        | cons command rest =>
            cases command with
            | blacklistJti jti' ttl' =>
                cases hsetex
                exact hpositive _ rfl jti ttl List.mem_cons_self
            | _ => cases hsetex
    | drain r phase =>
        cases phase with
        | deliver id copy rest =>
            simp only [nextSetex] at hsetex
            split at hsetex
            · split at hsetex
              · cases hsetex
              · next httl =>
                  split at hsetex
                  · cases hsetex
                    omega
                  · cases hsetex
            · cases hsetex
        | _ => cases hsetex
    | _ => cases hsetex

/-! ### The answer of a logout -/

/-- A logout has recorded that one of its revocations failed. -/
def Local.hasFailed : Local → Bool
  | .logout _ (.refreshRevoke _ failed) => failed
  | .logout _ (.sessionPurge _ failed) => failed
  | .logout _ (.sessionCommit _ _ failed) => failed
  | .logout _ (.respond _ failed) => failed
  | _ => false

/-- If the process is a logout, its tokens are valid, Redis answers it, and it is not cut off. -/
def HealthyLogout (w : World) (l : Local) (a : Action) : Prop :=
  ∀ r phase, l = .logout r phase → r.redis = true ∧ w.redisUp = true ∧ r.access.isCurrent w.now = true ∧
    r.refresh.isCurrent w.now = true ∧ a ≠ .abort

/-- A logout that ends answers success. -/
def EndsWell (w w' : World) (l l' : Local) : Prop :=
  ∀ r phase, l = .logout r phase → l' = .idle → ∃ jti, w'.log = .loggedOut r.access r.refresh jti :: w.log

theorem LogoutRequest.finish_hasFailed (r : LogoutRequest) (result : Option Jti) (failed : Bool) :
    (r.finish result failed).hasFailed = failed ∧ r.finish result failed ≠ .idle := by
  cases result with
  | none => exact ⟨rfl, nofun⟩
  | some jti => exact ⟨rfl, nofun⟩

theorem committing_deleteSessions (w : World) (p : Pid) (doomed : List SessionId)
    (events : Db → List Event) (after : Local) :
    committing w p [.deleteSessions doomed] events after =
      some (w.committed p (w.db.deleteSessions doomed) (events (w.db.deleteSessions doomed)), after) :=
  rfl

/-- A healthy logout that has not failed fails in the last second only, and answers success if it ends. -/
theorem LogoutRequest.healthy_step {r : LogoutRequest} {phase : LogoutPhase}
    (hstep : r.step settings p w phase = some (w', l')) (hredis : r.redis = true) (hup : w.redisUp = true)
    (haccess : r.access.isCurrent w.now = true) (hrefresh : r.refresh.isCurrent w.now = true)
    (hbefore : (Local.logout r phase).hasFailed = false) :
    (l'.hasFailed = true ↔ phase = .blacklist ∧ r.access.exp - w.now < second) ∧
      (l' = .idle → ∃ jti, w'.log = .loggedOut r.access r.refresh jti :: w.log) := by
  cases phase with
  | accessPurge =>
      rw [LogoutRequest.step, if_pos haccess] at hstep
      obtain ⟨-, heq⟩ := Option.ite_none_right_eq_some.1 hstep
      cases heq
      exact ⟨iff_of_false Bool.false_ne_true (by simp), by simp⟩
  | accessCommit doomed =>
      rw [LogoutRequest.step, committing_deleteSessions] at hstep
      cases hstep
      exact ⟨iff_of_false Bool.false_ne_true (by simp), by simp⟩
  | blacklist =>
      have hvalid : w.now < r.access.exp := by simpa [AccessToken.isCurrent] using haccess
      have hnonneg : 0 ≤ wholeSeconds (r.access.exp - w.now) := by
        rw [wholeSeconds_nonneg_iff, second]
        omega
      simp only [LogoutRequest.step, hnonneg, hredis, decide_true, Bool.and_self, if_true, sending,
        World.send, hup, Redis.execute, wholeSeconds_pos_iff] at hstep
      by_cases hleft : second ≤ r.access.exp - w.now
      · simp only [hleft, if_true, Option.map_some, Option.some.injEq, Prod.mk.injEq] at hstep
        obtain ⟨-, rfl⟩ := hstep
        exact ⟨iff_of_false Bool.false_ne_true fun hlast => Int.not_lt.2 hleft hlast.2, by simp⟩
      · simp only [hleft, if_false, Option.map_none, Option.some.injEq, Prod.mk.injEq] at hstep
        obtain ⟨-, rfl⟩ := hstep
        exact ⟨iff_of_true rfl ⟨rfl, Int.not_le.1 hleft⟩, by simp⟩
  | refreshRevoke accessJti failed =>
      obtain rfl : failed = false := hbefore
      simp only [LogoutRequest.step, hredis, hrefresh, if_true, sending, World.send, hup, Redis.execute,
        Option.map_some, Option.some.injEq, Prod.mk.injEq] at hstep
      obtain ⟨-, rfl⟩ := hstep
      obtain ⟨hsame, hgoes⟩ := r.finish_hasFailed (some (accessJti.getD r.refresh.jti)) false
      rw [hsame]
      exact ⟨iff_of_false Bool.false_ne_true (by simp), fun hidle => absurd hidle hgoes⟩
  | sessionPurge jti failed =>
      obtain rfl : failed = false := hbefore
      rw [LogoutRequest.step] at hstep
      obtain ⟨-, heq⟩ := Option.ite_none_right_eq_some.1 hstep
      cases heq
      exact ⟨iff_of_false Bool.false_ne_true (by simp), by simp⟩
  | sessionCommit jti doomed failed =>
      obtain rfl : failed = false := hbefore
      rw [LogoutRequest.step, committing_deleteSessions] at hstep
      cases hstep
      exact ⟨iff_of_false Bool.false_ne_true (by simp), by simp⟩
  | respond jti failed =>
      obtain rfl : failed = false := hbefore
      rw [LogoutRequest.step, Bool.false_and, if_neg Bool.false_ne_true] at hstep
      cases hstep
      exact ⟨iff_of_false Bool.false_ne_true (by simp), fun _ => ⟨jti, rfl⟩⟩

theorem hasFailed_of_other (hstep : Step settings p w l a w' l') (hother : ∀ r phase, l ≠ .logout r phase) :
    l'.hasFailed = false := by
  cases l' with
  | logout r phase =>
      cases hstep.comes with
      | same hkind =>
          cases l with
          | logout r₀ phase₀ => exact absurd rfl (hother r₀ phase₀)
          | _ => cases hkind
      | begun _ _ _ hbegins =>
          cases hbegins with
          | logoutStateful => rfl
          | logoutHybrid => rfl
      | ended hidle => cases hidle
      | reuse _ hto | followUp hto => cases hto
  | _ => rfl

theorem healthy_step (hstep : step settings p w l a = some (w', l')) (hhealthy : HealthyLogout w l a)
    (hbefore : l.hasFailed = false) :
    (l'.hasFailed = true ↔ LastSecond w l a) ∧ EndsWell w w' l l' := by
  by_cases hlogout : ∃ r phase, l = .logout r phase
  · obtain ⟨r, phase, rfl⟩ := hlogout
    obtain ⟨hredis, hup, haccess, hrefresh, ha⟩ := hhealthy r phase rfl
    have hproceed : a = .proceed := by
      cases a with
      | proceed => rfl
      | abort => exact absurd rfl ha
      | _ => cases hstep
    subst hproceed
    obtain ⟨hfails, hends⟩ := LogoutRequest.healthy_step hstep hredis hup haccess hrefresh hbefore
    refine ⟨?_, ?_⟩
    · rw [hfails]
      constructor
      · rintro ⟨rfl, hlast⟩
        have hvalid : w.now < r.access.exp := by simpa [AccessToken.isCurrent] using haccess
        refine ⟨rfl, r, rfl, hredis, ?_, hlast⟩
        rw [second]
        omega
      · rintro ⟨-, r', heq, -, -, hlast⟩
        cases heq
        exact ⟨rfl, hlast⟩
    · intro r' phase' heq hidle
      cases heq
      exact hends hidle
  · have hother : ∀ r phase, l ≠ .logout r phase := fun r phase heq => hlogout ⟨r, phase, heq⟩
    rw [hasFailed_of_other (step_sound hstep) hother]
    refine ⟨iff_of_false Bool.false_ne_true ?_, fun r phase heq => absurd heq (hother r phase)⟩
    rintro ⟨-, r, heq, -⟩
    exact hother r _ heq

end

/-! ### Runs -/

section

variable {settings : Settings} {c c' : Interleaving.Config World Local} {move : Pid × Action}

theorem pushesPositive_next (hpositive : ∀ p, PushesPositive (c.locals p))
    (hnext : (issuer settings).next c move = some c') : ∀ p, PushesPositive (c'.locals p) := by
  obtain ⟨l', hlocals, hstep⟩ := next_sound hnext
  intro p
  rw [hlocals]
  by_cases hp : p = move.1
  · subst hp
    rw [Function.update_self]
    exact hstep.pushesPositive (hpositive move.1)
  · rw [Function.update_of_ne hp]
    exact hpositive p

/-- No logout has failed before a healthy step: one fails by it exactly in the last second. -/
theorem healthy_next (hnone : ∀ p, (c.locals p).hasFailed = false)
    (hnext : (issuer settings).next c move = some c')
    (hhealthy : HealthyLogout c.shared (c.locals move.1) move.2) :
    ((c'.locals move.1).hasFailed = true ↔ LastSecond c.shared (c.locals move.1) move.2) ∧
      EndsWell c.shared c'.shared (c.locals move.1) (c'.locals move.1) ∧
      ((c'.locals move.1).hasFailed = false → ∀ p, (c'.locals p).hasFailed = false) := by
  obtain ⟨p, a⟩ := move
  obtain ⟨w', l', hstep, rfl⟩ := Interleaving.System.next_eq_some.1 hnext
  have hself : Function.update c.locals p l' p = l' := Function.update_self ..
  obtain ⟨hfails, hends⟩ := healthy_step hstep hhealthy (hnone p)
  simp only [hself]
  refine ⟨hfails, hends, fun hkept q => ?_⟩
  by_cases hq : q = p
  · rw [hq, hself, hkept]
  · rw [Function.update_of_ne hq, hnone q]

end

/-- Every lifetime that a revocation path sends is at least one second exactly if no logout blacklists its
token in the last second. Where logouts are healthy, that is also exactly when none of them fails; then each
of them that ends answers success. -/
theorem setex_ttl_iff (settings : Settings) {c₀ : Interleaving.Config World Local}
    (hidle : ∀ p, c₀.locals p = .idle) (schedule : List (Pid × Action)) :
    ((issuer settings).Along (fun c move _ => move.2 = .proceed →
        ∀ jti ttl, nextSetex c.shared (c.locals move.1) = some (jti, ttl) → 1 ≤ ttl) c₀ schedule ↔
      (issuer settings).Along (fun c move _ => ¬ LastSecond c.shared (c.locals move.1) move.2) c₀ schedule) ∧
    ((issuer settings).Along (fun c move _ => HealthyLogout c.shared (c.locals move.1) move.2) c₀ schedule →
      ((issuer settings).Along (fun _ move c' => (c'.locals move.1).hasFailed = false) c₀ schedule ↔
        (issuer settings).Along (fun c move _ => ¬ LastSecond c.shared (c.locals move.1) move.2) c₀ schedule) ∧
      ((issuer settings).Along (fun c move _ => ¬ LastSecond c.shared (c.locals move.1) move.2) c₀ schedule →
        (issuer settings).Along (fun c move c' =>
          EndsWell c.shared c'.shared (c.locals move.1) (c'.locals move.1)) c₀ schedule)) := by
  have hnone : ∀ p, (c₀.locals p).hasFailed = false := by
    intro p
    rw [hidle p]
    rfl
  refine ⟨?_, fun hhealthy => ?_⟩
  · have hpositive : ∀ p, PushesPositive (c₀.locals p) := by
      intro p rest hrest
      rw [hidle p] at hrest
      cases hrest
    exact Interleaving.System.along_iff (fun c move c' hpositive _ => setex_positive_iff (hpositive move.1))
      (fun c move c' hpositive hnext _ => pushesPositive_next hpositive hnext) schedule hpositive
  · have hsafe : ∀ c move c', (∀ p, (c.locals p).hasFailed = false) →
        (issuer settings).next c move = some c' →
        HealthyLogout c.shared (c.locals move.1) move.2 ∧
          ¬ LastSecond c.shared (c.locals move.1) move.2 →
        ((c'.locals move.1).hasFailed = false ∧
          EndsWell c.shared c'.shared (c.locals move.1) (c'.locals move.1)) ∧
        ∀ p, (c'.locals p).hasFailed = false := by
      intro c move c' hnone hnext hok
      obtain ⟨hfails, hends, hkept⟩ := healthy_next hnone hnext hok.1
      have hunfailed : (c'.locals move.1).hasFailed = false := by
        rw [← Bool.not_eq_true, hfails]
        exact hok.2
      exact ⟨⟨hunfailed, hends⟩, hkept hunfailed⟩
    have hconversely : ∀ c move c', (∀ p, (c.locals p).hasFailed = false) →
        (issuer settings).next c move = some c' →
        HealthyLogout c.shared (c.locals move.1) move.2 ∧ (c'.locals move.1).hasFailed = false →
        ¬ LastSecond c.shared (c.locals move.1) move.2 ∧ ∀ p, (c'.locals p).hasFailed = false := by
      intro c move c' hnone hnext hok
      obtain ⟨hfails, -, hkept⟩ := healthy_next hnone hnext hok.1
      rw [← hfails, hok.2]
      exact ⟨Bool.false_ne_true, hkept hok.2⟩
    refine ⟨⟨fun hunfailed => ?_, fun hnot => ?_⟩, fun hnot => ?_⟩
    · exact Interleaving.System.along_of_guarded hconversely hnone
        (Interleaving.System.along_and hhealthy hunfailed)
    · have hboth := Interleaving.System.along_of_guarded hsafe hnone
        (Interleaving.System.along_and hhealthy hnot)
      exact Interleaving.System.along_mono (fun _ _ _ hok => hok.1) hboth
    · have hboth := Interleaving.System.along_of_guarded hsafe hnone
        (Interleaving.System.along_and hhealthy hnot)
      exact Interleaving.System.along_mono (fun _ _ _ hok => hok.2) hboth

/-- The reader signs in, and signs out half a second before the access token expires. -/
def logoutInLastSecond : List (Pid × Action) :=
  firstLogin 1 ++ [(2, .tick 1799500000),
    (1, .begin (.logout ⟨(readerPair {}).access, (readerPair {}).refresh, true⟩ .accessPurge)),
    (1, .proceed), (1, .proceed)]

theorem setex_ttl_iff_logout :
    (issuer {}).Along (fun c move _ => move.2 = .proceed →
      ∀ jti ttl, nextSetex c.shared (c.locals move.1) = some (jti, ttl) → 1 ≤ ttl) oneReader
      logoutInLastSecond ↔
    (issuer {}).Along (fun c move _ => ¬ LastSecond c.shared (c.locals move.1) move.2) oneReader
      logoutInLastSecond :=
  (setex_ttl_iff {} oneReader_starts.idle logoutInLastSecond).1

/-- The logout asks for a lifetime of zero seconds; with Redis and the database up and both tokens valid, it
answers that it failed, and ends without having answered success. -/
theorem logout_fails_in_last_second :
    ∃ c c', (issuer {}).run oneReader logoutInLastSecond = some c ∧
      nextSetex c.shared (c.locals 1) = some (0, 0) ∧
      (issuer {}).run c (List.replicate 5 (1, .proceed)) = some c' ∧ c'.locals 1 = .idle ∧
      c'.shared.redisUp = true ∧ (readerPair {}).access.isCurrent c'.shared.now = true ∧
      (readerPair {}).refresh.isCurrent c'.shared.now = true ∧
      ∀ jti, .loggedOut (readerPair {}).access (readerPair {}).refresh jti ∉ c'.shared.log := by
  have hbefore : ((issuer {}).run oneReader logoutInLastSecond).map (fun c =>
      nextSetex c.shared (c.locals 1)) = some (some (0, 0)) := by
    decide +kernel
  have hafter : ((issuer {}).run oneReader (logoutInLastSecond ++ List.replicate 5 (1, .proceed))).map
      (fun c' => (decide (c'.locals 1 = .idle), c'.shared.redisUp,
        (readerPair {}).access.isCurrent c'.shared.now, (readerPair {}).refresh.isCurrent c'.shared.now,
        c'.shared.log.all fun
          | .loggedOut _ _ _ => false
          | _ => true)) = some (true, true, true, true, true) := by
    decide +kernel
  obtain ⟨c', hboth, hresult⟩ := Option.map_eq_some_iff.1 hafter
  obtain ⟨c, hrun, hrest⟩ := Interleaving.System.run_append.1 hboth
  rw [hrun, Option.map_some, Option.some.injEq] at hbefore
  simp only [Prod.mk.injEq, decide_eq_true_eq, List.all_eq_true] at hresult
  obtain ⟨hidle, hup, haccess, hrefresh, hnone⟩ := hresult
  refine ⟨c, c', hrun, hbefore, hrest, hidle, hup, haccess, hrefresh, fun jti hmem => ?_⟩
  cases hnone _ hmem

end FaAuthM8


import FaAuthM8.Core.RateLimiter
import FaAuthM8.Lib.Interleaving

/-!
# Concurrent rate-limit checks

Any number of requests check their limits at once. A check counts one period after another, each with one
pipeline at one instant, and reads the clock again for the end of the window; between these steps time may
pass and other requests may count. The log records what was counted and what was answered, newest first, and
no step reads it.
-/

namespace FaAuthM8

/-- One counted period of a check: when it was counted, and what the counter came to. -/
structure Count where
  period : Period
  limit : Nat
  countedAt : Datetime
  value : Nat
deriving DecidableEq, Repr

namespace Count

def window (count : Count) : List Nat := count.period.window count.countedAt

def entry (count : Count) : Period × Nat := (count.period, count.limit)

end Count

inductive LimiterEvent
  | counted (p : Nat) (apiKeyId : Uuid) (count : Count)
  | answered (p : Nat) (apiKeyId : Uuid) (limits : List (Period × Nat)) (result : RateLimitResult)
      (counts : List Count)
deriving DecidableEq, Repr

structure LimiterWorld where
  counters : Counters := ∅
  clock : Datetime
  log : List LimiterEvent := []

/-- The point a check of some limits has reached: the result of its first window, what it has counted so far
and what remains. -/
inductive LimiterLocal
  | idle
  | check (apiKeyId : Uuid) (limits : List (Period × Nat)) (first : Option RateLimitResult)
      (counts : List Count) (rest : List (Period × Nat))
  | read (apiKeyId : Uuid) (limits : List (Period × Nat)) (first : Option RateLimitResult)
      (counts : List Count) (count : Count) (rest : List (Period × Nat))
deriving DecidableEq, Repr

inductive LimiterAction
  | begin (apiKeyId : Uuid) (limits : List (Period × Nat))
  | proceed
  | abort
  | tick (clock : Datetime)
deriving DecidableEq, Repr

namespace LimiterWorld

/-- Counts one period of a check, under the window the clock shows. -/
def count (w : LimiterWorld) (p : Nat) (apiKeyId : Uuid) (period : Period) (limit : Nat) :
    Count × LimiterWorld :=
  let (value, counters) := RedisRateLimiter.increment w.counters w.clock apiKeyId period
  let count : Count := ⟨period, limit, w.clock, value⟩
  (count, { w with counters, log := .counted p apiKeyId count :: w.log })

def answer (w : LimiterWorld) (p : Nat) (apiKeyId : Uuid) (limits : List (Period × Nat))
    (result : RateLimitResult) (counts : List Count) : LimiterWorld :=
  { w with log := .answered p apiKeyId limits result counts :: w.log }

end LimiterWorld

def limiterStep (p : Nat) (w : LimiterWorld) :
    LimiterLocal → LimiterAction → Option (LimiterWorld × LimiterLocal)
  | .idle, .begin apiKeyId limits => some (w, .check apiKeyId limits none [] limits)
  | .idle, .tick clock =>
      if w.clock.timestamp ≤ clock.timestamp then some ({ w with clock }, .idle) else none
  | .check apiKeyId limits first counts [], .proceed =>
      some (w.answer p apiKeyId limits (first.getD { allowed := true }) counts, .idle)
  | .check apiKeyId limits first counts ((period, limit) :: rest), .proceed =>
      let (count, w') := w.count p apiKeyId period limit
      some (w', .read apiKeyId limits first counts count rest)
  | .read apiKeyId limits first counts count rest, .proceed =>
      let result := RedisRateLimiter.result w.clock count.period count.limit count.value
      if result.allowed then
        some (w, .check apiKeyId limits (first.or (some result)) (counts ++ [count]) rest)
      else
        some (w.answer p apiKeyId limits result (counts ++ [count]), .idle)
  | .check _ _ _ _ _, .abort | .read _ _ _ _ _ _, .abort => some (w, .idle)
  | _, _ => none

def limiter : Interleaving.System LimiterWorld LimiterLocal LimiterAction where
  step := limiterStep

inductive LimiterStep (p : Nat) (w : LimiterWorld) : LimiterLocal → LimiterWorld → LimiterLocal → Prop
  | begin {apiKeyId : Uuid} {limits : List (Period × Nat)} :
      LimiterStep p w .idle w (.check apiKeyId limits none [] limits)
  | tick {clock : Datetime} (hlater : w.clock.timestamp ≤ clock.timestamp) :
      LimiterStep p w .idle { w with clock } .idle
  | stop {l : LimiterLocal} : LimiterStep p w l w .idle
  | count {apiKeyId : Uuid} {limits : List (Period × Nat)} {first : Option RateLimitResult}
      {counts : List Count} {period : Period} {limit : Nat} {rest : List (Period × Nat)} :
      LimiterStep p w (.check apiKeyId limits first counts ((period, limit) :: rest))
        (w.count p apiKeyId period limit).2
        (.read apiKeyId limits first counts (w.count p apiKeyId period limit).1 rest)
  | pass {apiKeyId : Uuid} {limits : List (Period × Nat)} {first : Option RateLimitResult}
      {counts : List Count} {count : Count} {rest : List (Period × Nat)}
      (hpasses : count.value ≤ count.limit) :
      LimiterStep p w (.read apiKeyId limits first counts count rest) w
        (.check apiKeyId limits
          (first.or (some (RedisRateLimiter.result w.clock count.period count.limit count.value)))
          (counts ++ [count]) rest)
  | reject {apiKeyId : Uuid} {limits : List (Period × Nat)} {first : Option RateLimitResult}
      {counts : List Count} {count : Count} {rest : List (Period × Nat)}
      (hexceeds : count.limit < count.value) :
      LimiterStep p w (.read apiKeyId limits first counts count rest)
        (w.answer p apiKeyId limits
          (RedisRateLimiter.result w.clock count.period count.limit count.value) (counts ++ [count]))
        .idle
  | allow {apiKeyId : Uuid} {limits : List (Period × Nat)} {first : Option RateLimitResult}
      {counts : List Count} :
      LimiterStep p w (.check apiKeyId limits first counts [])
        (w.answer p apiKeyId limits (first.getD { allowed := true }) counts) .idle

theorem limiterStep_sound {p : Nat} {w w' : LimiterWorld} {l l' : LimiterLocal} {a : LimiterAction}
    (hstep : limiterStep p w l a = some (w', l')) : LimiterStep p w l w' l' := by
  cases l with
  | idle =>
      cases a with
      | begin apiKeyId limits =>
          cases hstep
          exact .begin
      | tick clock =>
          rw [limiterStep] at hstep
          split at hstep
          · next hlater =>
              cases hstep
              exact .tick hlater
          · cases hstep
      | proceed | abort => cases hstep
  | check apiKeyId limits first counts rest =>
      cases a with
      | proceed =>
          cases rest with
          | nil =>
              cases hstep
              exact .allow
          | cons head rest =>
              cases hstep
              exact .count
      | abort =>
          cases rest <;> cases hstep <;> exact .stop
      | begin | tick => cases rest <;> cases hstep
  | read apiKeyId limits first counts count rest =>
      cases a with
      | proceed =>
          simp only [limiterStep] at hstep
          split at hstep
          · next hpasses =>
              cases hstep
              exact .pass (RedisRateLimiter.result_allowed_iff.1 hpasses)
          · next hexceeds =>
              cases hstep
              rw [RedisRateLimiter.result_allowed_iff] at hexceeds
              exact .reject (Nat.not_le.1 hexceeds)
      | abort =>
          cases hstep
          exact .stop
      | begin | tick => cases hstep

theorem limiter_proceeds {c : Interleaving.Config LimiterWorld LimiterLocal} {p : Nat} {w : LimiterWorld}
    {l : LimiterLocal} (hstep : limiterStep p c.shared (c.locals p) .proceed = some (w, l)) :
    limiter.next c (p, .proceed) = some ⟨w, Function.update c.locals p l⟩ :=
  Interleaving.System.next_eq_some.2 ⟨w, l, hstep, rfl⟩

/-- A check that nothing interrupts answers what `check_all_limits` returns where no command is refused, and
leaves its counters. -/
theorem check_uninterrupted {c : Interleaving.Config LimiterWorld LimiterLocal} {p : Nat} {id : Uuid}
    {limits rest : List (Period × Nat)} {first : Option RateLimitResult} {counts : List Count}
    {redis : KeyRedis} (hredis : redis.counters = c.shared.counters)
    (hserves : ∀ key, redis.refuses key = false)
    (hlocal : c.locals p = .check id limits first counts rest) :
    ∃ n c' counts' result redis', limiter.run c (List.replicate n (p, .proceed)) = some c' ∧
      RedisRateLimiter.checkFrom c.shared.clock id first rest redis = (.ok result, redis') ∧
      c'.locals p = .idle ∧ .answered p id limits result counts' ∈ c'.shared.log ∧
      redis'.counters = c'.shared.counters := by
  induction rest generalizing c first counts redis with
  | nil =>
      have hnext : limiter.next c (p, .proceed) = some ⟨_, Function.update c.locals p .idle⟩ :=
        limiter_proceeds (by rw [hlocal]; rfl)
      refine ⟨1, _, counts, _, redis, Interleaving.System.run_cons.2 ⟨_, hnext, rfl⟩, rfl, by simp, ?_,
        hredis⟩
      exact List.mem_cons_self
  | cons head rest ih =>
      obtain ⟨period, limit⟩ := head
      let count := (c.shared.count p id period limit).1
      let counted := (c.shared.count p id period limit).2
      let result := RedisRateLimiter.result c.shared.clock period limit count.value
      let redis₁ : KeyRedis := { redis with counters := counted.counters }
      have hchecks : RedisRateLimiter.checkAndIncrement redis c.shared.clock id limit period
          = (.ok result, redis₁) := by
        rw [RedisRateLimiter.checkAndIncrement, hserves, hredis]
        rfl
      let c₁ : Interleaving.Config LimiterWorld LimiterLocal :=
        ⟨counted, Function.update c.locals p (.read id limits first counts count rest)⟩
      have hcounts : limiter.next c (p, .proceed) = some c₁ :=
        limiter_proceeds (by rw [hlocal]; rfl)
      have hlocal₁ : c₁.locals p = .read id limits first counts count rest := Function.update_self ..
      by_cases hallowed : result.allowed = true
      · let c₂ : Interleaving.Config LimiterWorld LimiterLocal :=
          ⟨counted, Function.update c₁.locals p
            (.check id limits (first.or (some result)) (counts ++ [count]) rest)⟩
        have hpasses : limiter.next c₁ (p, .proceed) = some c₂ :=
          limiter_proceeds (by rw [hlocal₁]; exact if_pos hallowed)
        have hlocal₂ : c₂.locals p = .check id limits (first.or (some result)) (counts ++ [count]) rest :=
          Function.update_self ..
        have hcounters : redis₁.counters = c₂.shared.counters := rfl
        obtain ⟨n, c', counts', result', redis', hrun, hloop, hrest⟩ := ih hcounters hserves hlocal₂
        refine ⟨n + 2, c', counts', result', redis', ?_, ?_, hrest⟩
        · exact Interleaving.System.run_cons.2
            ⟨c₁, hcounts, Interleaving.System.run_cons.2 ⟨c₂, hpasses, hrun⟩⟩
        · rw [RedisRateLimiter.checkFrom, hchecks]
          exact (if_pos hallowed).trans hloop
      · let c₂ : Interleaving.Config LimiterWorld LimiterLocal :=
          ⟨counted.answer p id limits result (counts ++ [count]), Function.update c₁.locals p .idle⟩
        have hrejects : limiter.next c₁ (p, .proceed) = some c₂ :=
          limiter_proceeds (by rw [hlocal₁]; exact if_neg hallowed)
        refine ⟨2, c₂, counts ++ [count], result, redis₁, ?_, ?_, Function.update_self ..,
          List.mem_cons_self, rfl⟩
        · exact Interleaving.System.run_cons.2
            ⟨c₁, hcounts, Interleaving.System.run_cons.2 ⟨c₂, hrejects, rfl⟩⟩
        · rw [RedisRateLimiter.checkFrom, hchecks]
          exact if_neg hallowed

end FaAuthM8

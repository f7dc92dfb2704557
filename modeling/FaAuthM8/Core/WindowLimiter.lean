import FaAuthM8.Models

/-!
# Fixed-window limiters

A limiter counts the attempts on a key: `INCR` starts or advances the counter, and the attempt that starts
it sets when it expires. Which characters are printable is a table of the language's, and a parameter.
-/

namespace FaAuthM8

/-- A counter in Redis; one without an expiry stays. -/
structure WindowCounter where
  value : Nat
  expiresAt : Option Int
deriving DecidableEq, Repr

abbrev WindowCounters := Table String WindowCounter

namespace WindowCounters

def live (counters : WindowCounters) (now : Int) (key : String) : Option WindowCounter :=
  (counters.lookup key).filter fun counter => counter.expiresAt.all (now < ·)

/-- `INCR`, with the value it returns. -/
def incr (counters : WindowCounters) (now : Int) (key : String) : Nat × WindowCounters :=
  match counters.live now key with
  | some counter =>
      (counter.value + 1, counters.insert key { counter with value := counter.value + 1 })
  | none => (1, counters.insert key ⟨1, none⟩)

def expire (counters : WindowCounters) (now : Int) (key : String) (seconds : Nat) : WindowCounters :=
  match counters.live now key with
  | some counter => counters.insert key { counter with expiresAt := some (now + seconds * second) }
  | none => counters

end WindowCounters

structure FixedWindowLimiter where
  keyPrefix : String
  maxIdLen : Nat
  maxRequests : Int
  windowSeconds : Nat

namespace FixedWindowLimiter

variable (limiter : FixedWindowLimiter) (isPrintable : Char → Bool)

def key (identifier : String) : String :=
  limiter.keyPrefix ++ String.ofList ((identifier.toList.filter isPrintable).take limiter.maxIdLen)

def isAllowed (counters : WindowCounters) (now : Int) (identifier : String) : Bool × WindowCounters :=
  let key := limiter.key isPrintable identifier
  let (count, counters) := counters.incr now key
  let counters := if count = 1 then counters.expire now key limiter.windowSeconds else counters
  (decide (count ≤ limiter.maxRequests), counters)

def reset (counters : WindowCounters) (identifier : String) : WindowCounters :=
  counters.erase (limiter.key isPrintable identifier)

end FixedWindowLimiter

structure LoginLimits where
  loginRateLimitRequests : Int := 5
  loginIpRateLimitRequests : Int := 50
  loginRateLimitWindowMinutes : Nat := 15

def LoginRateLimiter (limits : LoginLimits) : FixedWindowLimiter where
  keyPrefix := "login:attempts:"
  maxIdLen := 255
  maxRequests := limits.loginRateLimitRequests
  windowSeconds := limits.loginRateLimitWindowMinutes * 60

def LoginIpRateLimiter (limits : LoginLimits) : FixedWindowLimiter where
  keyPrefix := "login:ip:"
  maxIdLen := 45
  maxRequests := limits.loginIpRateLimitRequests
  windowSeconds := limits.loginRateLimitWindowMinutes * 60

def ExchangeRateLimiter : FixedWindowLimiter where
  keyPrefix := "exchange:attempts:"
  maxIdLen := 45
  maxRequests := 10
  windowSeconds := 60

/-- A limiter whose identifiers are user ids, which it takes as they are. -/
structure UserWindowLimiter where
  keyPrefix : String
  maxRequests : Int
  windowSeconds : Nat

namespace UserWindowLimiter

variable (limiter : UserWindowLimiter)

def key (userId : String) : String := limiter.keyPrefix ++ userId

def isAllowed (counters : WindowCounters) (now : Int) (userId : String) : Bool × WindowCounters :=
  let key := limiter.key userId
  let (count, counters) := counters.incr now key
  let counters := if count = 1 then counters.expire now key limiter.windowSeconds else counters
  (decide (count ≤ limiter.maxRequests), counters)

end UserWindowLimiter

structure RefreshLimits where
  refreshRateLimitRequests : Int := 10
  refreshRateLimitWindowMinutes : Nat := 5

def RefreshRateLimiter (limits : RefreshLimits) : UserWindowLimiter where
  keyPrefix := "refresh:attempts:"
  maxRequests := limits.refreshRateLimitRequests
  windowSeconds := limits.refreshRateLimitWindowMinutes * 60

def SuperuserProbeRateLimiter : UserWindowLimiter where
  keyPrefix := "security:superuser_probe:"
  maxRequests := 30
  windowSeconds := 60

def AuditLogRateLimiter : UserWindowLimiter where
  keyPrefix := "security:audit_log:"
  maxRequests := 30
  windowSeconds := 60

def AuditPurgeRateLimiter : UserWindowLimiter where
  keyPrefix := "security:audit_purge:"
  maxRequests := 10
  windowSeconds := 60

def ApiKeyPurgeRateLimiter : UserWindowLimiter where
  keyPrefix := "security:api_key_purge:"
  maxRequests := 10
  windowSeconds := 60

/-! ### Counting an attempt -/

section

variable {counters : WindowCounters} {now : Int} {key : String}

theorem WindowCounters.live_eq_some {counter : WindowCounter} :
    counters.live now key = some counter ↔
      counters.lookup key = some counter ∧ ∀ e, counter.expiresAt = some e → now < e := by
  rw [live, Option.filter_eq_some_iff, Option.all_eq_true]
  simp

theorem WindowCounters.lookup_incr_of_ne {other : String} (hother : other ≠ key) :
    (counters.incr now key).2.lookup other = counters.lookup other := by
  rw [incr]
  split
  · exact AList.lookup_insert_ne hother
  · exact AList.lookup_insert_ne hother

theorem WindowCounters.lookup_expire_of_ne {other : String} (hother : other ≠ key) (seconds : Nat) :
    (counters.expire now key seconds).lookup other = counters.lookup other := by
  rw [expire]
  split
  · exact AList.lookup_insert_ne hother
  · rfl

theorem WindowCounters.lookup_incr (counters : WindowCounters) (now : Int) (key : String) :
    (counters.incr now key).2.lookup key =
      some ⟨(counters.incr now key).1, (counters.live now key).bind (·.expiresAt)⟩ := by
  rw [incr]
  split
  · next counter hlive => simp [hlive]
  · next hnone => simp [hnone]

theorem WindowCounters.expiresAt_expire {counter : WindowCounter} {seconds : Nat}
    (hlookup : (counters.expire now key seconds).lookup key = some counter) :
    counter.expiresAt.isSome = true := by
  rw [expire] at hlookup
  split at hlookup
  · rw [AList.lookup_insert, Option.some.injEq] at hlookup
    simp [← hlookup]
  · next hdead =>
      rw [Option.isSome_iff_ne_none]
      intro hnone
      have hlive : counters.live now key = some counter := live_eq_some.2 ⟨hlookup, by simp [hnone]⟩
      simp [hdead] at hlive

variable {limiter : FixedWindowLimiter} {isPrintable : Char → Bool} {identifier : String}

theorem FixedWindowLimiter.lookup_isAllowed_of_ne {other : String}
    (hother : other ≠ limiter.key isPrintable identifier) :
    (limiter.isAllowed isPrintable counters now identifier).2.lookup other = counters.lookup other := by
  simp only [isAllowed]
  split
  · rw [WindowCounters.lookup_expire_of_ne hother, WindowCounters.lookup_incr_of_ne hother]
  · exact WindowCounters.lookup_incr_of_ne hother

theorem FixedWindowLimiter.isAllowed_opens
    (hnone : counters.live now (limiter.key isPrintable identifier) = none) :
    (counters.incr now (limiter.key isPrintable identifier)).1 = 1 ∧
      (limiter.isAllowed isPrintable counters now identifier).1 = decide (1 ≤ limiter.maxRequests) ∧
      (limiter.isAllowed isPrintable counters now identifier).2.lookup (limiter.key isPrintable identifier) =
        some ⟨1, some (now + limiter.windowSeconds * second)⟩ := by
  have hincr : counters.incr now (limiter.key isPrintable identifier) =
      (1, counters.insert (limiter.key isPrintable identifier) ⟨1, none⟩) := by
    rw [WindowCounters.incr, hnone]
  have hlive : WindowCounters.live (counters.insert (limiter.key isPrintable identifier) ⟨1, none⟩) now
      (limiter.key isPrintable identifier) = some ⟨1, none⟩ :=
    WindowCounters.live_eq_some.2 ⟨AList.lookup_insert _, by simp⟩
  simp only [isAllowed, hincr, if_true, WindowCounters.expire, hlive]
  exact ⟨trivial, rfl, AList.lookup_insert _⟩

/-- An attempt that finds a counter advances it, and is allowed up to the limit; a counter that expires
after the window of an attempt made now does so still. -/
theorem FixedWindowLimiter.isAllowed_advances {counter : WindowCounter}
    (hlive : counters.live now (limiter.key isPrintable identifier) = some counter) :
    (limiter.isAllowed isPrintable counters now identifier).1 =
        decide (counter.value + 1 ≤ limiter.maxRequests) ∧
      ∃ expiresAt, (limiter.isAllowed isPrintable counters now identifier).2.lookup
          (limiter.key isPrintable identifier) = some ⟨counter.value + 1, expiresAt⟩ ∧
        (expiresAt = counter.expiresAt ∨ counter.value = 0 ∧
          expiresAt = some (now + limiter.windowSeconds * second)) := by
  have hincr : counters.incr now (limiter.key isPrintable identifier) = (counter.value + 1,
      counters.insert (limiter.key isPrintable identifier) { counter with value := counter.value + 1 }) := by
    rw [WindowCounters.incr, hlive]
  have hstill : WindowCounters.live (counters.insert (limiter.key isPrintable identifier)
      { counter with value := counter.value + 1 }) now (limiter.key isPrintable identifier) =
        some { counter with value := counter.value + 1 } :=
    WindowCounters.live_eq_some.2 ⟨AList.lookup_insert _, (WindowCounters.live_eq_some.1 hlive).2⟩
  simp only [isAllowed, hincr]
  refine ⟨by simp, ?_⟩
  by_cases hzero : counter.value + 1 = 1
  · rw [if_pos hzero, WindowCounters.expire, hstill]
    exact ⟨_, AList.lookup_insert _, .inr ⟨by omega, rfl⟩⟩
  · rw [if_neg hzero]
    exact ⟨_, AList.lookup_insert _, .inl rfl⟩

theorem loginKey_ne_ipKey (limits : LoginLimits) (isPrintable : Char → Bool) (identifier ip : String) :
    (LoginRateLimiter limits).key isPrintable identifier ≠ (LoginIpRateLimiter limits).key isPrintable ip := by
  intro heq
  have htext := congrArg String.toList heq
  simp [FixedWindowLimiter.key, LoginRateLimiter, LoginIpRateLimiter, String.toList_append] at htext

end

end FaAuthM8

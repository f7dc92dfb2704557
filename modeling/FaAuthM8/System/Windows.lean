import FaAuthM8.Core.WindowLimiter
import FaAuthM8.Lib.Interleaving

/-!
# Runs of the fixed-window limiters

Any number of calls are in progress at once, each sending Redis one command at a time. A command may fail
without effect, or take effect and its reply be lost, and a process may die between any two commands; in
either case the rest of the call is never sent.
-/

namespace FaAuthM8

structure WindowSettings extends LoginLimits, RefreshLimits where
  isPrintable : Char → Bool

inductive WindowLimiter
  | login
  | loginIp
  | refresh
  | exchange
  | superuserProbe
  | auditLog
  | auditPurge
  | apiKeyPurge
deriving DecidableEq, Repr

/-- What a call of `is_allowed` sends: the key it counts under, and the limit and window it is given. -/
structure Attempt where
  key : String
  maxRequests : Int
  windowSeconds : Nat
deriving DecidableEq, Repr

def FixedWindowLimiter.attempt (limiter : FixedWindowLimiter) (isPrintable : Char → Bool)
    (identifier : String) : Attempt where
  key := limiter.key isPrintable identifier
  maxRequests := limiter.maxRequests
  windowSeconds := limiter.windowSeconds

def UserWindowLimiter.attempt (limiter : UserWindowLimiter) (userId : String) : Attempt where
  key := limiter.key userId
  maxRequests := limiter.maxRequests
  windowSeconds := limiter.windowSeconds

/-- What the commands of a call come to when nothing happens between them. -/
def Attempt.isAllowed (attempt : Attempt) (counters : WindowCounters) (now : Int) : Bool × WindowCounters :=
  let counted := counters.incr now attempt.key
  (decide (counted.1 ≤ attempt.maxRequests),
    if counted.1 = 1 then counted.2.expire now attempt.key attempt.windowSeconds else counted.2)

namespace WindowLimiter

variable (settings : WindowSettings) (identifier : String)

def attempt : WindowLimiter → Attempt
  | login => (LoginRateLimiter settings.toLoginLimits).attempt settings.isPrintable identifier
  | loginIp => (LoginIpRateLimiter settings.toLoginLimits).attempt settings.isPrintable identifier
  | refresh => (RefreshRateLimiter settings.toRefreshLimits).attempt identifier
  | exchange => ExchangeRateLimiter.attempt settings.isPrintable identifier
  | superuserProbe => SuperuserProbeRateLimiter.attempt identifier
  | auditLog => AuditLogRateLimiter.attempt identifier
  | auditPurge => AuditPurgeRateLimiter.attempt identifier
  | apiKeyPurge => ApiKeyPurgeRateLimiter.attempt identifier

/-- `is_allowed`, as one step. -/
def isAllowed (counters : WindowCounters) (now : Int) : WindowLimiter → Bool × WindowCounters
  | login => (LoginRateLimiter settings.toLoginLimits).isAllowed settings.isPrintable counters now identifier
  | loginIp =>
      (LoginIpRateLimiter settings.toLoginLimits).isAllowed settings.isPrintable counters now identifier
  | refresh => (RefreshRateLimiter settings.toRefreshLimits).isAllowed counters now identifier
  | exchange => ExchangeRateLimiter.isAllowed settings.isPrintable counters now identifier
  | superuserProbe => SuperuserProbeRateLimiter.isAllowed counters now identifier
  | auditLog => AuditLogRateLimiter.isAllowed counters now identifier
  | auditPurge => AuditPurgeRateLimiter.isAllowed counters now identifier
  | apiKeyPurge => ApiKeyPurgeRateLimiter.isAllowed counters now identifier

end WindowLimiter

structure WindowWorld where
  counters : WindowCounters := ∅
  now : Int := 0

/-- The command a process is about to send, or the answer of its last call. -/
inductive WindowLocal
  | idle
  | incr (attempt : Attempt)
  | expire (attempt : Attempt)
  | delete (key : String)
  | answered (allowed : Bool)
deriving DecidableEq, Repr

inductive WindowAction
  | isAllowed (limiter : WindowLimiter) (identifier : String)
  /-- Only the login limiter has a reset. -/
  | reset (email : String)
  /-- The command takes effect and its reply arrives. -/
  | reply
  /-- The command takes effect, but the call learns nothing of it. -/
  | lose
  /-- The command has no effect, or the process dies before it is sent. -/
  | fail
  | tick (now : Int)
deriving DecidableEq, Repr

namespace WindowLocal

def isFree : WindowLocal → Bool
  | idle => true
  | answered _ => true
  | _ => false

/-- A call is about to set the expiry of the key. -/
def expires (key : String) : WindowLocal → Bool
  | expire attempt => attempt.key == key
  | _ => false

/-- The command takes effect and its reply arrives. -/
def execute (w : WindowWorld) : WindowLocal → Option (WindowWorld × WindowLocal)
  | incr attempt =>
      let counted := w.counters.incr w.now attempt.key
      some ({ w with counters := counted.2 },
        if counted.1 = 1 then .expire attempt else .answered (decide (counted.1 ≤ attempt.maxRequests)))
  | expire attempt =>
      some ({ w with counters := w.counters.expire w.now attempt.key attempt.windowSeconds },
        .answered (decide (1 ≤ attempt.maxRequests)))
  | delete key => some ({ w with counters := w.counters.erase key }, .idle)
  | idle => none
  | answered _ => none

end WindowLocal

def windowStep (settings : WindowSettings) (w : WindowWorld) (l : WindowLocal) :
    WindowAction → Option (WindowWorld × WindowLocal)
  | .isAllowed limiter identifier =>
      if l.isFree then some (w, .incr (limiter.attempt settings identifier)) else none
  | .reset email =>
      if l.isFree then
        some (w, .delete ((LoginRateLimiter settings.toLoginLimits).key settings.isPrintable email))
      else none
  | .reply => l.execute w
  | .lose => (l.execute w).map fun after => (after.1, .idle)
  | .fail => if l.isFree then none else some (w, .idle)
  | .tick now => if w.now ≤ now then some ({ w with now }, l) else none

def windows (settings : WindowSettings) : Interleaving.System WindowWorld WindowLocal WindowAction where
  step _ := windowStep settings

/-! ### What a step does -/

/-- The key has a counter without an expiry. -/
def WindowWorld.Unset (w : WindowWorld) (key : String) : Prop :=
  ∃ counter, w.counters.lookup key = some counter ∧ counter.expiresAt = none

/-- The step starts a counter on the key. -/
inductive StartsCounter (w : WindowWorld) : WindowLocal → WindowAction → String → Prop
  | replied {attempt : Attempt} (hnone : w.counters.live w.now attempt.key = none) :
      StartsCounter w (.incr attempt) .reply attempt.key
  | lost {attempt : Attempt} (hnone : w.counters.live w.now attempt.key = none) :
      StartsCounter w (.incr attempt) .lose attempt.key

section

variable {settings : WindowSettings} {w w' : WindowWorld} {l l' : WindowLocal} {action : WindowAction}
  {key : String}

theorem WindowLocal.execute_unset (hexecute : l.execute w = some (w', l')) (hunset : w'.Unset key) :
    l.expires key = false ∧
      ((∃ attempt, l = .incr attempt ∧ attempt.key = key ∧ w.counters.live w.now key = none) ∨
        w.Unset key) := by
  obtain ⟨counter, hlookup, hnone⟩ := hunset
  cases l with
  | idle => simp [execute] at hexecute
  | answered allowed => simp [execute] at hexecute
  | incr attempt =>
      obtain ⟨rfl, -⟩ := Prod.mk.inj (Option.some.inj hexecute)
      refine ⟨rfl, ?_⟩
      by_cases hkey : key = attempt.key
      · subst hkey
        cases hlive : w.counters.live w.now attempt.key with
        | none => exact .inl ⟨attempt, rfl, rfl, rfl⟩
        | some counter₀ =>
            refine .inr ⟨counter₀, (WindowCounters.live_eq_some.1 hlive).1, ?_⟩
            rw [WindowCounters.lookup_incr, hlive, Option.some.injEq] at hlookup
            simpa [← hlookup] using hnone
      · rw [WindowCounters.lookup_incr_of_ne hkey] at hlookup
        exact .inr ⟨counter, hlookup, hnone⟩
  | expire attempt =>
      obtain ⟨rfl, -⟩ := Prod.mk.inj (Option.some.inj hexecute)
      by_cases hkey : key = attempt.key
      · subst hkey
        have hset := WindowCounters.expiresAt_expire hlookup
        simp [hnone] at hset
      · rw [WindowCounters.lookup_expire_of_ne hkey] at hlookup
        exact ⟨by simpa [expires] using Ne.symm hkey, .inr ⟨counter, hlookup, hnone⟩⟩
  | delete deleted =>
      obtain ⟨rfl, -⟩ := Prod.mk.inj (Option.some.inj hexecute)
      simp only [Table.lookup_erase_eq, Option.ite_none_left_eq_some] at hlookup
      exact ⟨rfl, .inr ⟨counter, hlookup.2, hnone⟩⟩

/-- A step sends a command to Redis, or leaves the counters alone; a call that is not stopped is then about
to set what it was about to set before. -/
theorem windowStep_cases (hstep : windowStep settings w l action = some (w', l')) :
    (∃ l₁, l.execute w = some (w', l₁) ∧ (action = .reply ∧ l' = l₁ ∨ action = .lose ∧ l' = .idle)) ∨
      w'.counters = w.counters ∧
        (action = .fail ∧ l' = .idle ∨ ∀ key, l'.expires key = l.expires key) := by
  have hfree (hfree : l.isFree = true) (key : String) : l.expires key = false := by
    cases l <;> simp_all [WindowLocal.expires, WindowLocal.isFree]
  cases action with
  | isAllowed limiter identifier =>
      obtain ⟨hl, heq⟩ := Option.ite_none_right_eq_some.1 hstep
      obtain ⟨rfl, rfl⟩ := Prod.mk.inj (Option.some.inj heq)
      exact .inr ⟨rfl, .inr fun key => (hfree hl key).symm⟩
  | reset email =>
      obtain ⟨hl, heq⟩ := Option.ite_none_right_eq_some.1 hstep
      obtain ⟨rfl, rfl⟩ := Prod.mk.inj (Option.some.inj heq)
      exact .inr ⟨rfl, .inr fun key => (hfree hl key).symm⟩
  | reply => exact .inl ⟨l', hstep, .inl ⟨rfl, rfl⟩⟩
  | lose =>
      obtain ⟨⟨w₁, l₁⟩, hexecute, heq⟩ := Option.map_eq_some_iff.1 hstep
      obtain ⟨rfl, rfl⟩ := Prod.mk.inj heq
      exact .inl ⟨l₁, hexecute, .inr ⟨rfl, rfl⟩⟩
  | fail =>
      obtain ⟨-, heq⟩ := Option.ite_none_left_eq_some.1 hstep
      obtain ⟨rfl, rfl⟩ := Prod.mk.inj (Option.some.inj heq)
      exact .inr ⟨rfl, .inl ⟨rfl, rfl⟩⟩
  | tick now =>
      obtain ⟨-, heq⟩ := Option.ite_none_right_eq_some.1 hstep
      obtain ⟨rfl, rfl⟩ := Prod.mk.inj (Option.some.inj heq)
      exact .inr ⟨rfl, .inr fun _ => rfl⟩

theorem windowStep_unset (hstep : windowStep settings w l action = some (w', l'))
    (hunset : w'.Unset key) : StartsCounter w l action key ∨ w.Unset key := by
  obtain ⟨l₁, hexecute, hreply⟩ | ⟨hcounters, -⟩ := windowStep_cases hstep
  · obtain ⟨-, ⟨attempt, rfl, rfl, hlive⟩ | hbefore⟩ := WindowLocal.execute_unset hexecute hunset
    · obtain ⟨rfl, -⟩ | ⟨rfl, -⟩ := hreply
      · exact .inl (.replied hlive)
      · exact .inl (.lost hlive)
    · exact .inr hbefore
  · obtain ⟨counter, hlookup, hnone⟩ := hunset
    exact .inr ⟨counter, by rw [← hcounters]; exact hlookup, hnone⟩

theorem windowStep_expires (hstep : windowStep settings w l action = some (w', l'))
    (hunset : w'.Unset key) (hexpires : l.expires key = true) : l'.expires key = true ∨ action = .fail := by
  obtain ⟨l₁, hexecute, -⟩ | ⟨-, ⟨hfail, -⟩ | hsame⟩ := windowStep_cases hstep
  · have hnot := (WindowLocal.execute_unset hexecute hunset).1
    simp [hexpires] at hnot
  · exact .inr hfail
  · exact .inl (by rw [hsame, hexpires])

/-- A counter is started without an expiry, which the call is then about to set if it learns of it. -/
theorem StartsCounter.unset (hstarts : StartsCounter w l action key)
    (hstep : windowStep settings w l action = some (w', l')) :
    w'.Unset key ∧ (action = .reply → l'.expires key = true) := by
  have hcounted {attempt : Attempt} (hnone : w.counters.live w.now attempt.key = none) :
      (w.counters.incr w.now attempt.key).1 = 1 ∧
        WindowWorld.Unset { w with counters := (w.counters.incr w.now attempt.key).2 } attempt.key := by
    refine ⟨by simp [WindowCounters.incr, hnone], _, WindowCounters.lookup_incr _ _ _, ?_⟩
    simp [hnone]
  cases hstarts with
  | replied hnone =>
      obtain ⟨hone, hunset⟩ := hcounted hnone
      obtain ⟨rfl, rfl⟩ := Prod.mk.inj (Option.some.inj hstep)
      exact ⟨hunset, fun _ => by simp [hone, WindowLocal.expires]⟩
  | lost hnone =>
      obtain ⟨rfl, -⟩ := Prod.mk.inj (Option.some.inj hstep)
      exact ⟨(hcounted hnone).2, by simp⟩

/-- A call whose commands are sent with nothing between them is a call in one step. -/
theorem WindowLimiter.isAllowed_eq_run (limiter : WindowLimiter) (identifier : String)
    (c : Interleaving.Config WindowWorld WindowLocal) (p : Nat) (hfree : (c.locals p).isFree = true) :
    ∃ n c', (windows settings).run c ((p, .isAllowed limiter identifier) :: List.replicate n (p, .reply)) =
        some c' ∧
      (limiter.isAllowed settings identifier c.shared.counters c.shared.now).2 = c'.shared.counters ∧
      c'.locals p =
        .answered (limiter.isAllowed settings identifier c.shared.counters c.shared.now).1 := by
  have hallowed : limiter.isAllowed settings identifier c.shared.counters c.shared.now =
      (limiter.attempt settings identifier).isAllowed c.shared.counters c.shared.now := by
    cases limiter <;> rfl
  rw [hallowed]
  by_cases hone : (c.shared.counters.incr c.shared.now (limiter.attempt settings identifier).key).1 = 1
  · refine ⟨2, ?_⟩
    simp [Interleaving.System.run, Interleaving.System.next, windows, windowStep, WindowLocal.execute, hfree,
      Attempt.isAllowed, hone, List.replicate]
  · refine ⟨1, ?_⟩
    simp [Interleaving.System.run, Interleaving.System.next, windows, windowStep, WindowLocal.execute, hfree,
      Attempt.isAllowed, hone, List.replicate]

end

end FaAuthM8

import FaAuthM8.Lib.Interleaving
import FaAuthM8.Routes.Login

/-!
# Password logins

Each process serves one login at a time, in three steps: both limiters count it, its account is looked up and
its password checked, and after a success its counter is reset. Between any two of them time may pass, others
may be served, Redis and the accounts may change, and the login may die. The log records, newest first, which
counters were started, which stored hashes were checked and who signed in, and no step reads it.
-/

namespace FaAuthM8

inductive LoginEvent
  /-- A counter was started on the key. -/
  | opened (key : String) (time : Int)
  /-- The account's hash was checked, for a login counted under the key. -/
  | verified (uid : UserId) (key : String) (time : Int)
  | succeeded (uid : UserId)
deriving DecidableEq, Repr

structure LoginWorld where
  users : Table UserId User := ∅
  counters : WindowCounters := ∅
  redisUp : Bool := true
  now : Int := 0
  log : List LoginEvent := []

inductive LoginResult
  | success (uid : UserId)
  | http (exception : HttpException)
  /-- A command failed, or the process died. -/
  | failed
deriving DecidableEq, Repr

inductive LoginLocal
  | idle
  /-- The limiters have let the login in; it found Redis up, or did not. -/
  | counted (r : LoginForm) (viaRedis : Bool)
  /-- The password was right. -/
  | accepted (r : LoginForm) (uid : UserId) (viaRedis : Bool)
  | done (result : LoginResult)
deriving DecidableEq, Repr

inductive LoginAction
  | submit (r : LoginForm)
  | proceed
  | fail
  | tick (now : Int)
  | redis (up : Bool)
  | users (users : Table UserId User)

namespace LoginWorld

variable (settings : LoginSettings) (w : LoginWorld)

def redis : Option WindowCounters := if w.redisUp then some w.counters else none

/-- The limiters have counted a login. -/
def count (r : LoginForm) : Except HttpException Unit × LoginWorld :=
  let (answer, redis) := settings.enforceLoginRateLimit w.redis w.now r.username r.ip
  let key := settings.loginKey r.username
  let opens := w.redisUp && (w.counters.live w.now key).isNone
  (answer, { w with
    counters := redis.getD w.counters
    log := if opens then .opened key w.now :: w.log else w.log })

/-- The password of a login has been checked. -/
def verify (r : LoginForm) : Option (UserId × User) × LoginWorld :=
  let found := findUserByEmail settings.sameEmail w.users r.username
  let checked := found.filter (·.2.storedHash.isSome)
  (authenticate settings.toSettings found r.password, { w with
    log := checked.elim w.log fun found => .verified found.1 (settings.loginKey r.username) w.now :: w.log })

def succeed (uid : UserId) : LoginWorld :=
  { w with log := .succeeded uid :: w.log }

/-- The counter of a login has been reset. -/
def reset (r : LoginForm) : LoginWorld :=
  { w with counters := settings.loginRateLimiter.reset settings.isPrintable w.counters r.username }

end LoginWorld

/-- `login_access_token`, as far as the limiters' answer. -/
def LoginForm.submit (r : LoginForm) (settings : LoginSettings) (w : LoginWorld) :
    LoginWorld × LoginLocal :=
  if r.hasNul then (w, .done (.http invalidCharacters))
  else
    match w.count settings r with
    | (.error e, counted) => (counted, .done (.http e))
    | (.ok (), counted) => (counted, .counted r w.redisUp)

/-- `login_access_token`, from the limiters' answer to the check of the password. -/
def LoginForm.check (r : LoginForm) (settings : LoginSettings) (w : LoginWorld) (viaRedis : Bool) :
    LoginWorld × LoginLocal :=
  match w.verify settings r with
  | (none, verified) => (verified, .done (.http invalidCredentials))
  | (some (uid, user), verified) =>
      if user.isActive then (verified, .accepted r uid viaRedis)
      else (verified, .done (.http invalidCredentials))

/-- The rest of `login_access_token`, as far as the record that the user has signed in. -/
def LoginForm.finish (r : LoginForm) (settings : LoginSettings) (w : LoginWorld) (uid : UserId)
    (viaRedis : Bool) : LoginWorld × LoginLocal :=
  if !viaRedis then (w.succeed uid, .done (.success uid))
  else if w.redisUp then ((w.reset settings r).succeed uid, .done (.success uid))
  else (w, .done .failed)

def loginStep (settings : LoginSettings) (w : LoginWorld) :
    LoginLocal → LoginAction → Option (LoginWorld × LoginLocal)
  | .counted r viaRedis, .proceed => some (r.check settings w viaRedis)
  | .accepted r uid viaRedis, .proceed => some (r.finish settings w uid viaRedis)
  | .counted .., .fail => some (w, .done .failed)
  | .accepted .., .fail => some (w, .done .failed)
  | .counted .., .submit _ => none
  | .accepted .., .submit _ => none
  | _, .submit r => some (r.submit settings w)
  | l, .tick now => if w.now ≤ now then some ({ w with now := now }, l) else none
  | l, .redis up => some ({ w with redisUp := up }, l)
  | l, .users users => some ({ w with users := users }, l)
  | _, _ => none

def logins (settings : LoginSettings) : Interleaving.System LoginWorld LoginLocal LoginAction where
  step _ := loginStep settings

/-- The login has been counted under the key and let in, and waits for the check of its password. -/
def LoginLocal.WaitsUnder (settings : LoginSettings) (key : String) (l : LoginLocal) : Prop :=
  ∃ r viaRedis, l = .counted r viaRedis ∧ settings.loginKey r.username = key

/-! ### What a step does -/

inductive PasswordStep (settings : LoginSettings) (w : LoginWorld) :
    LoginLocal → LoginAction → LoginWorld → LoginLocal → Prop
  | malformed {l : LoginLocal} {r : LoginForm} :
      PasswordStep settings w l (.submit r) w (.done (.http invalidCharacters))
  | refused {l : LoginLocal} {r : LoginForm} {e : HttpException} :
      PasswordStep settings w l (.submit r) (w.count settings r).2 (.done (.http e))
  | counted {l : LoginLocal} {r : LoginForm} (hallowed : (w.count settings r).1 = .ok ()) :
      PasswordStep settings w l (.submit r) (w.count settings r).2 (.counted r w.redisUp)
  | checked {r : LoginForm} {viaRedis : Bool} {l' : LoginLocal}
      (hafter : ∀ r' viaRedis', l' ≠ .counted r' viaRedis') :
      PasswordStep settings w (.counted r viaRedis) .proceed (w.verify settings r).2 l'
  | succeed {r : LoginForm} {uid : UserId} :
      PasswordStep settings w (.accepted r uid false) .proceed (w.succeed uid) (.done (.success uid))
  | reset {r : LoginForm} {uid : UserId} :
      PasswordStep settings w (.accepted r uid true) .proceed ((w.reset settings r).succeed uid)
        (.done (.success uid))
  | failed {l : LoginLocal} {action : LoginAction} : PasswordStep settings w l action w (.done .failed)
  | tick {l : LoginLocal} {now : Int} (hnow : w.now ≤ now) :
      PasswordStep settings w l (.tick now) { w with now := now } l
  | redis {l : LoginLocal} {up : Bool} : PasswordStep settings w l (.redis up) { w with redisUp := up } l
  | users {l : LoginLocal} {users : Table UserId User} :
      PasswordStep settings w l (.users users) { w with users := users } l

section

variable (r : LoginForm) (settings : LoginSettings) (w : LoginWorld)

theorem LoginForm.submitted (l : LoginLocal) : PasswordStep settings w l (.submit r)
    (r.submit settings w).1 (r.submit settings w).2 := by
  simp only [submit]
  split
  · exact .malformed
  · split
    next e counted hcount =>
        have hcounted : (w.count settings r).2 = counted := by rw [hcount]
        exact hcounted ▸ .refused
    next counted hcount =>
        have hcounted : (w.count settings r).2 = counted := by rw [hcount]
        exact hcounted ▸ .counted (by rw [hcount])

theorem LoginForm.checked (viaRedis : Bool) : PasswordStep settings w (.counted r viaRedis) .proceed
    (r.check settings w viaRedis).1 (r.check settings w viaRedis).2 := by
  simp only [check]
  split
  next verified hverify =>
      have hverified : (w.verify settings r).2 = verified := by rw [hverify]
      exact hverified ▸ .checked (by simp)
  next uid user verified hverify =>
      have hverified : (w.verify settings r).2 = verified := by rw [hverify]
      split
      · exact hverified ▸ .checked (by simp)
      · exact hverified ▸ .checked (by simp)

theorem LoginForm.finished (uid : UserId) (viaRedis : Bool) :
    PasswordStep settings w (.accepted r uid viaRedis) .proceed
      (r.finish settings w uid viaRedis).1 (r.finish settings w uid viaRedis).2 := by
  cases viaRedis with
  | false => exact .succeed
  | true =>
      cases hup : w.redisUp with
      | false => simpa [finish, hup] using PasswordStep.failed
      | true => simpa [finish, hup] using PasswordStep.reset

end

theorem loginStep_sound {settings : LoginSettings} {w w' : LoginWorld} {l l' : LoginLocal}
    {action : LoginAction} (hstep : loginStep settings w l action = some (w', l')) :
    PasswordStep settings w l action w' l' := by
  cases action with
  | submit r =>
      have hsubmit : r.submit settings w = (w', l') := by
        cases l with
        | counted r viaRedis => simp [loginStep] at hstep
        | accepted r uid viaRedis => simp [loginStep] at hstep
        | idle => simpa [loginStep] using hstep
        | done result => simpa [loginStep] using hstep
      have hsubmitted := r.submitted settings w l
      rwa [hsubmit] at hsubmitted
  | proceed =>
      cases l with
      | counted r viaRedis =>
          have hcheck : r.check settings w viaRedis = (w', l') := Option.some.inj hstep
          have hchecked := r.checked settings w viaRedis
          rwa [hcheck] at hchecked
      | accepted r uid viaRedis =>
          have hfinish : r.finish settings w uid viaRedis = (w', l') := Option.some.inj hstep
          have hfinished := r.finished settings w uid viaRedis
          rwa [hfinish] at hfinished
      | idle => simp [loginStep] at hstep
      | done result => simp [loginStep] at hstep
  | fail =>
      have hfailed : (w, LoginLocal.done .failed) = (w', l') := by
        cases l with
        | counted r viaRedis => exact Option.some.inj hstep
        | accepted r uid viaRedis => exact Option.some.inj hstep
        | idle => simp [loginStep] at hstep
        | done result => simp [loginStep] at hstep
      cases hfailed
      exact .failed
  | tick now =>
      have htick : w.now ≤ now ∧ some ({ w with now := now }, l) = some (w', l') := by
        cases l <;> simpa only [loginStep, Option.ite_none_right_eq_some] using hstep
      cases htick.2
      exact .tick htick.1
  | redis up =>
      have hup : some ({ w with redisUp := up }, l) = some (w', l') := by
        cases l <;> exact hstep
      cases hup
      exact .redis
  | users users =>
      have husers : some ({ w with users := users }, l) = some (w', l') := by
        cases l <;> exact hstep
      cases husers
      exact .users

end FaAuthM8

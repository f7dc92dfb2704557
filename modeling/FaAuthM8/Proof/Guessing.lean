import FaAuthM8.System.Logins
import Mathlib.Data.Finset.Card

/-!
# Guessing a password

A login is counted under the text it came with, and its password is checked later, against the account that
the database finds for that text. While every text that finds the account is counted under one key, nobody
else resets that key, and its counter outlasts every login it has let in, that counter is at least the number
of checks since its window began and since the account last signed in, and of the checks still to be made; the
limit on the one is then a limit on the other.
-/

namespace FaAuthM8

/-- A check of the account's hash, made at `start` or later. -/
def LoginEvent.isGuess (uid : UserId) (start : Int) : LoginEvent → Bool
  | .verified uid' _ time => uid' == uid && decide (start ≤ time)
  | _ => false

/-- How often the account's hash was checked from `start` on, since the account last signed in. -/
def guesses (uid : UserId) (start : Int) (log : List LoginEvent) : Nat :=
  (log.takeWhile (· ≠ .succeeded uid)).countP (·.isGuess uid start)

section

variable {uid : UserId} {start : Int} {log : List LoginEvent}

@[simp] theorem guesses_opened (key : String) (time : Int) :
    guesses uid start (.opened key time :: log) = guesses uid start log := by
  simp [guesses, LoginEvent.isGuess]

theorem guesses_verified (uid' : UserId) (key : String) (time : Int) :
    guesses uid start (.verified uid' key time :: log) =
      guesses uid start log + if uid' = uid ∧ start ≤ time then 1 else 0 := by
  simp [guesses, List.countP_cons, LoginEvent.isGuess]

theorem guesses_succeeded (uid' : UserId) :
    guesses uid start (.succeeded uid' :: log) = if uid' = uid then 0 else guesses uid start log := by
  by_cases huid : uid' = uid
  · simp [guesses, huid]
  · simp [guesses, huid, LoginEvent.isGuess]

theorem guesses_eq_zero (hearlier : ∀ key time, .verified uid key time ∈ log → time < start) :
    guesses uid start log = 0 := by
  rw [guesses, List.countP_eq_zero]
  intro event hevent hguess
  have hmem : event ∈ log := (List.takeWhile_prefix _).subset hevent
  cases event with
  | verified uid' key time =>
      have hfacts : uid' = uid ∧ start ≤ time := by simpa [LoginEvent.isGuess] using hguess
      have hbefore : time < start := hearlier key time (hfacts.1 ▸ hmem)
      omega
  | opened key time => simp [LoginEvent.isGuess] at hguess
  | succeeded uid' => simp [LoginEvent.isGuess] at hguess

end

/-- In every window that is open on a key the account has been tried under, the account's hash has been
checked at most as often as the limit allows. -/
def GuessesBounded (settings : LoginSettings) (uid : UserId) (w : LoginWorld) : Prop :=
  ∀ key start time, .opened key start ∈ w.log → .verified uid key time ∈ w.log → start ≤ time →
    w.now < start + settings.loginWindow →
      (guesses uid start w.log : Int) ≤ settings.loginRateLimitRequests

/-- A login that finds the account was counted under another key; or the key's counter is reset by the success
of another account, or ends, by a reset or by expiring, before a login it has let in has been checked. -/
inductive Evades (settings : LoginSettings) (uid : UserId) (key : String)
    (c : Interleaving.Config LoginWorld LoginLocal) : Nat × LoginAction → Prop
  | respelled {p : Nat} {r : LoginForm} {viaRedis : Bool} {user : User}
      (hlocal : c.locals p = .counted r viaRedis)
      (hfound : findUserByEmail settings.sameEmail c.shared.users r.username = some (uid, user))
      (hkey : settings.loginKey r.username ≠ key) : Evades settings uid key c (p, .proceed)
  | reset {p : Nat} {r : LoginForm} {uid' : UserId} (hlocal : c.locals p = .accepted r uid' true)
      (hkey : settings.loginKey r.username = key)
      (hends : uid' ≠ uid ∨ ∃ q, (c.locals q).WaitsUnder settings key) :
      Evades settings uid key c (p, .proceed)
  | expired {p q : Nat} {now : Int} (hwaits : (c.locals q).WaitsUnder settings key)
      (hgone : c.shared.counters.live now key = none) : Evades settings uid key c (p, .tick now)

/-! ### Counting a login -/

section

variable {settings : LoginSettings} {w : LoginWorld} {r : LoginForm}

@[simp] theorem LoginWorld.count_now : (w.count settings r).2.now = w.now := rfl

@[simp] theorem LoginWorld.count_users : (w.count settings r).2.users = w.users := rfl

theorem windowSeconds_mul (settings : LoginSettings) :
    (settings.loginRateLimiter.windowSeconds : Int) * second = settings.loginWindow := by
  show ((settings.loginRateLimitWindowMinutes * 60 : Nat) : Int) * second = _
  rw [Int.natCast_mul]
  rfl

theorem LoginWorld.count_eq (settings : LoginSettings) (r : LoginForm) (hup : w.redisUp = true) :
    ((w.count settings r).1 = .ok () →
        (settings.loginRateLimiter.isAllowed settings.isPrintable w.counters w.now r.username).1 = true) ∧
      (w.count settings r).2.counters = (settings.loginIpRateLimiter.isAllowed settings.isPrintable
        (settings.loginRateLimiter.isAllowed settings.isPrintable w.counters w.now r.username).2
          w.now r.ip).2 ∧
      (w.count settings r).2.log = if (w.counters.live w.now (settings.loginKey r.username)).isNone then
        .opened (settings.loginKey r.username) w.now :: w.log else w.log := by
  simp only [count, redis, hup, if_true, LoginSettings.enforceLoginRateLimit, Bool.true_and]
  refine ⟨fun hallowed => ?_, rfl, trivial⟩
  split at hallowed
  next hok => exact (Bool.and_eq_true_iff.1 hok).1
  next => cases hallowed

theorem LoginWorld.lookup_count (settings : LoginSettings) (r : LoginForm) (hup : w.redisUp = true)
    (email : String) :
    (w.count settings r).2.counters.lookup (settings.loginKey email) =
      (settings.loginRateLimiter.isAllowed settings.isPrintable w.counters w.now r.username).2.lookup
        (settings.loginKey email) := by
  rw [(count_eq settings r hup).2.1]
  apply FixedWindowLimiter.lookup_isAllowed_of_ne
  exact loginKey_ne_ipKey settings.toLoginLimits settings.isPrintable email r.ip

theorem WindowCounters.live_congr {counters counters' : WindowCounters} {now : Int} {key : String}
    (hlookup : counters'.lookup key = counters.lookup key) :
    counters'.live now key = counters.live now key := by
  rw [live, live, hlookup]

theorem WindowCounters.live_of_later {counters : WindowCounters} {now later : Int} {key : String}
    {counter : WindowCounter} (hle : now ≤ later) (hlive : counters.live later key = some counter) :
    counters.live now key = some counter := by
  obtain ⟨hlookup, hexpires⟩ := live_eq_some.1 hlive
  refine live_eq_some.2 ⟨hlookup, fun e he => ?_⟩
  have hlater : later < e := hexpires e he
  omega

/-- A login counted under the key starts its counter, or advances it. -/
inductive LoginCounted (settings : LoginSettings) (key : String) (w : LoginWorld)
    (answer : Except HttpException Unit) (w' : LoginWorld) : Prop
  | opens (hnone : w.counters.live w.now key = none) (hlog : w'.log = .opened key w.now :: w.log)
      (hlookup : w'.counters.lookup key = some ⟨1, some (w.now + settings.loginWindow)⟩)
      (hallowed : answer = .ok () → 1 ≤ settings.loginRateLimitRequests)
  | advances (counter : WindowCounter) (expiresAt : Option Int)
      (hlive : w.counters.live w.now key = some counter) (hlog : w'.log = w.log)
      (hlookup : w'.counters.lookup key = some ⟨counter.value + 1, expiresAt⟩)
      (hexpires : expiresAt = counter.expiresAt ∨ expiresAt = some (w.now + settings.loginWindow))
      (hallowed : answer = .ok () → (counter.value + 1 : Int) ≤ settings.loginRateLimitRequests)

theorem LoginWorld.counted (settings : LoginSettings) (r : LoginForm) (hup : w.redisUp = true) :
    LoginCounted settings (settings.loginKey r.username) w (w.count settings r).1 (w.count settings r).2 := by
  obtain ⟨hanswer, -, hlog⟩ := count_eq settings r hup
  have hlookup := lookup_count settings r hup r.username
  cases hlive : w.counters.live w.now (settings.loginKey r.username) with
  | none =>
      rw [hlive] at hlog
      obtain ⟨-, hallowed, hopened⟩ := FixedWindowLimiter.isAllowed_opens hlive
      rw [windowSeconds_mul] at hopened
      refine .opens hlive hlog (hlookup.trans hopened) fun hok => ?_
      have hone := hallowed.symm.trans (hanswer hok)
      exact of_decide_eq_true hone
  | some counter =>
      rw [hlive] at hlog
      obtain ⟨hallowed, expiresAt, hadvanced, hexpires⟩ := FixedWindowLimiter.isAllowed_advances hlive
      rw [windowSeconds_mul] at hexpires
      refine .advances counter expiresAt hlive hlog (hlookup.trans hadvanced) (hexpires.imp_right And.right)
        fun hok => ?_
      have hmore := hallowed.symm.trans (hanswer hok)
      exact of_decide_eq_true hmore

section

variable {key : String} {answer : Except HttpException Unit} {w' : LoginWorld}

theorem LoginCounted.mem_opened (hcounted : LoginCounted settings key w answer w') {time : Int}
    (hmem : .opened key time ∈ w'.log) : time = w.now ∨ .opened key time ∈ w.log := by
  cases hcounted with
  | opens hnone hlog hlookup hallowed =>
      rw [hlog, List.mem_cons] at hmem
      exact hmem.imp_left fun heq => by injection heq
  | advances counter expiresAt hlive hlog hlookup hexpires hallowed => exact .inr (hlog ▸ hmem)

theorem LoginCounted.mem_verified (hcounted : LoginCounted settings key w answer w') {uid : UserId}
    {key' : String} {time : Int} (hmem : .verified uid key' time ∈ w'.log) :
    .verified uid key' time ∈ w.log := by
  cases hcounted with
  | opens hnone hlog hlookup hallowed =>
      rw [hlog, List.mem_cons] at hmem
      exact hmem.resolve_left (by simp)
  | advances counter expiresAt hlive hlog hlookup hexpires hallowed => exact hlog ▸ hmem

end

theorem LoginWorld.live_count_of_ne {email : String} (hup : w.redisUp = true)
    (hkey : settings.loginKey r.username ≠ settings.loginKey email) :
    (w.count settings r).2.counters.live w.now (settings.loginKey email) =
      w.counters.live w.now (settings.loginKey email) := by
  apply WindowCounters.live_congr
  rw [lookup_count settings r hup]
  exact FixedWindowLimiter.lookup_isAllowed_of_ne (Ne.symm hkey)

end

/-! ### The counter covers the guesses -/

/-- A window on the key of `email` is open, or one opening now would be. -/
def InWindow (settings : LoginSettings) (email : String) (w : LoginWorld) (start : Int) : Prop :=
  .opened (settings.loginKey email) start ∈ w.log ∧ w.now < start + settings.loginWindow ∨
    start = w.now ∧ 0 < settings.loginWindow

/-- The account's hash has only been checked for logins counted under the key of `email`, and the counter of
the key has counted every check of an open window and the `waiting` logins still to be checked. -/
structure GuessesCounted (settings : LoginSettings) (uid : UserId) (email : String) (w : LoginWorld)
    (waiting : Nat) : Prop where
  verified : ∀ key time, .verified uid key time ∈ w.log → key = settings.loginKey email ∧ time ≤ w.now ∧
    (0 < settings.loginWindow → 1 ≤ settings.loginRateLimitRequests)
  opened : ∀ time, .opened (settings.loginKey email) time ∈ w.log → time ≤ w.now
  expires : ∀ start counter e, .opened (settings.loginKey email) start ∈ w.log →
    w.counters.live w.now (settings.loginKey email) = some counter → counter.expiresAt = some e →
      start + settings.loginWindow ≤ e
  covered : ∀ start, InWindow settings email w start → guesses uid start w.log + waiting = 0 ∨
    ((guesses uid start w.log + waiting : Nat) : Int) ≤ settings.loginRateLimitRequests ∧
      ∃ counter, w.counters.live w.now (settings.loginKey email) = some counter ∧
        guesses uid start w.log + waiting ≤ counter.value

section

variable {settings : LoginSettings} {uid : UserId} {email : String} {w w' : LoginWorld} {r : LoginForm}
variable {waiting : Nat}

theorem GuessesCounted.bounded (h : GuessesCounted settings uid email w waiting) :
    GuessesBounded settings uid w := by
  intro key start time hopened hverified hle hopen
  obtain ⟨rfl, htime, hlimit⟩ := h.verified key time hverified
  obtain hzero | ⟨hbound, -⟩ := h.covered start (.inl ⟨hopened, hopen⟩)
  · have hpos := hlimit (by omega)
    omega
  · omega

theorem GuessesCounted.start (hlog : w.log = []) : GuessesCounted settings uid email w 0 := by
  refine ⟨?_, ?_, ?_, fun start _ => .inl ?_⟩
  · simp [hlog]
  · simp [hlog]
  · simp [hlog]
  · rw [hlog]
    rfl

theorem GuessesCounted.window_le (h : GuessesCounted settings uid email w waiting) {start : Int}
    (hin : InWindow settings email w start) : start ≤ w.now ∧ 0 < settings.loginWindow := by
  obtain ⟨hopened, hopen⟩ | ⟨rfl, hpos⟩ := hin
  · have hle : start ≤ w.now := h.opened start hopened
    exact ⟨hle, by omega⟩
  · exact ⟨Int.le_refl _, hpos⟩

theorem GuessesCounted.congr {waiting' : Nat} (h : GuessesCounted settings uid email w waiting)
    (hnow : w'.now = w.now) (hlog : w'.log = w.log)
    (hlive : w'.counters.live w.now (settings.loginKey email) =
      w.counters.live w.now (settings.loginKey email)) (hwaiting : waiting' ≤ waiting) :
    GuessesCounted settings uid email w' waiting' := by
  refine ⟨?_, ?_, ?_, fun start hin => ?_⟩
  · rw [hlog, hnow]
    exact h.verified
  · rw [hlog, hnow]
    exact h.opened
  · rw [hlog, hnow, hlive]
    exact h.expires
  · have hin' : InWindow settings email w start := by
      rw [InWindow, hlog, hnow] at hin
      exact hin
    rw [hlog, hnow, hlive]
    obtain hzero | ⟨hbound, counter, hlive, hvalue⟩ := h.covered start hin'
    · exact .inl (by omega)
    · exact .inr ⟨by omega, counter, hlive, by omega⟩

theorem GuessesCounted.mono {waiting' : Nat} (h : GuessesCounted settings uid email w waiting)
    (hwaiting : waiting' ≤ waiting) : GuessesCounted settings uid email w waiting' :=
  h.congr rfl rfl rfl hwaiting

/-- Time has passed, and the counter has not expired if a login still waits. -/
theorem GuessesCounted.tick (h : GuessesCounted settings uid email w waiting) {now : Int} (hnow : w.now ≤ now)
    (hstays : waiting ≠ 0 → w.counters.live now (settings.loginKey email) ≠ none) :
    GuessesCounted settings uid email { w with now := now } waiting := by
  refine ⟨fun key time hverified => ?_, fun time hopened => ?_, fun start counter e hopened hlive he => ?_,
    fun start hin => ?_⟩
  · obtain ⟨hkey, hle, hlimit⟩ := h.verified key time hverified
    exact ⟨hkey, Int.le_trans hle hnow, hlimit⟩
  · exact Int.le_trans (h.opened time hopened) hnow
  · exact h.expires start counter e hopened (WindowCounters.live_of_later hnow hlive) he
  · obtain ⟨hopened, hopen⟩ | ⟨hstart, hpos⟩ := hin
    · have hopen' : w.now < start + settings.loginWindow := Int.lt_of_le_of_lt hnow hopen
      refine (h.covered start (.inl ⟨hopened, hopen'⟩)).imp id ?_
      intro ⟨hbound, counter, hlive, hvalue⟩
      refine ⟨hbound, counter, ?_, hvalue⟩
      -- the window is still open, so its counter has not expired
      refine WindowCounters.live_eq_some.2 ⟨(WindowCounters.live_eq_some.1 hlive).1, fun e he => ?_⟩
      exact Int.lt_of_lt_of_le hopen (h.expires start counter e hopened hlive he)
    · have hstart : start = now := hstart
      subst hstart
      by_cases hsame : start = w.now
      · subst hsame
        exact h.covered w.now (.inr ⟨rfl, hpos⟩)
      · have hguesses : guesses uid start w.log = 0 := by
          refine guesses_eq_zero fun key time hverified => ?_
          have hle : time ≤ w.now := (h.verified key time hverified).2.1
          omega
        rw [hguesses]
        by_cases hnone : waiting = 0
        · exact .inl (by omega)
        · obtain hzero | ⟨hbound, counter, hlive, hvalue⟩ := h.covered w.now (.inr ⟨rfl, hpos⟩)
          · omega
          · refine .inr ⟨by omega, counter, ?_, by omega⟩
            obtain ⟨counter', hlater⟩ := Option.ne_none_iff_exists'.1 (hstays hnone)
            have hsame : counter' = counter := by
              have hnow := WindowCounters.live_of_later hnow hlater
              rw [hlive] at hnow
              exact (Option.some.inj hnow).symm
            exact hsame ▸ hlater

theorem GuessesCounted.count_of_ne (h : GuessesCounted settings uid email w waiting) (hup : w.redisUp = true)
    (hkey : settings.loginKey r.username ≠ settings.loginKey email) :
    GuessesCounted settings uid email (w.count settings r).2 waiting := by
  have hlive := LoginWorld.live_count_of_ne hup hkey
  have hlog := (LoginWorld.count_eq settings r hup).2.2
  split at hlog
  next =>
      have hopened {time : Int} (hmem : .opened (settings.loginKey email) time ∈ (w.count settings r).2.log) :
          .opened (settings.loginKey email) time ∈ w.log := by
        rw [hlog, List.mem_cons] at hmem
        refine hmem.resolve_left fun heq => ?_
        injection heq with heq
        exact hkey heq.symm
      refine ⟨fun key time hverified => ?_, fun time hmem => h.opened time (hopened hmem),
        fun start counter e hmem hcounter => ?_, fun start hin => ?_⟩
      · rw [hlog, List.mem_cons] at hverified
        exact h.verified key time (hverified.resolve_left (by simp))
      · exact h.expires start counter e (hopened hmem) (hlive ▸ hcounter)
      · rw [hlog, guesses_opened, LoginWorld.count_now, hlive]
        exact h.covered start (hin.imp_left fun hwindow => ⟨hopened hwindow.1, hwindow.2⟩)
  next => exact h.congr rfl hlog hlive (Nat.le_refl _)

/-- A window open after a login under the key was open before it, or could have been opened then. -/
theorem InWindow.of_count {answer : Except HttpException Unit}
    (hcounted : LoginCounted settings (settings.loginKey email) w answer w') (hnow : w'.now = w.now)
    {start : Int} (hin : InWindow settings email w' start) : InWindow settings email w start := by
  rw [InWindow, hnow] at hin
  obtain ⟨hopened, hopen⟩ | hinstant := hin
  · obtain hstart | hopened := hcounted.mem_opened hopened
    · exact .inr ⟨hstart, by omega⟩
    · exact .inl ⟨hopened, hopen⟩
  · exact .inr hinstant

/-- The counter after a login under the key has counted one more than the checks made and waiting before it. -/
theorem GuessesCounted.after_count (h : GuessesCounted settings uid email w waiting)
    {answer : Except HttpException Unit}
    (hcounted : LoginCounted settings (settings.loginKey email) w answer w') {start : Int}
    (hin : InWindow settings email w start) :
    guesses uid start w'.log = guesses uid start w.log ∧
      ∃ counter, w'.counters.live w.now (settings.loginKey email) = some counter ∧
        guesses uid start w.log + waiting + 1 ≤ counter.value ∧
        (answer = .ok () → (counter.value : Int) ≤ settings.loginRateLimitRequests) := by
  have hpos : 0 < settings.loginWindow := (h.window_le hin).2
  have hcovered := h.covered start hin
  cases hcounted with
  | opens hnone hlog hlookup hallowed =>
      have hzero : guesses uid start w.log + waiting = 0 := by
        refine hcovered.resolve_right fun ⟨_, counter, hlive, _⟩ => ?_
        rw [hnone] at hlive
        cases hlive
      refine ⟨by rw [hlog, guesses_opened], _, WindowCounters.live_eq_some.2 ⟨hlookup, fun e he => ?_⟩, ?_,
        hallowed⟩
      · have he : w.now + settings.loginWindow = e := Option.some.inj he
        omega
      · rw [hzero]
  | advances counter expiresAt hlive hlog hlookup hexpires hallowed =>
      have hvalue : guesses uid start w.log + waiting ≤ counter.value := by
        obtain hzero | ⟨-, counter', hlive', hvalue⟩ := hcovered
        · omega
        · rw [hlive, Option.some.injEq] at hlive'
          exact hlive' ▸ hvalue
      refine ⟨by rw [hlog], _, WindowCounters.live_eq_some.2 ⟨hlookup, fun e he => ?_⟩,
        Nat.succ_le_succ hvalue, hallowed⟩
      obtain rfl | rfl := hexpires
      · exact (WindowCounters.live_eq_some.1 hlive).2 e he
      · have he : w.now + settings.loginWindow = e := Option.some.inj he
        omega

theorem GuessesCounted.count {waiting' : Nat} (h : GuessesCounted settings uid email w waiting)
    {answer : Except HttpException Unit}
    (hcounted : LoginCounted settings (settings.loginKey email) w answer w') (hnow : w'.now = w.now)
    (hwaiting : waiting' ≤ waiting ∨ waiting' ≤ waiting + 1 ∧ answer = .ok ()) :
    GuessesCounted settings uid email w' waiting' := by
  have hopened {time : Int} (hmem : .opened (settings.loginKey email) time ∈ w'.log) : time ≤ w.now := by
    obtain htime | hmem := hcounted.mem_opened hmem
    · omega
    · exact h.opened time hmem
  refine ⟨fun key time hverified => ?_, fun time hmem => ?_, fun start counter e hmem hlive he => ?_,
    fun start hin => ?_⟩
  · rw [hnow]
    exact h.verified key time (hcounted.mem_verified hverified)
  · rw [hnow]
    exact hopened hmem
  · have hstart : start ≤ w.now := hopened hmem
    have hlookup' := (WindowCounters.live_eq_some.1 hlive).1
    cases hcounted with
    | opens hnone hlog hlookup hallowed =>
        obtain rfl := Option.some.inj (hlookup.symm.trans hlookup')
        have he : w.now + settings.loginWindow = e := Option.some.inj he
        omega
    | advances counter' expiresAt hlive' hlog hlookup hexpires hallowed =>
        obtain rfl := Option.some.inj (hlookup.symm.trans hlookup')
        obtain rfl | rfl := hexpires
        · exact h.expires start counter' e (hlog ▸ hmem) hlive' he
        · have he : w.now + settings.loginWindow = e := Option.some.inj he
          omega
  · have hin' : InWindow settings email w start := hin.of_count hcounted hnow
    obtain ⟨hguesses, counter, hlive, hvalue, hbound⟩ := h.after_count hcounted hin'
    rw [hguesses, hnow]
    obtain hwaiting | ⟨hwaiting, hok⟩ := hwaiting
    · obtain hzero | ⟨hlimit, -⟩ := h.covered start hin'
      · exact .inl (by omega)
      · exact .inr ⟨by omega, counter, hlive, by omega⟩
    · have hlimit := hbound hok
      exact .inr ⟨by omega, counter, hlive, by omega⟩

/-- The password of a login has been checked: one login that waited no longer does, if the check was of the
account's hash. -/
theorem GuessesCounted.verify {waiting' : Nat} (h : GuessesCounted settings uid email w waiting)
    (hwaiting : waiting' ≤ waiting)
    (hfewer : ∀ user, findUserByEmail settings.sameEmail w.users r.username = some (uid, user) →
      settings.loginKey r.username = settings.loginKey email ∧ waiting' + 1 ≤ waiting) :
    GuessesCounted settings uid email (w.verify settings r).2 waiting' := by
  cases hchecked : (findUserByEmail settings.sameEmail w.users r.username).filter (·.2.storedHash.isSome) with
  | none => exact h.congr rfl (by simp [LoginWorld.verify, hchecked]) rfl hwaiting
  | some found =>
      obtain ⟨uid', user⟩ := found
      have hlog : (w.verify settings r).2.log =
          .verified uid' (settings.loginKey r.username) w.now :: w.log := by
        simp [LoginWorld.verify, hchecked]
      have hfound := (Option.filter_eq_some_iff.1 hchecked).1
      have hopened {time : Int}
          (hmem : .opened (settings.loginKey email) time ∈ (w.verify settings r).2.log) :
          .opened (settings.loginKey email) time ∈ w.log := by
        rw [hlog, List.mem_cons] at hmem
        exact hmem.resolve_left (by simp)
      refine ⟨fun key time hverified => ?_, fun time hmem => h.opened time (hopened hmem),
        fun start counter e hmem => h.expires start counter e (hopened hmem), fun start hin => ?_⟩
      · rw [hlog, List.mem_cons] at hverified
        obtain heq | hverified := hverified
        · injection heq with huid hkey htime
          subst huid
          obtain ⟨hkey', hspare⟩ := hfewer user hfound
          refine ⟨hkey.trans hkey', Int.le_of_eq htime, fun hpos => ?_⟩
          obtain hzero | ⟨hbound, -⟩ := h.covered w.now (.inr ⟨rfl, hpos⟩)
          · omega
          · omega
        · exact h.verified key time hverified
      · have hin' : InWindow settings email w start :=
          hin.imp_left fun hwindow => ⟨hopened hwindow.1, hwindow.2⟩
        have hguesses : guesses uid start (w.verify settings r).2.log + waiting' ≤
            guesses uid start w.log + waiting := by
          rw [hlog, guesses_verified]
          split
          next hboth =>
              obtain ⟨rfl, -⟩ := hboth
              have hspare := (hfewer user hfound).2
              omega
          next => omega
        obtain hzero | ⟨hbound, counter, hlive, hvalue⟩ := h.covered start hin'
        · exact .inl (by omega)
        · exact .inr ⟨by omega, counter, hlive, by omega⟩

/-- An account has signed in, and the counter of the key is as it was, or has been reset for this account when
no login waited. -/
theorem GuessesCounted.succeed (h : GuessesCounted settings uid email w waiting) {uid' : UserId}
    (hnow : w'.now = w.now) (hlog : w'.log = .succeeded uid' :: w.log)
    (hlive : w'.counters.live w.now (settings.loginKey email) =
        w.counters.live w.now (settings.loginKey email) ∨
      uid' = uid ∧ waiting = 0 ∧ w'.counters.live w.now (settings.loginKey email) = none) :
    GuessesCounted settings uid email w' waiting := by
  have hmem {event : LoginEvent} (hne : event ≠ .succeeded uid') : event ∈ w'.log ↔ event ∈ w.log := by
    rw [hlog, List.mem_cons]
    exact or_iff_right hne
  refine ⟨fun key time hverified => ?_, fun time hopened => ?_, fun start counter e hopened hcounter he => ?_,
    fun start hin => ?_⟩
  · rw [hnow]
    exact h.verified key time ((hmem (by simp)).1 hverified)
  · rw [hnow]
    exact h.opened time ((hmem (by simp)).1 hopened)
  · rw [hnow] at hcounter
    obtain hsame | ⟨-, -, hnone⟩ := hlive
    · exact h.expires start counter e ((hmem (by simp)).1 hopened) (hsame ▸ hcounter) he
    · rw [hnone] at hcounter
      cases hcounter
  · rw [InWindow, hmem (by simp), hnow] at hin
    rw [hlog, guesses_succeeded, hnow]
    obtain hsame | ⟨huid, hnone, -⟩ := hlive
    · rw [hsame]
      obtain hzero | ⟨hbound, counter, hlive, hvalue⟩ := h.covered start hin
      · refine .inl ?_
        split <;> omega
      · refine .inr ⟨?_, counter, hlive, ?_⟩
        · split <;> omega
        · split <;> omega
    · rw [if_pos huid]
      exact .inl (by omega)

theorem LoginWorld.live_reset (settings : LoginSettings) (w : LoginWorld) (r : LoginForm) (email : String) :
    (w.reset settings r).counters.live w.now (settings.loginKey email) =
      if settings.loginKey r.username = settings.loginKey email then none
      else w.counters.live w.now (settings.loginKey email) := by
  split
  next hkey =>
      show (Option.filter _ (AList.lookup _ (AList.erase (settings.loginKey r.username) w.counters))) = none
      rw [hkey, AList.lookup_erase]
      rfl
  next hkey => exact WindowCounters.live_congr (AList.lookup_erase_ne (Ne.symm hkey))

end

/-! ### Runs of logins -/

/-- The counter of the key has counted the checks of an open window and the logins that wait under the key. -/
def AllGuessesCounted (settings : LoginSettings) (uid : UserId) (email : String)
    (c : Interleaving.Config LoginWorld LoginLocal) : Prop :=
  ∃ waiting : Finset Nat, (∀ p, p ∈ waiting ↔ (c.locals p).WaitsUnder settings (settings.loginKey email)) ∧
    GuessesCounted settings uid email c.shared waiting.card

section

variable {settings : LoginSettings} {uid : UserId} {email : String}
variable {c c' : Interleaving.Config LoginWorld LoginLocal} {move : Nat × LoginAction} {waiting : Finset Nat}

@[simp] theorem LoginLocal.waitsUnder_counted {key : String} {r : LoginForm} {viaRedis : Bool} :
    (LoginLocal.counted r viaRedis).WaitsUnder settings key ↔ settings.loginKey r.username = key := by
  simp [WaitsUnder]

theorem LoginLocal.not_waitsUnder {key : String} {l : LoginLocal}
    (hother : ∀ r viaRedis, l ≠ .counted r viaRedis) : ¬ l.WaitsUnder settings key := by
  rintro ⟨r, viaRedis, hlocal, -⟩
  exact hother r viaRedis hlocal

/-- The processes that wait after a step: the mover may have joined them or left them. -/
theorem exists_waiting {key : String} (hnext : (logins settings).next c move = some c')
    (hwaiting : ∀ p, p ∈ waiting ↔ (c.locals p).WaitsUnder settings key) :
    ∃ waiting' : Finset Nat, (∀ p, p ∈ waiting' ↔ (c'.locals p).WaitsUnder settings key) ∧
      waiting'.card ≤ waiting.card + 1 ∧
      (((c'.locals move.1).WaitsUnder settings key → (c.locals move.1).WaitsUnder settings key) →
        waiting'.card ≤ waiting.card) ∧
      ((c.locals move.1).WaitsUnder settings key → ¬ (c'.locals move.1).WaitsUnder settings key →
        waiting'.card + 1 ≤ waiting.card) := by
  obtain ⟨w', l', -, rfl⟩ := Interleaving.System.next_eq_some.1 hnext
  have hmover : Function.update c.locals move.1 l' move.1 = l' := Function.update_self ..
  by_cases hafter : l'.WaitsUnder settings key
  · refine ⟨insert move.1 waiting, fun p => ?_, Finset.card_insert_le _ _, fun hkept => ?_, fun _ hleft => ?_⟩
    · rw [Finset.mem_insert, hwaiting]
      by_cases hp : p = move.1
      · subst hp
        simpa [hmover] using hafter
      · simp [hp]
    · have hmem : move.1 ∈ waiting := (hwaiting _).2 (hkept (by simpa [hmover] using hafter))
      rw [Finset.insert_eq_of_mem hmem]
    · exact absurd (by simpa [hmover] using hafter) hleft
  · refine ⟨waiting.erase move.1, fun p => ?_, ?_, fun _ => Finset.card_erase_le, fun hbefore _ => ?_⟩
    · rw [Finset.mem_erase, hwaiting]
      by_cases hp : p = move.1
      · subst hp
        simpa [hmover] using hafter
      · simp [hp]
    · have hle : (waiting.erase move.1).card ≤ waiting.card := Finset.card_erase_le
      omega
    · have hmem : move.1 ∈ waiting := (hwaiting _).2 hbefore
      rw [Finset.card_erase_add_one hmem]

theorem AllGuessesCounted.next (h : AllGuessesCounted settings uid email c)
    (hnext : (logins settings).next c move = some c') (hup : c.shared.redisUp = true)
    (hevades : ¬ Evades settings uid (settings.loginKey email) c move) :
    AllGuessesCounted settings uid email c' := by
  obtain ⟨waiting, hwaiting, h⟩ := h
  obtain ⟨waiting', hwaiting', hmost, hkept, hleft⟩ := exists_waiting hnext hwaiting
  refine ⟨waiting', hwaiting', ?_⟩
  have hnone {l : LoginLocal} (hother : ∀ r viaRedis, l ≠ .counted r viaRedis)
      (hlocal : c'.locals move.1 = l) : waiting'.card ≤ waiting.card := by
    refine hkept fun hafter => ?_
    rw [hlocal] at hafter
    exact absurd hafter (LoginLocal.not_waitsUnder hother)
  have hsame (hlocal : c'.locals move.1 = c.locals move.1) : waiting'.card ≤ waiting.card := by
    refine hkept fun hafter => ?_
    rwa [hlocal] at hafter
  have hstep := loginStep_sound (Interleaving.System.step_of_next hnext)
  obtain ⟨p, action⟩ := move
  generalize hbefore : c.locals p = l at hstep hsame
  generalize hafter : c'.locals p = l' at hstep hsame
  generalize hworld : c'.shared = w' at hstep ⊢
  cases hstep with
  | malformed => exact h.mono (hnone (by simp) hafter)
  | @refused l r e =>
      have hcounted := LoginWorld.counted settings r hup
      by_cases hkey : settings.loginKey r.username = settings.loginKey email
      · exact h.count (hkey ▸ hcounted) rfl (.inl (hnone (by simp) hafter))
      · exact (h.count_of_ne hup hkey).mono (hnone (by simp) hafter)
  | @counted l r hallowed =>
      have hcounted := LoginWorld.counted settings r hup
      by_cases hkey : settings.loginKey r.username = settings.loginKey email
      · exact h.count (hkey ▸ hcounted) rfl (.inr ⟨hmost, hallowed⟩)
      · refine (h.count_of_ne hup hkey).mono (hkept fun hwaits => ?_)
        rw [hafter, LoginLocal.waitsUnder_counted] at hwaits
        exact absurd hwaits hkey
  | @checked r viaRedis l' hother =>
      refine h.verify (hnone hother hafter) fun user hfound => ?_
      have hkey : settings.loginKey r.username = settings.loginKey email :=
        Decidable.of_not_not fun hkey => hevades (.respelled hbefore hfound hkey)
      refine ⟨hkey, hleft ?_ ?_⟩
      · rw [hbefore, LoginLocal.waitsUnder_counted]
        exact hkey
      · rw [hafter]
        exact LoginLocal.not_waitsUnder hother
  | @succeed r uid' =>
      have hsucceed : GuessesCounted settings uid email (c.shared.succeed uid') waiting.card :=
        h.succeed rfl rfl (.inl rfl)
      exact hsucceed.mono (hnone (by simp) hafter)
  | @reset r uid' =>
      have hlive := LoginWorld.live_reset settings c.shared r email
      have hsucceed : GuessesCounted settings uid email ((c.shared.reset settings r).succeed uid')
          waiting.card := by
        refine h.succeed rfl rfl ?_
        split at hlive
        next hkey =>
            have hends : ¬ (uid' ≠ uid ∨ ∃ q, (c.locals q).WaitsUnder settings (settings.loginKey email)) :=
              fun hends => hevades (.reset hbefore hkey hends)
            push Not at hends
            refine .inr ⟨hends.1, Finset.card_eq_zero.2 (Finset.eq_empty_of_forall_notMem fun q hq => ?_), hlive⟩
            exact hends.2 q ((hwaiting q).1 hq)
        next => exact .inl hlive
      exact hsucceed.mono (hnone (by simp) hafter)
  | failed => exact h.mono (hnone (by simp) hafter)
  | @tick l now hnow =>
      have htick : GuessesCounted settings uid email { c.shared with now := now } waiting.card := by
        refine h.tick hnow fun hsome hgone => ?_
        obtain ⟨q, hq⟩ := Finset.card_ne_zero.1 hsome
        exact hevades (.expired ((hwaiting q).1 hq) hgone)
      exact htick.mono (hsame rfl)
  | redis => exact h.congr rfl rfl rfl (hsame rfl)
  | users => exact h.congr rfl rfl rfl (hsame rfl)

end

/-- Where e-mails are compared exactly, a login that finds the account was counted under its e-mail, so only
the ends of the counter are left. -/
theorem evades_exact {settings : LoginSettings} {uid : UserId} {email : String}
    {c : Interleaving.Config LoginWorld LoginLocal} {move : Nat × LoginAction}
    (hexact : ∀ stored given, settings.sameEmail stored given = (stored == given))
    (hemail : ∀ user, c.shared.users.lookup uid = some user → user.email = email)
    (hevades : Evades settings uid (settings.loginKey email) c move) :
    (∃ r uid', c.locals move.1 = .accepted r uid' true ∧
        settings.loginKey r.username = settings.loginKey email ∧
        (uid' ≠ uid ∨ ∃ q, (c.locals q).WaitsUnder settings (settings.loginKey email))) ∨
      ∃ now, move.2 = .tick now ∧ c.shared.counters.live now (settings.loginKey email) = none ∧
        ∃ q, (c.locals q).WaitsUnder settings (settings.loginKey email) := by
  cases hevades with
  | respelled hlocal hfound hkey =>
      obtain ⟨huser, hsame⟩ := Table.first_eq_some hfound
      rw [hexact, beq_iff_eq, hemail _ huser] at hsame
      exact absurd (congrArg settings.loginKey hsame.symm) hkey
  | @reset p r uid' hlocal hkey hends => exact .inl ⟨r, uid', hlocal, hkey, hends⟩
  | @expired p q now hwaits hgone => exact .inr ⟨now, rfl, hgone, q, hwaits⟩

/-- While every text that finds the account is counted under the key of `email`, no other account resets that
key, and its counter does not end before the logins it has let in are checked, every window bounds the checks
of the account's hash between two of its sign-ins. -/
theorem guesses_bounded (settings : LoginSettings) (uid : UserId) (email : String)
    {c c' : Interleaving.Config LoginWorld LoginLocal} {schedule : List (Nat × LoginAction)}
    (hlog : c.shared.log = []) (hidle : ∀ p, c.locals p = .idle)
    (hup : (logins settings).Along (fun c _ _ => c.shared.redisUp = true) c schedule)
    (hok : (logins settings).Along (fun c move _ =>
      ¬ Evades settings uid (settings.loginKey email) c move) c schedule)
    (hrun : (logins settings).run c schedule = some c') : GuessesBounded settings uid c'.shared := by
  have hstep : ∀ c move c', AllGuessesCounted settings uid email c →
      (logins settings).next c move = some c' →
      (c.shared.redisUp = true ∧ ¬ Evades settings uid (settings.loginKey email) c move) →
      AllGuessesCounted settings uid email c' := by
    intro c move c' hcounted hnext hguard
    exact hcounted.next hnext hguard.1 hguard.2
  have hstart : AllGuessesCounted settings uid email c := by
    refine ⟨∅, fun p => ?_, .start hlog⟩
    simp [hidle p, LoginLocal.WaitsUnder]
  have hcounted : AllGuessesCounted settings uid email c' :=
    Interleaving.System.run_invariant hstep hstart (Interleaving.System.along_and hup hok) hrun
  obtain ⟨waiting, -, hcounted⟩ := hcounted
  exact hcounted.bounded

/-- The comparison of a collation that ignores case and trailing spaces. -/
def sameUnderCollation (stored given : String) : Bool :=
  let fold (text : String) := (text.toList.map Char.toLower).reverse.dropWhile (· == ' ')
  fold stored == fold given

def collatedLogins : LoginSettings where
  isPrintable c := 32 ≤ c.toNat
  sameEmail := sameUnderCollation

def oneAccount : Interleaving.Config LoginWorld LoginLocal where
  shared := { users := AList.insert 7 { email := "a@x", hashedPassword := some "h" } ∅ }
  locals _ := .idle

def guess (p : Nat) (username : String) : Nat × LoginAction :=
  (p, .submit ⟨username, "g", "10.0.0.1"⟩)

/-- A login is counted, or one counted under the key is checked. -/
def plainGuess (settings : LoginSettings) (key : String) : LoginLocal → LoginAction → Bool
  | _, .submit _ => true
  | .counted r _, .proceed => settings.loginKey r.username == key
  | _, _ => false

theorem not_evades_of_plainGuess {settings : LoginSettings} {uid : UserId} {key : String}
    {c : Interleaving.Config LoginWorld LoginLocal} {move : Nat × LoginAction}
    (hplain : plainGuess settings key (c.locals move.1) move.2 = true) : ¬ Evades settings uid key c move := by
  intro hevades
  cases hevades with
  | respelled hlocal hfound hkey =>
      rw [hlocal] at hplain
      exact hkey (eq_of_beq hplain)
  | reset hlocal hkey hends =>
      rw [hlocal] at hplain
      cases hplain
  | expired hwaits hgone => simp [plainGuess] at hplain

/-- As many guesses as the limit allows, all of them counted before the first is checked. -/
def fiveGuesses : List (Nat × LoginAction) :=
  (List.range 5).map (guess · "a@x") ++ (List.range 5).map (·, .proceed)

theorem guesses_bounded_fiveGuesses :
    ∃ c, (logins collatedLogins).run oneAccount fiveGuesses = some c ∧ guesses 7 0 c.shared.log = 5 ∧
      GuessesBounded collatedLogins 7 c.shared := by
  have hrun : ((logins collatedLogins).run oneAccount fiveGuesses).map (fun c => guesses 7 0 c.shared.log) =
      some 5 := by
    decide +kernel
  obtain ⟨c, hrun, hguesses⟩ := Option.map_eq_some_iff.1 hrun
  have hup : (logins collatedLogins).Along (fun c _ _ => c.shared.redisUp = true) oneAccount fiveGuesses := by
    decide +kernel
  have hplain : (logins collatedLogins).Along (fun c move _ =>
      plainGuess collatedLogins (collatedLogins.loginKey "a@x") (c.locals move.1) move.2 = true)
      oneAccount fiveGuesses := by
    decide +kernel
  have hok : (logins collatedLogins).Along (fun c move _ =>
      ¬ Evades collatedLogins 7 (collatedLogins.loginKey "a@x") c move) oneAccount fiveGuesses :=
    Interleaving.System.along_mono (fun _ _ _ => not_evades_of_plainGuess) hplain
  exact ⟨c, hrun, hguesses, guesses_bounded collatedLogins 7 "a@x" rfl (fun _ => rfl) hup hok hrun⟩

/-- A sixth guess in the same window, with the e-mail in capitals. -/
theorem guesses_unbounded :
    ∃ c, (logins collatedLogins).run oneAccount (fiveGuesses ++ [guess 0 "A@x", (0, .proceed)]) = some c ∧
      guesses 7 0 c.shared.log = 6 ∧ ¬ GuessesBounded collatedLogins 7 c.shared := by
  have hrun : ((logins collatedLogins).run oneAccount
      (fiveGuesses ++ [guess 0 "A@x", (0, .proceed)])).map (fun c =>
        (c.shared.now, guesses 7 0 c.shared.log,
          decide (.opened (collatedLogins.loginKey "a@x") 0 ∈ c.shared.log),
          decide (.verified 7 (collatedLogins.loginKey "a@x") 0 ∈ c.shared.log))) =
      some (0, 6, true, true) := by
    decide +kernel
  obtain ⟨c, hrun, hfacts⟩ := Option.map_eq_some_iff.1 hrun
  simp only [Prod.mk.injEq, decide_eq_true_eq] at hfacts
  obtain ⟨hnow, hguesses, hopened, hverified⟩ := hfacts
  refine ⟨c, hrun, hguesses, fun hbounded => ?_⟩
  have hopen : c.shared.now < 0 + collatedLogins.loginWindow := by
    rw [hnow]
    decide
  have hsix := hbounded _ 0 0 hopened hverified (Int.le_refl 0) hopen
  rw [hguesses] at hsix
  exact absurd hsix (by decide)

/-- Four guesses counted in one window, and five in the next, before the first is checked. -/
def straddlingGuesses : List (Nat × LoginAction) :=
  (List.range 4).map (guess · "a@x") ++ (9, .tick collatedLogins.loginWindow) ::
    (List.range 5).map (fun p => guess (p + 4) "a@x") ++ (List.range 9).map (·, .proceed)

example : ((logins collatedLogins).run oneAccount straddlingGuesses).map
    (fun c => guesses 7 collatedLogins.loginWindow c.shared.log) = some 9 := by
  decide +kernel

end FaAuthM8

import FaAuthM8.Core.Config
import FaAuthM8.Lib.Rendering
import FaAuthM8.Lib.Table

/-!
# The API-key rate limiter

A fixed-window counter for each key, period and calendar window, kept in Redis under a name made of the three.
A counter vanishes when its time to live runs out, which every increment sets anew.
-/

namespace FaAuthM8

inductive Period
  | minute
  | hour
  | day
  | month
deriving DecidableEq, Repr

namespace Period

def value : Period → String
  | .minute => "minute"
  | .hour => "hour"
  | .day => "day"
  | .month => "month"

def bucketFormat : Period → String
  | .minute => "%Y%m%d%H%M"
  | .hour => "%Y%m%d%H"
  | .day => "%Y%m%d"
  | .month => "%Y%m"

def expirationSeconds : Period → Nat
  | .minute => 60
  | .hour => 3600
  | .day => 86400
  | .month => 32 * 86400

/-- The calendar window a datetime lies in: the fields down to the period. -/
def window (period : Period) (t : Datetime) : List Nat :=
  match period with
  | .minute => [t.year, t.month, t.day, t.hour, t.minute]
  | .hour => [t.year, t.month, t.day, t.hour]
  | .day => [t.year, t.month, t.day]
  | .month => [t.year, t.month]

/-- Two datetimes of one window are less than the time to live of its counter apart. -/
theorem window_near {period : Period} {t u : Datetime} (hsame : period.window t = period.window u) :
    t.timestamp < u.timestamp + period.expirationSeconds * second := by
  cases period with
  | minute =>
      simp only [window, List.cons.injEq, and_true] at hsame
      obtain ⟨hyear, hmonth, hday, hhour, hminute⟩ := hsame
      exact Datetime.SameMinute.near ⟨⟨⟨⟨hyear, hmonth⟩, hday⟩, hhour⟩, hminute⟩
  | hour =>
      simp only [window, List.cons.injEq, and_true] at hsame
      obtain ⟨hyear, hmonth, hday, hhour⟩ := hsame
      exact Datetime.SameHour.near ⟨⟨⟨hyear, hmonth⟩, hday⟩, hhour⟩
  | day =>
      simp only [window, List.cons.injEq, and_true] at hsame
      obtain ⟨hyear, hmonth, hday⟩ := hsame
      exact Datetime.SameDay.near ⟨⟨hyear, hmonth⟩, hday⟩
  | month =>
      simp only [window, List.cons.injEq, and_true] at hsame
      obtain ⟨hyear, hmonth⟩ := hsame
      refine Int.lt_trans (Datetime.SameMonth.near ⟨hyear, hmonth⟩) ?_
      simp only [expirationSeconds, second]
      omega

theorem bucket_injective {period : Period} {t u : Datetime}
    (heq : t.strftime period.bucketFormat.toList = u.strftime period.bucketFormat.toList) :
    period.window t = period.window u := by
  cases period with
  | minute =>
      obtain ⟨hyear, heq⟩ := Datetime.strftime_directive rfl heq
      obtain ⟨hmonth, heq⟩ := Datetime.strftime_directive rfl heq
      obtain ⟨hday, heq⟩ := Datetime.strftime_directive rfl heq
      obtain ⟨hhour, heq⟩ := Datetime.strftime_directive rfl heq
      obtain ⟨hminute, -⟩ := Datetime.strftime_directive rfl heq
      simp only [window, hyear, hmonth, hday, hhour, hminute]
  | hour =>
      obtain ⟨hyear, heq⟩ := Datetime.strftime_directive rfl heq
      obtain ⟨hmonth, heq⟩ := Datetime.strftime_directive rfl heq
      obtain ⟨hday, heq⟩ := Datetime.strftime_directive rfl heq
      obtain ⟨hhour, -⟩ := Datetime.strftime_directive rfl heq
      simp only [window, hyear, hmonth, hday, hhour]
  | day =>
      obtain ⟨hyear, heq⟩ := Datetime.strftime_directive rfl heq
      obtain ⟨hmonth, heq⟩ := Datetime.strftime_directive rfl heq
      obtain ⟨hday, -⟩ := Datetime.strftime_directive rfl heq
      simp only [window, hyear, hmonth, hday]
  | month =>
      obtain ⟨hyear, heq⟩ := Datetime.strftime_directive rfl heq
      obtain ⟨hmonth, -⟩ := Datetime.strftime_directive rfl heq
      simp only [window, hyear, hmonth]

theorem bucket_of_window {period : Period} {t u : Datetime} (hsame : period.window t = period.window u) :
    t.strftime period.bucketFormat.toList = u.strftime period.bucketFormat.toList := by
  cases period with
  | minute =>
      simp only [window, List.cons.injEq, and_true] at hsame
      simp [bucketFormat, Datetime.strftime, Datetime.directive, hsame]
  | hour =>
      simp only [window, List.cons.injEq, and_true] at hsame
      simp [bucketFormat, Datetime.strftime, Datetime.directive, hsame]
  | day =>
      simp only [window, List.cons.injEq, and_true] at hsame
      simp [bucketFormat, Datetime.strftime, Datetime.directive, hsame]
  | month =>
      simp only [window, List.cons.injEq, and_true] at hsame
      simp [bucketFormat, Datetime.strftime, Datetime.directive, hsame]

end Period

/-! ### The counters in Redis -/

structure Counter where
  value : Nat
  expiresAt : Int
deriving DecidableEq, Repr

abbrev Counters := Table String Counter

namespace Counters

/-- What a counter holds at an instant; a vanished one holds nothing. -/
def read (counters : Counters) (now : Int) (key : String) : Nat :=
  match counters.lookup key with
  | some counter => if now < counter.expiresAt then counter.value else 0
  | none => 0

/-- The pipeline of `INCR` and `EXPIRE`, with the value it returns. -/
def increment (counters : Counters) (now : Int) (key : String) (ttl : Nat) : Nat × Counters :=
  let value := counters.read now key + 1
  (value, counters.insert key ⟨value, now + ttl * second⟩)

end Counters

inductive RedisError
  | raised
deriving DecidableEq, Repr

/-- Redis as the API-key code uses it: its counters, and the hash of last uses. A command on a refused key
raises and changes nothing. -/
structure KeyRedis where
  counters : Counters := ∅
  lastUsed : Table Uuid Datetime := ∅
  refuses : String → Bool := fun _ => false

structure RateLimitResult where
  allowed : Bool
  exceededPeriod : Option Period := none
  limit : Option Nat := none
  remaining : Option Nat := none
  resetAt : Option Int := none
deriving DecidableEq, Repr

namespace RedisRateLimiter

def keyText (apiKeyId : Uuid) (period : Period) (now : Datetime) : List Char :=
  "rate:api:".toList ++ (apiKeyId.str ++
    ':' :: (period.value.toList ++ ':' :: now.strftime period.bucketFormat.toList))

def key (apiKeyId : Uuid) (period : Period) (now : Datetime) : String :=
  String.ofList (keyText apiKeyId period now)

/-- `_reset_at`: the instant at which the window of a datetime ends. -/
def resetAt (period : Period) (now : Datetime) : Int :=
  match period with
  | .minute => Datetime.instant now.year now.month now.day now.hour now.minute 0 0 + 60 * second
  | .hour => Datetime.instant now.year now.month now.day now.hour 0 0 0 + 3600 * second
  | .day => Datetime.instant now.year now.month now.day 0 0 0 0 + 86400 * second
  | .month =>
      if now.month = 12 then Datetime.instant (now.year + 1) 1 1 0 0 0 0
      else Datetime.instant now.year (now.month + 1) 1 0 0 0 0

def increment (counters : Counters) (now : Datetime) (apiKeyId : Uuid) (period : Period) :
    Nat × Counters :=
  counters.increment now.timestamp (key apiKeyId period now) period.expirationSeconds

/-- The result of a check whose counter has come to `count`; `now` is when the end of the window is read. -/
def result (now : Datetime) (period : Period) (limit count : Nat) : RateLimitResult where
  allowed := count ≤ limit
  exceededPeriod := if count ≤ limit then none else some period
  limit := some limit
  remaining := some (limit - count)
  resetAt := some (resetAt period now)

theorem result_allowed_iff {now : Datetime} {period : Period} {limit count : Nat} :
    (result now period limit count).allowed = true ↔ count ≤ limit := by
  simp [result]

def checkAndIncrement (redis : KeyRedis) (now : Datetime) (apiKeyId : Uuid) (limit : Nat)
    (period : Period) : Except RedisError RateLimitResult × KeyRedis :=
  if redis.refuses (key apiKeyId period now) then
    (.error .raised, redis)
  else
    let (count, counters) := increment redis.counters now apiKeyId period
    (.ok (result now period limit count), { redis with counters })

/-- The loop of `check_all_limits`; `first` is the result of the first window checked. -/
def checkFrom (now : Datetime) (apiKeyId : Uuid) (first : Option RateLimitResult) :
    List (Period × Nat) → KeyRedis → Except RedisError RateLimitResult × KeyRedis
  | [], redis => (.ok (first.getD { allowed := true }), redis)
  | (period, limit) :: rest, redis =>
      match checkAndIncrement redis now apiKeyId limit period with
      | (.error e, redis') => (.error e, redis')
      | (.ok result, redis') =>
          if result.allowed then checkFrom now apiKeyId (first.or (some result)) rest redis'
          else (.ok result, redis')

def checkAllLimits (redis : KeyRedis) (now : Datetime) (apiKeyId : Uuid) (limits : List (Period × Nat)) :
    Except RedisError RateLimitResult × KeyRedis :=
  checkFrom now apiKeyId none limits redis

theorem key_of_window (id : Uuid) {period : Period} {t u : Datetime}
    (hsame : period.window t = period.window u) : key id period t = key id period u := by
  have hbucket := Period.bucket_of_window hsame
  unfold key keyText
  rw [hbucket]

/-- The name of a counter tells the key, the period and the window. -/
theorem key_eq_iff {id id' : Uuid} {period period' : Period} {t u : Datetime} :
    key id period t = key id' period' u ↔
      id = id' ∧ period = period' ∧ period.window t = period.window u := by
  constructor
  · intro heq
    have htext : keyText id period t = keyText id' period' u := String.ofList_injective heq
    have hrest := List.append_cancel_left htext
    obtain ⟨hid, hrest⟩ := List.append_inj hrest (by simp)
    have hperiod : period = period' := by
      cases period <;> cases period' <;> first | rfl | simp [Period.value] at hrest
    subst hperiod
    have hbucket := List.append_cancel_left (List.cons.inj hrest).2
    exact ⟨Uuid.str_injective hid, rfl, Period.bucket_injective (List.cons.inj hbucket).2⟩
  · intro ⟨hid, hperiod, hsame⟩
    subst hid hperiod
    exact key_of_window id hsame

end RedisRateLimiter

end FaAuthM8

import FaAuthM8.Models
import Mathlib.Data.List.Pairwise

/-!
# The Redis circuit breaker

Every request that needs Redis asks for a client, which is pinged first. The time of the first failure is
kept: it is what the health route reports, and the pings that come too soon after it are skipped. A ping takes
time. A sequence of calls is one in which each has its answer before the next begins; calls from several threads
may also overlap.
-/

namespace FaAuthM8

def REDIS_CIRCUIT_BREAKER_SECS : Int := 30

/-- One call of `get_redis_client`: when it reads the clock, and when its ping has come to an end. -/
structure RedisCall where
  now : Int
  answered : Int
  /-- The server answers a ping. -/
  up : Bool
deriving DecidableEq, Repr

/-- Whether the call has pinged the server, and whether it returns a client. -/
structure RedisAnswer where
  pinged : Bool
  client : Bool
deriving DecidableEq, Repr

/-- A call within the cooling window of the breaker. -/
def isCooling (degradedSince : Option Int) (now : Int) : Bool :=
  degradedSince.any fun since => now - since < REDIS_CIRCUIT_BREAKER_SECS * second

/-- The answer, and what `_redis_degraded_since` is afterwards; `pool` says whether there is one. -/
def getRedisClient (pool : Bool) (degradedSince : Option Int) (call : RedisCall) : RedisAnswer × Option Int :=
  if !pool then (⟨false, false⟩, degradedSince)
  else if isCooling degradedSince call.now then (⟨false, false⟩, degradedSince)
  else if call.up then (⟨true, true⟩, none)
  else (⟨true, false⟩, some (degradedSince.getD call.answered))

section

variable (pool : Bool)

/-- The calls with their answers, one after another. -/
def serveCalls : Option Int → List RedisCall → List (RedisCall × RedisAnswer)
  | _, [] => []
  | since, call :: rest =>
      (call, (getRedisClient pool since call).1) :: serveCalls (getRedisClient pool since call).2 rest

/-- `get_redis_degraded_since` after the calls. -/
def degradedAfter : Option Int → List RedisCall → Option Int
  | since, [] => since
  | since, call :: rest => degradedAfter (getRedisClient pool since call).2 rest

/-- The calls that ping the server. -/
def attempts (since : Option Int) (calls : List RedisCall) : List RedisCall :=
  ((serveCalls pool since calls).filter (·.2.pinged)).map Prod.fst

end

/-- Each call is over before the next one begins. -/
structure InOrder (calls : List RedisCall) : Prop where
  each : ∀ call ∈ calls, call.now ≤ call.answered
  next : calls.Pairwise fun call later => call.answered ≤ later.now

end FaAuthM8

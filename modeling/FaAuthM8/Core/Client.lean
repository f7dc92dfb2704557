import FaAuthM8.Core.Config

/-!
# The Redis stores

The refresh allowlist and the access-token blacklist. A key holds the instant at which it vanishes; Redis
refuses to set a key with a time to live below one second.
-/

namespace FaAuthM8

structure Redis where
  /-- The `rt:<jti>` keys. -/
  allowlist : Jti → Option Int := fun _ => none
  /-- The `jwt:blacklist:<jti>` keys. -/
  blacklist : Jti → Option Int := fun _ => none

def keyExists (key : Option Int) (now : Int) : Bool := key.any (now < ·)

/-- One command sent to the server. -/
inductive RedisCommand
  | register (jti : Jti) (ttlSeconds : Int)
  | rotate (oldJti newJti : Jti) (ttlSeconds : Int)
  | revoke (jti : Jti)
  | blacklistJti (jti : Jti) (ttl : Int)
deriving DecidableEq, Repr

namespace Redis

def isValid (redis : Redis) (now : Int) (jti : Jti) : Bool :=
  keyExists (redis.allowlist jti) now

def isBlacklisted (redis : Redis) (now : Int) (jti : Jti) : Bool :=
  keyExists (redis.blacklist jti) now

/-- The keys after a command, or `none` when the server answers with an error. -/
def execute (redis : Redis) (now : Int) : RedisCommand → Option Redis
  | .register jti ttl =>
      if 0 < ttl then
        some { redis with
          allowlist := Function.update redis.allowlist jti (some (now + ttl * second)) }
      else
        none
  | .rotate oldJti newJti ttl =>
      if redis.isValid now oldJti then
        if 0 < ttl then
          some { redis with
            allowlist := Function.update (Function.update redis.allowlist oldJti none) newJti
              (some (now + ttl * second)) }
        else
          none
      else
        some redis
  | .revoke jti => some { redis with allowlist := Function.update redis.allowlist jti none }
  | .blacklistJti jti ttl =>
      if 0 < ttl then
        some { redis with
          blacklist := Function.update redis.blacklist jti (some (now + ttl * second)) }
      else
        none

/-- The keys after a list of commands that all succeed. -/
def executeAll (redis : Redis) (now : Int) (commands : List RedisCommand) : Option Redis :=
  commands.foldlM (fun keys command => keys.execute now command) redis

@[simp] theorem executeAll_nil (redis : Redis) (now : Int) : redis.executeAll now [] = some redis := rfl

@[simp] theorem executeAll_cons (redis : Redis) (now : Int) (command : RedisCommand)
    (rest : List RedisCommand) : redis.executeAll now (command :: rest) =
      (redis.execute now command).bind fun keys => keys.executeAll now rest := rfl

theorem executeAll_append (redis : Redis) (now : Int) (first second : List RedisCommand) :
    redis.executeAll now (first ++ second) =
      (redis.executeAll now first).bind fun keys => keys.executeAll now second := by
  rw [executeAll, List.foldlM_append]
  rfl

/-- Both hold the same keys at `now`: one that has vanished by then counts as absent. -/
structure SameKeys (now : Int) (redis redis' : Redis) : Prop where
  allowlist : ∀ jti, (redis'.allowlist jti).filter (now < ·) = (redis.allowlist jti).filter (now < ·)
  blacklist : ∀ jti, (redis'.blacklist jti).filter (now < ·) = (redis.blacklist jti).filter (now < ·)

theorem isValid_eq_false_iff {redis : Redis} {now : Int} {jti : Jti} :
    redis.isValid now jti = false ↔ (redis.allowlist jti).filter (now < ·) = none := by
  rw [isValid, keyExists]
  cases redis.allowlist jti with
  | none => simp
  | some expires => simp [Option.filter]

end Redis
end FaAuthM8

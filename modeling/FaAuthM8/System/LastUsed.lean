import FaAuthM8.Lib.Interleaving
import FaAuthM8.Lib.Rendering
import FaAuthM8.Lib.Table

/-!
# The last use of an API key

A use of a key reads the clock of its process and writes what it has read to a hash in Redis, where it
overwrites what an earlier use has left. A flush takes the whole hash away, compares each entry with the row of
its key, and commits the entries that are newer. Any number of uses and flushes are in progress at once, and
each may fail between any two of its commands. The uses that were recorded are remembered, and no step reads
them.
-/

namespace FaAuthM8

structure UsageWorld where
  /-- `api_key:luat`: the time of a use by its key. -/
  hash : Table Uuid Int := ∅
  /-- `last_used_at` of the stored keys. -/
  lastUsed : Table Uuid (Option Int) := ∅
  recorded : List (Uuid × Int) := []

inductive UsageLocal
  | idle
  /-- The use has read the clock. -/
  | stamped (id : Uuid) (time : Int)
  /-- The entries that are still to be compared or committed, and those whose row the session has changed. -/
  | flushing (taken : Table Uuid Int) (changed : List Uuid)
deriving DecidableEq

inductive UsageAction
  | use (id : Uuid) (time : Int)
  | hset
  /-- The pipeline of `HGETALL` and `DELETE`. -/
  | flush
  /-- The pipeline takes effect, and its reply is lost. -/
  | loseReply
  /-- The next entry is that of the key, and its row is loaded. -/
  | load (id : Uuid)
  /-- An error that is logged, after which the loop goes on. -/
  | rowError (id : Uuid)
  | commit
  /-- The use or the flush ends there. -/
  | fail
deriving DecidableEq

/-- The key is stored, and its last use is earlier or unknown. -/
def isNewer (lastUsed : Table Uuid (Option Int)) (id : Uuid) (time : Int) : Bool :=
  (lastUsed.lookup id).any fun current => current.all (· < time)

/-- What the session writes when it is committed. -/
def saveUses (taken : Table Uuid Int) (lastUsed : Table Uuid (Option Int)) : Table Uuid (Option Int) :=
  lastUsed.map fun id current => (taken.lookup id).or current

def usageStep (w : UsageWorld) (l : UsageLocal) (action : UsageAction) : Option (UsageWorld × UsageLocal) :=
  match action, l with
  | .use id time, .idle => some (w, .stamped id time)
  | .hset, .stamped id time =>
      some ({ w with hash := w.hash.insert id time, recorded := (id, time) :: w.recorded }, .idle)
  | .flush, .idle =>
      some ({ w with hash := ∅ }, if w.hash.keys.isEmpty then .idle else .flushing w.hash [])
  | .loseReply, .idle => some ({ w with hash := ∅ }, .idle)
  | .load id, .flushing taken changed =>
      (taken.lookup id).bind fun time =>
        if id ∈ changed then none
        else if isNewer w.lastUsed id time then some (w, .flushing taken (id :: changed))
        else some (w, .flushing (taken.erase id) changed)
  | .rowError id, .flushing taken changed =>
      if id ∈ taken.keys ∧ id ∉ changed then some (w, .flushing (taken.erase id) changed) else none
  | .commit, .flushing taken changed =>
      if taken.keys.all (· ∈ changed) then some ({ w with lastUsed := saveUses taken w.lastUsed }, .idle)
      else none
  | .fail, .stamped _ _ => some (w, .idle)
  | .fail, .flushing _ _ => some (w, .idle)
  | _, _ => none

def usage : Interleaving.System UsageWorld UsageLocal UsageAction where
  step _ := usageStep

abbrev UsageConfig : Type := Interleaving.Config UsageWorld UsageLocal

end FaAuthM8

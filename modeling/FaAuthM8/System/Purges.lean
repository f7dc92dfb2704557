import FaAuthM8.Lib.Interleaving
import FaAuthM8.Services.Audit

/-!
# Runs of the purges

Each process runs one purge at a time. Between its steps other transactions may change the database in any
way, rows that are locked elsewhere are skipped, a trigger may suppress a delete without an error, and a
purge may fail or crash at any point, which loses what it has not committed. The rows a purge has really
removed are remembered, and no step reads them.
-/

namespace FaAuthM8

structure PurgeWorld extends PurgeDb where
  now : Int := 0

/-- What a sweep works with, and the rows whose removal it has committed. -/
structure Sweep where
  batch : Nat
  horizon : Int
  deleted : List Uuid := []
deriving DecidableEq, Repr

inductive PurgePhase
  | start
  | sweeping (sweep : Sweep) (phase : SweepPhase)
deriving DecidableEq

/-- How a purge ends; `recorded` names the row it wrote about itself. -/
inductive PurgeOutcome
  | recorded (id : Uuid) (removed : Nat)
  | error (error : PurgeError)
  /-- A statement or a commit failed, or the process died. -/
  | failed
deriving DecidableEq, Repr

inductive PurgeLocal
  | idle
  | running (r : PurgeRequest) (phase : PurgePhase)
  | ended (r : PurgeRequest) (outcome : PurgeOutcome) (deleted : List Uuid)
deriving DecidableEq

inductive PurgeAction
  | begin (r : PurgeRequest)
  | proceed
  | claim (locked : Uuid → Bool)
  | commit (suppressed : Uuid → Bool)
  /-- The identifier of the row the purge writes about itself. -/
  | record (id : Uuid)
  | fail
  | other (w' : PurgeWorld)

/-- The rows whose removal has been committed at a point. -/
def PurgePhase.deleted : PurgePhase → List Uuid
  | start => []
  | sweeping sweep _ => sweep.deleted

namespace PurgeRequest

variable (r : PurgeRequest) (settings : PurgeSettings)

def purge : Purge := r.target.purge settings

/-- `batch_size or` the configured size. -/
def batch : Nat :=
  match r.batchSize with
  | none => (r.purge settings).batchSize
  | some 0 => (r.purge settings).batchSize
  | some batch => batch

/-- Rejects a window below the floor, or starts the sweep. -/
def start (w : PurgeWorld) : PurgeLocal :=
  if r.window.seconds < (r.purge settings).floorSeconds then
    .ended r (.error (.retentionFloor r.window (r.purge settings).floorSeconds)) []
  else
    .running r (.sweeping
      { batch := r.batch settings, horizon := r.now.getD w.now - r.window.seconds * second } (.claim 0 none))

/-- One turn of the loop up to the deletion. -/
def claim (w : PurgeWorld) (sweep : Sweep) (removed : Nat) (previousIds : Option (Finset Uuid))
    (locked : Uuid → Bool) : PurgeLocal :=
  let rows := (r.purge settings).claim w.toPurgeDb sweep.horizon sweep.batch locked
  if rows = [] then .running r (.sweeping sweep (.swept removed))
  else if previousIds = some rows.toFinset then
    .ended r (.error (.stalled (r.purge settings).label rows.length)) sweep.deleted
  else .running r (.sweeping sweep (.delete rows removed))

/-- The deletion of a batch and its commit. -/
def commit (w : PurgeWorld) (sweep : Sweep) (rows : List Uuid) (removed : Nat) (suppressed : Uuid → Bool) :
    PurgeWorld × PurgeLocal :=
  let doomed id := rows.contains id && !suppressed id
  let deleted := rows.filter fun id => (r.purge settings).stored w.toPurgeDb id && !suppressed id
  ({ w with toPurgeDb := (r.purge settings).delete w.toPurgeDb doomed },
    .running r (.sweeping { sweep with deleted := sweep.deleted ++ deleted }
      (.afterBatch sweep.batch rows removed)))

/-- The row the purge writes about itself, and its commit. -/
def record (w : PurgeWorld) (sweep : Sweep) (removed : Nat) (id : Uuid) : PurgeWorld × PurgeLocal :=
  ({ w with auditLog := AList.insert id (r.maintenanceRow settings removed w.now) w.auditLog },
    .ended r (.recorded id removed) sweep.deleted)

end PurgeRequest

def PurgeLocal.isFree : PurgeLocal → Bool
  | .running _ _ => false
  | _ => true

def purgeStep (settings : PurgeSettings) (w : PurgeWorld) (l : PurgeLocal) :
    PurgeAction → Option (PurgeWorld × PurgeLocal)
  | .other w' => if w.now ≤ w'.now then some (w', l) else none
  | .begin r => if l.isFree then some (w, .running r .start) else none
  | .proceed =>
      match l with
      | .running r .start => some (w, r.start settings w)
      | _ => none
  | .claim locked =>
      match l with
      | .running r (.sweeping sweep (.claim removed previousIds)) =>
          some (w, r.claim settings w sweep removed previousIds locked)
      | _ => none
  | .commit suppressed =>
      match l with
      | .running r (.sweeping sweep (.delete rows removed)) =>
          some (r.commit settings w sweep rows removed suppressed)
      | _ => none
  | .record id =>
      match l with
      | .running r (.sweeping sweep (.swept removed)) =>
          if (w.auditLog.lookup id).isNone then some (r.record settings w sweep removed id) else none
      | _ => none
  | .fail =>
      match l with
      | .running r phase => some (w, .ended r .failed phase.deleted)
      | _ => none

def purges (settings : PurgeSettings) : Interleaving.System PurgeWorld PurgeLocal PurgeAction where
  step _ := purgeStep settings

section

variable {settings : PurgeSettings} {w w' : PurgeWorld} {l l' : PurgeLocal} {a : PurgeAction}

/-- The ways a purge moves. -/
inductive PurgeStep (settings : PurgeSettings) (w : PurgeWorld) :
    PurgeLocal → PurgeAction → PurgeWorld → PurgeLocal → Prop
  | other {l : PurgeLocal} {w' : PurgeWorld} : PurgeStep settings w l (.other w') w' l
  | begin {l : PurgeLocal} {r : PurgeRequest} (hfree : l.isFree = true) :
      PurgeStep settings w l (.begin r) w (.running r .start)
  | start {r : PurgeRequest} : PurgeStep settings w (.running r .start) .proceed w (r.start settings w)
  | claim {r : PurgeRequest} {sweep : Sweep} {removed : Nat} {previousIds : Option (Finset Uuid)}
      {locked : Uuid → Bool} :
      PurgeStep settings w (.running r (.sweeping sweep (.claim removed previousIds))) (.claim locked) w
        (r.claim settings w sweep removed previousIds locked)
  | commit {r : PurgeRequest} {sweep : Sweep} {rows : List Uuid} {removed : Nat} {suppressed : Uuid → Bool} :
      PurgeStep settings w (.running r (.sweeping sweep (.delete rows removed))) (.commit suppressed)
        (r.commit settings w sweep rows removed suppressed).1
        (r.commit settings w sweep rows removed suppressed).2
  | record {r : PurgeRequest} {sweep : Sweep} {removed : Nat} {id : Uuid} :
      PurgeStep settings w (.running r (.sweeping sweep (.swept removed))) (.record id)
        (r.record settings w sweep removed id).1 (r.record settings w sweep removed id).2
  | fail {r : PurgeRequest} {phase : PurgePhase} :
      PurgeStep settings w (.running r phase) .fail w (.ended r .failed phase.deleted)

theorem purgeStep_sound (hstep : purgeStep settings w l a = some (w', l')) :
    PurgeStep settings w l a w' l' := by
  cases a with
  | other w₁ =>
      obtain ⟨-, heq⟩ := Option.ite_none_right_eq_some.1 hstep
      cases heq
      exact .other
  | begin r =>
      obtain ⟨hfree, heq⟩ := Option.ite_none_right_eq_some.1 hstep
      cases heq
      exact .begin hfree
  | proceed =>
      simp only [purgeStep] at hstep
      split at hstep
      · cases hstep
        exact .start
      · cases hstep
  | claim locked =>
      simp only [purgeStep] at hstep
      split at hstep
      · cases hstep
        exact .claim
      · cases hstep
  | commit suppressed =>
      simp only [purgeStep] at hstep
      split at hstep
      · cases hstep
        exact .commit
      · cases hstep
  | record id =>
      simp only [purgeStep] at hstep
      split at hstep
      · obtain ⟨-, heq⟩ := Option.ite_none_right_eq_some.1 hstep
        cases heq
        exact .record
      · cases hstep
  | fail =>
      simp only [purgeStep] at hstep
      split at hstep
      · cases hstep
        exact .fail
      · cases hstep

end

end FaAuthM8

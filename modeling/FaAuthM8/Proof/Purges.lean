import FaAuthM8.System.Purges

/-!
# Purges are recorded

A purge commits its batches one at a time and its own audit row at the end. What it counts is at least what
it has removed, so a purge that reaches its record says so; one that is interrupted after a batch has
removed rows without saying so anywhere.
-/

namespace FaAuthM8

section

variable {settings : PurgeSettings} {w w' : PurgeWorld} {l l' : PurgeLocal} {a : PurgeAction}

/-- A purge that ends after it has removed rows has committed a row about itself, which counts them. -/
def RecordsRemoval (settings : PurgeSettings) (l : PurgeLocal) (w' : PurgeWorld) (l' : PurgeLocal) : Prop :=
  ∀ r phase outcome deleted, l = .running r phase → l' = .ended r outcome deleted → deleted ≠ [] →
    ∃ id removed, outcome = .recorded id removed ∧
      w'.auditLog.lookup id = some (r.maintenanceRow settings removed w'.now) ∧ deleted.length ≤ removed

/-- The sweep claims the batch it has claimed before. -/
def Stalls (settings : PurgeSettings) (w : PurgeWorld) (r : PurgeRequest) (sweep : Sweep) (phase : SweepPhase)
    (a : PurgeAction) : Prop :=
  ∃ locked removed, a = .claim locked ∧
    (r.purge settings).claim w.toPurgeDb sweep.horizon sweep.batch locked ≠ [] ∧
    phase = .claim removed
      (some ((r.purge settings).claim w.toPurgeDb sweep.horizon sweep.batch locked).toFinset)

/-- A purge that has removed rows fails, crashes or stalls before its record is committed. -/
def Interrupted (settings : PurgeSettings) (w : PurgeWorld) (l : PurgeLocal) (a : PurgeAction) : Prop :=
  ∃ r sweep phase, l = .running r (.sweeping sweep phase) ∧ sweep.deleted ≠ [] ∧
    (a = .fail ∨ Stalls settings w r sweep phase a)

/-- What a sweep counts is at least what it has removed. -/
def CountsRemoved : PurgeLocal → Prop
  | .running _ (.sweeping sweep phase) => sweep.deleted.length ≤ phase.removed
  | _ => True

theorem CountsRemoved.mover (hstep : PurgeStep settings w l a w' l') (hcounts : CountsRemoved l) :
    CountsRemoved l' := by
  cases hstep with
  | other => exact hcounts
  | @start r =>
      rw [PurgeRequest.start]
      split
      · trivial
      · exact Nat.zero_le _
  | @claim r sweep removed previousIds locked =>
      simp only [PurgeRequest.claim]
      split
      · exact hcounts
      · split
        · trivial
        · exact hcounts
  | @commit r sweep rows removed suppressed =>
      have hkept := List.length_filter_le
        (fun id => (r.purge settings).stored w.toPurgeDb id && !suppressed id) rows
      have hbefore : sweep.deleted.length ≤ removed := hcounts
      simp only [PurgeRequest.commit, CountsRemoved, SweepPhase.removed_afterBatch, List.length_append]
      omega
  | _ => trivial

theorem PurgeStep.recordsRemoval (hstep : PurgeStep settings w l a w' l') (hcounts : CountsRemoved l)
    (hnot : ¬ Interrupted settings w l a) : RecordsRemoval settings l w' l' := by
  intro r phase outcome deleted hl hended hremoved
  subst hl
  cases hstep with
  | other => cases hended
  | begin hfree => cases hfree
  | start =>
      rw [PurgeRequest.start] at hended
      split at hended
      · cases hended
        exact absurd rfl hremoved
      · cases hended
  | @claim _ sweep removed previousIds locked =>
      simp only [PurgeRequest.claim] at hended
      split at hended
      · cases hended
      · next hrows =>
          split at hended
          · next hsame =>
              cases hended
              have hstalls : Stalls settings w r sweep (.claim removed previousIds) (.claim locked) :=
                ⟨locked, removed, rfl, hrows, by rw [hsame]⟩
              exact absurd ⟨r, sweep, _, rfl, hremoved, .inr hstalls⟩ hnot
          · cases hended
  | commit => cases hended
  | @record _ sweep removed id =>
      cases hended
      exact ⟨id, removed, rfl, AList.lookup_insert _, hcounts⟩
  | fail =>
      cases hended
      cases phase with
      | start => exact absurd rfl hremoved
      | sweeping sweep phase => exact absurd ⟨r, sweep, phase, rfl, hremoved, .inl rfl⟩ hnot

theorem not_recordsRemoval (hstep : purgeStep settings w l a = some (w', l'))
    (hinterrupted : Interrupted settings w l a) : ¬ RecordsRemoval settings l w' l' := by
  obtain ⟨r, sweep, phase, rfl, hremoved, hends⟩ := hinterrupted
  have hunrecorded : ∃ outcome, l' = .ended r outcome sweep.deleted ∧
      ∀ id removed, outcome ≠ .recorded id removed := by
    rcases hends with rfl | ⟨locked, removed, rfl, hrows, rfl⟩
    · cases hstep
      exact ⟨_, rfl, by simp⟩
    · have hl' : l' = r.claim settings w sweep removed _ locked :=
        (Prod.mk.inj (Option.some.inj hstep)).2.symm
      simp only [PurgeRequest.claim, if_neg hrows, if_true] at hl'
      exact ⟨_, hl', by simp⟩
  obtain ⟨outcome, rfl, hnone⟩ := hunrecorded
  intro hrecords
  obtain ⟨id, removed, hrecorded, -⟩ := hrecords r _ outcome sweep.deleted rfl rfl hremoved
  exact hnone id removed hrecorded

end

/-- Every purge that ends after it has removed rows has recorded them, exactly when none fails, crashes or
stalls between the first batch that removed a row and its record. -/
theorem purges_recorded_iff (settings : PurgeSettings) {c : Interleaving.Config PurgeWorld PurgeLocal}
    (hidle : ∀ p, c.locals p = .idle) (schedule : List (Nat × PurgeAction)) :
    (purges settings).Along
        (fun c move c' => RecordsRemoval settings (c.locals move.1) c'.shared (c'.locals move.1)) c schedule ↔
      (purges settings).Along (fun c move _ => ¬ Interrupted settings c.shared (c.locals move.1) move.2)
        c schedule := by
  have hcounts : Interleaving.Asserted (fun _ => True) (fun _ _ l => CountsRemoved l) c := by
    refine ⟨trivial, fun p => ?_⟩
    rw [hidle p]
    trivial
  refine Interleaving.System.along_iff (fun c move c' hcounts hnext => ?_)
    (fun c move c' hcounts hnext _ => ?_) schedule hcounts
  · have hstep : purgeStep settings _ _ _ = some _ := Interleaving.System.step_of_next hnext
    constructor
    · intro hrecords hinterrupted
      exact not_recordsRemoval hstep hinterrupted hrecords
    · exact (purgeStep_sound hstep).recordsRemoval (hcounts.locals move.1)
  · have hstep := purgeStep_sound (Interleaving.System.step_of_next hnext)
    exact Interleaving.Asserted.moved hnext trivial ((hcounts.locals move.1).mover hstep)
      fun q _ => hcounts.locals q

/-- Two rows of the audit log that are more than a year old. -/
def oldAuditLog : Interleaving.Config PurgeWorld PurgeLocal where
  shared := {
    auditLog := (AList.insert ⟨11, by decide⟩ ⟨0, 7, .superadmin, .edit, "auth_user", "1", none⟩ ∅).insert
      ⟨12, by decide⟩ ⟨1, 7, .superadmin, .edit, "auth_user", "2", none⟩
    now := 400 * 86400 * second }
  locals _ := .idle

/-- A superadmin's purge of the audit log in batches of one row. -/
def yearlyPurge : PurgeRequest where
  target := .auditLog
  window := .oneYear
  actorUserId := 7
  actorRole := .superadmin
  batchSize := some 1

def crashAfterFirstBatch : List (Nat × PurgeAction) :=
  [(0, .begin yearlyPurge), (0, .proceed), (0, .claim fun _ => false), (0, .commit fun _ => false), (0, .fail)]

theorem purges_recorded_iff_crash :
    (purges {}).Along
        (fun c move c' => RecordsRemoval {} (c.locals move.1) c'.shared (c'.locals move.1)) oldAuditLog
        crashAfterFirstBatch ↔
      (purges {}).Along (fun c move _ => ¬ Interrupted {} c.shared (c.locals move.1) move.2) oldAuditLog
        crashAfterFirstBatch :=
  purges_recorded_iff {} (fun _ => rfl) crashAfterFirstBatch

/-- A row is gone, the purge has ended, and the audit log says nothing of it. -/
theorem purge_removes_unrecorded :
    ∃ c, (purges {}).run oldAuditLog crashAfterFirstBatch = some c ∧
      (oldAuditLog.shared.auditLog.lookup ⟨11, by decide⟩).isSome = true ∧
      c.shared.auditLog.lookup ⟨11, by decide⟩ = none ∧
      c.locals 0 = .ended yearlyPurge .failed [⟨11, by decide⟩] ∧
      ∀ id row, c.shared.auditLog.lookup id = some row → row.action ≠ .delete := by
  have hended : ((purges {}).run oldAuditLog crashAfterFirstBatch).map (fun c =>
      (c.shared.auditLog.lookup ⟨11, by decide⟩, c.locals 0))
        = some (none, .ended yearlyPurge .failed [⟨11, by decide⟩]) := by
    decide +kernel
  have hlog : ((purges {}).run oldAuditLog crashAfterFirstBatch).map (fun c =>
      c.shared.auditLog.rows fun _ row => row.action == .delete) = some [] := by
    decide +kernel
  obtain ⟨c, hrun, hended⟩ := Option.map_eq_some_iff.1 hended
  rw [hrun, Option.map_some, Option.some.injEq] at hlog
  obtain ⟨hgone, hlocal⟩ := Prod.mk.inj hended
  refine ⟨c, hrun, rfl, hgone, hlocal, fun id row hrow => ?_⟩
  simpa using Table.rows_eq_nil_iff.1 hlog id row hrow

end FaAuthM8

import FaAuthM8.Proof.Delivery
import Mathlib.Algebra.BigOperators.Intervals

/-!
# Leases

A lease that is not overrun is a lock. As long as every worker is done with its batch when its lease ends, or
has crashed before, no two workers hold the same row, the copy a worker delivers is the stored row, and what
it saves is what it decided. So a row is delivered at most once unless a worker crashes between the delivery
and the save, and a dead row has waited out every back-off.
-/

namespace FaAuthM8

/-- The rows a worker has claimed and not finished. -/
def DrainPhase.held : DrainPhase → List OutboxId
  | .claim => []
  | .next ids => ids
  | .deliver id _ rest | .revoke _ id _ rest | .finish _ id _ rest => id :: rest

/-- The row a worker is delivering. -/
def DrainPhase.copy : DrainPhase → Option (OutboxId × RevocationOutbox)
  | .claim | .next _ => none
  | .deliver id copy _ | .revoke _ id copy _ | .finish _ id copy _ => some (id, copy)

def Local.held : Local → List OutboxId
  | .drain _ phase => phase.held
  | _ => []

/-- The row a worker has delivered and not saved. -/
def Local.delivered : Local → Option OutboxId
  | .drain _ (.finish true id _ _) => some id
  | _ => none

/-- A worker claims at the time of its batch, and holds rows for no longer than its lease. -/
def Local.InTime (settings : Settings) (now : Int) : Local → Prop
  | .drain r .claim => now = r.now
  | .drain r _ => now ≤ r.now + settings.outboxLeaseSeconds * second
  | _ => True

instance (settings : Settings) (now : Int) : (l : Local) → Decidable (l.InTime settings now)
  | .drain r .claim => inferInstanceAs (Decidable (now = r.now))
  | .drain r (.next _) | .drain r (.deliver _ _ _) | .drain r (.revoke _ _ _ _)
  | .drain r (.finish _ _ _ _) =>
      inferInstanceAs (Decidable (now ≤ r.now + settings.outboxLeaseSeconds * second))
  | .idle | .update _ _ | .delete _ _ | .repair _ _ | .login _ _ | .refresh _ _ | .logout _ _
  | .revokeSession _ _ | .revokeUser _ _ | .deleteMe _ _ | .legacySweep _ | .postCommit _ | .commands _ =>
      .isTrue trivial

/-- No worker overruns its lease. -/
def InTime (settings : Settings) (c : Interleaving.Config World Local) : Prop :=
  ∀ p, (c.locals p).InTime settings c.shared.now

/-- How many steps of a run deliver a row. -/
def timesDelivered (settings : Settings) (id : OutboxId) :
    Interleaving.Config World Local → List (Pid × Action) → Nat
  | _, [] => 0
  | c, move :: rest =>
      match (issuer settings).next c move with
      | none => 0
      | some c' =>
          (if (c'.locals move.1).delivered = some id then 1 else 0) + timesDelivered settings id c' rest

/-- The row is leased to a worker that found it due. -/
structure LeasedTo (settings : Settings) (r : DrainRequest) (row : RevocationOutbox) : Prop where
  status : row.status = .leased
  leaseUntil : row.leaseUntil = some (r.now + settings.outboxLeaseSeconds * second)
  due : ∀ t, row.nextAttemptAt = some t → t ≤ r.now
  created : row.createdAt ≤ r.now

/-- What a worker may rely on. -/
structure DrainPhase.Leases (settings : Settings) (w : World) (r : DrainRequest) (phase : DrainPhase) :
    Prop where
  begun : r.now ≤ w.now
  nodup : phase.held.Nodup
  leased : ∀ id ∈ phase.held, ∃ row, w.db.outbox.lookup id = some row ∧ LeasedTo settings r row
  copy : ∀ id copy, phase.copy = some (id, copy) → w.db.outbox.lookup id = some copy

def Local.Leases (settings : Settings) (w : World) : Local → Prop
  | .drain r phase => phase.Leases settings w r
  | _ => True

/-- How long the first attempts keep a row waiting. -/
def waits (settings : Settings) (attempts : Nat) : Int :=
  ∑ k ∈ Finset.range attempts, OutboxWorker.backoff settings (k + 1)

/-- The attempts a row counts were made as far apart as the back-offs say. -/
structure Paced (settings : Settings) (now : Int) (row : RevocationOutbox) : Prop where
  created : row.createdAt ≤ now
  attempts : row.status ≠ .dead → row.attempts < max settings.outboxMaxAttempts 1
  scheduled : row.status ≠ .dead → 0 < row.attempts →
    ∃ t, row.nextAttemptAt = some t ∧ row.createdAt + waits settings row.attempts ≤ t
  dead : row.status = .dead → row.attempts = max settings.outboxMaxAttempts 1 ∧
    row.createdAt + waits settings (row.attempts - 1) ≤ now

/-- What holds in every state of a run in which no worker overruns its lease. -/
structure LeaseInv (settings : Settings) (c : Interleaving.Config World Local) : Prop where
  fresh : c.shared.db.IdsFresh
  inTime : InTime settings c
  leases : ∀ p, (c.locals p).Leases settings c.shared
  exclusive : Interleaving.Exclusive Local.held c.locals
  paced : ∀ id row, c.shared.db.outbox.lookup id = some row → Paced settings c.shared.now row

theorem waits_succ (settings : Settings) (attempts : Nat) :
    waits settings (attempts + 1) = waits settings attempts + OutboxWorker.backoff settings (attempts + 1) :=
  Finset.sum_range_succ ..

theorem RevocationOutbox.saveOver_self (new loaded : RevocationOutbox) :
    new.saveOver loaded loaded =
      { loaded with
        status := new.status
        attempts := new.attempts
        leaseUntil := new.leaseUntil
        nextAttemptAt := new.nextAttemptAt
        completedAt := new.completedAt } := by
  simp [saveOver]

section

variable {settings : Settings} {p q : Pid} {w w' : World} {l l' : Local} {a : Action}

theorem LeasedTo.not_due {r : DrainRequest} {row : RevocationOutbox} (hleased : LeasedTo settings r row)
    {now : Int} (hnow : now ≤ r.now + settings.outboxLeaseSeconds * second) :
    OutboxWorker.isDue now row = false := by
  rw [OutboxWorker.isDue, hleased.status, hleased.leaseUntil]
  simp [Int.not_lt.2 hnow]

theorem commit_leaseWrites_leased {now : Int} {ids : List OutboxId} {db db₁ db' : Db}
    (hdue : ∀ id ∈ ids, ∃ row, db.outbox.lookup id = some row ∧ OutboxWorker.isDue now row = true)
    (hleased : Leased settings now db db₁)
    (hcommit : commit (leaseWrites settings now db ids) db₁ = .ok db') {id : OutboxId}
    {row : RevocationOutbox} (hrow : db.outbox.lookup id = some row)
    (hid : id ∈ ids ∨ db₁.outbox.lookup id = some (OutboxWorker.lease settings now row)) :
    db'.outbox.lookup id = some (OutboxWorker.lease settings now row) := by
  induction ids generalizing db₁ with
  | nil =>
      obtain rfl := Except.ok.inj hcommit
      exact hid.resolve_left List.not_mem_nil
  | cons first rest ih =>
      obtain ⟨row₁, hrow₁, hdue₁⟩ := hdue first List.mem_cons_self
      have hwrites : leaseWrites settings now db (first :: rest) =
          .updateOutbox first row₁ (OutboxWorker.lease settings now row₁) ::
            leaseWrites settings now db rest := by
        simp [leaseWrites, hrow₁]
      rw [hwrites] at hcommit
      obtain ⟨db₂, hupdate, hrest⟩ := commit_cons_eq_ok.1 hcommit
      have hdueRest : ∀ id ∈ rest, ∃ row, db.outbox.lookup id = some row ∧
          OutboxWorker.isDue now row = true :=
        fun id hmem => hdue id (List.mem_cons_of_mem _ hmem)
      -- the first row alone is a claim too
      have hfirst : commit (leaseWrites settings now db [first]) db₁ = .ok db₂ := by
        rw [show leaseWrites settings now db [first] =
          [.updateOutbox first row₁ (OutboxWorker.lease settings now row₁)] by simp [leaseWrites, hrow₁]]
        exact commit_cons_eq_ok.2 ⟨db₂, hupdate, rfl⟩
      have hleased₂ : Leased settings now db db₂ :=
        commit_leaseWrites (by simpa using ⟨row₁, hrow₁, hdue₁⟩) hleased hfirst
      have hstays (hwas : db₁.outbox.lookup id = some (OutboxWorker.lease settings now row)) :
          db₂.outbox.lookup id = some (OutboxWorker.lease settings now row) := by
        obtain ⟨-, rfl⟩ | ⟨current, hcurrent, rfl⟩ := Db.updateOutbox_eq_ok hupdate
        · exact hwas
        · rw [Table.lookup_insert_eq]
          split
          · next heq =>
              subst heq
              obtain rfl := Option.some.inj (hrow.symm.trans hrow₁)
              rw [OutboxWorker.lease_saveOver settings now row
                (.inr (Option.some.inj (hcurrent.symm.trans hwas)))]
          · exact hwas
      refine ih hdueRest hleased₂ hrest ?_
      rcases hid with hmem | hwas
      · rcases List.mem_cons.1 hmem with rfl | hmem
        · right
          obtain rfl := Option.some.inj (hrow.symm.trans hrow₁)
          obtain ⟨hsame, rfl⟩ | ⟨current, hcurrent, rfl⟩ := Db.updateOutbox_eq_ok hupdate
          · rcases hleased id with hkept | ⟨row', hrow', -, hlease⟩
            · rw [hkept, hrow, ← hsame]
              rfl
            · rw [hlease, Option.some.inj (hrow.symm.trans hrow')]
          · rw [Table.lookup_insert_eq, if_pos rfl, OutboxWorker.lease_saveOver settings now row]
            rcases hleased id with hkept | ⟨row', hrow', -, hlease⟩
            · exact .inl (Option.some.inj (hcurrent.symm.trans (hkept.trans hrow)))
            · obtain rfl := Option.some.inj (hrow.symm.trans hrow')
              exact .inr (Option.some.inj (hcurrent.symm.trans hlease))
        · exact .inl hmem
      · exact .inr (hstays hwas)

/-! ### One step -/

/-- A step leaves the rows alone that are leased to another worker. -/
theorem Step.leased_kept (hfresh : w.db.IdsFresh) (hstep : Step settings p w l a w' l')
    (hinTime : l.InTime settings w.now) {r : DrainRequest} {id : OutboxId} {row : RevocationOutbox}
    (hrow : w.db.outbox.lookup id = some row) (hleased : LeasedTo settings r row)
    (hnow : w.now ≤ r.now + settings.outboxLeaseSeconds * second) (hheld : id ∉ l.held) :
    w'.db.outbox.lookup id = some row := by
  cases hstep.outboxChange hfresh with
  | same houtbox =>
      rw [houtbox]
      exact hrow
  | enqueued _ henqueued => exact henqueued.kept id row hrow
  | @leased r' hlocal hclaimed =>
      rcases hclaimed id with hsame | ⟨row', hrow', hdue, -⟩
      · exact hsame.trans hrow
      · subst hlocal
        obtain rfl := Option.some.inj (hrow.symm.trans hrow')
        have hclock : w.now = r'.now := hinTime
        rw [hleased.not_due (hclock ▸ hnow)] at hdue
        cases hdue
  | @finished r' success id' copy current rest hlocal hcurrent houtbox =>
      subst hlocal
      have hne : id ≠ id' := by
        rintro rfl
        exact hheld List.mem_cons_self
      rw [houtbox, Table.lookup_insert_eq, if_neg hne]
      exact hrow
  | reaped _ _ houtbox =>
      refine (houtbox id row).2 ⟨hrow, fun hcompleted => ?_⟩
      rw [hleased.status] at hcompleted
      cases hcompleted

theorem LeasedTo.of_lease {r : DrainRequest} {row : RevocationOutbox}
    (hdue : OutboxWorker.isDue r.now row = true) (hcreated : row.createdAt ≤ r.now) :
    LeasedTo settings r (OutboxWorker.lease settings r.now row) where
  status := rfl
  leaseUntil := rfl
  due t ht := by
    have ht' : row.nextAttemptAt = some t := ht
    rw [OutboxWorker.isDue, Bool.and_eq_true, ht', Option.all_some, decide_eq_true_eq] at hdue
    exact hdue.2
  created := hcreated

theorem DrainStep.leases (hpaced : ∀ id row, w.db.outbox.lookup id = some row → Paced settings w.now row)
    {r : DrainRequest} {phase : DrainPhase} (hinTime : (Local.drain r phase).InTime settings w.now)
    (hleases : phase.Leases settings w r) (hnodup : ∀ ids, l' = .drain r (.next ids) → ids.Nodup)
    (hstep : DrainStep settings p w r phase w' l') : l'.Leases settings w' := by
  cases hstep with
  | @claim ids db' hdue hcommit =>
      have hclock : w.now = r.now := hinTime
      refine ⟨hleases.begun, hnodup ids rfl, fun id hid => ?_, fun _ _ hcopy => by cases hcopy⟩
      obtain ⟨row, hrow, hdueRow⟩ := hdue id hid
      refine ⟨OutboxWorker.lease settings r.now row, ?_, .of_lease hdueRow ?_⟩
      · exact commit_leaseWrites_leased hdue (fun id => .inl rfl) hcommit hrow (.inl hid)
      · exact hclock ▸ (hpaced id row hrow).created
  | done => exact trivial
  | @next id rest copy hcopy =>
      refine ⟨hleases.begun, hleases.nodup, hleases.leased, ?_⟩
      rintro _ _ ⟨⟩
      exact hcopy
  | lapsed => exact ⟨hleases.begun, hleases.nodup, hleases.leased, hleases.copy⟩
  | blacklist _ hsend | revoke hsend =>
      obtain ⟨hdb, -, hnow, -⟩ := World.send_frame hsend
      refine ⟨hnow ▸ hleases.begun, hleases.nodup, ?_, ?_⟩
      · rw [hdb]
        exact hleases.leased
      · rw [hdb]
        exact hleases.copy
  | publish => exact ⟨hleases.begun, hleases.nodup, hleases.leased, hleases.copy⟩
  | deliveryFailed hphase =>
      rcases hphase with rfl | ⟨jti, rfl⟩
      · exact ⟨hleases.begun, hleases.nodup, hleases.leased, hleases.copy⟩
      · exact ⟨hleases.begun, hleases.nodup, hleases.leased, hleases.copy⟩
  | @finish success id rest copy db' hcommit =>
      obtain ⟨hfirst, hrest⟩ := List.nodup_cons.1 hleases.nodup
      refine ⟨hleases.begun, hrest, fun id' hid' => ?_, fun _ _ hcopy => by cases hcopy⟩
      obtain ⟨row, hrow, hleased⟩ := hleases.leased id' (List.mem_cons_of_mem _ hid')
      refine ⟨row, ?_, hleased⟩
      have hne : id' ≠ id := fun heq => hfirst (heq ▸ hid')
      obtain ⟨db₁, hupdate, hdone⟩ := commit_cons_eq_ok.1 hcommit
      obtain rfl := Except.ok.inj hdone
      obtain ⟨-, rfl⟩ | ⟨current, hcurrent, rfl⟩ := Db.updateOutbox_eq_ok hupdate
      · exact hrow
      · show (w.db.outbox.insert id _).lookup id' = some row
        rw [Table.lookup_insert_eq, if_neg hne]
        exact hrow

theorem finished_row {r : DrainRequest} {success : Bool} {id : OutboxId} {copy current : RevocationOutbox}
    {rest : List OutboxId} (hleases : (DrainPhase.finish success id copy rest).Leases settings w r)
    (hcurrent : w.db.outbox.lookup id = some current) :
    LeasedTo settings r current ∧
      (if success then OutboxWorker.completed r.now copy
        else OutboxWorker.failed settings r.now copy).saveOver copy current =
      if success then OutboxWorker.completed r.now current else OutboxWorker.failed settings r.now current := by
  obtain ⟨row, hrow, hleased⟩ := hleases.leased id List.mem_cons_self
  obtain rfl := Option.some.inj (hrow.symm.trans hcurrent)
  obtain rfl := Option.some.inj (hrow.symm.trans (hleases.copy id copy rfl))
  refine ⟨hleased, ?_⟩
  rw [RevocationOutbox.saveOver_self]
  cases success with
  | true => rfl
  | false =>
      simp only [Bool.false_eq_true, if_false, OutboxWorker.failed]
      split
      · rfl
      · rfl

/-! ### The pace of the attempts -/

theorem Paced.later {now now' : Int} {row : RevocationOutbox} (hpaced : Paced settings now row)
    (hnow : now ≤ now') : Paced settings now' row where
  created := hpaced.created.trans hnow
  attempts := hpaced.attempts
  scheduled := hpaced.scheduled
  dead hdead := ⟨(hpaced.dead hdead).1, (hpaced.dead hdead).2.trans hnow⟩

theorem Paced.of_pending {now : Int} {row : RevocationOutbox} (hcreated : row.createdAt ≤ now)
    (hstatus : row.status = .pending) (hattempts : row.attempts = 0) : Paced settings now row where
  created := hcreated
  attempts _ := by omega
  scheduled _ := by omega
  dead hdead := by
    rw [hstatus] at hdead
    cases hdead

theorem Paced.lease {now clock : Int} {row : RevocationOutbox} (hpaced : Paced settings now row)
    (hstatus : row.status ≠ .dead) : Paced settings now (OutboxWorker.lease settings clock row) where
  created := hpaced.created
  attempts _ := hpaced.attempts hstatus
  scheduled _ := hpaced.scheduled hstatus
  dead := nofun

theorem Paced.completed {now clock : Int} {row : RevocationOutbox} (hpaced : Paced settings now row)
    (hstatus : row.status ≠ .dead) : Paced settings now (OutboxWorker.completed clock row) where
  created := hpaced.created
  attempts _ := hpaced.attempts hstatus
  scheduled _ := hpaced.scheduled hstatus
  dead := nofun

/-- A worker that found the row due has waited as long as its attempts say. -/
theorem LeasedTo.waited {now : Int} {r : DrainRequest} {row : RevocationOutbox}
    (hleased : LeasedTo settings r row) (hpaced : Paced settings now row) :
    row.createdAt + waits settings row.attempts ≤ r.now := by
  have halive : row.status ≠ .dead := by
    rw [hleased.status]
    exact nofun
  rcases Nat.eq_zero_or_pos row.attempts with hzero | hpos
  · rw [hzero, waits, Finset.range_zero, Finset.sum_empty, Int.add_zero]
    exact hleased.created
  · obtain ⟨t, hnext, hwaited⟩ := hpaced.scheduled halive hpos
    exact hwaited.trans (hleased.due t hnext)

theorem Paced.failed {now : Int} {r : DrainRequest} {row : RevocationOutbox}
    (hpaced : Paced settings now row) (hleased : LeasedTo settings r row) (hbegun : r.now ≤ now) :
    Paced settings now (OutboxWorker.failed settings r.now row) := by
  have hwaited := hleased.waited hpaced
  have hattempts := hpaced.attempts (by simp [hleased.status])
  rw [OutboxWorker.failed]
  split
  · next hmax =>
      refine ⟨hpaced.created, fun hne => absurd rfl hne, fun hne => absurd rfl hne, fun _ => ⟨?_, ?_⟩⟩
      · show row.attempts + 1 = _
        omega
      · show row.createdAt + waits settings row.attempts ≤ now
        exact hwaited.trans hbegun
  · next hmax =>
      refine ⟨hpaced.created, fun _ => ?_, fun _ _ => ⟨_, rfl, ?_⟩, fun hdead => ?_⟩
      · show row.attempts + 1 < _
        omega
      · show row.createdAt + waits settings (row.attempts + 1) ≤ _
        rw [waits_succ]
        omega
      · cases hdead

theorem Step.paced (hfresh : w.db.IdsFresh)
    (hpaced : ∀ id row, w.db.outbox.lookup id = some row → Paced settings w.now row)
    (hleases : l.Leases settings w) (hstep : Step settings p w l a w' l') {id : OutboxId}
    {row' : RevocationOutbox} (hrow' : w'.db.outbox.lookup id = some row') :
    Paced settings w'.now row' := by
  refine Paced.later ?_ hstep.clocks.1
  cases hstep.outboxChange hfresh with
  | same houtbox => exact hpaced id row' (houtbox ▸ hrow')
  | enqueued _ henqueued =>
      rcases henqueued.origin id row' hrow' with hwas | ⟨hmem, -⟩
      · exact hpaced id row' hwas
      · rcases mem_enqueueRoleChangeEffects.1 hmem with ⟨target, -, rfl⟩ | rfl
        · exact .of_pending le_rfl rfl rfl
        · exact .of_pending le_rfl rfl rfl
  | leased _ hclaimed =>
      rcases hclaimed id with hsame | ⟨row, hrow, hdue, hlease⟩
      · exact hpaced id row' (hsame ▸ hrow')
      · obtain rfl := Option.some.inj (hrow'.symm.trans hlease)
        refine (hpaced id row hrow).lease fun hdead => ?_
        rw [OutboxWorker.isDue, hdead] at hdue
        cases hdue
  | @finished r success id' copy current rest hlocal hcurrent houtbox =>
      subst hlocal
      obtain ⟨hleased, hsaved⟩ := finished_row hleases hcurrent
      rw [houtbox, hsaved, Table.lookup_insert_eq] at hrow'
      split at hrow'
      · next heq =>
          subst heq
          obtain rfl := Option.some.inj hrow'
          cases success with
          | true => exact (hpaced id current hcurrent).completed (by simp [hleased.status])
          | false => exact (hpaced id current hcurrent).failed hleased hleases.begun
      · exact hpaced id row' hrow'
  | reaped _ _ houtbox => exact hpaced id row' ((houtbox id row').1 hrow').1

/-! ### The invariant -/

theorem DrainPhase.copy_held {phase : DrainPhase} {id : OutboxId} {copy : RevocationOutbox}
    (hcopy : phase.copy = some (id, copy)) : id ∈ phase.held := by
  cases phase with
  | claim => cases hcopy
  | next => cases hcopy
  | deliver | revoke | finish =>
      cases hcopy
      exact List.mem_cons_self

theorem Local.InTime.lease {now : Int} {r : DrainRequest} {phase : DrainPhase} {id : OutboxId}
    (hinTime : (Local.drain r phase).InTime settings now) (hheld : id ∈ phase.held) :
    now ≤ r.now + settings.outboxLeaseSeconds * second := by
  cases phase with
  | claim => cases hheld
  | _ => exact hinTime

theorem claim_nodup {r r' : DrainRequest} {ids : List OutboxId}
    (hstep : step settings p w (.drain r .claim) a = some (w', .drain r' (.next ids))) : ids.Nodup := by
  cases a with
  | claim claimed =>
      have hclaim : r.claim settings p w claimed = some (w', .drain r' (.next ids)) := hstep
      rw [DrainRequest.claim] at hclaim
      split at hclaim
      · next hguard =>
          obtain ⟨-, hback⟩ | ⟨db', -, -, hafter⟩ := committing_eq_some hclaim
          · cases hback
          · cases hafter
            exact hguard.1
      · cases hclaim
  | _ => cases hstep

theorem DrainStep.stays {r : DrainRequest} {phase : DrainPhase}
    (hstep : DrainStep settings p w r phase w' l') : l' = .idle ∨ ∃ phase', l' = .drain r phase' := by
  cases hstep with
  | done => exact .inl rfl
  | _ => exact .inr ⟨_, rfl⟩

theorem Step.of_drain {r : DrainRequest} {phase' : DrainPhase}
    (hstep : Step settings p w l a w' (.drain r phase')) :
    (w' = w ∧ l = .idle ∧ phase' = .claim ∧ r.now = w.now) ∨
      ∃ phase, l = .drain r phase ∧ DrainStep settings p w r phase w' (.drain r phase') := by
  cases hstep.comes with
  | same hkind =>
      cases l with
      | drain r₀ phase =>
          cases hstep with
          | drain hdrain =>
              obtain hidle | ⟨phase'', heq⟩ := hdrain.stays
              · cases hidle
              · cases heq
                exact .inr ⟨phase, rfl, hdrain⟩
      | _ => cases hkind
  | begun hworld hidle _ hbegins =>
      cases hbegins with
      | drain hnow => exact .inl ⟨hworld, hidle, rfl, hnow⟩
  | ended hidle => cases hidle
  | reuse _ hto | followUp hto => cases hto

theorem Step.held (hstep : Step settings p w l a w' l') {id : OutboxId} (hheld : id ∈ l'.held) :
    id ∈ l.held ∨ ∃ r row, l = .drain r .claim ∧ w.db.outbox.lookup id = some row ∧
      OutboxWorker.isDue r.now row = true := by
  cases l' with
  | drain r phase' =>
      rcases hstep.of_drain with ⟨-, -, rfl, -⟩ | ⟨phase, rfl, hdrain⟩
      · cases hheld
      · cases hdrain with
        | claim hdue =>
            obtain ⟨row, hrow, hdueRow⟩ := hdue id hheld
            exact .inr ⟨r, row, rfl, hrow, hdueRow⟩
        | next | lapsed | blacklist | publish | revoke => exact .inl hheld
        | deliveryFailed hphase =>
            rcases hphase with rfl | ⟨jti, rfl⟩
            · exact .inl hheld
            · exact .inl hheld
        | finish => exact .inl (List.mem_cons_of_mem _ hheld)
  | _ => cases hheld

theorem Local.Leases.kept {k : Local} (hfresh : w.db.IdsFresh) (hstep : Step settings p w l a w' l')
    (hinTime : l.InTime settings w.now) (hother : k.InTime settings w.now) (hleases : k.Leases settings w)
    (hexclusive : ∀ id ∈ k.held, id ∉ l.held) : k.Leases settings w' := by
  cases k with
  | drain r phase =>
      have hkept {id : OutboxId} (hheld : id ∈ phase.held) {row : RevocationOutbox}
          (hrow : w.db.outbox.lookup id = some row) (hleased : LeasedTo settings r row) :
          w'.db.outbox.lookup id = some row :=
        hstep.leased_kept hfresh hinTime hrow hleased (hother.lease hheld) (hexclusive id hheld)
      refine ⟨hleases.begun.trans hstep.clocks.1, hleases.nodup, fun id hheld => ?_, fun id copy hcopy => ?_⟩
      · obtain ⟨row, hrow, hleased⟩ := hleases.leased id hheld
        exact ⟨row, hkept hheld hrow hleased, hleased⟩
      · have hheld := DrainPhase.copy_held hcopy
        obtain ⟨row, hrow, hleased⟩ := hleases.leased id hheld
        obtain rfl := Option.some.inj (hrow.symm.trans (hleases.copy id copy hcopy))
        exact hkept hheld hrow hleased
  | _ => exact trivial

theorem Step.leases (hpaced : ∀ id row, w.db.outbox.lookup id = some row → Paced settings w.now row)
    (hinTime : l.InTime settings w.now) (hleases : l.Leases settings w)
    (hnodup : ∀ r r' ids, l = .drain r .claim → l' = .drain r' (.next ids) → ids.Nodup)
    (hstep : Step settings p w l a w' l') : l'.Leases settings w' := by
  cases l' with
  | drain r phase' =>
      rcases hstep.of_drain with ⟨rfl, rfl, rfl, hnow⟩ | ⟨phase, rfl, hdrain⟩
      · refine ⟨Int.le_of_eq hnow, List.nodup_nil, fun id hid => ?_, fun id copy hcopy => ?_⟩
        · cases hid
        · cases hcopy
      · refine hdrain.leases hpaced hinTime hleases fun ids hafter => ?_
        rw [hafter] at hdrain
        cases hdrain with
        | claim => exact hnodup r r ids rfl hafter
        | finish => exact (List.nodup_cons.1 hleases.nodup).2
  | _ => exact trivial

theorem LeaseInv.next {c c' : Interleaving.Config World Local} {move : Pid × Action}
    (hinv : LeaseInv settings c) (hnext : (issuer settings).next c move = some c')
    (hinTime : InTime settings c') : LeaseInv settings c' := by
  have hraw := Interleaving.System.step_of_next hnext
  have hstep : Step settings move.1 c.shared (c.locals move.1) move.2 c'.shared (c'.locals move.1) :=
    step_sound hraw
  have hmover := hinv.leases move.1
  refine ⟨hstep.idsFresh hinv.fresh, hinTime, fun q => ?_, ?_, fun id row' hrow' => ?_⟩
  · by_cases hq : q = move.1
    · subst hq
      refine hstep.leases hinv.paced (hinv.inTime move.1) hmover fun r r' ids hlocal hafter => ?_
      rw [hlocal, hafter] at hraw
      exact claim_nodup hraw
    · obtain ⟨s', l', -, rfl⟩ := Interleaving.System.next_eq_some.1 hnext
      show Local.Leases settings s' (Function.update c.locals move.1 l' q)
      rw [Function.update_of_ne hq]
      exact (hinv.leases q).kept hinv.fresh hstep (hinv.inTime move.1) (hinv.inTime q)
        (hinv.exclusive q move.1 hq)
  · refine hinv.exclusive.moved hnext fun id hheld => ?_
    refine (hstep.held hheld).imp_right fun ⟨r, row, hlocal, hrow, hdue⟩ q hq hother => ?_
    -- a row that another worker holds in time is not due
    have hclock := hinv.inTime move.1
    rw [hlocal] at hclock
    have hleases := hinv.leases q
    have hlease := hinv.inTime q
    cases hk : c.locals q with
    | drain r' phase =>
        rw [hk] at hother hleases hlease
        obtain ⟨row', hrow', hleased⟩ := hleases.leased id hother
        obtain rfl := Option.some.inj (hrow.symm.trans hrow')
        have hnow : c.shared.now = r.now := hclock
        rw [hleased.not_due (hnow ▸ hlease.lease hother)] at hdue
        cases hdue
    | _ =>
        rw [hk] at hother
        cases hother
  · exact hstep.paced hinv.fresh hinv.paced hmover hrow'

theorem Starts.leaseInv {c : Interleaving.Config World Local} (hstarts : Starts c)
    (hwaiting : ∀ id row, c.shared.db.outbox.lookup id = some row →
      row.status = .pending ∧ row.attempts = 0 ∧ row.createdAt ≤ c.shared.now) : LeaseInv settings c where
  fresh := hstarts.fresh
  inTime p := by
    rw [hstarts.idle p]
    exact trivial
  leases p := by
    rw [hstarts.idle p]
    exact trivial
  exclusive p q _ id hheld := by
    rw [hstarts.idle p] at hheld
    cases hheld
  paced id row hrow := by
    obtain ⟨hstatus, hattempts, hcreated⟩ := hwaiting id row hrow
    exact .of_pending hcreated hstatus hattempts

/-- No two workers hold the same row, and the row a worker delivers is stored as the worker has read it. -/
theorem leases_exclude (settings : Settings) {c c' : Interleaving.Config World Local}
    (hstarts : Starts c) (hwaiting : ∀ id row, c.shared.db.outbox.lookup id = some row →
      row.status = .pending ∧ row.attempts = 0 ∧ row.createdAt ≤ c.shared.now)
    {schedule : List (Pid × Action)}
    (hinTime : (issuer settings).Along (fun _ _ c' => InTime settings c') c schedule)
    (hrun : (issuer settings).run c schedule = some c') :
    Interleaving.Exclusive Local.held c'.locals ∧
      ∀ p r phase id copy, c'.locals p = .drain r phase → phase.copy = some (id, copy) →
        c'.shared.db.outbox.lookup id = some copy ∧ LeasedTo settings r copy := by
  have hinv : LeaseInv settings c' :=
    Interleaving.System.run_invariant (fun _ _ _ hinv hnext hinTime => hinv.next hnext hinTime)
      (hstarts.leaseInv hwaiting) hinTime hrun
  refine ⟨hinv.exclusive, fun p r phase id copy hlocal hcopy => ?_⟩
  have hleases := hinv.leases p
  rw [hlocal] at hleases
  have hstored := hleases.copy id copy hcopy
  obtain ⟨row, hrow, hleased⟩ := hleases.leased id (DrainPhase.copy_held hcopy)
  obtain rfl := Option.some.inj (hrow.symm.trans hstored)
  exact ⟨hstored, hleased⟩

/-- A dead row has used up its attempts, and has waited out the back-offs between them. -/
theorem dead_letters_wait (settings : Settings) {c c' : Interleaving.Config World Local}
    (hstarts : Starts c) (hwaiting : ∀ id row, c.shared.db.outbox.lookup id = some row →
      row.status = .pending ∧ row.attempts = 0 ∧ row.createdAt ≤ c.shared.now)
    {schedule : List (Pid × Action)}
    (hinTime : (issuer settings).Along (fun _ _ c' => InTime settings c') c schedule)
    (hrun : (issuer settings).run c schedule = some c') {id : OutboxId} {row : RevocationOutbox}
    (hrow : c'.shared.db.outbox.lookup id = some row) (hdead : row.status = .dead) :
    row.attempts = max settings.outboxMaxAttempts 1 ∧
      row.createdAt + waits settings (settings.outboxMaxAttempts - 1) ≤ c'.shared.now := by
  have hinv : LeaseInv settings c' :=
    Interleaving.System.run_invariant (fun _ _ _ hinv hnext hinTime => hinv.next hnext hinTime)
      (hstarts.leaseInv hwaiting) hinTime hrun
  obtain ⟨hattempts, hwaited⟩ := (hinv.paced id row hrow).dead hdead
  have hsame : row.attempts - 1 = settings.outboxMaxAttempts - 1 := by omega
  exact ⟨hattempts, hsame ▸ hwaited⟩

/-! ### How often a row is delivered -/

/-- No worker fails between the delivery of a row and the save. -/
def SavesDelivery (c : Interleaving.Config World Local) (move : Pid × Action)
    (c' : Interleaving.Config World Local) : Prop :=
  (c.locals move.1).delivered = none ∨ c'.locals move.1 ≠ .idle

instance (c : Interleaving.Config World Local) (move : Pid × Action) (c' : Interleaving.Config World Local) :
    Decidable (SavesDelivery c move c') :=
  inferInstanceAs (Decidable (_ ∨ _))

/-- A row that is delivered, by a worker that has not saved it yet or for good. -/
inductive IsDelivered (id : OutboxId) (c : Interleaving.Config World Local) : Prop
  | unsaved {p : Pid} (hdelivered : (c.locals p).delivered = some id)
  | saved (hdrawn : id < c.shared.db.nextOutboxId)
      (hcompleted : ∀ row, c.shared.db.outbox.lookup id = some row → row.status = .completed)

/-- No worker has delivered the row. -/
structure Undelivered (id : OutboxId) (c : Interleaving.Config World Local) : Prop where
  unsaved : ∀ p, (c.locals p).delivered ≠ some id
  saved : ∀ row, c.shared.db.outbox.lookup id = some row → row.status ≠ .completed

theorem Local.delivered_eq_some {id : OutboxId} (hdelivered : l.delivered = some id) :
    ∃ r copy rest, l = .drain r (.finish true id copy rest) := by
  cases l with
  | drain r phase =>
      cases phase with
      | finish success id' copy rest =>
          cases success with
          | true =>
              cases hdelivered
              exact ⟨r, copy, rest, rfl⟩
          | false => cases hdelivered
      | _ => cases hdelivered
  | _ => cases hdelivered

theorem Step.delivers {id : OutboxId} (hstep : Step settings p w l a w' l')
    (hdelivered : l'.delivered = some id) : id ∈ l.held ∧ l.delivered = none := by
  obtain ⟨r, copy, rest, rfl⟩ := Local.delivered_eq_some hdelivered
  rcases hstep.of_drain with ⟨-, -, hphase, -⟩ | ⟨phase, rfl, hdrain⟩
  · cases hphase
  · cases hdrain with
    | lapsed | publish | revoke => exact ⟨List.mem_cons_self, rfl⟩

theorem Step.completes {r : DrainRequest} {id : OutboxId} {copy : RevocationOutbox} {rest : List OutboxId}
    (hleases : (DrainPhase.finish true id copy rest).Leases settings w r)
    (hstep : Step settings p w (.drain r (.finish true id copy rest)) a w' l') (hidle : l' ≠ .idle)
    {row' : RevocationOutbox} (hrow' : w'.db.outbox.lookup id = some row') : row'.status = .completed := by
  cases hstep with
  | abort | error => exact absurd rfl hidle
  | drain hdrain =>
      cases hdrain with
      | deliveryFailed hphase => simp at hphase
      | @finish _ _ _ _ db' hcommit =>
          obtain ⟨db₁, hupdate, hdone⟩ := commit_cons_eq_ok.1 hcommit
          obtain rfl := Except.ok.inj hdone
          obtain ⟨hsame, -⟩ | ⟨current, hcurrent, rfl⟩ := Db.updateOutbox_eq_ok hupdate
          · -- a completed copy differs from the leased row
            obtain ⟨row, hrow, hleased⟩ := hleases.leased id List.mem_cons_self
            obtain rfl := Option.some.inj (hrow.symm.trans (hleases.copy id copy rfl))
            have hstatus := congrArg RevocationOutbox.status hsame
            rw [hleased.status] at hstatus
            cases hstatus
          · have hafter : (w.db.outbox.insert id _).lookup id = some row' := hrow'
            rw [(finished_row hleases hcurrent).2, Table.lookup_insert_eq, if_pos rfl] at hafter
            rw [← Option.some.inj hafter]
            rfl

variable {c c' : Interleaving.Config World Local} {move : Pid × Action} {id : OutboxId}

/-- A row that a worker holds is neither completed nor in the hands of another. -/
theorem LeaseInv.not_isDelivered (hinv : LeaseInv settings c) (hheld : id ∈ (c.locals p).held)
    (hnone : (c.locals p).delivered = none) : ¬ IsDelivered id c := by
  have hleases := hinv.leases p
  rintro (@⟨q, hdelivered⟩ | ⟨-, hcompleted⟩)
  · have hne : p ≠ q := by
      rintro rfl
      rw [hnone] at hdelivered
      cases hdelivered
    obtain ⟨r, copy, rest, hq⟩ := Local.delivered_eq_some hdelivered
    refine hinv.exclusive p q hne id hheld ?_
    rw [hq]
    exact List.mem_cons_self
  · cases hlocal : c.locals p with
    | drain r phase =>
        rw [hlocal] at hheld hleases
        obtain ⟨row, hrow, hleased⟩ := hleases.leased id hheld
        have hstatus := hcompleted row hrow
        rw [hleased.status] at hstatus
        cases hstatus
    | _ =>
        rw [hlocal] at hheld
        cases hheld

theorem LeaseInv.isDelivered_next (hinv : LeaseInv settings c) (hdelivered : IsDelivered id c)
    (hnext : (issuer settings).next c move = some c') (hsaves : SavesDelivery c move c') :
    IsDelivered id c' ∧ (c'.locals move.1).delivered ≠ some id := by
  have hstep : Step settings move.1 c.shared (c.locals move.1) move.2 c'.shared (c'.locals move.1) :=
    step_sound (Interleaving.System.step_of_next hnext)
  refine ⟨?_, fun hagain => ?_⟩
  · cases hdelivered with
    | @unsaved q hq =>
        by_cases hmover : q = move.1
        · subst hmover
          obtain ⟨r, copy, rest, hlocal⟩ := Local.delivered_eq_some hq
          have hleases := hinv.leases move.1
          have hidle := hsaves.resolve_left (by simp [hq])
          rw [hlocal] at hleases hstep
          obtain ⟨row, hrow, -⟩ := hleases.leased id List.mem_cons_self
          exact .saved ((hinv.fresh.outbox id row hrow).trans_le hstep.nextOutboxId_le)
            fun row' hrow' => hstep.completes hleases hidle hrow'
        · refine .unsaved (?_ : (c'.locals q).delivered = some id)
          obtain ⟨s', l', -, rfl⟩ := Interleaving.System.next_eq_some.1 hnext
          show (Function.update c.locals move.1 l' q).delivered = some id
          rw [Function.update_of_ne hmover]
          exact hq
    | saved hdrawn hcompleted =>
        refine .saved (hdrawn.trans_le hstep.nextOutboxId_le) fun row' hrow' => ?_
        cases hstep.outboxChange hinv.fresh with
        | same houtbox => exact hcompleted row' (houtbox ▸ hrow')
        | enqueued _ henqueued =>
            rcases henqueued.origin id row' hrow' with hwas | ⟨-, hnew⟩
            · exact hcompleted row' hwas
            · exact absurd hdrawn (Nat.not_lt.2 hnew)
        | leased _ hclaimed =>
            rcases hclaimed id with hsame | ⟨row, hrow, hdue, -⟩
            · exact hcompleted row' (hsame ▸ hrow')
            · rw [OutboxWorker.isDue, hcompleted row hrow] at hdue
              cases hdue
        | @finished r success id' copy current rest hlocal hcurrent houtbox =>
            have hleases := hinv.leases move.1
            rw [hlocal] at hleases
            rw [houtbox, Table.lookup_insert_eq] at hrow'
            split at hrow'
            · next heq =>
                subst heq
                have hstatus := hcompleted current hcurrent
                rw [(finished_row hleases hcurrent).1.status] at hstatus
                cases hstatus
            · exact hcompleted row' hrow'
        | reaped _ _ houtbox => exact hcompleted row' ((houtbox id row').1 hrow').1
  · obtain ⟨hheld, hnone⟩ := hstep.delivers hagain
    exact hinv.not_isDelivered hheld hnone hdelivered

theorem LeaseInv.timesDelivered_eq_zero {schedule : List (Pid × Action)} (hinv : LeaseInv settings c)
    (hdelivered : IsDelivered id c)
    (hok : (issuer settings).Along (fun c move c' => InTime settings c' ∧ SavesDelivery c move c') c schedule) :
    timesDelivered settings id c schedule = 0 := by
  induction schedule generalizing c with
  | nil => rfl
  | cons move rest ih =>
      rw [timesDelivered]
      split
      · rfl
      · next c' hnext =>
          obtain ⟨⟨hinTime, hsaves⟩, hrest⟩ := hok c' hnext
          obtain ⟨hafter, hnot⟩ := hinv.isDelivered_next hdelivered hnext hsaves
          rw [if_neg hnot, ih (hinv.next hnext hinTime) hafter hrest]

theorem LeaseInv.timesDelivered_le_one {schedule : List (Pid × Action)} (hinv : LeaseInv settings c)
    (hok : (issuer settings).Along (fun c move c' => InTime settings c' ∧ SavesDelivery c move c') c schedule) :
    timesDelivered settings id c schedule ≤ 1 := by
  induction schedule generalizing c with
  | nil => exact Nat.zero_le _
  | cons move rest ih =>
      rw [timesDelivered]
      split
      · exact Nat.zero_le _
      · next c' hnext =>
          obtain ⟨⟨hinTime, -⟩, hrest⟩ := hok c' hnext
          have hinv' := hinv.next hnext hinTime
          split
          · next hdelivers => rw [hinv'.timesDelivered_eq_zero (.unsaved hdelivers) hrest]
          · rw [Nat.zero_add]
            exact ih hinv' hrest

theorem Undelivered.next (hinv : LeaseInv settings c) (hundelivered : Undelivered id c)
    (hnext : (issuer settings).next c move = some c')
    (hnot : (c'.locals move.1).delivered ≠ some id) : Undelivered id c' := by
  have hstep : Step settings move.1 c.shared (c.locals move.1) move.2 c'.shared (c'.locals move.1) :=
    step_sound (Interleaving.System.step_of_next hnext)
  refine ⟨fun q => ?_, fun row' hrow' hcompleted => ?_⟩
  · by_cases hq : q = move.1
    · exact hq ▸ hnot
    · obtain ⟨s', l', -, rfl⟩ := Interleaving.System.next_eq_some.1 hnext
      show (Function.update c.locals move.1 l' q).delivered ≠ some id
      rw [Function.update_of_ne hq]
      exact hundelivered.unsaved q
  · cases hstep.outboxChange hinv.fresh with
    | same houtbox => exact hundelivered.saved row' (houtbox ▸ hrow') hcompleted
    | enqueued _ henqueued =>
        rcases henqueued.origin id row' hrow' with hwas | ⟨hmem, -⟩
        · exact hundelivered.saved row' hwas hcompleted
        · rcases mem_enqueueRoleChangeEffects.1 hmem with ⟨target, -, rfl⟩ | rfl
          · cases hcompleted
          · cases hcompleted
    | leased _ hclaimed =>
        rcases hclaimed id with hsame | ⟨row, hrow, -, hlease⟩
        · exact hundelivered.saved row' (hsame ▸ hrow') hcompleted
        · obtain rfl := Option.some.inj (hrow'.symm.trans hlease)
          cases hcompleted
    | @finished r success id' copy current rest hlocal hcurrent houtbox =>
        rw [houtbox, Table.lookup_insert_eq] at hrow'
        split at hrow'
        · next heq =>
            subst heq
            obtain ⟨-, -, hstatus, -⟩ :=
              finished_eq settings r.now success copy current (Option.some.inj hrow').symm
            rcases hstatus with hkept | ⟨rfl, -⟩ | ⟨-, hnew⟩ | ⟨-, hnew, -⟩
            · exact hundelivered.saved current hcurrent (hkept.symm.trans hcompleted)
            · refine hundelivered.unsaved move.1 ?_
              rw [hlocal]
              rfl
            · rw [hcompleted] at hnew
              cases hnew
            · rw [hcompleted] at hnew
              cases hnew
        · exact hundelivered.saved row' hrow' hcompleted
    | reaped _ _ houtbox => exact hundelivered.saved row' ((houtbox id row').1 hrow').1 hcompleted

theorem Undelivered.timesDelivered_pos {schedule : List (Pid × Action)} (hinv : LeaseInv settings c)
    (hundelivered : Undelivered id c)
    (hok : (issuer settings).Along (fun c move c' => InTime settings c' ∧ SavesDelivery c move c') c schedule)
    (hrun : (issuer settings).run c schedule = some c') {row : RevocationOutbox}
    (hrow : c'.shared.db.outbox.lookup id = some row) (hcompleted : row.status = .completed) :
    0 < timesDelivered settings id c schedule := by
  induction schedule generalizing c with
  | nil =>
      obtain rfl := Option.some.inj hrun
      exact absurd hcompleted (hundelivered.saved row hrow)
  | cons move rest ih =>
      obtain ⟨c₁, hnext, hrest⟩ := Interleaving.System.run_cons.1 hrun
      obtain ⟨⟨hinTime, -⟩, hokRest⟩ := hok c₁ hnext
      rw [timesDelivered, hnext]
      dsimp only
      split
      · omega
      · next hnot =>
          rw [Nat.zero_add]
          exact ih (hinv.next hnext hinTime) (hundelivered.next hinv hnext hnot) hokRest hrest

/-- While no worker overruns its lease, or fails between a delivery and its save, a row is delivered at most
once, and exactly once when it is completed. -/
theorem outbox_delivers_once (settings : Settings) (hstarts : Starts c)
    (hwaiting : ∀ id row, c.shared.db.outbox.lookup id = some row →
      row.status = .pending ∧ row.attempts = 0 ∧ row.createdAt ≤ c.shared.now)
    {schedule : List (Pid × Action)}
    (hok : (issuer settings).Along (fun c move c' => InTime settings c' ∧ SavesDelivery c move c') c schedule)
    (hrun : (issuer settings).run c schedule = some c') (id : OutboxId) :
    timesDelivered settings id c schedule ≤ 1 ∧
      ∀ row, c'.shared.db.outbox.lookup id = some row → row.status = .completed →
        timesDelivered settings id c schedule = 1 := by
  have hinv : LeaseInv settings c := hstarts.leaseInv hwaiting
  have hle : timesDelivered settings id c schedule ≤ 1 := hinv.timesDelivered_le_one hok
  have hundelivered : Undelivered id c := by
    refine ⟨fun p => ?_, fun row hrow => ?_⟩
    · rw [hstarts.idle p]
      exact nofun
    · rw [(hwaiting id row hrow).1]
      exact nofun
  refine ⟨hle, fun row hrow hcompleted => ?_⟩
  have hpos := hundelivered.timesDelivered_pos hinv hok hrun hrow hcompleted
  omega

/-- Where only the first processes move, only they need to be looked at. -/
theorem inTime_of_lt {n : Nat} (hidle : ∀ p, n ≤ p → c.locals p = .idle) {schedule : List (Pid × Action)}
    (hok : (issuer settings).Along (fun c move c' => move.1 < n ∧ SavesDelivery c move c' ∧
      ∀ p, p < n → (c'.locals p).InTime settings c'.shared.now) c schedule) :
    (issuer settings).Along (fun c move c' => InTime settings c' ∧ SavesDelivery c move c') c schedule := by
  have hstep : ∀ c move c', (∀ p, n ≤ p → c.locals p = .idle) → (issuer settings).next c move = some c' →
      (move.1 < n ∧ SavesDelivery c move c' ∧ ∀ p, p < n → (c'.locals p).InTime settings c'.shared.now) →
      (InTime settings c' ∧ SavesDelivery c move c') ∧ ∀ p, n ≤ p → c'.locals p = .idle := by
    intro c move c' hidle hnext ⟨hmover, hsaves, hinTime⟩
    have hidle' : ∀ p, n ≤ p → c'.locals p = .idle := by
      intro p hp
      obtain ⟨s', l', -, rfl⟩ := Interleaving.System.next_eq_some.1 hnext
      show Function.update c.locals move.1 l' p = .idle
      rw [Function.update_of_ne (by omega)]
      exact hidle p hp
    refine ⟨⟨fun p => ?_, hsaves⟩, hidle'⟩
    rcases Nat.lt_or_ge p n with hp | hp
    · exact hinTime p hp
    · rw [hidle' p hp]
      exact trivial
  exact Interleaving.System.along_of_guarded hstep hidle hok

end

def twoAttempts : Settings := { outboxMaxAttempts := 2 }

/-- Redis is down: two workers deliver one row each, and the blacklisting is tried again after its back-off. -/
def redisStaysDown : List (Pid × Action) :=
  [(0, .setRedis false), (0, .begin (.drain ⟨0, false⟩ .claim)), (1, .begin (.drain ⟨0, false⟩ .claim)),
    (0, .claim [0]), (1, .claim [1]), (0, .proceed), (1, .proceed), (0, .proceed), (1, .proceed),
    (0, .proceed), (1, .proceed), (0, .proceed), (1, .proceed), (0, .tick 2000000),
    (1, .begin (.drain ⟨2000000, false⟩ .claim)), (1, .claim [0]), (1, .proceed), (1, .proceed), (1, .proceed)]

theorem redisStaysDown_waiting : ∀ id row, effectsWaiting.shared.db.outbox.lookup id = some row →
    row.status = .pending ∧ row.attempts = 0 ∧ row.createdAt ≤ effectsWaiting.shared.now := by
  intro id row hrow
  have hall : ∀ entry ∈ effectsWaiting.shared.db.outbox.entries, entry.2.status = .pending ∧
      entry.2.attempts = 0 ∧ entry.2.createdAt ≤ effectsWaiting.shared.now := by
    decide
  exact hall _ (Table.lookup_eq_some_iff.1 hrow)

theorem redisStaysDown_inTime :
    (issuer twoAttempts).Along (fun c move c' => InTime twoAttempts c' ∧ SavesDelivery c move c')
      effectsWaiting redisStaysDown := by
  have hok : (issuer twoAttempts).Along (fun c move c' => move.1 < 2 ∧ SavesDelivery c move c' ∧
      ∀ p, p < 2 → (c'.locals p).InTime twoAttempts c'.shared.now) effectsWaiting redisStaysDown := by
    decide +kernel
  exact inTime_of_lt (fun _ _ => rfl) hok

theorem outbox_delivers_once_redisStaysDown :
    ∃ c' row, (issuer twoAttempts).run effectsWaiting redisStaysDown = some c' ∧
      c'.shared.db.outbox.lookup 1 = some row ∧ row.status = .completed ∧
      timesDelivered twoAttempts 1 effectsWaiting redisStaysDown = 1 := by
  have hruns : ((issuer twoAttempts).run effectsWaiting redisStaysDown).bind (fun c' =>
      (c'.shared.db.outbox.lookup 1).map (·.status)) = some .completed := by
    decide +kernel
  obtain ⟨c', hrun, hlookup⟩ := Option.bind_eq_some_iff.1 hruns
  obtain ⟨row, hrow, hcompleted⟩ := Option.map_eq_some_iff.1 hlookup
  obtain ⟨-, honce⟩ := outbox_delivers_once twoAttempts effectsWaiting_starts redisStaysDown_waiting
    redisStaysDown_inTime hrun 1
  exact ⟨c', row, hrun, hrow, hcompleted, honce row hrow hcompleted⟩

theorem dead_letters_wait_redisStaysDown :
    ∃ c' row, (issuer twoAttempts).run effectsWaiting redisStaysDown = some c' ∧
      c'.shared.db.outbox.lookup 0 = some row ∧ row.status = .dead ∧ row.attempts = 2 ∧
      row.createdAt + waits twoAttempts 1 ≤ c'.shared.now := by
  have hruns : ((issuer twoAttempts).run effectsWaiting redisStaysDown).bind (fun c' =>
      (c'.shared.db.outbox.lookup 0).map (·.status)) = some .dead := by
    decide +kernel
  obtain ⟨c', hrun, hlookup⟩ := Option.bind_eq_some_iff.1 hruns
  obtain ⟨row, hrow, hdead⟩ := Option.map_eq_some_iff.1 hlookup
  have hinTime := Interleaving.System.along_mono (fun _ _ _ hok => hok.1) redisStaysDown_inTime
  exact ⟨c', row, hrun, hrow, hdead,
    dead_letters_wait twoAttempts effectsWaiting_starts redisStaysDown_waiting hinTime hrun hrow hdead⟩

/-- Both workers hold a row. -/
theorem leases_exclude_redisStaysDown :
    ∃ c', (issuer twoAttempts).run effectsWaiting (redisStaysDown.take 7) = some c' ∧
      (c'.locals 0).held = [0] ∧ (c'.locals 1).held = [1] ∧
      Interleaving.Exclusive Local.held c'.locals ∧
      ∀ p r phase id copy, c'.locals p = .drain r phase → phase.copy = some (id, copy) →
        c'.shared.db.outbox.lookup id = some copy ∧ LeasedTo twoAttempts r copy := by
  have hruns : ((issuer twoAttempts).run effectsWaiting (redisStaysDown.take 7)).map (fun c' =>
      ((c'.locals 0).held, (c'.locals 1).held)) = some ([0], [1]) := by
    decide +kernel
  obtain ⟨c', hrun, hheld⟩ := Option.map_eq_some_iff.1 hruns
  obtain ⟨hfirst, hsecond⟩ := Prod.mk.inj hheld
  have hall := Interleaving.System.along_mono (fun _ _ _ hok => hok.1) redisStaysDown_inTime
  rw [← List.take_append_drop 7 redisStaysDown] at hall
  have hinTime := (Interleaving.System.along_append.1 hall).1
  exact ⟨c', hrun, hfirst, hsecond,
    leases_exclude twoAttempts effectsWaiting_starts redisStaysDown_waiting hinTime hrun⟩

end FaAuthM8

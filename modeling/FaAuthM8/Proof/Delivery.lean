import FaAuthM8.Proof.Issuing

/-!
# Delivery of the outbox

Several workers claim rows under leases, and a lease may lapse while its worker is still delivering, so two
workers may hold copies of one row and each saves its own outcome. What survives is read off the log: a row
is completed by a worker whose delivery is on record, and the attempts a row counts never exceed the failed
deliveries on record.
-/

namespace FaAuthM8

/-- The failed deliveries of a row on record. -/
def failures (log : List Event) (id : OutboxId) : Nat := log.count (.deliveryFailed id)

/-- The effect has been applied by a worker whose batch clock is `clock`, or there was nothing left to
apply. -/
inductive Delivered (log : List Event) (clock : Int) : OutboxEffect → Prop
  | lapsed {jti : Jti} {expiresAt : Int} (hless : expiresAt - clock < second) :
      Delivered log clock (.blacklist jti expiresAt)
  | blacklisted {jti : Jti} {expiresAt : Int}
      (hblacklisted : .redis (.blacklistJti jti (wholeSeconds (expiresAt - clock))) ∈ log)
      (hrevoked : .redis (.revoke jti) ∈ log) : Delivered log clock (.blacklist jti expiresAt)
  | published {event : SessionRevokedEvent} (hemitted : .emitted event ∈ log) :
      Delivered log clock (.publish event)

/-- A worker's copy is of the stored row, as far as the effect goes. -/
structure CopyOf (w : World) (id : OutboxId) (copy : RevocationOutbox) : Prop where
  drawn : id < w.db.nextOutboxId
  effect : ∀ row, w.db.outbox.lookup id = some row → row.effect = copy.effect
  attempts : copy.attempts ≤ failures w.log id

/-- What a worker has done so far for the row it is delivering. -/
def DrainPhase.Delivering (w : World) (r : DrainRequest) : DrainPhase → Prop
  | .claim | .next _ => True
  | .deliver id copy _ => CopyOf w id copy
  | .revoke jti id copy _ => CopyOf w id copy ∧ ∃ expiresAt, copy.effect = .blacklist jti expiresAt ∧
      .redis (.blacklistJti jti (wholeSeconds (expiresAt - r.now))) ∈ w.log
  | .finish true id copy _ => CopyOf w id copy ∧ Delivered w.log r.now copy.effect
  | .finish false id copy _ => CopyOf w id copy ∧ copy.attempts + 1 ≤ failures w.log id

def Local.Delivering (w : World) : Local → Prop
  | .drain r phase => phase.Delivering w r
  | _ => True

/-- The attempts of the stored rows are on record. -/
structure AttemptsRecorded (settings : Settings) (w : World) : Prop where
  attempts : ∀ id row, w.db.outbox.lookup id = some row → row.attempts ≤ failures w.log id
  dead : ∀ id row, w.db.outbox.lookup id = some row → row.status = .dead →
    settings.outboxMaxAttempts ≤ failures w.log id

/-- A step loses no effect: what it enqueues is stored, a row stays until it is reaped, it is completed only
after its delivery, and it is dead only after enough failed deliveries. -/
structure KeepsEffects (settings : Settings) (w w' : World) (l : Local) : Prop where
  enqueued : ∀ uid generation targets, CommitsTransition w w' uid generation targets l →
    ∀ row ∈ enqueueRoleChangeEffects uid generation targets w.now, ∃ id, w'.db.outbox.lookup id = some row
  kept : ∀ id row, w.db.outbox.lookup id = some row →
    (∃ row', w'.db.outbox.lookup id = some row' ∧ row'.uniqueKey = row.uniqueKey ∧
      row'.effect = row.effect) ∨
    (row.status = .completed ∧ ∃ t, row.completedAt = some t ∧ t < OutboxWorker.reapHorizon settings w.now)
  completed : ∀ id row', w'.db.outbox.lookup id = some row' → row'.status = .completed →
    (∃ row, w.db.outbox.lookup id = some row ∧ row.status = .completed) ∨
    ∃ r copy rest, l = .drain r (.finish true id copy rest) ∧ Delivered w.log r.now row'.effect
  dead : ∀ id row', w'.db.outbox.lookup id = some row' → row'.status = .dead →
    settings.outboxMaxAttempts ≤ failures w.log id

/-- What a step leaves of what a worker knows. -/
structure OutboxGrows (w w' : World) : Prop where
  nextOutboxId : w.db.nextOutboxId ≤ w'.db.nextOutboxId
  log : ∀ event ∈ w.log, event ∈ w'.log
  failures : ∀ id, failures w.log id ≤ failures w'.log id
  effect : ∀ id row', id < w.db.nextOutboxId → w'.db.outbox.lookup id = some row' →
    ∃ row, w.db.outbox.lookup id = some row ∧ row'.effect = row.effect

theorem Delivered.mono {log log' : List Event} {clock : Int} {effect : OutboxEffect}
    (hdelivered : Delivered log clock effect) (hlog : ∀ event ∈ log, event ∈ log') :
    Delivered log' clock effect := by
  cases hdelivered with
  | lapsed hless => exact .lapsed hless
  | blacklisted hblacklisted hrevoked => exact .blacklisted (hlog _ hblacklisted) (hlog _ hrevoked)
  | published hemitted => exact .published (hlog _ hemitted)

theorem CopyOf.mono {w w' : World} {id : OutboxId} {copy : RevocationOutbox} (hcopy : CopyOf w id copy)
    (hgrows : OutboxGrows w w') : CopyOf w' id copy where
  drawn := Nat.lt_of_lt_of_le hcopy.drawn hgrows.nextOutboxId
  effect row' hrow' := by
    obtain ⟨row, hrow, hsame⟩ := hgrows.effect id row' hcopy.drawn hrow'
    rw [hsame, hcopy.effect row hrow]
  attempts := Nat.le_trans hcopy.attempts (hgrows.failures id)

theorem Local.Delivering.mono {w w' : World} {l : Local} (hdelivering : l.Delivering w)
    (hgrows : OutboxGrows w w') : l.Delivering w' := by
  cases l with
  | drain r phase =>
      cases phase with
      | claim | next => exact trivial
      | deliver => exact CopyOf.mono hdelivering hgrows
      | revoke =>
          obtain ⟨hcopy, expiresAt, heffect, hblacklisted⟩ := hdelivering
          exact ⟨hcopy.mono hgrows, expiresAt, heffect, hgrows.log _ hblacklisted⟩
      | finish success id =>
          cases success with
          | true => exact ⟨hdelivering.1.mono hgrows, hdelivering.2.mono hgrows.log⟩
          | false => exact ⟨hdelivering.1.mono hgrows, Nat.le_trans hdelivering.2 (hgrows.failures id)⟩
  | _ => exact trivial

theorem finished_eq (settings : Settings) (clock : Int) (success : Bool)
    (copy current : RevocationOutbox) {row' : RevocationOutbox}
    (hrow' : row' = (if success then OutboxWorker.completed clock copy
      else OutboxWorker.failed settings clock copy).saveOver copy current) :
    row'.uniqueKey = current.uniqueKey ∧ row'.effect = current.effect ∧
      (row'.status = current.status ∨ (success = true ∧ row'.status = .completed) ∨
        (success = false ∧ row'.status = .pending) ∨
        (success = false ∧ row'.status = .dead ∧ settings.outboxMaxAttempts ≤ copy.attempts + 1)) ∧
      (row'.attempts = current.attempts ∨ (success = false ∧ row'.attempts = copy.attempts + 1)) := by
  subst hrow'
  refine ⟨rfl, rfl, ?_, ?_⟩
  · cases success with
    | true => exact (Column.writeBack_eq_or _ _ _).symm.imp id fun hnew => .inl ⟨rfl, hnew⟩
    | false =>
        rw [if_neg Bool.false_ne_true, OutboxWorker.failed]
        split
        · next hmax =>
            exact (Column.writeBack_eq_or _ _ _).symm.imp id fun hnew => .inr (.inr ⟨rfl, hnew, hmax⟩)
        · exact (Column.writeBack_eq_or _ _ _).symm.imp id fun hnew => .inr (.inl ⟨rfl, hnew⟩)
  · cases success with
    | true => exact .inl (Column.writeBack_same _ _)
    | false =>
        rw [if_neg Bool.false_ne_true, OutboxWorker.failed]
        split
        · exact (Column.writeBack_eq_or _ _ _).symm.imp id fun hnew => ⟨rfl, hnew⟩
        · exact (Column.writeBack_eq_or _ _ _).symm.imp id fun hnew => ⟨rfl, hnew⟩

section

variable {settings : Settings} {p q : Pid} {w w' : World} {l l' : Local} {a : Action}

theorem Step.nextOutboxId_le (hstep : Step settings p w l a w' l') :
    w.db.nextOutboxId ≤ w'.db.nextOutboxId := by
  obtain ⟨writes, hcommit⟩ := hstep.commits
  exact commit_nextOutboxId hcommit

theorem Step.failures_le (hstep : Step settings p w l a w' l') (id : OutboxId) :
    failures w.log id ≤ failures w'.log id := by
  obtain ⟨events, hlog, -⟩ := hstep.records
  rw [failures, failures, hlog, List.count_append]
  exact Nat.le_add_left _ _

theorem Step.outboxGrows (hfresh : w.db.IdsFresh) (hstep : Step settings p w l a w' l') :
    OutboxGrows w w' where
  nextOutboxId := hstep.nextOutboxId_le
  log _ := hstep.log_mono
  failures := hstep.failures_le
  effect id row' hdrawn hrow' := by
    cases hstep.outboxChange hfresh with
    | same houtbox => exact ⟨row', houtbox ▸ hrow', rfl⟩
    | enqueued _ henqueued =>
        rcases henqueued.origin id row' hrow' with hold | ⟨-, hnew⟩
        · exact ⟨row', hold, rfl⟩
        · exact absurd hdrawn (Nat.not_lt.2 hnew)
    | leased _ hleased =>
        rcases hleased id with hsame | ⟨row, hrow, -, hlease⟩
        · exact ⟨row', hsame ▸ hrow', rfl⟩
        · obtain rfl := Option.some.inj (hrow'.symm.trans hlease)
          exact ⟨row, hrow, rfl⟩
    | @finished r success id' copy current rest _ hcurrent houtbox =>
        rw [houtbox, Table.lookup_insert_eq] at hrow'
        split at hrow'
        · next hid =>
            subst hid
            have hfinished := finished_eq settings r.now success copy current (Option.some.inj hrow').symm
            exact ⟨current, hcurrent, hfinished.2.1⟩
        · exact ⟨row', hrow', rfl⟩
    | reaped _ _ houtbox => exact ⟨row', ((houtbox id row').1 hrow').1, rfl⟩

/-- A step saves no count of attempts, and no dead row, that was not on record before it. -/
theorem Step.rows_recorded (hfresh : w.db.IdsFresh) (hrecorded : AttemptsRecorded settings w)
    (hdelivering : l.Delivering w) (hstep : Step settings p w l a w' l') {id : OutboxId}
    {row' : RevocationOutbox} (hrow' : w'.db.outbox.lookup id = some row') :
    row'.attempts ≤ failures w.log id ∧
      (row'.status = .dead → settings.outboxMaxAttempts ≤ failures w.log id) := by
  have hold {row : RevocationOutbox} (hrow : w.db.outbox.lookup id = some row) :
      row.attempts ≤ failures w.log id ∧
        (row.status = .dead → settings.outboxMaxAttempts ≤ failures w.log id) :=
    ⟨hrecorded.attempts id row hrow, hrecorded.dead id row hrow⟩
  cases hstep.outboxChange hfresh with
  | same houtbox => exact hold (houtbox ▸ hrow')
  | enqueued _ henqueued =>
      rcases henqueued.origin id row' hrow' with hwas | ⟨hmem, -⟩
      · exact hold hwas
      · rcases mem_enqueueRoleChangeEffects.1 hmem with ⟨target, -, rfl⟩ | rfl
        · exact ⟨Nat.zero_le _, nofun⟩
        · exact ⟨Nat.zero_le _, nofun⟩
  | leased _ hleased =>
      rcases hleased id with hsame | ⟨row, hrow, -, hlease⟩
      · exact hold (hsame ▸ hrow')
      · obtain rfl := Option.some.inj (hrow'.symm.trans hlease)
        exact ⟨(hold hrow).1, nofun⟩
  | @finished r success id' copy current rest hlocal hcurrent houtbox =>
      subst hlocal
      rw [houtbox, Table.lookup_insert_eq] at hrow'
      split at hrow'
      · next hid =>
          subst hid
          obtain ⟨-, -, hstatus, hattempts⟩ :=
            finished_eq settings r.now success copy current (Option.some.inj hrow').symm
          obtain ⟨hcurrentAttempts, hcurrentDead⟩ := hold hcurrent
          constructor
          · rcases hattempts with hkept | ⟨rfl, hnew⟩
            · rw [hkept]
              exact hcurrentAttempts
            · rw [hnew]
              exact hdelivering.2
          · intro hdead
            rcases hstatus with hkept | ⟨-, hnew⟩ | ⟨-, hnew⟩ | ⟨rfl, -, hmax⟩
            · exact hcurrentDead (hkept.symm.trans hdead)
            · rw [hdead] at hnew
              cases hnew
            · rw [hdead] at hnew
              cases hnew
            · exact Nat.le_trans hmax hdelivering.2
      · exact hold hrow'
  | reaped _ _ houtbox => exact hold ((houtbox id row').1 hrow').1

theorem Step.attemptsRecorded (hfresh : w.db.IdsFresh) (hrecorded : AttemptsRecorded settings w)
    (hdelivering : l.Delivering w) (hstep : Step settings p w l a w' l') :
    AttemptsRecorded settings w' where
  attempts id _ hrow' :=
    Nat.le_trans (hstep.rows_recorded hfresh hrecorded hdelivering hrow').1 (hstep.failures_le id)
  dead id _ hrow' hdead :=
    Nat.le_trans ((hstep.rows_recorded hfresh hrecorded hdelivering hrow').2 hdead) (hstep.failures_le id)

theorem CommitsTransition.enqueued (hfresh : w.db.IdsFresh) {uid : UserId} {generation : Nat}
    {targets : List RevocationTarget} (hcommits : CommitsTransition w w' uid generation targets l) :
    Enqueued (enqueueRoleChangeEffects uid generation targets w.now) w.db w'.db := by
  cases hcommits with
  | update huser hgeneration hchanged hcommit =>
      subst huser hgeneration
      exact ((commit_updateWrites hfresh hcommit).revoked hchanged).outbox
  | repair huser hcommit =>
      subst huser
      exact (commit_repairWrites hfresh hcommit).revoked.outbox

theorem Step.delivering (hfresh : w.db.IdsFresh) (hrecorded : AttemptsRecorded settings w)
    (hdelivering : l.Delivering w) (hstep : Step settings p w l a w' l') : l'.Delivering w' := by
  have hgrows := hstep.outboxGrows hfresh
  cases hstep with
  | begin hbegins => cases hbegins <;> exact trivial
  | tick | setRedis | reap | abort | error | commandError | postCommit | commandsDone | command =>
      exact trivial
  | update hstep => cases hstep <;> exact trivial
  | delete hstep => cases hstep <;> exact trivial
  | repair hstep => cases hstep <;> exact trivial
  | login hstep => cases hstep <;> exact trivial
  | refresh hstep => cases hstep <;> exact trivial
  | @logout r _ _ _ _ hstep =>
      cases hstep with
      | refreshRevoke | refreshFailed | refreshSkip =>
          obtain ⟨phase, heq, -⟩ := r.finish_eq _ _
          rw [heq]
          exact trivial
      | _ => exact trivial
  | revokeSession hstep =>
      cases hstep with
      | load | purge => exact trivial
      | commit => split <;> exact trivial
  | revokeUser hstep =>
      cases hstep with
      | capture | purge => exact trivial
      | commit => split <;> exact trivial
  | deleteMe hstep => cases hstep <;> exact trivial
  | legacySweep hstep => cases hstep <;> exact trivial
  | drain hstep =>
      cases hstep with
      | claim | done | finish => exact trivial
      | @next id _ copy hcopy =>
          refine ⟨hfresh.outbox id copy hcopy, fun row hrow => ?_, hrecorded.attempts id copy hcopy⟩
          rw [Option.some.inj (hcopy.symm.trans hrow)]
      | lapsed heffect httl =>
          refine ⟨hdelivering, heffect ▸ .lapsed ?_⟩
          rw [← Int.not_le, ← wholeSeconds_pos_iff]
          exact Int.not_lt.2 httl
      | @blacklist _ _ copy jti expiresAt _ heffect hsend =>
          have hlog := (World.send_frame hsend).2.2.2.2.2
          exact ⟨hdelivering.mono hgrows, expiresAt, heffect, hlog ▸ List.mem_cons_self⟩
      | publish heffect =>
          exact ⟨hdelivering.mono hgrows, heffect ▸ .published List.mem_cons_self⟩
      | @deliveryFailed id _ copy _ hphase =>
          have hcopy : CopyOf w id copy := by
            rcases hphase with rfl | ⟨jti, rfl⟩
            · exact hdelivering
            · exact hdelivering.1
          refine ⟨hcopy.mono hgrows, ?_⟩
          rw [failures, World.record, List.cons_append, List.nil_append, List.count_cons_self]
          exact Nat.succ_le_succ hcopy.attempts
      | @revoke jti id _ copy _ hsend =>
          obtain ⟨hcopy, expiresAt, heffect, hblacklisted⟩ := hdelivering
          have hlog := (World.send_frame hsend).2.2.2.2.2
          refine ⟨hcopy.mono hgrows, ?_⟩
          rw [heffect, hlog]
          exact .blacklisted (List.mem_cons_of_mem _ hblacklisted) List.mem_cons_self

theorem Step.keepsEffects (hfresh : w.db.IdsFresh) (hrecorded : AttemptsRecorded settings w)
    (hdelivering : l.Delivering w) (hstep : Step settings p w l a w' l') : KeepsEffects settings w w' l where
  enqueued _ _ _ hcommits row hmem := (hcommits.enqueued hfresh).stored row hmem
  kept _ _ hrow := (hstep.outbox_kept hfresh hrow).imp_right fun hgone => hgone.2.2
  completed id row' hrow' hcompleted := by
    cases hstep.outboxChange hfresh with
    | same houtbox => exact .inl ⟨row', houtbox ▸ hrow', hcompleted⟩
    | enqueued _ henqueued =>
        rcases henqueued.origin id row' hrow' with hold | ⟨hmem, -⟩
        · exact .inl ⟨row', hold, hcompleted⟩
        · rcases mem_enqueueRoleChangeEffects.1 hmem with ⟨target, -, rfl⟩ | rfl
          · cases hcompleted
          · cases hcompleted
    | leased _ hleased =>
        rcases hleased id with hsame | ⟨before, hbefore, -, hlease⟩
        · exact .inl ⟨row', hsame ▸ hrow', hcompleted⟩
        · obtain rfl := Option.some.inj (hrow'.symm.trans hlease)
          cases hcompleted
    | @finished r success id' copy current rest hlocal hcurrent houtbox =>
        rw [houtbox, Table.lookup_insert_eq] at hrow'
        split at hrow'
        · next hid =>
            subst hid hlocal
            obtain ⟨-, heffect, hstatus, -⟩ :=
              finished_eq settings r.now success copy current (Option.some.inj hrow').symm
            rcases hstatus with hkept | ⟨rfl, -⟩ | ⟨-, hnew⟩ | ⟨-, hnew, -⟩
            · exact .inl ⟨current, hcurrent, hkept.symm.trans hcompleted⟩
            · refine .inr ⟨r, copy, rest, rfl, ?_⟩
              rw [heffect, hdelivering.1.effect current hcurrent]
              exact hdelivering.2
            · rw [hcompleted] at hnew
              cases hnew
            · rw [hcompleted] at hnew
              cases hnew
        · exact .inl ⟨row', hrow', hcompleted⟩
    | reaped _ _ houtbox => exact .inl ⟨row', ((houtbox id row').1 hrow').1, hcompleted⟩
  dead _ _ hrow' := (hstep.rows_recorded hfresh hrecorded hdelivering hrow').2

/-- What holds in every state of every run. -/
def DeliveryInv (settings : Settings) : Interleaving.Config World Local → Prop :=
  Interleaving.Asserted (fun w => w.db.IdsFresh ∧ AttemptsRecorded settings w) fun _ w l => l.Delivering w

theorem DeliveryInv.next {c c' : Interleaving.Config World Local} {move : Pid × Action}
    (hinv : DeliveryInv settings c) (hnext : (issuer settings).next c move = some c') :
    DeliveryInv settings c' := by
  refine asserted_next hnext fun l' hstep => ?_
  obtain ⟨hfresh, hrecorded⟩ := hinv.shared
  have hdelivering := hinv.locals move.1
  refine ⟨⟨hstep.idsFresh hfresh, hstep.attemptsRecorded hfresh hrecorded hdelivering⟩,
    hstep.delivering hfresh hrecorded hdelivering, fun q _ => ?_⟩
  exact (hinv.locals q).mono (hstep.outboxGrows hfresh)

/-- From any outbox whose rows wait for their first delivery, no step of any run loses an effect. -/
theorem outbox_keeps_effects (settings : Settings) {c : Interleaving.Config World Local}
    (hstarts : Starts c) (hwaiting : ∀ id row, c.shared.db.outbox.lookup id = some row →
      row.status = .pending ∧ row.attempts = 0) (schedule : List (Pid × Action)) :
    (issuer settings).Along (fun c move c' => KeepsEffects settings c.shared c'.shared (c.locals move.1))
      c schedule := by
  have hinv : DeliveryInv settings c := by
    refine ⟨⟨hstarts.fresh, ⟨fun id row hrow => ?_, fun id row hrow hdead => ?_⟩⟩, fun p => ?_⟩
    · rw [(hwaiting id row hrow).2]
      exact Nat.zero_le _
    · rw [(hwaiting id row hrow).1] at hdead
      cases hdead
    · rw [hstarts.idle p]
      exact trivial
  refine Interleaving.System.along_of_invariant (fun c move c' hinv hnext => ?_) schedule hinv
  obtain ⟨l', -, hstep⟩ := next_sound hnext
  obtain ⟨hfresh, hrecorded⟩ := hinv.shared
  exact ⟨hstep.keepsEffects hfresh hrecorded (hinv.locals move.1), hinv.next hnext⟩

end

/-- One user with a session whose role change has been committed: its two effects wait in the outbox. -/
def effectsWaiting : Interleaving.Config World Local where
  shared :=
    { db :=
        { users := AList.insert 1 { email := "a", role := .writer, authGeneration := 2 } ∅
          outbox := AList.insert 1 (publishRow 1 2 0)
            (AList.insert 0 (blacklistRow 1 2 0 ⟨0, 1800 * second⟩) ∅)
          policyRevision := some 0
          nextUserId := 2
          nextOutboxId := 2 }
      nextJti := 1 }
  locals _ := .idle

theorem effectsWaiting_starts : Starts effectsWaiting where
  idle _ := rfl
  log := rfl
  fresh := .of_keys (by decide) (by decide) (by decide)
  rows _ _ hrow := by cases hrow

theorem effectsWaiting_waiting : ∀ id row, effectsWaiting.shared.db.outbox.lookup id = some row →
    row.status = .pending ∧ row.attempts = 0 := by
  intro id row hrow
  have hall : ∀ entry ∈ effectsWaiting.shared.db.outbox.entries,
      entry.2.status = .pending ∧ entry.2.attempts = 0 := by
    decide
  exact hall _ (Table.lookup_eq_some_iff.1 hrow)

/-- A first worker crashes after it has claimed both rows, its lease lapses, and a second worker delivers
them while Redis is down; a third one succeeds, and the rows are reaped. -/
def crashedDelivery : List (Pid × Action) :=
  (0, .begin (.drain ⟨0, true⟩ .claim)) :: (0, .claim [0, 1]) :: (0, .proceed) :: (0, .abort) ::
    (1, .tick 31000000) :: (1, .begin (.drain ⟨31000000, true⟩ .claim)) :: (1, .claim [0, 1]) ::
    (2, .setRedis false) :: List.replicate 7 (1, .proceed) ++
    (1, .tick 3000000) :: (2, .setRedis true) :: (1, .begin (.drain ⟨34000000, true⟩ .claim)) ::
    (1, .claim [0]) :: List.replicate 5 (1, .proceed) ++
    [(1, .tick 3601000000), (1, .reap)]

theorem outbox_keeps_effects_crashedDelivery :
    (issuer {}).Along (fun c move c' => KeepsEffects {} c.shared c'.shared (c.locals move.1))
      effectsWaiting crashedDelivery :=
  outbox_keeps_effects {} effectsWaiting_starts effectsWaiting_waiting crashedDelivery

end FaAuthM8

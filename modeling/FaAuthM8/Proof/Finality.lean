import FaAuthM8.Proof.Delivery

/-!
# Terminal outbox rows

A row is finished when it is completed or dead. A claim takes only rows that are due, so it never touches a
finished one. What can is a worker whose lease has lapsed: it still holds the row in its batch, delivers it
again, and saves the outcome over whatever the row has become.
-/

namespace FaAuthM8

def OutboxStatus.isTerminal : OutboxStatus → Bool
  | completed | dead => true
  | pending | leased => false

def OutboxWorker.failureStatus (settings : Settings) (row : RevocationOutbox) : OutboxStatus :=
  if settings.outboxMaxAttempts ≤ row.attempts + 1 then .dead else .pending

theorem OutboxWorker.failed_status (settings : Settings) (now : Int) (row : RevocationOutbox) :
    (OutboxWorker.failed settings now row).status = OutboxWorker.failureStatus settings row := by
  rw [failed, failureStatus]
  split
  · rfl
  · rfl

theorem OutboxWorker.failed_attempts (settings : Settings) (now : Int) (row : RevocationOutbox) :
    (OutboxWorker.failed settings now row).attempts = row.attempts + 1 := by
  rw [failed]
  split
  · rfl
  · rfl

/-- A finished row keeps its status and its attempts; only the reaper deletes it, and only when it is
completed. -/
def TerminalKept (w w' : World) (a : Action) : Prop :=
  ∀ id row, w.db.outbox.lookup id = some row → row.status.isTerminal = true →
    (∃ row', w'.db.outbox.lookup id = some row' ∧ row'.status = row.status ∧
      row'.attempts = row.attempts) ∨
    (a = .reap ∧ row.status = .completed ∧ w'.db.outbox.lookup id = none)

/-- The next statement of the worker saves its outcome over a row that is finished by now, and the outcome
is not what the row already says. -/
inductive OverwritesTerminal (settings : Settings) (w : World) : Local → Action → Prop
  | completes {r : DrainRequest} {id : OutboxId} {copy current : RevocationOutbox} {rest : List OutboxId}
      (hcurrent : w.db.outbox.lookup id = some current) (hdead : current.status = .dead)
      (hcopy : copy.status ≠ .completed) :
      OverwritesTerminal settings w (.drain r (.finish true id copy rest)) .proceed
  | fails {r : DrainRequest} {id : OutboxId} {copy current : RevocationOutbox} {rest : List OutboxId}
      (hcurrent : w.db.outbox.lookup id = some current) (hterminal : current.status.isTerminal = true)
      (hother : copy.attempts + 1 ≠ current.attempts ∨
        (OutboxWorker.failureStatus settings copy ≠ copy.status ∧
          OutboxWorker.failureStatus settings copy ≠ current.status)) :
      OverwritesTerminal settings w (.drain r (.finish false id copy rest)) .proceed

section

variable {settings : Settings} {p : Pid} {w w' : World} {l l' : Local} {a : Action}

theorem finished_keeps_iff {success : Bool} {clock : Int} {copy current : RevocationOutbox}
    (hterminal : current.status.isTerminal = true) :
    let saved := (if success then OutboxWorker.completed clock copy
      else OutboxWorker.failed settings clock copy).saveOver copy current
    (saved.status = current.status ∧ saved.attempts = current.attempts) ↔
      if success then current.status = .dead → copy.status = .completed
      else copy.attempts + 1 = current.attempts ∧
        (OutboxWorker.failureStatus settings copy = copy.status ∨
          OutboxWorker.failureStatus settings copy = current.status) := by
  cases success with
  | true =>
      simp only [if_true, RevocationOutbox.saveOver, OutboxWorker.completed, Column.writeBack,
        and_true]
      split
      · next hsame => exact ⟨fun _ _ => hsame.symm, fun _ => rfl⟩
      · next hdiffers =>
          constructor
          · intro hkept hdead
            rw [hdead] at hkept
            cases hkept
          · intro hcompleted
            cases hcurrent : current.status with
            | completed => rfl
            | dead => exact absurd (hcompleted hcurrent).symm hdiffers
            | pending | leased =>
                rw [hcurrent] at hterminal
                cases hterminal
  | false =>
      simp only [if_neg Bool.false_ne_true, RevocationOutbox.saveOver, OutboxWorker.failed_status,
        OutboxWorker.failed_attempts]
      rw [Column.writeBack_of_ne (Nat.succ_ne_self copy.attempts), Column.writeBack, and_comm]
      refine and_congr_right fun _ => ?_
      split
      · next hsame => exact ⟨fun _ => .inl hsame, fun _ => rfl⟩
      · next hdiffers => exact ⟨.inr, fun h => h.resolve_left hdiffers⟩

theorem step_finish {r : DrainRequest} {success : Bool} {id : OutboxId} {copy current : RevocationOutbox}
    {rest : List OutboxId} (hcurrent : w.db.outbox.lookup id = some current)
    (hstep : step settings p w (.drain r (.finish success id copy rest)) .proceed = some (w', l')) :
    w'.db.outbox.lookup id = some ((if success then OutboxWorker.completed r.now copy
      else OutboxWorker.failed settings r.now copy).saveOver copy current) := by
  have hcommit : ∃ db', commit [.updateOutbox id copy (if success then OutboxWorker.completed r.now copy
        else OutboxWorker.failed settings r.now copy)] w.db = .ok db' ∧
      db'.outbox.lookup id = some ((if success then OutboxWorker.completed r.now copy
        else OutboxWorker.failed settings r.now copy).saveOver copy current) := by
    generalize (if success then OutboxWorker.completed r.now copy
      else OutboxWorker.failed settings r.now copy) = saved
    by_cases hsame : saved = copy
    · refine ⟨w.db, by simp [commit, Write.apply, Db.updateOutbox, hsame, Except.bind], ?_⟩
      rw [hsame, hcurrent]
      simp [RevocationOutbox.saveOver]
    · refine ⟨{ w.db with outbox := w.db.outbox.insert id (saved.saveOver copy current) }, ?_,
        AList.lookup_insert w.db.outbox⟩
      simp [commit, Write.apply, Db.updateOutbox, hsame, hcurrent, Except.bind]
  obtain ⟨db', hcommit, hsaved⟩ := hcommit
  have hcommitting : committing w p _ (fun _ => []) (.drain r (.next rest)) = some (w', l') := hstep
  rw [committing, World.transact, hcommit] at hcommitting
  obtain ⟨rfl, -⟩ := moving_eq_some hcommitting
  exact hsaved

theorem step_finish_action {r : DrainRequest} {success : Bool} {id : OutboxId} {copy : RevocationOutbox}
    {rest : List OutboxId}
    (hstep : step settings p w (.drain r (.finish success id copy rest)) a = some (w', l')) :
    a = .proceed ∨ w'.db = w.db := by
  cases a with
  | proceed => exact .inl rfl
  | abort =>
      obtain ⟨rfl, -⟩ := failed_eq_some hstep
      exact .inr rfl
  | begin | select | claim | reap | tick | setRedis => cases hstep

theorem TerminalKept.of_same (houtbox : w'.db.outbox = w.db.outbox) : TerminalKept w w' a := by
  intro id row hrow _
  exact .inl ⟨row, houtbox ▸ hrow, rfl, rfl⟩

theorem terminalKept_iff (hfresh : w.db.IdsFresh) (hstep : step settings p w l a = some (w', l')) :
    ¬ OverwritesTerminal settings w l a ↔ TerminalKept w w' a := by
  constructor
  · intro hkeeps id row hrow hterminal
    cases (step_sound hstep).outboxChange hfresh with
    | same houtbox => exact TerminalKept.of_same houtbox id row hrow hterminal
    | enqueued _ henqueued => exact .inl ⟨row, henqueued.kept id row hrow, rfl, rfl⟩
    | leased _ hleased =>
        rcases hleased id with hsame | ⟨row', hrow', hdue, -⟩
        · exact .inl ⟨row, hsame ▸ hrow, rfl, rfl⟩
        · obtain rfl := Option.some.inj (hrow.symm.trans hrow')
          cases hstatus : row.status with
          | completed | dead => simp [OutboxWorker.isDue, hstatus] at hdue
          | pending | leased =>
              rw [hstatus] at hterminal
              cases hterminal
    | @finished r success id' copy current rest hlocal hcurrent houtbox =>
        subst hlocal
        rcases step_finish_action hstep with rfl | hsame
        · by_cases hid : id = id'
          · subst hid
            obtain rfl := Option.some.inj (hrow.symm.trans hcurrent)
            have hsaved := step_finish hcurrent hstep
            refine .inl ⟨_, hsaved, (finished_keeps_iff hterminal).2 ?_⟩
            cases success with
            | true =>
                intro hdead
                by_contra hcopy
                exact hkeeps (.completes hcurrent hdead hcopy)
            | false =>
                by_contra hother
                refine hkeeps (.fails hcurrent hterminal ?_)
                rw [if_neg Bool.false_ne_true, not_and_or, not_or] at hother
                exact hother
          · exact .inl ⟨row, by rw [houtbox, Table.lookup_insert_eq, if_neg hid, hrow], rfl, rfl⟩
        · exact TerminalKept.of_same (congrArg Db.outbox hsame) id row hrow hterminal
    | reaped _ _ houtbox =>
        rcases (step_sound hstep).outbox_kept hfresh hrow with ⟨row', hrow', -⟩ | ⟨hgone, hreap, hdone, -⟩
        · obtain rfl := Option.some.inj (hrow.symm.trans ((houtbox id row').1 hrow').1)
          exact .inl ⟨row, hrow', rfl, rfl⟩
        · exact .inr ⟨hreap, hdone, hgone⟩
  · intro hkept hoverwrites
    have hsaved {r : DrainRequest} {success : Bool} {id : OutboxId} {copy current : RevocationOutbox}
        {rest : List OutboxId} (hlocal : l = .drain r (.finish success id copy rest))
        (haction : a = .proceed) (hcurrent : w.db.outbox.lookup id = some current)
        (hterminal : current.status.isTerminal = true) :
        if success then current.status = .dead → copy.status = .completed
        else copy.attempts + 1 = current.attempts ∧
          (OutboxWorker.failureStatus settings copy = copy.status ∨
            OutboxWorker.failureStatus settings copy = current.status) := by
      subst hlocal haction
      rcases hkept id current hcurrent hterminal with ⟨row', hrow', hsame⟩ | ⟨hreap, -⟩
      · rw [step_finish hcurrent hstep, Option.some.injEq] at hrow'
        subst hrow'
        exact (finished_keeps_iff hterminal).1 hsame
      · cases hreap
    cases hoverwrites with
    | completes hcurrent hdead hcopy =>
        exact hcopy (hsaved rfl rfl hcurrent (by rw [hdead]; rfl) hdead)
    | fails hcurrent hterminal hother =>
        obtain ⟨hattempts, hstatus⟩ := hsaved rfl rfl hcurrent hterminal
        rcases hother with hother | ⟨hwritten, hchanged⟩
        · exact hother hattempts
        · exact hstatus.elim hwritten hchanged

/-- Along a run of any requests the finished rows stay as they are exactly when no worker saves another
outcome over one of them. -/
theorem terminal_rows_final_iff (settings : Settings) {c : Interleaving.Config World Local}
    (hfresh : c.shared.db.IdsFresh) (schedule : List (Pid × Action)) :
    (issuer settings).Along (fun c move _ =>
      ¬ OverwritesTerminal settings c.shared (c.locals move.1) move.2) c schedule ↔
    (issuer settings).Along (fun c move c' => TerminalKept c.shared c'.shared move.2) c schedule := by
  have hstep : ∀ (c : Interleaving.Config World Local) move c', c.shared.db.IdsFresh →
      (issuer settings).next c move = some c' →
      ¬ OverwritesTerminal settings c.shared (c.locals move.1) move.2 → c'.shared.db.IdsFresh := by
    intro c move c' hfresh hnext _
    obtain ⟨l', -, hstep⟩ := next_sound hnext
    exact hstep.idsFresh hfresh
  refine Interleaving.System.along_iff ?_ hstep schedule hfresh
  intro c move c' hfresh hnext
  obtain ⟨w', l', hstep, rfl⟩ := Interleaving.System.next_eq_some.1 hnext
  exact terminalKept_iff hfresh hstep

end

/-- A first worker claims the blacklist row and is slow; its lease lapses and a second worker claims the row
and completes it. Redis goes down, and the first worker's delivery fails. -/
def slowWorker : List (Pid × Action) :=
  (0, .begin (.drain ⟨0, true⟩ .claim)) :: (0, .claim [0]) ::
    (1, .tick 31000000) :: (1, .begin (.drain ⟨31000000, true⟩ .claim)) :: (1, .claim [0]) ::
    List.replicate 4 (1, .proceed) ++ (2, .setRedis false) :: List.replicate 2 (0, .proceed)

theorem terminal_rows_final_iff_slowWorker :
    (issuer {}).Along (fun c move _ => ¬ OverwritesTerminal {} c.shared (c.locals move.1) move.2)
      effectsWaiting slowWorker ↔
    (issuer {}).Along (fun c move c' => TerminalKept c.shared c'.shared move.2) effectsWaiting slowWorker :=
  terminal_rows_final_iff {} effectsWaiting_starts.fresh slowWorker

/-- The next step of the first worker makes the completed row pending again, with one failed attempt. -/
theorem terminal_row_reopened :
    ∃ c c', (issuer {}).run effectsWaiting slowWorker = some c ∧
      (issuer {}).next c (0, .proceed) = some c' ∧
      (c.shared.db.outbox.lookup 0).map (fun row => (row.status, row.attempts)) = some (.completed, 0) ∧
      (c'.shared.db.outbox.lookup 0).map (fun row => (row.status, row.attempts)) = some (.pending, 1) ∧
      ¬ TerminalKept c.shared c'.shared .proceed := by
  have hruns : ((issuer {}).run effectsWaiting slowWorker).map (fun c =>
      ((c.shared.db.outbox.lookup 0).map (fun row => (row.status, row.attempts)),
        ((issuer {}).next c (0, .proceed)).map (fun c' =>
          (c'.shared.db.outbox.lookup 0).map (fun row => (row.status, row.attempts)))))
      = some (some (.completed, 0), some (some (.pending, 1))) := by
    decide +kernel
  obtain ⟨c, hrun, hresult⟩ := Option.map_eq_some_iff.1 hruns
  obtain ⟨hbefore, hnext⟩ := Prod.mk.inj hresult
  obtain ⟨c', hnext, hafter⟩ := Option.map_eq_some_iff.1 hnext
  refine ⟨c, c', hrun, hnext, hbefore, hafter, fun hkept => ?_⟩
  obtain ⟨row, hrow, hstatus⟩ := Option.map_eq_some_iff.1 hbefore
  have hcompleted := (Prod.mk.inj hstatus).1
  rcases hkept 0 row hrow (by rw [hcompleted]; rfl) with ⟨row', hrow', hsame, -⟩ | ⟨hreap, -⟩
  · rw [hrow', Option.map_some, Option.some.injEq, Prod.mk.injEq, hsame, hcompleted] at hafter
    cases hafter.1
  · cases hreap

end FaAuthM8

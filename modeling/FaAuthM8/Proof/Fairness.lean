import FaAuthM8.Proof.Leases
import Mathlib.Algebra.Order.BigOperators.Group.Finset

/-!
# No starvation

A claim takes the oldest rows that are due. A row that is due and not taken is passed over for a whole batch
of rows that are at least as old, and each of them uses up one of its attempts. So a row is passed over only as
often as the attempts ahead of it fill batches, however many workers drain and whenever Redis is away.
-/

namespace FaAuthM8

/-- The attempts left for a row that waits or is being delivered. -/
def OutboxWorker.attemptsLeft (settings : Settings) (row : RevocationOutbox) : Nat :=
  if row.status = .pending ∨ row.status = .leased then max settings.outboxMaxAttempts 1 - row.attempts else 0

/-- What `ORDER BY created_at LIMIT` may take of the rows that are due. -/
def OutboxWorker.isOldestDue (settings : Settings) (now : Int) (db : Db) (ids : List OutboxId) : Bool :=
  db.outbox.entries.all fun entry => !isDue now entry.2 || ids.contains entry.1 ||
    (ids.length == settings.outboxBatchSize &&
      ids.all fun id => (db.outbox.lookup id).all (·.createdAt ≤ entry.2.createdAt))

def Local.claims : Local → Action → Option (DrainRequest × List OutboxId)
  | .drain r .claim, .claim ids => some (r, ids)
  | _, _ => none

def ClaimsOldest (settings : Settings) (c : Interleaving.Config World Local) (move : Pid × Action) : Prop :=
  ((c.locals move.1).claims move.2).all
    (fun claim => OutboxWorker.isOldestDue settings claim.1.now c.shared.db claim.2) = true

instance (settings : Settings) (c : Interleaving.Config World Local) (move : Pid × Action) :
    Decidable (ClaimsOldest settings c move) :=
  inferInstanceAs (Decidable (_ = true))

/-- A worker ends with rows that it has claimed and not finished. -/
def Abandons (c : Interleaving.Config World Local) (move : Pid × Action)
    (c' : Interleaving.Config World Local) : Prop :=
  (c.locals move.1).held ≠ [] ∧ c'.locals move.1 = .idle

instance (c : Interleaving.Config World Local) (move : Pid × Action) (c' : Interleaving.Config World Local) :
    Decidable (Abandons c move c') :=
  inferInstanceAs (Decidable (_ ∧ _))

/-- A claim leaves the row although it is due. -/
def passesOver (id : OutboxId) (c : Interleaving.Config World Local) (move : Pid × Action)
    (c' : Interleaving.Config World Local) : Bool :=
  ((c.locals move.1).claims move.2).any fun claim =>
    (c.shared.db.outbox.lookup id).any (OutboxWorker.isDue claim.1.now) && !claim.2.contains id &&
      c'.locals move.1 != .idle

/-- How often a run passes over a row. -/
def timesPassedOver (settings : Settings) (id : OutboxId) :
    Interleaving.Config World Local → List (Pid × Action) → Nat :=
  (issuer settings).total fun c move c' => (passesOver id c move c').toNat

/-- The attempts left for a row that goes before another. -/
def attemptsBefore (settings : Settings) (db : Db) (target : OutboxId) (created : Int) (id : OutboxId) : Nat :=
  (db.outbox.lookup id).elim 0 fun row =>
    if id ≠ target ∧ row.createdAt ≤ created then OutboxWorker.attemptsLeft settings row else 0

/-- The attempts left for all rows that are at least as old. -/
def attemptsAhead (settings : Settings) (db : Db) (target : OutboxId) (created : Int) : Nat :=
  ∑ id ∈ Finset.range db.nextOutboxId, attemptsBefore settings db target created id

/-- Some worker has claimed the row and not finished it. -/
def Taken (c : Interleaving.Config World Local) (id : OutboxId) : Prop := ∃ p, id ∈ (c.locals p).held

section

variable {settings : Settings} {p : Pid} {w w' : World} {l l' : Local} {a : Action}

/-! ### One step -/

theorem Step.held_kept (hstep : Step settings p w l a w' l') (hidle : l' ≠ .idle) {id : OutboxId}
    (hheld : id ∈ l.held) :
    id ∈ l'.held ∨ ∃ r success copy rest, l = .drain r (.finish success id copy rest) := by
  cases hstep with
  | abort | error => exact absurd rfl hidle
  | drain hdrain =>
      cases hdrain with
      | claim => cases hheld
      | done => cases hheld
      | next | lapsed | blacklist | publish | revoke => exact .inl hheld
      | deliveryFailed hphase =>
          rcases hphase with rfl | ⟨jti, rfl⟩
          · exact .inl hheld
          · exact .inl hheld
      | finish =>
          rcases List.mem_cons.1 hheld with rfl | hrest
          · exact .inr ⟨_, _, _, _, rfl⟩
          · exact .inl hrest
  | _ => cases hheld

theorem finished_ne {clock : Int} {success : Bool} {row : RevocationOutbox} (hstatus : row.status = .leased) :
    (if success then OutboxWorker.completed clock row else OutboxWorker.failed settings clock row) ≠ row := by
  intro hsame
  have hkept := (congrArg RevocationOutbox.status hsame).trans hstatus
  cases success with
  | true => cases hkept
  | false =>
      rw [if_neg Bool.false_ne_true, OutboxWorker.failed] at hkept
      split at hkept
      · cases hkept
      · cases hkept

theorem finished_created (settings : Settings) (clock : Int) (success : Bool) (row : RevocationOutbox) :
    (if success then OutboxWorker.completed clock row else OutboxWorker.failed settings clock row).createdAt =
      row.createdAt := by
  cases success with
  | true => rfl
  | false =>
      rw [if_neg Bool.false_ne_true, OutboxWorker.failed]
      split
      · rfl
      · rfl

theorem Step.finishes {r : DrainRequest} {success : Bool} {id : OutboxId} {copy : RevocationOutbox}
    {rest : List OutboxId} (hleases : (DrainPhase.finish success id copy rest).Leases settings w r)
    (hstep : Step settings p w (.drain r (.finish success id copy rest)) a w' l') (hidle : l' ≠ .idle) :
    ∃ row, w.db.outbox.lookup id = some row ∧ LeasedTo settings r row ∧ w'.db.outbox.lookup id =
      some (if success then OutboxWorker.completed r.now row else OutboxWorker.failed settings r.now row) := by
  obtain ⟨row, hrow, hleased⟩ := hleases.leased id List.mem_cons_self
  have hcopy := hleases.copy id copy rfl
  refine ⟨row, hrow, hleased, ?_⟩
  cases hstep with
  | abort | error => exact absurd rfl hidle
  | drain hdrain =>
      cases hdrain with
      | deliveryFailed hphase => simp at hphase
      | @finish _ _ _ _ db' hcommit =>
          obtain ⟨db₁, hupdate, hdone⟩ := commit_cons_eq_ok.1 hcommit
          obtain rfl := Except.ok.inj hdone
          obtain ⟨hsame, -⟩ | ⟨current, hcurrent, rfl⟩ := Db.updateOutbox_eq_ok hupdate
          · -- a finished copy differs from the leased row
            obtain rfl := Option.some.inj (hrow.symm.trans hcopy)
            exact absurd hsame (finished_ne hleased.status)
          · obtain rfl := Option.some.inj (hrow.symm.trans hcurrent)
            show (w.db.outbox.insert id _).lookup id = _
            rw [(finished_row hleases hcurrent).2, Table.lookup_insert_eq, if_pos rfl]

theorem attemptsLeft_pos {now : Int} {row : RevocationOutbox} (hpaced : Paced settings now row)
    (hstatus : row.status = .pending ∨ row.status = .leased) : 0 < OutboxWorker.attemptsLeft settings row := by
  have halive : row.status ≠ .dead := by
    rcases hstatus with hstatus | hstatus
    · simp [hstatus]
    · simp [hstatus]
  have hattempts := hpaced.attempts halive
  rw [OutboxWorker.attemptsLeft, if_pos hstatus]
  omega

/-- To finish with a row uses up an attempt, or all of them. -/
theorem attemptsLeft_finished {now : Int} (clock : Int) (success : Bool) {row : RevocationOutbox}
    (hpaced : Paced settings now row) (hstatus : row.status = .leased) :
    OutboxWorker.attemptsLeft settings
      (if success then OutboxWorker.completed clock row else OutboxWorker.failed settings clock row) + 1 ≤
        OutboxWorker.attemptsLeft settings row := by
  have hpos := attemptsLeft_pos hpaced (.inr hstatus)
  cases success with
  | true => exact hpos
  | false =>
      rw [if_neg Bool.false_ne_true, OutboxWorker.failed]
      split
      · exact hpos
      · next hmax =>
          have hleft : OutboxWorker.attemptsLeft settings row = max settings.outboxMaxAttempts 1 - row.attempts :=
            if_pos (.inr hstatus)
          show max settings.outboxMaxAttempts 1 - (row.attempts + 1) + 1 ≤ _
          omega

variable {c c' : Interleaving.Config World Local} {move : Pid × Action} {id target : OutboxId} {created : Int}

theorem LeaseInv.step_of_next (hnext : (issuer settings).next c move = some c') :
    Step settings move.1 c.shared (c.locals move.1) move.2 c'.shared (c'.locals move.1) :=
  step_sound (Interleaving.System.step_of_next hnext)

/-- A stored row was stored before, as old and with no fewer attempts left, or has just been created. -/
theorem LeaseInv.row_next (hinv : LeaseInv settings c) (hnext : (issuer settings).next c move = some c')
    {row' : RevocationOutbox} (hrow' : c'.shared.db.outbox.lookup id = some row') :
    (∃ row, c.shared.db.outbox.lookup id = some row ∧ row'.createdAt = row.createdAt ∧
      OutboxWorker.attemptsLeft settings row' ≤ OutboxWorker.attemptsLeft settings row) ∨
      (c.shared.db.nextOutboxId ≤ id ∧ row'.createdAt = c.shared.now) := by
  have hstep := LeaseInv.step_of_next hnext
  cases hstep.outboxChange hinv.fresh with
  | same houtbox => exact .inl ⟨row', houtbox ▸ hrow', rfl, le_rfl⟩
  | enqueued _ henqueued =>
      rcases henqueued.origin id row' hrow' with hwas | ⟨hmem, hnew⟩
      · exact .inl ⟨row', hwas, rfl, le_rfl⟩
      · rcases mem_enqueueRoleChangeEffects.1 hmem with ⟨target, -, rfl⟩ | rfl
        · exact .inr ⟨hnew, rfl⟩
        · exact .inr ⟨hnew, rfl⟩
  | leased _ hclaimed =>
      rcases hclaimed id with hsame | ⟨row, hrow, hdue, hlease⟩
      · exact .inl ⟨row', hsame ▸ hrow', rfl, le_rfl⟩
      · obtain rfl := Option.some.inj (hrow'.symm.trans hlease)
        refine .inl ⟨row, hrow, rfl, ?_⟩
        have hstatus : row.status = .pending ∨ row.status = .leased := by
          rw [OutboxWorker.isDue, Bool.and_eq_true, Bool.or_eq_true, Bool.and_eq_true, beq_iff_eq,
            beq_iff_eq] at hdue
          exact hdue.1.imp_right And.left
        rw [OutboxWorker.attemptsLeft, OutboxWorker.attemptsLeft, if_pos (.inr rfl), if_pos hstatus]
        exact le_rfl
  | @finished r success id' copy current rest hlocal hcurrent houtbox =>
      have hleases := hinv.leases move.1
      rw [hlocal] at hleases
      obtain ⟨hleased, hsaved⟩ := finished_row hleases hcurrent
      rw [houtbox, Table.lookup_insert_eq] at hrow'
      split at hrow'
      · next heq =>
          subst heq
          rw [hsaved] at hrow'
          obtain rfl := Option.some.inj hrow'
          refine .inl ⟨current, hcurrent, finished_created settings r.now success current, ?_⟩
          have hused := attemptsLeft_finished r.now success (hinv.paced id current hcurrent) hleased.status
          omega
      · exact .inl ⟨row', hrow', rfl, le_rfl⟩
  | reaped _ _ houtbox => exact .inl ⟨row', ((houtbox id row').1 hrow').1, rfl, le_rfl⟩

theorem taken_of_ne {q : Pid} (hnext : (issuer settings).next c move = some c') (hq : q ≠ move.1) :
    c'.locals q = c.locals q := by
  obtain ⟨s', l', -, rfl⟩ := Interleaving.System.next_eq_some.1 hnext
  exact Function.update_of_ne hq _ _

theorem Taken.next (htaken : Taken c id) (hnext : (issuer settings).next c move = some c')
    (habandons : ¬ Abandons c move c') : Taken c' id ∨ ∃ r success copy rest,
      c.locals move.1 = .drain r (.finish success id copy rest) ∧ c'.locals move.1 ≠ .idle := by
  obtain ⟨q, hheld⟩ := htaken
  by_cases hq : q = move.1
  · subst hq
    have hidle : c'.locals move.1 ≠ .idle := by
      intro hidle
      exact habandons ⟨List.ne_nil_of_mem hheld, hidle⟩
    rcases (LeaseInv.step_of_next hnext).held_kept hidle hheld with hkept | ⟨r, success, copy, rest, hlocal⟩
    · exact .inl ⟨move.1, hkept⟩
    · exact .inr ⟨r, success, copy, rest, hlocal, hidle⟩
  · refine .inl ⟨q, ?_⟩
    rw [taken_of_ne hnext hq]
    exact hheld

end

/-! ### The attempts ahead -/

section

open Classical in
/-- The attempts left for a row that goes before another, apart from the one that is under way. -/
noncomputable def attemptsWaiting (settings : Settings) (target : OutboxId) (created : Int)
    (c : Interleaving.Config World Local) (id : OutboxId) : Nat :=
  attemptsBefore settings c.shared.db target created id - if Taken c id then 1 else 0

variable {settings : Settings} {c c' : Interleaving.Config World Local} {move : Pid × Action}
  {id target : OutboxId} {created : Int}

theorem attemptsBefore_of_lookup {db : Db} {row : RevocationOutbox} (hrow : db.outbox.lookup id = some row) :
    attemptsBefore settings db target created id =
      if id ≠ target ∧ row.createdAt ≤ created then OutboxWorker.attemptsLeft settings row else 0 := by
  rw [attemptsBefore, hrow, Option.elim_some]

/-- No step makes more attempts wait ahead of a row that was created before. -/
theorem LeaseInv.attemptsBefore_next (hinv : LeaseInv settings c)
    (hnext : (issuer settings).next c move = some c') (hpast : created < c.shared.now)
    (target id : OutboxId) : attemptsBefore settings c'.shared.db target created id ≤
      attemptsBefore settings c.shared.db target created id := by
  cases hrow' : c'.shared.db.outbox.lookup id with
  | none =>
      rw [attemptsBefore, hrow']
      exact Nat.zero_le _
  | some row' =>
      rw [attemptsBefore_of_lookup hrow']
      rcases hinv.row_next hnext hrow' with ⟨row, hrow, hcreated, hleft⟩ | ⟨-, hcreated⟩
      · rw [attemptsBefore_of_lookup hrow, hcreated]
        split
        · exact hleft
        · exact le_rfl
      · rw [if_neg (by omega)]
        exact Nat.zero_le _

theorem LeaseInv.attemptsBefore_finish (hinv : LeaseInv settings c)
    (hnext : (issuer settings).next c move = some c') {r : DrainRequest} {success : Bool}
    {copy : RevocationOutbox} {rest : List OutboxId}
    (hlocal : c.locals move.1 = .drain r (.finish success id copy rest)) (hidle : c'.locals move.1 ≠ .idle)
    (target : OutboxId) (created : Int) : attemptsBefore settings c'.shared.db target created id ≤
      attemptsBefore settings c.shared.db target created id - 1 := by
  have hleases := hinv.leases move.1
  have hstep := LeaseInv.step_of_next hnext
  rw [hlocal] at hleases hstep
  obtain ⟨row, hrow, hleased, hrow'⟩ := hstep.finishes hleases hidle
  rw [attemptsBefore_of_lookup hrow, attemptsBefore_of_lookup hrow', finished_created]
  split
  · have hused := attemptsLeft_finished r.now success (hinv.paced id row hrow) hleased.status
    omega
  · exact Nat.zero_le _

theorem LeaseInv.attemptsWaiting_next (hinv : LeaseInv settings c)
    (hnext : (issuer settings).next c move = some c') (hpast : created < c.shared.now)
    (habandons : ¬ Abandons c move c') (target id : OutboxId) :
    attemptsWaiting settings target created c' id ≤ attemptsWaiting settings target created c id := by
  have hbefore := hinv.attemptsBefore_next hnext hpast target id
  rw [attemptsWaiting, attemptsWaiting]
  by_cases htaken : Taken c id
  · rw [if_pos htaken]
    rcases htaken.next hnext habandons with hkept | ⟨r, success, copy, rest, hlocal, hidle⟩
    · rw [if_pos hkept]
      omega
    · have hused := hinv.attemptsBefore_finish hnext hlocal hidle target created
      omega
  · rw [if_neg htaken]
    omega

theorem LeaseInv.attemptsWaiting_claimed (hinv : LeaseInv settings c) (hinv' : LeaseInv settings c')
    (hnext : (issuer settings).next c move = some c') (hpast : created < c.shared.now)
    {row : RevocationOutbox} (hrow : c.shared.db.outbox.lookup id = some row) (hne : id ≠ target)
    (holder : row.createdAt ≤ created) (hfree : ¬ Taken c id)
    (hheld : id ∈ (c'.locals move.1).held) :
    attemptsWaiting settings target created c' id + 1 ≤ attemptsWaiting settings target created c id := by
  have hbefore := hinv.attemptsBefore_next hnext hpast target id
  have hpos : 0 < attemptsBefore settings c'.shared.db target created id := by
    have hleases := hinv'.leases move.1
    cases hlocal : c'.locals move.1 with
    | drain r phase =>
        rw [hlocal] at hheld hleases
        obtain ⟨row', hrow', hleased⟩ := hleases.leased id hheld
        have hcreated : row'.createdAt = row.createdAt := by
          rcases hinv.row_next hnext hrow' with ⟨row₁, hrow₁, hcreated, -⟩ | ⟨hnew, -⟩
          · rw [hcreated, Option.some.inj (hrow.symm.trans hrow₁)]
          · exact absurd (hinv.fresh.outbox id row hrow) (Nat.not_lt.2 hnew)
        rw [attemptsBefore_of_lookup hrow', if_pos ⟨hne, hcreated ▸ holder⟩]
        exact attemptsLeft_pos (hinv'.paced id row' hrow') (.inr hleased.status)
    | _ =>
        rw [hlocal] at hheld
        cases hheld
  rw [attemptsWaiting, attemptsWaiting, if_neg hfree, if_pos ⟨move.1, hheld⟩]
  omega

/-! ### The claim that passes over a row -/

theorem Local.claims_eq_some {l : Local} {a : Action} {r : DrainRequest} {ids : List OutboxId}
    (hclaims : l.claims a = some (r, ids)) : l = .drain r .claim ∧ a = .claim ids := by
  rw [claims.eq_def] at hclaims
  split at hclaims
  · cases hclaims
    exact ⟨rfl, rfl⟩
  · cases hclaims

/-- What is not taken although it is due is behind a whole batch of older rows. -/
theorem isOldestDue_behind {now : Int} {db : Db} {ids : List OutboxId} {row : RevocationOutbox}
    (holdest : OutboxWorker.isOldestDue settings now db ids = true)
    (hrow : db.outbox.lookup target = some row) (hdue : OutboxWorker.isDue now row = true)
    (hnot : target ∉ ids) : ids.length = settings.outboxBatchSize ∧
      ∀ id ∈ ids, ∀ row', db.outbox.lookup id = some row' → row'.createdAt ≤ row.createdAt := by
  have hentry := List.all_eq_true.1 holdest ⟨target, row⟩ (Table.lookup_eq_some_iff.1 hrow)
  simp only [hdue, Bool.not_true, Bool.false_or, List.contains_eq_mem, hnot, decide_false, Bool.and_eq_true,
    beq_iff_eq, List.all_eq_true] at hentry
  refine ⟨hentry.1, fun id hmem row' hrow' => ?_⟩
  have hall := hentry.2 id hmem
  rw [hrow', Option.all_some, decide_eq_true_eq] at hall
  exact hall

theorem claim_takes {p : Pid} {w w' : World} {l' : Local} {r : DrainRequest} {ids : List OutboxId}
    (hstep : step settings p w (.drain r .claim) (.claim ids) = some (w', l')) (hidle : l' ≠ .idle) :
    l' = .drain r (.next ids) ∧ ids.Nodup ∧ ∀ id ∈ ids, ∃ row, w.db.outbox.lookup id = some row := by
  have hclaim : r.claim settings p w ids = some (w', l') := hstep
  rw [DrainRequest.claim] at hclaim
  split at hclaim
  · next hguard =>
      obtain ⟨-, hback⟩ | ⟨db', -, -, hafter⟩ := committing_eq_some hclaim
      · exact absurd hback hidle
      · refine ⟨hafter, hguard.1, fun id hmem => ?_⟩
        have hdue := List.all_eq_true.1 hguard.2.2 id hmem
        obtain ⟨row, hrow, -⟩ := (Option.any_eq_true _ _).1 hdue
        exact ⟨row, hrow⟩
  · cases hclaim

/-- A claim that passes over a row takes a whole batch of rows that are at least as old, and that nobody has. -/
theorem LeaseInv.passes_over (hinv' : LeaseInv settings c')
    (hnext : (issuer settings).next c move = some c') (holdest : ClaimsOldest settings c move)
    (htarget : ∀ row, c.shared.db.outbox.lookup target = some row → row.createdAt = created)
    (hpasses : passesOver target c move c' = true) :
    ∃ ids : List OutboxId, ids.Nodup ∧ ids.length = settings.outboxBatchSize ∧
      ∀ id ∈ ids, id ≠ target ∧ ¬ Taken c id ∧ id ∈ (c'.locals move.1).held ∧
        ∃ row, c.shared.db.outbox.lookup id = some row ∧ row.createdAt ≤ created := by
  obtain ⟨p, action⟩ := move
  have hraw := Interleaving.System.step_of_next hnext
  rw [passesOver, Option.any_eq_true] at hpasses
  obtain ⟨⟨r, ids⟩, hclaims, hleft⟩ := hpasses
  rw [Bool.and_eq_true, Bool.and_eq_true, Option.any_eq_true, bne_iff_ne, Bool.not_eq_true',
    List.contains_eq_mem, decide_eq_false_iff_not] at hleft
  obtain ⟨⟨⟨row, hrow, hdue⟩, hnot⟩, hidle⟩ := hleft
  rw [ClaimsOldest, hclaims, Option.all_some] at holdest
  obtain ⟨hlocal, rfl⟩ := Local.claims_eq_some hclaims
  dsimp only at hlocal hidle
  rw [hlocal] at hraw
  obtain ⟨hafter, hnodup, hstored⟩ := claim_takes hraw hidle
  obtain ⟨hlength, hbefore⟩ := isOldestDue_behind holdest hrow hdue hnot
  have hheld : (c'.locals p).held = ids := by
    rw [hafter]
    rfl
  refine ⟨ids, hnodup, hlength, fun id hmem => ⟨?_, ?_, hheld ▸ hmem, ?_⟩⟩
  · rintro rfl
    exact hnot hmem
  · rintro ⟨q, htaken⟩
    have hq : p ≠ q := by
      rintro rfl
      rw [hlocal] at htaken
      cases htaken
    rw [← taken_of_ne hnext hq.symm] at htaken
    exact hinv'.exclusive p q hq id (hheld ▸ hmem) htaken
  · obtain ⟨row', hrow'⟩ := hstored id hmem
    exact ⟨row', hrow', htarget row hrow ▸ hbefore id hmem row' hrow'⟩

/-- What holds of a run from the moment the clock has passed the creation of a row; `drawn` many rows had been
created then. -/
structure Behind (settings : Settings) (target : OutboxId) (created : Int) (drawn : Nat)
    (c : Interleaving.Config World Local) : Prop where
  leases : LeaseInv settings c
  past : created < c.shared.now
  known : target < c.shared.db.nextOutboxId
  same : ∀ row, c.shared.db.outbox.lookup target = some row → row.createdAt = created
  older : ∀ id row, c.shared.db.outbox.lookup id = some row → row.createdAt ≤ created → id < drawn

/-- A step that passes over the row takes a batch out of the attempts that wait ahead of it. -/
theorem Behind.next {drawn : Nat} (hbehind : Behind settings target created drawn c)
    (hnext : (issuer settings).next c move = some c') (hinTime : InTime settings c')
    (holdest : ClaimsOldest settings c move) (habandons : ¬ Abandons c move c') :
    (passesOver target c move c').toNat * settings.outboxBatchSize +
        ∑ id ∈ Finset.range drawn, attemptsWaiting settings target created c' id ≤
      ∑ id ∈ Finset.range drawn, attemptsWaiting settings target created c id ∧
      Behind settings target created drawn c' := by
  have hinv := hbehind.leases
  have hinv' := hinv.next hnext hinTime
  have hstep := LeaseInv.step_of_next hnext
  have hfewer := hinv.attemptsWaiting_next hnext hbehind.past habandons target
  refine ⟨?_, hinv', hbehind.past.trans_le hstep.clocks.1, hbehind.known.trans_le hstep.nextOutboxId_le, ?_, ?_⟩
  · cases hpasses : passesOver target c move c' with
    | false =>
        rw [Bool.toNat_false, Nat.zero_mul, Nat.zero_add]
        exact Finset.sum_le_sum fun id _ => hfewer id
    | true =>
        obtain ⟨ids, hnodup, hlength, htaken⟩ :=
          hinv'.passes_over hnext holdest hbehind.same hpasses
        have hbatch : ∑ id ∈ Finset.range drawn, (if id ∈ ids then 1 else 0) = settings.outboxBatchSize := by
          rw [← hlength, ← List.toFinset_card_of_nodup hnodup, ← Finset.card_filter]
          congr 1
          ext id
          rw [Finset.mem_filter, Finset.mem_range, List.mem_toFinset]
          refine and_iff_right_of_imp fun hmem => ?_
          obtain ⟨-, -, -, row, hrow, hold⟩ := htaken id hmem
          exact hbehind.older id row hrow hold
        rw [Bool.toNat_true, Nat.one_mul, ← hbatch, ← Finset.sum_add_distrib]
        refine Finset.sum_le_sum fun id _ => ?_
        split
        · next hmem =>
            obtain ⟨hne, hfree, hheld, row, hrow, hold⟩ := htaken id hmem
            rw [Nat.add_comm]
            exact hinv.attemptsWaiting_claimed hinv' hnext hbehind.past hrow hne hold hfree hheld
        · rw [Nat.zero_add]
          exact hfewer id
  · intro row' hrow'
    rcases hinv.row_next hnext hrow' with ⟨row, hrow, hcreated, -⟩ | ⟨hnew, -⟩
    · rw [hcreated, hbehind.same row hrow]
    · exact absurd hbehind.known (Nat.not_lt.2 hnew)
  · intro id row' hrow' hold
    rcases hinv.row_next hnext hrow' with ⟨row, hrow, hcreated, -⟩ | ⟨-, hcreated⟩
    · exact hbehind.older id row hrow (hcreated ▸ hold)
    · have hpast := hbehind.past
      omega

/-- While no worker overruns its lease or abandons a row, and claims are of the oldest rows, a due row is passed
over only as often as the attempts left for the rows ahead of it fill batches. -/
theorem claims_are_fair (settings : Settings) {c c₁ : Interleaving.Config World Local} (hstarts : Starts c)
    (hwaiting : ∀ id row, c.shared.db.outbox.lookup id = some row →
      row.status = .pending ∧ row.attempts = 0 ∧ row.createdAt ≤ c.shared.now)
    {first second : List (Pid × Action)} (hrun : (issuer settings).run c first = some c₁)
    (hinTime : (issuer settings).Along (fun _ _ c' => InTime settings c') c (first ++ second))
    (hfair : (issuer settings).Along
      (fun c move c' => ClaimsOldest settings c move ∧ ¬ Abandons c move c') c₁ second)
    {id : OutboxId} {row : RevocationOutbox} (hrow : c₁.shared.db.outbox.lookup id = some row)
    (hpast : row.createdAt < c₁.shared.now) :
    timesPassedOver settings id c₁ second * settings.outboxBatchSize ≤
      attemptsAhead settings c₁.shared.db id row.createdAt := by
  obtain ⟨hfirst, hsecond⟩ := Interleaving.System.along_append.1 hinTime
  have hinv : LeaseInv settings c₁ :=
    Interleaving.System.run_invariant (fun _ _ _ hinv hnext hinTime => hinv.next hnext hinTime)
      (hstarts.leaseInv hwaiting) hfirst hrun
  have hsame : ∀ row', c₁.shared.db.outbox.lookup id = some row' → row'.createdAt = row.createdAt := by
    intro row' hrow'
    rw [Option.some.inj (hrow'.symm.trans hrow)]
  have hbehind : Behind settings id row.createdAt c₁.shared.db.nextOutboxId c₁ :=
    ⟨hinv, hpast, hinv.fresh.outbox id row hrow, hsame, fun id row hrow _ => hinv.fresh.outbox id row hrow⟩
  have hpaid := Interleaving.System.total_le
    (fun _ _ _ hbehind hnext hok => hbehind.next hnext hok.1 hok.2.1 hok.2.2) hbehind
    (Interleaving.System.along_and (hsecond c₁ hrun) hfair)
  refine hpaid.trans (Finset.sum_le_sum fun other _ => ?_)
  rw [attemptsWaiting]
  exact Nat.sub_le _ _

end

/-- One row at a time, and two attempts for each. -/
def oneAtATime : Settings := { outboxBatchSize := 1, outboxMaxAttempts := 2 }

def redisGoesDown : List (Pid × Action) := [(2, .setRedis false), (2, .tick 1)]

/-- The publication waits until both attempts at the blacklisting have failed. -/
def publicationWaits : List (Pid × Action) :=
  (0, .begin (.drain ⟨1, false⟩ .claim)) :: (0, .claim [0]) :: List.replicate 4 (0, .proceed) ++
    (2, .tick 2000000) :: (1, .begin (.drain ⟨2000001, false⟩ .claim)) :: (1, .claim [0]) ::
    List.replicate 4 (1, .proceed) ++
    [(0, .begin (.drain ⟨2000001, false⟩ .claim)), (0, .claim [1]), (0, .proceed)]

theorem publicationWaits_inTime : (issuer oneAtATime).Along (fun _ _ c' => InTime oneAtATime c')
    effectsWaiting (redisGoesDown ++ publicationWaits) := by
  have hok : (issuer oneAtATime).Along (fun c move c' => move.1 < 3 ∧ SavesDelivery c move c' ∧
      ∀ p, p < 3 → (c'.locals p).InTime oneAtATime c'.shared.now)
        effectsWaiting (redisGoesDown ++ publicationWaits) := by
    decide +kernel
  exact Interleaving.System.along_mono (fun _ _ _ hok => hok.1) (inTime_of_lt (fun _ _ => rfl) hok)

theorem claims_are_fair_publicationWaits :
    ∃ c₁ row, (issuer oneAtATime).run effectsWaiting redisGoesDown = some c₁ ∧
      c₁.shared.db.outbox.lookup 1 = some row ∧ timesPassedOver oneAtATime 1 c₁ publicationWaits = 2 ∧
      timesPassedOver oneAtATime 1 c₁ publicationWaits * oneAtATime.outboxBatchSize ≤
        attemptsAhead oneAtATime c₁.shared.db 1 row.createdAt ∧
      attemptsAhead oneAtATime c₁.shared.db 1 row.createdAt = 2 := by
  have hruns : ∃ c₁, (issuer oneAtATime).run effectsWaiting redisGoesDown = some c₁ ∧
      c₁.shared.db.outbox.lookup 1 = some (publishRow 1 2 0) ∧ 0 < c₁.shared.now ∧
      (issuer oneAtATime).Along (fun c move c' => ClaimsOldest oneAtATime c move ∧ ¬ Abandons c move c')
        c₁ publicationWaits ∧
      timesPassedOver oneAtATime 1 c₁ publicationWaits = 2 ∧
      attemptsAhead oneAtATime c₁.shared.db 1 0 = 2 :=
    ⟨_, rfl, by decide, by decide, by decide +kernel, by decide +kernel, by decide +kernel⟩
  obtain ⟨c₁, hrun, hrow, hpast, hfair, htimes, hahead⟩ := hruns
  refine ⟨c₁, _, hrun, hrow, htimes, ?_, hahead⟩
  exact claims_are_fair oneAtATime effectsWaiting_starts redisStaysDown_waiting hrun publicationWaits_inTime hfair
    hrow hpast

end FaAuthM8

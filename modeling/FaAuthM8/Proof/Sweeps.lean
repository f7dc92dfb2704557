import FaAuthM8.Services.Sweeps

/-!
# Sweeps that end and count truthfully

A sweep of a table removes the rows that satisfy a predicate, apart from those whose deletion is suppressed.
Its count includes the suppressed rows it claims, and it notices them only when a whole batch of them comes
twice in a row: fewer are counted as removed, and rows that tie may come in another order each time, so that
the sweep goes on for ever.
-/

namespace FaAuthM8

open BatchSweep

/-- A sweep ends, and returns as the number removed the number of rows that are gone. -/
structure SweepsTruly (rows : PurgeDb → Finset Uuid)
    (sweep : Nat → PurgeDb → Option (Except PurgeError Nat × PurgeDb)) (db : PurgeDb) : Prop where
  ends : ∃ fuel result, sweep fuel db = some result
  counts : ∀ fuel removed db', sweep fuel db = some (.ok removed, db') → removed = (rows db \ rows db').card

variable {α : Type} {p : Uuid → α → Bool} {suppressed : Uuid → Bool} {t t₀ : Table Uuid α}

theorem swept_gone (hswept : Swept p suppressed t₀ t) :
    t₀.keys.toFinset \ t.keys.toFinset = ids p t₀ \ ids p t := by
  ext id
  simp only [Finset.mem_sdiff, mem_keys_toFinset, mem_ids]
  constructor
  · intro hgone
    obtain ⟨⟨a, hrow⟩, hnone⟩ := hgone
    refine ⟨⟨a, hrow, ?_⟩, fun hstill => hnone ⟨hstill.choose, hstill.choose_spec.1⟩⟩
    by_contra hp
    exact hnone ⟨a, hswept.stays id a hrow fun hp' => absurd hp' hp⟩
  · intro hgone
    obtain ⟨⟨a, hrow, hp⟩, hnone⟩ := hgone
    refine ⟨⟨a, hrow⟩, fun hstill => ?_⟩
    obtain ⟨a', hrow'⟩ := hstill
    obtain rfl : a' = a := Option.some.inj ((hswept.old id a' hrow').symm.trans hrow)
    exact hnone ⟨a', hrow', hp⟩

theorem sweepsTruly_iff (purge : Purge) {table : PurgeDb → Table Uuid α} {claim : Nat → PurgeDb → List Uuid}
    {delete : PurgeDb → List Uuid → PurgeDb} {batch : Nat} {le : Nat → Uuid → Uuid → Prop}
    {kept : Finset Uuid} {db : PurgeDb}
    (hs : Sweeping claim delete batch le kept (fun db => ids p (table db))
      fun db' => Swept p suppressed (table db) (table db')) :
    SweepsTruly (fun db => (table db).keys.toFinset)
        (fun fuel db => (loop claim delete batch fuel 0 db 0 none).map
          fun ended => (purge.result ended.1, ended.2)) db ↔
      Truthful claim delete batch (fun db => ids p (table db)) db := by
  have hgone {fuel : Nat} {outcome : Outcome} {db' : PurgeDb}
      (hloop : loop claim delete batch fuel 0 db 0 none = some (outcome, db')) :
      (table db).keys.toFinset \ (table db').keys.toFinset = ids p (table db) \ ids p (table db') :=
    swept_gone (hs.loop_inv (Swept.refl p suppressed (table db)) hloop)
  constructor
  · intro htruly
    obtain ⟨fuel, result, hloop⟩ := htruly.ends
    obtain ⟨ended, hended, -⟩ := Option.map_eq_some_iff.1 hloop
    refine ⟨⟨fuel, ended, hended⟩, fun fuel removed db' hloop => ?_⟩
    rw [← hgone hloop]
    exact htruly.counts fuel removed db' (by rw [hloop]; rfl)
  · intro htruthful
    obtain ⟨⟨fuel, result, hloop⟩, hcounts⟩ := htruthful
    refine ⟨⟨fuel, _, by rw [hloop]; rfl⟩, fun fuel removed db' hloop => ?_⟩
    obtain ⟨⟨outcome, db₁⟩, hended, heq⟩ := Option.map_eq_some_iff.1 hloop
    obtain ⟨hresult, rfl⟩ := Prod.mk.inj heq
    rw [hgone hended]
    cases outcome with
    | finished count =>
        obtain rfl : count = removed := by simpa [Purge.result] using hresult
        exact hcounts fuel count db₁ hended
    | stalled count => simp [Purge.result] at hresult

/-! ### The audit log -/

def auditTime (auditLog : Table Uuid AuditRow) (id : Uuid) : Int := (auditLog.lookup id).elim 0 AuditRow.createdAt

def expired (horizon : Int) (_ : Uuid) (row : AuditRow) : Bool := row.createdAt < horizon

theorem firstBy_claimPurgeBatchBy {db : PurgeDb} {auditLog : Table Uuid AuditRow} {horizon : Int}
    (hswept : Swept (expired horizon) suppressed auditLog db.auditLog) (rank : Uuid → Nat) (batch : Nat) :
    FirstBy (ByKey (auditTime auditLog) rank) (ids (expired horizon) db.auditLog) batch
      (claimPurgeBatchBy rank db horizon batch) := by
  have htotal : Std.Total fun a b : Uuid × AuditRow => a.2.createdAt < b.2.createdAt ∨
      a.2.createdAt = b.2.createdAt ∧ rank a.1 ≤ rank b.1 := ⟨fun a b => by omega⟩
  have htrans : IsTrans (Uuid × AuditRow) fun a b => a.2.createdAt < b.2.createdAt ∨
      a.2.createdAt = b.2.createdAt ∧ rank a.1 ≤ rank b.1 := ⟨fun a b c => by omega⟩
  have htime (a : Uuid × AuditRow) (ha : a ∈ Table.rows (expired horizon) db.auditLog) :
      auditTime auditLog a.1 = a.2.createdAt := by
    have hrow := hswept.old a.1 a.2 (Table.mem_rows.1 ha).1
    simp [auditTime, hrow]
  refine firstBy_take (fun a ha b hb hab => ?_) (nodup_rows (expired horizon) db.auditLog) batch
  rw [ByKey, htime a ha, htime b hb]
  exact hab

theorem sweeping_auditLog (settings : PurgeSettings) (ranks : Nat → Uuid → Nat) (suppressed : Uuid → Bool)
    (horizon : Int) {batch : Nat} (hbatch : 0 < batch) (db : PurgeDb) :
    Sweeping (fun n db => claimPurgeBatchBy (ranks n) db horizon batch)
      (fun db rows => (purgeExpiredAuditRows settings).delete db fun id => rows.contains id && !suppressed id)
      batch (fun n => ByKey (auditTime db.auditLog) (ranks n))
      (ids (fun id row => expired horizon id row && suppressed id) db.auditLog)
      (fun db => ids (expired horizon) db.auditLog)
      (fun db' => Swept (expired horizon) suppressed db.auditLog db'.auditLog) :=
  sweeping_table hbatch (fun n _ hswept => firstBy_claimPurgeBatchBy hswept (ranks n) batch) fun _ _ => rfl

/-- The ranks by identifier, in one direction and in the other by turns. -/
def alternating (n : Nat) (id : Uuid) : Nat := if n % 2 = 0 then id.value else 2 ^ 128 - id.value

theorem alternating_opposite (n : Nat) (a b : Uuid) (hle : alternating (n + 1) a ≤ alternating (n + 1) b) :
    alternating n b ≤ alternating n a := by
  have ha := a.value_lt
  have hb := b.value_lt
  simp only [alternating] at hle ⊢
  rcases Nat.mod_two_eq_zero_or_one n with heven | hodd
  · rw [if_neg (by omega), if_neg (by omega)] at hle
    rw [if_pos heven, if_pos heven]
    omega
  · rw [if_pos (by omega), if_pos (by omega)] at hle
    rw [if_neg (by omega), if_neg (by omega)]
    omega

theorem value_injective : Function.Injective Uuid.value := by
  intro a b hvalue
  cases a
  cases b
  congr

theorem alternating_injective (n : Nat) : Function.Injective (alternating n) := by
  intro a b hrank
  have ha := a.value_lt
  have hb := b.value_lt
  apply value_injective
  simp only [alternating] at hrank
  split at hrank <;> omega

theorem ids_eq_empty : ids p t = ∅ ↔ ∀ id a, t.lookup id = some a → p id a = false := by
  simp only [Finset.eq_empty_iff_forall_notMem, mem_ids, not_exists, not_and, Bool.not_eq_true]

theorem card_upTo (auditLog : Table Uuid AuditRow) (suppressed : Uuid → Bool) (horizon time : Int) :
    ((ids (fun id row => expired horizon id row && suppressed id) auditLog).filter
        (auditTime auditLog · ≤ time)).card =
      (auditLog.rows fun id row => expired horizon id row && suppressed id && row.createdAt ≤ time).length := by
  rw [← card_ids]
  congr 1
  ext id
  simp only [Finset.mem_filter, mem_ids, Bool.and_eq_true, decide_eq_true_eq]
  constructor
  · intro hid
    obtain ⟨⟨row, hrow, hp⟩, htime⟩ := hid
    refine ⟨row, hrow, hp, ?_⟩
    simpa [auditTime, hrow] using htime
  · intro hid
    obtain ⟨row, hrow, hp, htime⟩ := hid
    refine ⟨⟨row, hrow, hp⟩, ?_⟩
    simpa [auditTime, hrow] using htime

/-- In every order of the rows that tie, the sweep of the audit log ends and counts truthfully exactly when no
deletion is suppressed, or just a batch of suppressed rows was recorded up to some time. -/
theorem sweepExpiredRows_truly_iff (settings : PurgeSettings) (db : PurgeDb) (suppressed : Uuid → Bool)
    (horizon : Int) {batch : Nat} (hbatch : 0 < batch) :
    (∀ ranks, SweepsTruly (fun db => db.auditLog.keys.toFinset)
        (sweepExpiredRows settings ranks suppressed horizon batch) db) ↔
      (∀ id row, db.auditLog.lookup id = some row → row.createdAt < horizon → suppressed id = false) ∨
        ∃ time, (db.auditLog.rows fun id row =>
          expired horizon id row && suppressed id && row.createdAt ≤ time).length = batch := by
  have hsweeping ranks := sweeping_auditLog settings ranks suppressed horizon hbatch db
  have hswept : Swept (expired horizon) suppressed db.auditLog db.auditLog := Swept.refl _ _ _
  have hnone : ids (fun id row => expired horizon id row && suppressed id) db.auditLog = ∅ ↔
      ∀ id row, db.auditLog.lookup id = some row → row.createdAt < horizon → suppressed id = false := by
    simp [ids_eq_empty, expired]
  have htruly ranks := sweepsTruly_iff (purgeExpiredAuditRows settings) (hsweeping ranks)
  rw [← hnone]
  simp only [← card_upTo]
  constructor
  · intro hall
    by_contra! hbad
    obtain ⟨hsome, hgap⟩ := hbad
    by_cases hmany : batch ≤ (ids (fun id row => expired horizon id row && suppressed id) db.auditLog).card
    · obtain ⟨⟨fuel, result, hends⟩, -⟩ := (htruly alternating).1 (hall alternating)
      rw [(hsweeping alternating).never_of_gap hswept hmany hgap alternating_opposite alternating_injective]
        at hends
      simp at hends
    · exact (hsweeping alternating).not_truthful_of_few hswept hsome (by omega)
        ((htruly alternating).1 (hall alternating))
  · intro hgood ranks
    apply (htruly ranks).2
    rcases hgood with hnothing | ⟨time, htime⟩
    · exact (hsweeping ranks).truthful_of_none hswept hnothing
    · exact (hsweeping ranks).truthful_of_upTo hswept htime

/-! ### The API keys -/

def dead (horizon : Int) (_ : Uuid) (key : StoredApiKey) : Bool := deadKeyPredicate horizon key

theorem firstBy_claimDeadKeys (db : PurgeDb) (horizon : Int) (batch : Nat) :
    FirstBy (ByKey Uuid.value fun _ => 0) (ids (dead horizon) db.apiKeys) batch
      (claimDeadKeys db horizon batch fun _ => false) := by
  have htotal : Std.Total fun a b : Uuid × StoredApiKey => a.1.value ≤ b.1.value :=
    ⟨fun a b => by omega⟩
  have htrans : IsTrans (Uuid × StoredApiKey) fun a b => a.1.value ≤ b.1.value := ⟨fun a b c => by omega⟩
  have hrows : (db.apiKeys.rows fun _ key => deadKeyPredicate horizon key && !false) =
      Table.rows (dead horizon) db.apiKeys := by
    simp only [Bool.not_false, Bool.and_true]
    rfl
  rw [claimDeadKeys, hrows]
  refine firstBy_take (fun a ha b hb hab => ?_) (nodup_rows (dead horizon) db.apiKeys) batch
  rw [ByKey]
  omega

theorem sweeping_apiKeys (settings : PurgeSettings) (suppressed : Uuid → Bool) (horizon : Int) {batch : Nat}
    (hbatch : 0 < batch) (db : PurgeDb) :
    Sweeping (fun _ db => claimDeadKeys db horizon batch fun _ => false)
      (fun db rows => (purgeDeadApiKeys settings).delete db fun id => rows.contains id && !suppressed id)
      batch (fun _ => ByKey Uuid.value fun _ => 0)
      (ids (fun id key => dead horizon id key && suppressed id) db.apiKeys)
      (fun db => ids (dead horizon) db.apiKeys)
      (fun db' => Swept (dead horizon) suppressed db.apiKeys db'.apiKeys) :=
  sweeping_table hbatch (fun _ db _ => firstBy_claimDeadKeys db horizon batch) fun _ _ => rfl

/-- The sweep of the API keys ends, and it counts truthfully exactly when no deletion is suppressed, or at
least a batch of them is. -/
theorem sweepDeadKeys_truly_iff (settings : PurgeSettings) (db : PurgeDb) (suppressed : Uuid → Bool)
    (horizon : Int) {batch : Nat} (hbatch : 0 < batch) :
    SweepsTruly (fun db => db.apiKeys.keys.toFinset) (sweepDeadKeys settings suppressed horizon batch) db ↔
      (∀ id key, db.apiKeys.lookup id = some key → deadKeyPredicate horizon key = true →
          suppressed id = false) ∨
        batch ≤ (db.apiKeys.rows fun id key => deadKeyPredicate horizon key && suppressed id).length := by
  have hsweeping := sweeping_apiKeys settings suppressed horizon hbatch db
  have hswept : Swept (dead horizon) suppressed db.apiKeys db.apiKeys := Swept.refl _ _ _
  have hnone : ids (fun id key => dead horizon id key && suppressed id) db.apiKeys = ∅ ↔
      ∀ id key, db.apiKeys.lookup id = some key → deadKeyPredicate horizon key = true →
        suppressed id = false := by
    simp [ids_eq_empty, dead]
  have hcard : (ids (fun id key => dead horizon id key && suppressed id) db.apiKeys).card =
      (db.apiKeys.rows fun id key => deadKeyPredicate horizon key && suppressed id).length :=
    card_ids _ _
  rw [← hnone, ← hcard]
  refine (sweepsTruly_iff (purgeDeadApiKeys settings) hsweeping).trans ⟨fun htruthful => ?_, ?_⟩
  · by_contra! hbad
    exact hsweeping.not_truthful_of_few hswept hbad.1 hbad.2 htruthful
  · intro hgood
    rcases hgood with hnothing | hmany
    · exact hsweeping.truthful_of_none hswept hnothing
    · obtain ⟨value, hvalue⟩ := exists_upTo value_injective hbatch hmany
      exact hsweeping.truthful_of_upTo hswept hvalue

/-- A sweep ends and counts what it removes, for whatever rows are suppressed and however ties are ordered,
exactly when no deletion is suppressed or the suppressed rows stall it: of the API keys, a batch of them; of
the audit log, a batch of them up to some time. -/
theorem sweeps_truly_iff (settings : PurgeSettings) (db : PurgeDb) (suppressed : Uuid → Bool) (horizon : Int)
    {batch : Nat} (hbatch : 0 < batch) :
    ((∀ ranks, SweepsTruly (fun db => db.auditLog.keys.toFinset)
          (sweepExpiredRows settings ranks suppressed horizon batch) db) ↔
        (∀ id row, db.auditLog.lookup id = some row → row.createdAt < horizon → suppressed id = false) ∨
          ∃ time, (db.auditLog.rows fun id row =>
            expired horizon id row && suppressed id && row.createdAt ≤ time).length = batch) ∧
      (SweepsTruly (fun db => db.apiKeys.keys.toFinset) (sweepDeadKeys settings suppressed horizon batch) db ↔
        (∀ id key, db.apiKeys.lookup id = some key → deadKeyPredicate horizon key = true →
            suppressed id = false) ∨
          batch ≤ (db.apiKeys.rows fun id key => deadKeyPredicate horizon key && suppressed id).length) :=
  ⟨sweepExpiredRows_truly_iff settings db suppressed horizon hbatch,
    sweepDeadKeys_truly_iff settings db suppressed horizon hbatch⟩

/-- Two rows of the audit log, recorded at the same time. -/
def tiedAuditLog : PurgeDb where
  auditLog := (AList.insert ⟨21, by decide⟩ ⟨0, 7, .superadmin, .edit, "auth_user", "1", none⟩ ∅).insert
    ⟨22, by decide⟩ ⟨0, 7, .superadmin, .edit, "auth_user", "2", none⟩

theorem sweeps_truly_iff_tied :
    ((∀ ranks, SweepsTruly (fun db => db.auditLog.keys.toFinset)
          (sweepExpiredRows {} ranks (fun _ => true) 10 3) tiedAuditLog) ↔
        (∀ id row, tiedAuditLog.auditLog.lookup id = some row → row.createdAt < 10 → (fun _ => true) id = false) ∨
          ∃ time, (tiedAuditLog.auditLog.rows fun id row =>
            expired 10 id row && (fun _ => true) id && row.createdAt ≤ time).length = 3) ∧
      (SweepsTruly (fun db => db.apiKeys.keys.toFinset) (sweepDeadKeys {} (fun _ => true) 10 3) tiedAuditLog ↔
        (∀ id key, tiedAuditLog.apiKeys.lookup id = some key → deadKeyPredicate 10 key = true →
            (fun _ => true) id = false) ∨
          3 ≤ (tiedAuditLog.apiKeys.rows fun id key => deadKeyPredicate 10 key && (fun _ => true) id).length) :=
  sweeps_truly_iff {} tiedAuditLog (fun _ => true) 10 (by decide)

/-- The deletion of both rows is suppressed. In batches of three, the sweep counts both as removed; in batches
of one, it never ends when the rows come in one order and in the other by turns. -/
theorem suppressed_rows_miscounted :
    (∃ db', sweepExpiredRows {} (fun _ _ => 0) (fun _ => true) 10 3 1 tiedAuditLog = some (.ok 2, db') ∧
        db'.auditLog.keys = tiedAuditLog.auditLog.keys) ∧
      ∃ ranks, ∀ fuel, sweepExpiredRows {} ranks (fun _ => true) 10 1 fuel tiedAuditLog = none := by
  constructor
  · have hswept : (sweepExpiredRows {} (fun _ _ => 0) (fun _ => true) 10 3 1 tiedAuditLog).map
        (fun ended => (ended.1.toOption, ended.2.auditLog.keys)) = some (some 2, tiedAuditLog.auditLog.keys) := by
      decide +kernel
    obtain ⟨⟨result, db'⟩, hsweep, heq⟩ := Option.map_eq_some_iff.1 hswept
    obtain ⟨hresult, hkeys⟩ := Prod.mk.inj heq
    cases result with
    | error e => simp [Except.toOption] at hresult
    | ok removed =>
        obtain rfl : removed = 2 := by simpa [Except.toOption] using hresult
        exact ⟨db', hsweep, hkeys⟩
  · refine ⟨alternating, fun fuel => ?_⟩
    have hsweeping := sweeping_auditLog {} alternating (fun _ => true) 10 Nat.one_pos tiedAuditLog
    have hgap (time : Int) : ((ids (fun id row => expired 10 id row && (fun _ => true) id)
        tiedAuditLog.auditLog).filter (auditTime tiedAuditLog.auditLog · ≤ time)).card ≠ 1 := by
      rw [card_upTo]
      by_cases htime : 0 ≤ time <;> simp [Table.rows, tiedAuditLog, expired, htime]
    have hmany : 1 ≤ (ids (fun id row => expired 10 id row && (fun _ => true) id) tiedAuditLog.auditLog).card := by
      decide +kernel
    rw [sweepExpiredRows, hsweeping.never_of_gap (Swept.refl _ _ _) hmany hgap alternating_opposite
      alternating_injective]
    rfl

end FaAuthM8

import FaAuthM8.Proof.Sweeps

/-!
# The purge of the dead keys

A key is dead when it was revoked, and last updated, before the horizon, or when it expired before it. A purge
removes these keys with what is bound to them, and nothing else; none of them can be used any more, since a
revoked key never is and the horizon is not after the present.
-/

namespace FaAuthM8

open BatchSweep

/-- Revoked and last updated before the horizon, or expired before it. -/
def Dead (horizon : Int) (key : StoredApiKey) : Prop :=
  key.revoked = true ∧ key.updatedAt < horizon ∨ ∃ expiresAt, key.expiresAt = some expiresAt ∧ expiresAt < horizon

/-- The state after a purge that has removed the dead keys, and the number it reports. -/
structure PurgesDead (settings : PurgeSettings) (r : PurgeRequest) (clock : Int) (id : Uuid)
    (db db' : KeyPurgeDb) (removed : Nat) (horizon : Int) : Prop where
  removes : ∀ k key, db.apiKeys.lookup k = some key → (db'.apiKeys.lookup k = none ↔ Dead horizon key)
  keeps : ∀ k key, db'.apiKeys.lookup k = some key → db.apiKeys.lookup k = some key
  /-- The limits that are gone are those bound to a removed key, and the others keep their order. -/
  rateLimits : db'.rateLimits = db.rateLimits.filter fun row =>
    !row.apiKeyId.any fun k => (db.apiKeys.lookup k).isSome && (db'.apiKeys.lookup k).isNone
  adds : db.auditLog.lookup id = none ∧ db'.auditLog.lookup id =
    some (PurgeRequest.maintenanceRow { r with target := .apiKeys } settings removed clock)
  auditLog : ∀ other, other ≠ id → db'.auditLog.lookup other = db.auditLog.lookup other
  counts : removed = (db.apiKeys.keys.toFinset \ db'.apiKeys.keys.toFinset).card

theorem deadKeyPredicate_iff {horizon : Int} {key : StoredApiKey} :
    deadKeyPredicate horizon key = true ↔ Dead horizon key := by
  simp only [deadKeyPredicate, Dead, Bool.or_eq_true, Bool.and_eq_true, decide_eq_true_eq, Option.any_eq_true]

theorem not_dead_of_active {settings : ApiKeySettings} {db : ApiKeyDb} {time : Datetime} {plaintext : String}
    {k : Uuid} {key : StoredApiKey} {horizon : Int} (hhorizon : horizon ≤ time.timestamp)
    (hactive : ApiKeyService.getActiveKey settings db time plaintext = some (k, key.toApiKey)) :
    ¬ Dead horizon key := by
  rw [ApiKeyService.getActiveKey] at hactive
  split at hactive
  · simp at hactive
  · next found row hfound =>
      split at hactive
      · simp at hactive
      · next hrevoked =>
          split at hactive
          · simp at hactive
          · next hexpired =>
              obtain ⟨-, rfl⟩ := Prod.mk.inj (Option.some.inj hactive)
              intro hdead
              obtain ⟨hrevoked', -⟩ | ⟨expiresAt, hexpires, hbefore⟩ := hdead
              · exact hrevoked hrevoked'
              · rw [hexpires] at hexpired
                simp only [Option.any_some, decide_eq_true_eq] at hexpired
                omega

variable {settings : PurgeSettings} {horizon : Int} {batch : Nat} {db₀ : KeyPurgeDb}

def RestSwept (db₀ db : KeyPurgeDb) : Prop :=
  db.auditLog = db₀.auditLog ∧ db.rateLimits = db₀.rateLimits.filter fun row =>
    !row.apiKeyId.any fun k => (db₀.apiKeys.lookup k).isSome && (db.apiKeys.lookup k).isNone

theorem sweeping_deadKeys (settings : PurgeSettings) (horizon : Int) (hbatch : 0 < batch) (db₀ : KeyPurgeDb) :
    Sweeping (fun _ (db : KeyPurgeDb) => claimDeadKeys db.toPurgeDb horizon batch fun _ => false)
      (fun db rows => db.deleteKeys settings fun id => rows.contains id) batch
      (fun _ => ByKey Uuid.value fun _ => 0) ∅ (fun db => ids (dead horizon) db.apiKeys)
      (fun db => Swept (dead horizon) (fun _ => false) db₀.apiKeys db.apiKeys ∧ RestSwept db₀ db) := by
  have hkept : ids (fun id key => dead horizon id key && (fun _ => false) id) db₀.apiKeys = ∅ := by
    simp [ids_eq_empty]
  have hsweeping : Sweeping (fun _ (db : KeyPurgeDb) => claimDeadKeys db.toPurgeDb horizon batch fun _ => false)
      (fun db rows => db.deleteKeys settings fun id => rows.contains id) batch
      (fun _ => ByKey Uuid.value fun _ => 0) ∅ (fun db => ids (dead horizon) db.apiKeys)
      fun db => Swept (dead horizon) (fun _ => false) db₀.apiKeys db.apiKeys := by
    rw [← hkept]
    refine sweeping_table hbatch (fun _ db _ => firstBy_claimDeadKeys db.toPurgeDb horizon batch) fun db rows => ?_
    simp only [KeyPurgeDb.deleteKeys, purgeDeadApiKeys, Bool.not_false, Bool.and_true]
  refine hsweeping.strengthen fun n db hswept hrest => ?_
  obtain ⟨haudit, hlimits⟩ := hrest
  refine ⟨haudit, ?_⟩
  show db.rateLimits.filter _ = _
  rw [hlimits, List.filter_filter]
  apply List.filter_congr
  intro row _
  cases hkey : row.apiKeyId with
  | none => simp
  | some k =>
      -- A key of the batch was stored at first.
      have hstored (hclaimed : k ∈ claimDeadKeys db.toPurgeDb horizon batch fun _ => false) :
          (db₀.apiKeys.lookup k).isSome = true := by
        obtain ⟨key, hrow, -⟩ := mem_ids.1
          ((hsweeping.claims n db hswept).subset (List.mem_toFinset.2 hclaimed))
        rw [hswept.old k key hrow]
        rfl
      by_cases hclaimed : k ∈ claimDeadKeys db.toPurgeDb horizon batch fun _ => false
      · simp [KeyPurgeDb.deleteKeys, purgeDeadApiKeys, hclaimed, hstored hclaimed]
      · simp [KeyPurgeDb.deleteKeys, purgeDeadApiKeys, hclaimed]

theorem RestSwept.refl (db : KeyPurgeDb) : RestSwept db db := by
  refine ⟨rfl, ?_⟩
  rw [eq_comm, List.filter_eq_self]
  intro row _
  cases row.apiKeyId with
  | none => rfl
  | some k => cases hrow : db.apiKeys.lookup k <;> simp [hrow]

theorem batch_pos (r : PurgeRequest) (hbatch : 0 < settings.apiKeyPurgeBatchSize) :
    0 < PurgeRequest.batch { r with target := .apiKeys } settings := by
  simp only [PurgeRequest.batch]
  split
  · exact hbatch
  · exact hbatch
  · next size hzero _ => exact Nat.pos_of_ne_zero hzero

theorem deadKeys_swept {fuel : Nat} {outcome : Outcome} {db db' : KeyPurgeDb} (hbatch : 0 < batch)
    (hloop : loop (fun _ (db : KeyPurgeDb) => claimDeadKeys db.toPurgeDb horizon batch fun _ => false)
      (fun db rows => db.deleteKeys settings fun id => rows.contains id) batch fuel 0 db 0 none =
        some (outcome, db')) :
    outcome = .finished (db.apiKeys.keys.toFinset \ db'.apiKeys.keys.toFinset).card ∧
      ids (dead horizon) db'.apiKeys = ∅ ∧
      Swept (dead horizon) (fun _ => false) db.apiKeys db'.apiKeys ∧ RestSwept db db' := by
  have hs := sweeping_deadKeys settings horizon hbatch db
  have hinv := And.intro (Swept.refl (dead horizon) (fun _ => false) db.apiKeys) (RestSwept.refl db)
  obtain ⟨hswept, hrest⟩ := hs.loop_inv hinv hloop
  cases outcome with
  | stalled count =>
      have hfirst (p : Finset Uuid) (hp : none = some p) :
          p.card = batch ∧ p ∩ ids (dead horizon) db.apiKeys ⊆ ∅ := by
        simp at hp
      have hmany := hs.loop_stalled hinv hfirst hloop
      rw [Finset.card_empty] at hmany
      omega
  | finished count =>
      obtain ⟨hend, -, -, hcount⟩ := hs.loop_finished hinv hloop
      refine ⟨?_, hend, hswept, hrest⟩
      rw [swept_gone hswept, hend, Finset.sdiff_empty, hcount rfl, Nat.zero_add]

/-- A purge with a window above the floor ends, having removed exactly the dead keys with what is bound to
them and recorded itself, and no key that can be used now or later; one with a window below it changes
nothing. -/
theorem purgeDeadApiKeys_exact (settings : PurgeSettings) (hbatch : 0 < settings.apiKeyPurgeBatchSize)
    (r : PurgeRequest) (db : KeyPurgeDb) (clock : Int) (id : Uuid) (hid : db.auditLog.lookup id = none) :
    (settings.apiKeyPurgeMinRetentionSeconds ≤ r.window.seconds →
        (∃ fuel ended, r.purgeDeadApiKeys settings clock id fuel db = some ended) ∧
        ∀ fuel result db', r.purgeDeadApiKeys settings clock id fuel db = some (result, db') →
          (∃ removed, result = .ok removed ∧ PurgesDead settings r clock id db db' removed
            (r.now.getD clock - r.window.seconds * second)) ∧
          ∀ k key, db.apiKeys.lookup k = some key →
            (∃ (apiKeySettings : ApiKeySettings) (found : ApiKeyDb) (time : Datetime) (plaintext : String),
              r.now.getD clock ≤ time.timestamp ∧
              ApiKeyService.getActiveKey apiKeySettings found time plaintext = some (k, key.toApiKey)) →
            db'.apiKeys.lookup k = some key) ∧
      (r.window.seconds < settings.apiKeyPurgeMinRetentionSeconds → ∀ fuel,
        r.purgeDeadApiKeys settings clock id fuel db =
          some (.error (.retentionFloor r.window settings.apiKeyPurgeMinRetentionSeconds), db)) := by
  have hsize := batch_pos r hbatch
  constructor
  · intro hfloor
    constructor
    · have hs := sweeping_deadKeys settings (r.now.getD clock - r.window.seconds * second) hsize db
      obtain ⟨⟨fuel, ended, hloop⟩, -⟩ :=
        hs.truthful_of_none ⟨Swept.refl _ _ _, RestSwept.refl db⟩ rfl
      refine ⟨fuel, ?_⟩
      simp only [PurgeRequest.purgeDeadApiKeys, if_neg (Nat.not_lt.2 hfloor), hloop, Option.map_some]
      exact ⟨_, rfl⟩
    · intro fuel result db' hpurge
      simp only [PurgeRequest.purgeDeadApiKeys, if_neg (Nat.not_lt.2 hfloor)] at hpurge
      obtain ⟨⟨outcome, db₁⟩, hloop, heq⟩ := Option.map_eq_some_iff.1 hpurge
      obtain ⟨rfl, hnone, hswept, haudit, hlimits⟩ := deadKeys_swept hsize hloop
      obtain ⟨rfl, rfl⟩ := Prod.mk.inj heq
      have hstays (k : Uuid) (key : StoredApiKey) (hrow : db.apiKeys.lookup k = some key)
          (hdead : ¬ Dead (r.now.getD clock - r.window.seconds * second) key) :
          db₁.apiKeys.lookup k = some key :=
        hswept.stays k key hrow fun hp => absurd (deadKeyPredicate_iff.1 hp) hdead
      refine ⟨⟨_, rfl, ?_, hswept.old, hlimits, ⟨hid, AList.lookup_insert _⟩, ?_, rfl⟩, ?_⟩
      · intro k key hrow
        exact (hswept.removed_iff hnone hrow).trans deadKeyPredicate_iff
      · intro other hother
        show (AList.insert id _ db₁.auditLog).lookup other = _
        rw [AList.lookup_insert_ne hother, haudit]
      · intro k key hrow hactive
        obtain ⟨apiKeySettings, found, time, plaintext, htime, hactive⟩ := hactive
        have hwindow : 0 ≤ (r.window.seconds : Int) * second := Int.mul_nonneg (Int.natCast_nonneg _) (by decide)
        exact hstays k key hrow (not_dead_of_active (by omega) hactive)
  · intro hfloor fuel
    rw [PurgeRequest.purgeDeadApiKeys, if_pos hfloor]

/-- A revoked key, one that has expired, and one in use, each with a limit. -/
def keysToPurge : KeyPurgeDb where
  apiKeys := ((AList.insert ⟨31, by decide⟩ { keyHash := "a", userId := 7, revoked := true, updatedAt := 0 } ∅).insert
    ⟨32, by decide⟩ { keyHash := "b", userId := 7, expiresAt := some 1, updatedAt := 0 }).insert
    ⟨33, by decide⟩ { keyHash := "c", userId := 7, updatedAt := 0 }
  rateLimits := [{ apiKeyId := some ⟨31, by decide⟩, period := .minute, limit := 2 },
    { apiKeyId := some ⟨33, by decide⟩, period := .minute, limit := 2 }]

/-- A superadmin's purge of the keys that have been dead for a year, in batches of one. -/
def yearlyKeyPurge : PurgeRequest where
  target := .apiKeys
  window := .oneYear
  actorUserId := 7
  actorRole := .superadmin
  batchSize := some 1

theorem purgeDeadApiKeys_exact_year :
    (({} : PurgeSettings).apiKeyPurgeMinRetentionSeconds ≤ yearlyKeyPurge.window.seconds →
        (∃ fuel ended, yearlyKeyPurge.purgeDeadApiKeys {} (400 * 86400 * second) ⟨39, by decide⟩ fuel keysToPurge =
          some ended) ∧
        ∀ fuel result db', yearlyKeyPurge.purgeDeadApiKeys {} (400 * 86400 * second) ⟨39, by decide⟩ fuel
            keysToPurge = some (result, db') →
          (∃ removed, result = .ok removed ∧ PurgesDead {} yearlyKeyPurge (400 * 86400 * second) ⟨39, by decide⟩
            keysToPurge db' removed
            (yearlyKeyPurge.now.getD (400 * 86400 * second) - yearlyKeyPurge.window.seconds * second)) ∧
          ∀ k key, keysToPurge.apiKeys.lookup k = some key →
            (∃ (apiKeySettings : ApiKeySettings) (found : ApiKeyDb) (time : Datetime) (plaintext : String),
              yearlyKeyPurge.now.getD (400 * 86400 * second) ≤ time.timestamp ∧
              ApiKeyService.getActiveKey apiKeySettings found time plaintext = some (k, key.toApiKey)) →
            db'.apiKeys.lookup k = some key) ∧
      (yearlyKeyPurge.window.seconds < ({} : PurgeSettings).apiKeyPurgeMinRetentionSeconds → ∀ fuel,
        yearlyKeyPurge.purgeDeadApiKeys {} (400 * 86400 * second) ⟨39, by decide⟩ fuel keysToPurge =
          some (.error (.retentionFloor yearlyKeyPurge.window
            ({} : PurgeSettings).apiKeyPurgeMinRetentionSeconds), keysToPurge)) :=
  purgeDeadApiKeys_exact {} (by decide) yearlyKeyPurge keysToPurge (400 * 86400 * second) ⟨39, by decide⟩ rfl

end FaAuthM8

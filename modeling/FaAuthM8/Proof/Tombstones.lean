import FaAuthM8.Lib.Sweep
import FaAuthM8.Services.Tombstones

/-!
# Tombstones outlast what they deny

A tombstone was last written no earlier than it was first, and the retention is no shorter than the life of
any token. So when a cleanup removes one, every token that was issued before it was first written has expired.
-/

namespace FaAuthM8

open Interleaving (Config)

/-- No undelivered effect names the subject. -/
def Undisputed (db : Db) (uid : UserId) : Prop :=
  ∀ oid row, db.outbox.lookup oid = some row → row.userId = uid → row.status = .completed

/-- What a cleanup deletes, and the number it reports. -/
structure CleansUp (settings : TombstoneSettings) (w w' : TombstoneWorld) (reported : Reported) : Prop where
  deletes : ∀ uid tombstone, w.db.tombstones.lookup uid = some tombstone →
    (w'.db.tombstones.lookup uid = none ↔
      tombstoneRetentionSeconds settings * second ≤ w.now - tombstone.updatedAt ∧ Undisputed w.db uid)
  keeps : ∀ uid tombstone, w'.db.tombstones.lookup uid = some tombstone →
    w.db.tombstones.lookup uid = some tombstone
  reports : reported = some (w.db.tombstones.keys.toFinset \ w'.db.tombstones.keys.toFinset).card

/-- A tombstone that stays does not fall, and one that goes leaves nothing behind that it denied. -/
structure TombstonesHold (settings : TombstoneSettings) (w w' : TombstoneWorld) : Prop where
  grows : ∀ uid tombstone tombstone', w.db.tombstones.lookup uid = some tombstone →
    w'.db.tombstones.lookup uid = some tombstone' → tombstone.terminalGeneration ≤ tombstone'.terminalGeneration
  delivered : ∀ uid, (w.db.tombstones.lookup uid).isSome = true → w'.db.tombstones.lookup uid = none →
    Undisputed w.db uid
  expired : ∀ uid, (w.db.tombstones.lookup uid).isSome = true → w'.db.tombstones.lookup uid = none →
    ∀ issuedAt jti user pair, issuedAt ≤ w.firstWritten uid →
      createAuthTokens settings.toSettings issuedAt jti uid user = some pair →
      pair.access.isCurrent w.now = false ∧ pair.refresh.isCurrent w.now = false

/-- Every tombstone was first written before it was last written, and that is past. -/
def TombstoneWorld.Dated (w : TombstoneWorld) : Prop :=
  ∀ uid tombstone, w.db.tombstones.lookup uid = some tombstone →
    w.firstWritten uid ≤ tombstone.updatedAt ∧ tombstone.updatedAt ≤ w.now

variable {settings : TombstoneSettings} {w w' : TombstoneWorld} {reported reported' : Reported}
  {action : TombstoneAction}

theorem expired_of_retention {issuedAt now updatedAt : Int} {jti : Jti} {uid : UserId} {user : User}
    {pair : TokenPair} (hissued : issuedAt ≤ updatedAt)
    (hretained : tombstoneRetentionSeconds settings * second ≤ now - updatedAt)
    (hsigned : createAuthTokens settings.toSettings issuedAt jti uid user = some pair) :
    pair.access.isCurrent now = false ∧ pair.refresh.isCurrent now = false := by
  have haccess : settings.accessTokenExpireMinutes * 60 ≤ tombstoneRetentionSeconds settings := by
    simp only [tombstoneRetentionSeconds]
    omega
  have hrefresh : settings.refreshTokenExpireMinutes * 60 ≤ tombstoneRetentionSeconds settings := by
    simp only [tombstoneRetentionSeconds]
    omega
  simp only [createAuthTokens] at hsigned
  split at hsigned
  · obtain rfl := Option.some.inj hsigned
    have hend := truncateToSecond_le (issuedAt + settings.toSettings.accessTokenExpires)
    have hend' := truncateToSecond_le (issuedAt + settings.toSettings.refreshTokenExpires)
    simp only [Settings.accessTokenExpires, Settings.refreshTokenExpires, second] at hend hend' hretained
    simp only [AccessToken.isCurrent, RefreshToken.isCurrent, decide_eq_false_iff_not, not_lt]
    simp only [Settings.accessTokenExpires, Settings.refreshTokenExpires, second]
    constructor <;> omega
  · simp at hsigned

theorem cleansUp (hdb : w'.db = (cleanupExpiredTombstones settings w.db w.now).2)
    (hreported : reported = some (cleanupExpiredTombstones settings w.db w.now).1) :
    CleansUp settings w w' reported := by
  constructor
  · intro uid tombstone hrow
    rw [hdb, lookup_cleanup, hrow, Option.filter_some]
    rw [Undisputed, ← isExpiredTombstone_iff]
    cases isExpiredTombstone settings w.db w.now uid tombstone <;> simp
  · intro uid tombstone hrow
    rw [hdb, lookup_cleanup, Option.filter_eq_some_iff] at hrow
    exact hrow.1
  · rw [hreported, hdb]
    show some (Table.rows _ w.db.tombstones).length = _
    rw [← BatchSweep.card_ids, ← BatchSweep.keys_sdiff_filter]
    rfl

theorem TombstonesHold.of_stays
    (hstays : ∀ uid, (w.db.tombstones.lookup uid).isSome = true → (w'.db.tombstones.lookup uid).isSome = true)
    (hgrows : ∀ uid tombstone tombstone', w.db.tombstones.lookup uid = some tombstone →
      w'.db.tombstones.lookup uid = some tombstone' →
      tombstone.terminalGeneration ≤ tombstone'.terminalGeneration) : TombstonesHold settings w w' where
  grows := hgrows
  delivered uid hsome hnone := by simpa [hnone] using hstays uid hsome
  expired uid hsome hnone := by simpa [hnone] using hstays uid hsome

theorem TombstonesHold.of_eq (heq : w'.db.tombstones = w.db.tombstones) : TombstonesHold settings w w' := by
  refine .of_stays (fun uid hsome => by rw [heq, hsome]) fun uid tombstone tombstone' hrow hrow' => ?_
  rw [heq, hrow] at hrow'
  obtain rfl := Option.some.inj hrow'
  exact le_rfl

theorem CleansUp.hold (hcleans : CleansUp settings w w' reported) (hdated : w.Dated) :
    TombstonesHold settings w w' := by
  have hdeleted (uid : UserId) (hsome : (w.db.tombstones.lookup uid).isSome = true)
      (hnone : w'.db.tombstones.lookup uid = none) : ∃ tombstone, w.db.tombstones.lookup uid = some tombstone ∧
        tombstoneRetentionSeconds settings * second ≤ w.now - tombstone.updatedAt ∧ Undisputed w.db uid := by
    obtain ⟨tombstone, hrow⟩ := Option.isSome_iff_exists.1 hsome
    exact ⟨tombstone, hrow, (hcleans.deletes uid tombstone hrow).1 hnone⟩
  constructor
  · intro uid tombstone tombstone' hrow hrow'
    obtain rfl := Option.some.inj (hrow.symm.trans (hcleans.keeps uid tombstone' hrow'))
    exact le_rfl
  · intro uid hsome hnone
    obtain ⟨tombstone, -, -, hundisputed⟩ := hdeleted uid hsome hnone
    exact hundisputed
  · intro uid hsome hnone issuedAt jti user pair hissued hsigned
    obtain ⟨tombstone, hrow, hretained, -⟩ := hdeleted uid hsome hnone
    have hfirst := (hdated uid tombstone hrow).1
    exact expired_of_retention (hissued.trans hfirst) hretained hsigned

/-- A tombstone that was not there is first written now, and one that was is updated now. -/
theorem TombstoneWorld.Dated.write (hdated : w.Dated) {uid : UserId} (terminal : Nat) :
    TombstoneWorld.Dated { w with
      db := w.db.raiseTombstone uid terminal w.now
      firstWritten := if subjectIsTombstoned w.db uid then w.firstWritten
        else Function.update w.firstWritten uid w.now } := by
  intro other tombstone hrow
  obtain hsame | ⟨rfl, hupdated, -⟩ := lookup_raiseTombstone terminal tombstone hrow
  · obtain ⟨hfirst, hpast⟩ := hdated other tombstone hsame
    refine ⟨?_, hpast⟩
    show (if subjectIsTombstoned w.db uid then w.firstWritten else _) other ≤ _
    split
    · exact hfirst
    · next hnew =>
        have hother : other ≠ uid := by
          intro heq
          exact hnew (by rw [subjectIsTombstoned, ← heq, hsame]; rfl)
        rw [Function.update_of_ne hother]
        exact hfirst
  · rw [hupdated]
    refine ⟨?_, le_rfl⟩
    show (if subjectIsTombstoned w.db other then w.firstWritten else _) other ≤ _
    split
    · next hold =>
        obtain ⟨existing, hexisting⟩ := Option.isSome_iff_exists.1 hold
        obtain ⟨hfirst, hpast⟩ := hdated other existing hexisting
        exact hfirst.trans hpast
    · rw [Function.update_self]

theorem tombstoneStep_hold (hdated : w.Dated)
    (hstep : tombstoneStep settings w reported action = some (w', reported')) :
    (action = .cleanup → CleansUp settings w w' reported') ∧ TombstonesHold settings w w' ∧ w'.Dated := by
  cases action with
  | write uid user =>
      simp only [tombstoneStep] at hstep
      split at hstep
      · simp at hstep
      · next db hwrite =>
          obtain ⟨terminal, hterminal⟩ : ∃ terminal, db = w.db.raiseTombstone uid terminal w.now := by
            simp only [writeDeletionTombstone] at hwrite
            split at hwrite
            · simp at hwrite
            · exact ⟨_, (Except.ok.inj hwrite).symm⟩
          subst hterminal
          obtain ⟨rfl, -⟩ := Prod.mk.inj (Option.some.inj hstep)
          refine ⟨by simp, .of_stays (fun _ => raiseTombstone_isSome terminal) ?_, ?_⟩
          · intro uid' tombstone tombstone' hrow hrow'
            obtain hsame | ⟨rfl, -, hraised⟩ := lookup_raiseTombstone terminal tombstone' hrow'
            · obtain rfl := Option.some.inj (hrow.symm.trans hsame)
              exact le_rfl
            · exact hraised tombstone hrow
          · exact hdated.write terminal
  | cleanup =>
      obtain ⟨rfl, rfl⟩ := Prod.mk.inj (Option.some.inj hstep)
      have hcleans : CleansUp settings w { w with db := (cleanupExpiredTombstones settings w.db w.now).2 }
          (some (cleanupExpiredTombstones settings w.db w.now).1) := cleansUp rfl rfl
      exact ⟨fun _ => hcleans, hcleans.hold hdated, fun uid tombstone hrow =>
        hdated uid tombstone (hcleans.keeps uid tombstone hrow)⟩
  | outbox outbox =>
      obtain ⟨rfl, -⟩ := Prod.mk.inj (Option.some.inj hstep)
      exact ⟨by simp, .of_eq rfl, hdated⟩
  | tick now =>
      obtain ⟨hnow, heq⟩ := Option.ite_none_right_eq_some.1 hstep
      obtain ⟨rfl, -⟩ := Prod.mk.inj (Option.some.inj heq)
      refine ⟨by simp, .of_eq rfl, fun uid tombstone hrow => ?_⟩
      obtain ⟨hfirst, hpast⟩ := hdated uid tombstone hrow
      exact ⟨hfirst, hpast.trans hnow⟩

/-- In every run, each cleanup deletes exactly the tombstones past their retention that no undelivered effect
names, no tombstone falls, and none goes while a token from before it is current or an effect undelivered. -/
theorem tombstones_hold (settings : TombstoneSettings) {c : Config TombstoneWorld Reported}
    (hdated : c.shared.Dated) (schedule : List (Nat × TombstoneAction)) :
    (tombstones settings).Along
      (fun c move c' => (move.2 = .cleanup → CleansUp settings c.shared c'.shared (c'.locals move.1)) ∧
        TombstonesHold settings c.shared c'.shared) c schedule := by
  have hnext (c move c') (hdated : c.shared.Dated) (hnext : (tombstones settings).next c move = some c') :
      ((move.2 = .cleanup → CleansUp settings c.shared c'.shared (c'.locals move.1)) ∧
        TombstonesHold settings c.shared c'.shared) ∧ c'.shared.Dated := by
    obtain ⟨hcleans, hhold, hdated'⟩ := tombstoneStep_hold hdated (Interleaving.System.step_of_next hnext)
    exact ⟨⟨hcleans, hhold⟩, hdated'⟩
  exact Interleaving.System.along_of_invariant hnext schedule hdated

def noTombstones : Config TombstoneWorld Reported where
  shared := {}
  locals _ := none

/-- A user is deleted twice, and the tombstone cleaned up after two hours. -/
def deletedTwice : List (Nat × TombstoneAction) :=
  [(0, .write 7 { email := "a@b" }), (0, .tick (3600 * second)),
    (0, .write 7 { email := "a@b", authGeneration := 3 }), (1, .cleanup), (0, .tick (10800 * second)),
    (1, .cleanup)]

theorem tombstones_hold_deletedTwice :
    (tombstones {}).Along
      (fun c move c' => (move.2 = .cleanup → CleansUp {} c.shared c'.shared (c'.locals move.1)) ∧
        TombstonesHold {} c.shared c'.shared) noTombstones deletedTwice :=
  tombstones_hold {} (by intro uid tombstone hrow; simp [noTombstones] at hrow) deletedTwice

/-- The second cleanup removes what the second deletion wrote. -/
example : ((tombstones {}).run noTombstones deletedTwice).map
    (fun c => (c.locals 1, (c.shared.db.tombstones.lookup 7).isSome)) = some (some 1, false) := by
  decide +kernel

end FaAuthM8

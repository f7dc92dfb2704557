import FaAuthM8.Proof.Issuing

/-!
# The cutover

A session row without an authorization generation was written before generations were. Every row that is
saved now is stamped with one, also where only the changed columns are written back, so the old rows can only
become fewer. The sweep that deletes them locks those it has found until it commits; none is added meanwhile,
and none of the others is touched.
-/

namespace FaAuthM8

/-- The row was written before sessions carried a generation. -/
def LegacyRow (db : Db) (id : SessionId) : Prop :=
  ∃ row, db.sessions.lookup id = some row ∧ row.authGeneration = none

/-- A sweep that is about to commit deletes the rows without a generation, and holds their locks. -/
structure SweepHolds (p : Pid) (w : World) (doomed : List SessionId) : Prop where
  all : ∀ id, LegacyRow w.db id → id ∈ doomed
  locked : ∀ id ∈ doomed, w.locks.session id = some p
  known : ∀ id ∈ doomed, id < w.db.nextSessionId
  only : ∀ id ∈ doomed, ∀ row, w.db.sessions.lookup id = some row → row.authGeneration = none

/-- What is known of a process that sweeps. -/
def SweepTracked (p : Pid) (w : World) (l : Local) : Prop :=
  ∀ doomed, l = .legacySweep (.commit doomed) → SweepHolds p w doomed

section

variable {settings : Settings} {p q : Pid} {w w' : World} {l l' : Local} {a : Action}

theorem SavesRow.legacyRow {id : SessionId} {row : ClientSession} (hsaves : SavesRow p w id row l)
    (hnone : row.authGeneration = none) : LegacyRow w.db id := by
  cases hsaves with
  | inserted _ _ _ hrow =>
      subst hrow
      cases hnone
  | @restamped _ copy _ data loaded current _ _ hcurrent hrow =>
      subst hrow
      refine ⟨current, hcurrent, ?_⟩
      have hstamped : (if some copy.authGeneration = loaded.authGeneration then current.authGeneration
          else some copy.authGeneration) = none := hnone
      split at hstamped
      · exact hstamped
      · cases hstamped

theorem Step.legacyRow (hfresh : w.db.IdsFresh) (hstep : Step settings p w l a w' l') {id : SessionId}
    (hlegacy : LegacyRow w'.db id) : LegacyRow w.db id := by
  obtain ⟨row, hrow, hnone⟩ := hlegacy
  rcases hstep.row_origin hfresh hrow with hold | hsaves
  · exact ⟨row, hold, hnone⟩
  · exact hsaves.legacyRow hnone

theorem Step.sweepTracked (hfresh : w.db.IdsFresh) (hstep : Step settings p w l a w' l') :
    SweepTracked p w' l' := by
  intro doomed heq
  subst heq
  cases hstep.comes with
  | same hkind =>
      cases l with
      | legacySweep phase =>
          cases hstep with
          | legacySweep hsweep =>
              cases hsweep with
              | purge hfree =>
                  refine ⟨fun id hlegacy => ?_, fun id hmem => ?_, fun id hmem => ?_, fun id hmem row hrow => ?_⟩
                  · obtain ⟨row, hrow, hnone⟩ := hlegacy
                    exact mem_sessionIds.2 ⟨row, hrow, by simp [hnone]⟩
                  · show (if _ then some p else _) = some p
                    rw [if_pos (by simpa using hmem)]
                  · obtain ⟨row, hrow, -⟩ := mem_sessionIds.1 hmem
                    exact hfresh.sessions id row hrow
                  · obtain ⟨row', hrow', hnone⟩ := mem_sessionIds.1 hmem
                    obtain rfl := Option.some.inj (hrow.symm.trans hrow')
                    simpa using hnone
      | _ => cases hkind
  | begun _ _ _ hbegins => cases hbegins
  | ended hidle => cases hidle
  | reuse _ hto | followUp hto => cases hto

/-- While a sweep holds the locks, no other process stamps a row it deletes or adds one it would miss. -/
theorem Step.othersSweepTracked (hfresh : w.db.IdsFresh) (hstep : Step settings p w l a w' l') (hq : q ≠ p)
    {m : Local} (htracked : SweepTracked q w m) : SweepTracked q w' m := by
  intro doomed heq
  obtain ⟨hall, hlocked, hknown, honly⟩ := htracked doomed heq
  refine ⟨fun id hlegacy => hall id (hstep.legacyRow hfresh hlegacy), fun id hmem => ?_, fun id hmem => ?_,
    fun id hmem row hrow => ?_⟩
  · exact ((hstep.sameLocks hq).session id).2 (hlocked id hmem)
  · exact Nat.lt_of_lt_of_le (hknown id hmem) hstep.nextSessionId_le
  · rcases hstep.row_origin hfresh hrow with hold | hsaves
    · exact honly id hmem row hold
    · cases hsaves with
      | inserted _ _ hid =>
          have hlt := hknown id hmem
          rw [hid] at hlt
          exact absurd hlt (lt_irrefl _)
      | restamped _ hfree => exact absurd (free_iff.1 hfree q (hlocked id hmem)) hq

/-- What holds in every state of a run. -/
abbrev CutoverInv : Interleaving.Config World Local → Prop :=
  Interleaving.Asserted (fun w => w.db.IdsFresh) SweepTracked

theorem CutoverInv.next {c c' : Interleaving.Config World Local} {move : Pid × Action} (hinv : CutoverInv c)
    (hnext : (issuer settings).next c move = some c') : CutoverInv c' := by
  refine asserted_next hnext fun l' hstep => ⟨hstep.idsFresh hinv.shared, hstep.sweepTracked hinv.shared, ?_⟩
  intro q hq
  exact hstep.othersSweepTracked hinv.shared hq (hinv.locals q)

theorem no_legacyRow {c c' : Interleaving.Config World Local} {schedule : List (Pid × Action)}
    (hfresh : c.shared.db.IdsFresh) (hnone : ∀ id, ¬ LegacyRow c.shared.db id)
    (hrun : (issuer settings).run c schedule = some c') (id : SessionId) : ¬ LegacyRow c'.shared.db id := by
  have hkeeps : ∀ c move c', (c.shared.db.IdsFresh ∧ ∀ id, ¬ LegacyRow c.shared.db id) →
      (issuer settings).next c move = some c' →
      c'.shared.db.IdsFresh ∧ ∀ id, ¬ LegacyRow c'.shared.db id := by
    intro c move c' ⟨hfresh, hnone⟩ hnext
    have hstep : Step settings move.1 c.shared (c.locals move.1) move.2 c'.shared (c'.locals move.1) :=
      step_sound (Interleaving.System.step_of_next hnext)
    exact ⟨hstep.idsFresh hfresh, fun id hlegacy => hnone id (hstep.legacyRow hfresh hlegacy)⟩
  exact (Interleaving.System.run_keeps hkeeps ⟨hfresh, hnone⟩ hrun).2 id

/-- A sweep that commits, whatever runs beside it, deletes exactly the rows without a generation, and every
row of every later state has one. -/
theorem legacy_cutover (settings : Settings) {c₀ c c₁ c₂ : Interleaving.Config World Local}
    {before after : List (Pid × Action)} {p : Pid} {doomed : List SessionId}
    (hidle : ∀ p, c₀.locals p = .idle) (hfresh : c₀.shared.db.IdsFresh)
    (hbefore : (issuer settings).run c₀ before = some c)
    (hsweeps : c.locals p = .legacySweep (.commit doomed))
    (hcommits : (issuer settings).next c (p, .proceed) = some c₁)
    (hafter : (issuer settings).run c₁ after = some c₂) :
    (∀ id row, c₁.shared.db.sessions.lookup id = some row ↔
      c.shared.db.sessions.lookup id = some row ∧ row.authGeneration.isSome = true) ∧
    ∀ id row, c₂.shared.db.sessions.lookup id = some row → row.authGeneration.isSome = true := by
  have hstart : CutoverInv c₀ := by
    refine ⟨hfresh, fun p doomed heq => ?_⟩
    rw [hidle p] at heq
    cases heq
  have hinv : CutoverInv c := Interleaving.System.run_keeps (fun _ _ _ => CutoverInv.next) hstart hbefore
  have hinv₁ : CutoverInv c₁ := hinv.next hcommits
  obtain ⟨hall, -, -, honly⟩ := hinv.locals p doomed hsweeps
  have hexact (id : SessionId) (row : ClientSession) : c₁.shared.db.sessions.lookup id = some row ↔
      c.shared.db.sessions.lookup id = some row ∧ row.authGeneration.isSome = true := by
    have hdeleted : c₁.shared.db = c.shared.db.deleteSessions doomed := by
      have hstep := Interleaving.System.step_of_next hcommits
      dsimp only at hstep
      rw [hsweeps] at hstep
      exact (congrArg (·.1.db) (Option.some.inj hstep)).symm
    rw [hdeleted, Db.lookup_deleteSessions]
    refine and_congr_right fun hrow => ?_
    constructor
    · intro hkept
      by_contra hnone
      exact hkept (hall id ⟨row, hrow, by simpa using hnone⟩)
    · intro hsome hmem
      rw [honly id hmem row hrow] at hsome
      cases hsome
  have hnone₁ : ∀ id, ¬ LegacyRow c₁.shared.db id := by
    rintro id ⟨row, hrow, hnone⟩
    have hsome := ((hexact id row).1 hrow).2
    rw [hnone] at hsome
    cases hsome
  refine ⟨hexact, fun id row hrow => ?_⟩
  by_contra hnone
  exact no_legacyRow hinv₁.shared hnone₁ hafter id ⟨row, hrow, by simpa using hnone⟩

end

/-- The reader has a session from before the cutover and one with a generation. -/
def legacyReader : Interleaving.Config World Local where
  shared :=
    { oneReader.shared with
      db :=
        { oneReader.shared.db with
          sessions := AList.insert 1
            { userId := 1, provider := .password, jwtJti := 1, refreshTokenHash := ""
              jwtExpiresAt := 1800 * second, refreshExpiresAt := 7200 * second, authGeneration := some 1 }
            (AList.insert 0
              { userId := 1, provider := .password, jwtJti := 0, refreshTokenHash := ""
                jwtExpiresAt := 1800 * second, refreshExpiresAt := 7200 * second } ∅)
          nextSessionId := 2 }
      nextJti := 2 }
  locals _ := .idle

/-- A login has loaded the old session when the sweep locks it. -/
def loginThenSweep : List (Pid × Action) :=
  loginUntilLoad 0 ++ [(0, .select (some 0)), (1, .begin (.legacySweep .purge)), (1, .proceed)]

theorem legacy_cutover_loginThenSweep :
    ∃ c c₁ c₂, (issuer {}).run legacyReader loginThenSweep = some c ∧
      c.locals 1 = .legacySweep (.commit [0]) ∧ (issuer {}).next c (1, .proceed) = some c₁ ∧
      (issuer {}).run c₁ [(0, .proceed)] = some c₂ ∧
      (∀ id row, c₁.shared.db.sessions.lookup id = some row ↔
        c.shared.db.sessions.lookup id = some row ∧ row.authGeneration.isSome = true) ∧
      ∀ id row, c₂.shared.db.sessions.lookup id = some row → row.authGeneration.isSome = true := by
  have hruns : (((issuer {}).run legacyReader loginThenSweep).bind fun c =>
      ((issuer {}).next c (1, .proceed)).bind fun c₁ =>
        ((issuer {}).run c₁ [(0, .proceed)]).map fun c₂ =>
          (c.locals 1, c₂.shared.db.sessions.keys)) = some (.legacySweep (.commit [0]), [1]) := by
    decide +kernel
  obtain ⟨c, hbefore, hrest⟩ := Option.bind_eq_some_iff.1 hruns
  obtain ⟨c₁, hcommits, hrest⟩ := Option.bind_eq_some_iff.1 hrest
  obtain ⟨c₂, hafter, hends⟩ := Option.map_eq_some_iff.1 hrest
  have hsweeps : c.locals 1 = .legacySweep (.commit [0]) := congrArg Prod.fst hends
  have hfresh : legacyReader.shared.db.IdsFresh := .of_keys (by decide) (by decide) (by decide)
  obtain ⟨hexact, hlater⟩ := legacy_cutover {} (fun _ => rfl) hfresh hbefore hsweeps hcommits hafter
  exact ⟨c, c₁, c₂, hbefore, hsweeps, hcommits, hafter, hexact, hlater⟩

end FaAuthM8

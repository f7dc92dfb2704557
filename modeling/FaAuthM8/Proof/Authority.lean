import FaAuthM8.Proof.Generations

/-!
# Authority of active sessions

A session is active while its stamp is its owner's generation, and its token carries the claims of the copy
it was signed from. Both come from one read, so they agree as long as the row is stamped with the generation
of the copy. Saving over a loaded row writes only the columns that differ from the loaded values: when the
stamp does not differ it is left as it is in the database, where another issue may have changed it.
-/

namespace FaAuthM8

/-- The claims of the token behind every active identifier are those of the committed row of its owner. -/
def AuthorityCurrent (w : World) : Prop :=
  ∀ q token generation uid, .signed q token generation ∈ w.log →
    (decideJtiStatus w.db token.jti uid).active = true →
    ∃ owner, w.db.users.lookup uid = some owner ∧ token.role = owner.role ∧
      token.isSuperuser = owner.isSuperuser ∧ token.isActive = owner.isActive

/-- The step from `w` to `w'` writes the identifier of a pair signed from an older generation into a row
whose current stamp it does not write. -/
inductive MixedStamp (w w' : World) (l : Local) : Prop
  | restamped {uid : UserId} {copy owner : User} {pair : TokenPair} {data : ClientSessionCreate}
      {id : SessionId} {loaded current : ClientSession}
      (hlocal : l.Saves uid copy pair data (some (id, loaded)))
      (hcurrent : w.db.sessions.lookup id = some current) (howner : w.db.users.lookup uid = some owner)
      (hunwritten : loaded.authGeneration = some copy.authGeneration)
      (hchanged : current.authGeneration ≠ loaded.authGeneration)
      (hstamp : current.authGeneration = some owner.authGeneration)
      (hsaved : w'.db.sessions.lookup id
        = some ((restampSession loaded copy data).saveOver loaded current))

def Local.inTransition (uid : UserId) : Local → Prop
  | .update r _ => r.userId = uid
  | .repair r _ => r.userId = uid
  | _ => False

/-- A row of a user is reaped while a transition of that user is open. -/
def ReapsUnderTransition (c c' : Interleaving.Config World Local) : Prop :=
  ∃ id row q, c.shared.db.outbox.lookup id = some row ∧ c'.shared.db.outbox.lookup id = none ∧
    (c.locals q).inTransition row.userId

/-- Every signed token carries the claims of a copy its owner's row has been. -/
def ClaimsMatch (w : World) : Prop :=
  ∀ q token generation, .signed q token generation ∈ w.log →
    ∃ copy, CopyReached w token.sub copy ∧ copy.authGeneration = generation ∧
      token.role = copy.role ∧ token.isActive = copy.isActive ∧
      privilegeClaimsAreConsistent token.role token.isSuperuser = true

/-- A row stamped with its owner's generation carries the identifier of a token signed from it. -/
def RowsMatch (w : World) : Prop :=
  ∀ id row, w.db.sessions.lookup id = some row → ∀ q token generation,
    .signed q token generation ∈ w.log → token.jti = row.jwtJti →
    ∀ owner, w.db.users.lookup row.userId = some owner →
      row.authGeneration = some owner.authGeneration →
      token.sub = row.userId ∧ generation = owner.authGeneration

/-- The key of the event of a transition. -/
def publishKey (uid : UserId) (generation : Nat) : UserId × Nat × EffectType × TargetDigest :=
  (uid, generation, .publish, .userWide)

/-- The outbox remembers every transition since an open update loaded its copy. -/
def Remembered (w : World) (l : Local) : Prop :=
  ∀ uid copy, l.inTransition uid → l.copy = some (uid, copy) →
    ∀ user generation, w.db.users.lookup uid = some user → copy.authGeneration < generation →
      generation ≤ user.authGeneration →
      ∃ id row, w.db.outbox.lookup id = some row ∧ row.uniqueKey = publishKey uid generation

section

variable {settings : Settings} {p q : Pid} {w w' : World} {l l' : Local} {a : Action}

theorem authorityCurrent_of_match (hclaims : ClaimsMatch w) (hrows : RowsMatch w) :
    AuthorityCurrent w := by
  intro q token generation uid hsigned hactive
  obtain ⟨-, id, row, owner, hfound, -, huser, howner, hownerActive, hconsistent, hstamp⟩ :=
    decideJtiStatus_active_iff.1 hactive
  subst huser
  obtain ⟨hrow, hjti⟩ := sessionByJti_eq_some hfound
  obtain ⟨hsub, hgeneration⟩ := hrows id row hrow q token generation hsigned hjti.symm owner howner hstamp
  obtain ⟨copy, hcopy, hcopyGeneration, hrole, hcopyActive, htokenConsistent⟩ :=
    hclaims q token generation hsigned
  rw [hsub] at hcopy
  obtain ⟨hsameRole, hsameActive⟩ := hcopy.same owner howner (hcopyGeneration.trans hgeneration)
  have htokenRole := hrole.trans hsameRole
  rw [privilegeClaimsAreConsistent_iff] at hconsistent htokenConsistent
  refine ⟨owner, howner, htokenRole, ?_, hcopyActive.trans hsameActive⟩
  rw [htokenConsistent, htokenRole, hconsistent]

theorem Step.inTransition (hstep : Step settings p w l a w' l') {uid : UserId} {copy : User}
    (hopen : l'.inTransition uid) (hcopy : l.copy = some (uid, copy)) : l.inTransition uid := by
  cases hstep with
  | begin | tick | setRedis | reap | commandsDone | command | commandError | postCommit => cases hcopy
  | abort | error => cases hopen
  | update hstep =>
      cases hstep with
      | commit => cases hopen
      | _ => exact hopen
  | repair hstep => cases hcopy
  | delete hstep => cases hstep <;> cases hopen
  | login hstep => cases hstep <;> cases hopen
  | refresh hstep => cases hstep <;> cases hopen
  | logout hstep | revokeSession hstep | revokeUser hstep | deleteMe hstep | legacySweep hstep
  | drain hstep => cases hcopy

/-- An update whose copy is out of date is refused while the outbox remembers. -/
theorem not_stale (hgrounded : Grounded w) (htracked : Tracked settings p w l)
    (hknows : KnowsReached w l) (hremembered : Remembered w l) : ¬ StaleTransition w w' l := by
  intro hstale
  cases hstale with
  | @update r copy current plan revision targets doomed hchanged hcurrent hstale hcommit =>
      have hplan := planUpdate_eq_ok (htracked.planned copy r.userIn plan rfl)
      have hadvanced := (hplan.advanced hchanged).2
      have hle := (hknows.copies r.userId copy rfl).reached.2 current hcurrent
      have hlt : copy.authGeneration < current.authGeneration := Nat.lt_of_le_of_ne hle hstale
      obtain ⟨id, row, hrow, hkey⟩ := hremembered r.userId copy rfl rfl current plan.draft.authGeneration
        hcurrent (by omega) (by omega)
      exact refused_while_enqueued hgrounded.fresh hchanged hrow hkey w'.db hcommit

end

section

variable {settings : Settings} {p q : Pid} {w w' : World} {l l' : Local} {a : Action}
variable (hgrounded : Grounded w) (htracked : Tracked settings p w l)
  (hstep : Step settings p w l a w' l') (hcurrent : ¬ StaleTransition w w' l)

include hgrounded htracked hstep hcurrent

theorem Step.claimsMatch (hknows : KnowsReached w l) (hclaims : ClaimsMatch w) : ClaimsMatch w' := by
  intro q token generation hsigned
  rcases hstep.mem_log hsigned with hold | hnew
  · obtain ⟨copy, hcopy, hrest⟩ := hclaims q token generation hold
    exact ⟨copy, hstep.copyReached hgrounded htracked hcurrent hcopy, hrest⟩
  · cases hnew with
    | @signed uid copy pair hsigns hpair =>
        have hfrom := createAuthTokens_signedFrom hpair
        have hcopy := hknows.copies uid copy hsigns.copy
        refine ⟨copy, ?_, rfl, hfrom.role, hfrom.isActive, ?_⟩
        · rw [hfrom.accessSub]
          exact hstep.copyReached hgrounded htracked hcurrent hcopy
        · rw [hfrom.role, hfrom.isSuperuser]
          exact hfrom.consistent

private theorem Step.stamp_was_current {uid : UserId} {stamp : Nat} {owner : User}
    (hreached : Reached w uid stamp) (howner : w'.db.users.lookup uid = some owner)
    (hstamp : stamp = owner.authGeneration) :
    ∃ before, w.db.users.lookup uid = some before ∧ before.authGeneration = owner.authGeneration := by
  obtain ⟨before, hbefore⟩ := hstep.user_was hgrounded.fresh hreached.1 howner
  have hle := hreached.2 before hbefore
  refine ⟨before, hbefore, ?_⟩
  rcases hstep.user_change hgrounded.fresh htracked.planned htracked.repairs hcurrent hbefore howner
    with ⟨hsame, -⟩ | ⟨hnext, -⟩
  · exact hsame.symm
  · omega

theorem Step.rowsMatch (hall : AllReached w) (hrows : RowsMatch w)
    (hmixed : ¬ MixedStamp w w' l) : RowsMatch w' := by
  intro id row hrow q token generation hsigned hjti owner howner hstamp
  rcases hstep.row_origin hgrounded.fresh hrow with hold | hsaves
  · obtain ⟨before, hbefore, hsame⟩ := hstep.stamp_was_current hgrounded htracked hcurrent
      (hall _ _ (.session hold rfl hstamp)) howner rfl
    rcases hstep.mem_log hsigned with hwas | hnew
    · rw [← hsame] at hstamp ⊢
      exact hrows id row hold q token generation hwas hjti before hbefore hstamp
    · cases hnew with
      | signed _ hpair =>
          have hlt := hgrounded.drawn.rows id row hold
          rw [← hjti, (createAuthTokens_signedFrom hpair).accessJti] at hlt
          exact absurd hlt (Nat.lt_irrefl _)
  · obtain ⟨uid, copy, pair, data, existing, hlocal, huser, hrowJti⟩ := hsaves.facts htracked.issuing
    subst huser
    have hunsaved := htracked.issuing.unsaved _ hlocal.unsaved
    obtain ⟨-, htoken, hgeneration⟩ := (hstep.grounded hgrounded htracked).drawn.once _ _ _ _ _ _
      hsigned (hstep.log_mono hunsaved.signed) (hjti.trans hrowJti)
    obtain ⟨now, -, hfrom⟩ := hunsaved.signedFrom
    subst htoken
    refine ⟨hfrom.accessSub, hgeneration.trans ?_⟩
    cases hsaves with
    | @inserted uid' copy' pair' data' hlocal' _ _ hnew =>
        obtain ⟨-, rfl⟩ := Prod.mk.inj (Option.some.inj (hlocal.copy.symm.trans hlocal'.copy))
        subst hnew
        exact Option.some.inj hstamp
    | @restamped uid' copy' pair' data' loaded current hlocal' _ hwas hnew =>
        obtain ⟨rfl, rfl⟩ := Prod.mk.inj (Option.some.inj (hlocal.copy.symm.trans hlocal'.copy))
        by_cases hunwritten : loaded.authGeneration = some copy.authGeneration
        · have hkept : row.authGeneration = current.authGeneration := by
            rw [hnew]
            simp [ClientSession.saveOver, restampSession, Column.writeBack, hunwritten]
          rw [hkept] at hstamp
          by_cases hchanged : current.authGeneration = loaded.authGeneration
          · rw [hchanged, hunwritten] at hstamp
            exact Option.some.inj hstamp
          · have howns : current.userId = row.userId := by rw [hnew]; rfl
            obtain ⟨before, hbefore, hsame⟩ := hstep.stamp_was_current hgrounded htracked hcurrent
              (hall _ _ (.session hwas howns hstamp)) howner rfl
            rw [← hsame] at hstamp
            exact absurd
              (.restamped hlocal' hwas hbefore hunwritten hchanged hstamp (hnew ▸ hrow)) hmixed
        · have hwritten : row.authGeneration = some copy.authGeneration := by
            rw [hnew]
            exact Column.writeBack_of_ne (Ne.symm hunwritten) current.authGeneration
          rw [hwritten] at hstamp
          exact Option.some.inj hstamp

theorem Step.remembered {m : Local} (hcopies : KnowsReached w m)
    (hremembered : Remembered w m)
    (hkept : ∀ id row, w.db.outbox.lookup id = some row → m.inTransition row.userId →
      w'.db.outbox.lookup id ≠ none) : Remembered w' m := by
  intro uid copy hopen hcopy user generation huser hlt hle
  obtain ⟨before, hbefore⟩ := hstep.user_was hgrounded.fresh (hcopies.copies uid copy hcopy).reached.1 huser
  -- what was remembered before the step still is
  have hstill (hbelow : generation ≤ before.authGeneration) :
      ∃ id row, w'.db.outbox.lookup id = some row ∧ row.uniqueKey = publishKey uid generation := by
    obtain ⟨id, row, hrow, hkey⟩ := hremembered uid copy hopen hcopy before generation hbefore hlt hbelow
    have howner : row.userId = uid := congrArg Prod.fst hkey
    rcases hstep.outbox_kept hgrounded.fresh hrow with ⟨row', hrow', hkey', -⟩ | ⟨hnone, -⟩
    · exact ⟨id, row', hrow', hkey'.trans hkey⟩
    · exact absurd hnone (hkept id row hrow (howner ▸ hopen))
  rcases hstep.user_change hgrounded.fresh htracked.planned htracked.repairs hcurrent hbefore huser
    with ⟨hsame, -⟩ | ⟨hnext, targets, hcommits⟩
  · exact hstill (hsame ▸ hle)
  · by_cases hnew : generation = user.authGeneration
    · subst hnew
      obtain ⟨before', after', hcommitted, -⟩ :=
        hcommits.committed hgrounded.fresh htracked.planned htracked.repairs hcurrent
      obtain ⟨id, hrow⟩ := hcommitted.enqueued.stored _ (mem_enqueueRoleChangeEffects.2 (.inr rfl))
      exact ⟨id, _, hrow, rfl⟩
    · exact hstill (by omega)

/-- The outbox remembers for the mover too: its copy is the one it had, or the committed row. -/
theorem Step.rememberedMover (hknows : KnowsReached w l) (hremembered : Remembered w l)
    (hkept : ∀ id row, w.db.outbox.lookup id = some row → l.inTransition row.userId →
      w'.db.outbox.lookup id ≠ none) : Remembered w' l' := by
  intro uid copy hopen hcopy user generation huser hlt hle
  rcases hstep.copy hcopy with hold | hloaded
  · have hwas : l.inTransition uid := hstep.inTransition hopen hold
    exact hstep.remembered hgrounded htracked hcurrent hknows hremembered hkept uid copy hwas hold user
      generation huser hlt hle
  · obtain rfl : copy = user := Option.some.inj (hloaded.symm.trans huser)
    exact absurd hle (Nat.not_le.2 hlt)

end

/-- What holds in every state of a run that reaps no row of a user in transition. -/
def RememberingInv (settings : Settings) : Interleaving.Config World Local → Prop :=
  Interleaving.Asserted (fun w => Grounded w ∧ AllReached w)
    fun p w l => Tracked settings p w l ∧ KnowsReached w l ∧ Remembered w l

/-- What holds in every state of a run that mixes no stamp with the identifier of another issue. -/
def AuthorityInv (settings : Settings) : Interleaving.Config World Local → Prop :=
  Interleaving.Asserted (fun w => Grounded w ∧ AllReached w ∧ ClaimsMatch w ∧ RowsMatch w)
    fun p w l => Tracked settings p w l ∧ KnowsReached w l ∧ Remembered w l

section

variable {settings : Settings} {c c' : Interleaving.Config World Local} {move : Pid × Action}

theorem RememberingInv.not_stale (hinv : RememberingInv settings c) :
    ¬ StaleTransition c.shared c'.shared (c.locals move.1) := by
  obtain ⟨htracked, hknows, hremembered⟩ := hinv.locals move.1
  exact FaAuthM8.not_stale hinv.shared.1 htracked hknows hremembered

theorem RememberingInv.next (hinv : RememberingInv settings c)
    (hnext : (issuer settings).next c move = some c') (hreaps : ¬ ReapsUnderTransition c c') :
    RememberingInv settings c' := by
  have hcurrent : ¬ StaleTransition c.shared c'.shared (c.locals move.1) := hinv.not_stale
  refine asserted_next hnext fun l' hstep => ?_
  obtain ⟨hgrounded, hall⟩ := hinv.shared
  obtain ⟨htracked, hknows, hremembered⟩ := hinv.locals move.1
  have hkept (q : Pid) : ∀ id row, c.shared.db.outbox.lookup id = some row →
      (c.locals q).inTransition row.userId → c'.shared.db.outbox.lookup id ≠ none :=
    fun id row hrow hopen hgone => hreaps ⟨id, row, q, hrow, hgone, hopen⟩
  refine ⟨⟨hstep.grounded hgrounded htracked, hstep.allReached hgrounded htracked hcurrent hall hknows⟩,
    ⟨hstep.tracked hgrounded htracked, hstep.knowsReached hgrounded htracked hcurrent hall hknows,
      hstep.rememberedMover hgrounded htracked hcurrent hknows hremembered (hkept _)⟩, fun q hq => ?_⟩
  obtain ⟨hother, hknows', hremembered'⟩ := hinv.locals q
  exact ⟨hstep.othersTracked hgrounded htracked hq hother,
    hstep.othersKnowReached hgrounded htracked hcurrent hknows',
    hstep.remembered hgrounded htracked hcurrent hknows' hremembered' (hkept q)⟩

theorem Starts.rememberingInv (settings : Settings) (hstarts : Starts c) (hall : AllReached c.shared) :
    RememberingInv settings c := by
  obtain ⟨⟨hgrounded, -⟩, hlocals⟩ := hstarts.generationsInv settings hall
  refine ⟨⟨hgrounded, hall⟩, fun p => ⟨(hlocals p).1, (hlocals p).2, ?_⟩⟩
  intro uid copy hopen
  rw [hstarts.idle p] at hopen
  cases hopen

theorem AuthorityInv.remembering (hinv : AuthorityInv settings c) : RememberingInv settings c :=
  ⟨⟨hinv.shared.1, hinv.shared.2.1⟩, hinv.locals⟩

theorem AuthorityInv.next (hinv : AuthorityInv settings c)
    (hnext : (issuer settings).next c move = some c')
    (hmixed : ¬ MixedStamp c.shared c'.shared (c.locals move.1)) (hreaps : ¬ ReapsUnderTransition c c') :
    AuthorityInv settings c' := by
  have hremembering := hinv.remembering.next hnext hreaps
  have hcurrent : ¬ StaleTransition c.shared c'.shared (c.locals move.1) := hinv.remembering.not_stale
  obtain ⟨l', -, hstep⟩ := next_sound hnext
  obtain ⟨hgrounded, hall, hclaims, hrows⟩ := hinv.shared
  obtain ⟨htracked, hknows, -⟩ := hinv.locals move.1
  exact ⟨⟨hremembering.shared.1, hremembering.shared.2,
    hstep.claimsMatch hgrounded htracked hcurrent hknows hclaims,
    hstep.rowsMatch hgrounded htracked hcurrent hall hrows hmixed⟩, hremembering.locals⟩

theorem Starts.authorityInv (settings : Settings) (hstarts : Starts c) (hall : AllReached c.shared) :
    AuthorityInv settings c := by
  have hremembering := hstarts.rememberingInv settings hall
  refine ⟨⟨hremembering.shared.1, hall, ?_, ?_⟩, hremembering.locals⟩
  · intro q token generation hsigned
    rw [hstarts.log] at hsigned
    cases hsigned
  · intro id row _ q token generation hsigned
    rw [hstarts.log] at hsigned
    cases hsigned

end

/-- In a run of any requests that reaps no row of a user in transition, every active session carries the
claims of its owner as long as no save leaves a stamp under the identifier of an older issue. -/
theorem authority_current_of_unmixed (settings : Settings) {c c' : Interleaving.Config World Local}
    (hstarts : Starts c) (hall : AllReached c.shared) {schedule : List (Pid × Action)}
    (hunmixed : (issuer settings).Along (fun c move c' =>
      ¬ ReapsUnderTransition c c' ∧ ¬ MixedStamp c.shared c'.shared (c.locals move.1)) c schedule)
    (hrun : (issuer settings).run c schedule = some c') : AuthorityCurrent c'.shared := by
  have hinv : AuthorityInv settings c' :=
    Interleaving.System.run_invariant
      (fun c move c' hinv hnext hok => hinv.next hnext hok.2 hok.1)
      (hstarts.authorityInv settings hall) hunmixed hrun
  exact authorityCurrent_of_match hinv.shared.2.2.1 hinv.shared.2.2.2

theorem oneReader_allReached : AllReached oneReader.shared := by
  intro uid generation hrecorded
  cases hrecorded with
  | transition hmem | emitted hmem | stamped hmem | signed hmem => cases hmem
  | outbox hrow | session hrow => cases hrow

/-- A role change of the reader, up to its commit. -/
def promotionUntilCommit (p : Pid) : List (Pid × Action) :=
  (p, .begin (.update ⟨⟨9, .superadmin⟩, 1, { role := some (some .writer) }⟩ .load)) ::
    List.replicate 7 (p, .proceed)

/-- Two logins sign their tokens while a promotion is open. The promotion commits, the first login inserts its
row, the second one loads it, a third login re-stamps it, and the second one goes on. -/
def mixedLogins : List (Pid × Action) :=
  promotionUntilCommit 0 ++
    loginUntilLoad 1 ++ loginUntilLoad 2 ++
    [(0, .proceed)] ++
    (1, .select none) :: List.replicate 2 (1, .proceed) ++
    [(2, .select (some 0))] ++
    relogin 3 ++
    List.replicate 2 (2, .proceed)

/-- A save over a loaded row. -/
def Local.resaves : Local → Bool
  | .login _ (.save _ _ _ _ existing) => existing.isSome
  | .refresh _ (.save _ _ _ existing) => existing.isSome
  | _ => false

theorem MixedStamp.resaves {w w' : World} {l : Local} (hmixed : MixedStamp w w' l) : l.resaves = true := by
  cases hmixed with
  | restamped hlocal => cases hlocal <;> rfl

theorem not_reapsUnderTransition {c c' : Interleaving.Config World Local}
    (hkept : ∀ id ∈ c.shared.db.outbox.keys, id ∈ c'.shared.db.outbox.keys) :
    ¬ ReapsUnderTransition c c' := by
  rintro ⟨id, row, q, hrow, hgone, -⟩
  have hmem := AList.lookup_isSome.2 (hkept id (Table.mem_keys hrow))
  rw [hgone] at hmem
  cases hmem

/-- The reader signs in around the commit of a promotion. -/
def loginUnderPromotion : List (Pid × Action) :=
  promotionUntilCommit 0 ++ loginUntilLoad 1 ++ [(0, .proceed), (1, .select none)] ++
    List.replicate 2 (1, .proceed)

theorem authority_current_of_unmixed_oneReader :
    ∃ c', (issuer {}).run oneReader loginUnderPromotion = some c' ∧ AuthorityCurrent c'.shared := by
  have hruns : ((issuer {}).run oneReader loginUnderPromotion).isSome = true := by
    decide +kernel
  have hchecked : (issuer {}).Along (fun c move c' =>
      (∀ id ∈ c.shared.db.outbox.keys, id ∈ c'.shared.db.outbox.keys) ∧
        (c.locals move.1).resaves = false) oneReader loginUnderPromotion := by
    decide +kernel
  have hunmixed : (issuer {}).Along (fun c move c' =>
      ¬ ReapsUnderTransition c c' ∧ ¬ MixedStamp c.shared c'.shared (c.locals move.1))
      oneReader loginUnderPromotion := by
    refine Interleaving.System.along_mono (fun c move c' hok => ?_) hchecked
    refine ⟨not_reapsUnderTransition hok.1, fun hmixed => ?_⟩
    rw [hmixed.resaves] at hok
    exact absurd hok.2 nofun
  obtain ⟨c', hrun⟩ := Option.isSome_iff_exists.1 hruns
  exact ⟨c', hrun, authority_current_of_unmixed {} oneReader_starts oneReader_allReached hunmixed hrun⟩

/-- Some active session of user `uid` carries another role than the user has. -/
def showsOtherRole (w : World) (uid : UserId) : Bool :=
  w.log.any fun
    | .signed _ token _ => (decideJtiStatus w.db token.jti uid).active &&
        (w.db.users.lookup uid).any (·.role != token.role)
    | _ => false

theorem not_authorityCurrent {w : World} {uid : UserId} (hother : showsOtherRole w uid = true) :
    ¬ AuthorityCurrent w := by
  intro hcurrent
  obtain ⟨event, hmem, hevent⟩ := List.any_eq_true.1 hother
  cases event with
  | signed q token generation =>
      rw [Bool.and_eq_true] at hevent
      obtain ⟨owner, howner, hrole, -⟩ := hcurrent q token generation uid hmem hevent.1
      simp [howner, hrole] at hevent
  | _ => cases hevent

/-- The token of the second login says reader, and its session is active while the user is a writer. -/
theorem authority_superseded :
    ∃ c', (issuer {}).run oneReader mixedLogins = some c' ∧
      (issuer {}).Along (fun c _ c' => ¬ ReapsUnderTransition c c') oneReader mixedLogins ∧
      ¬ AuthorityCurrent c'.shared := by
  have hrun : ((issuer {}).run oneReader mixedLogins).map (fun c' => showsOtherRole c'.shared 1)
      = some true := by
    decide +kernel
  have hkept : (issuer {}).Along (fun c _ c' =>
      ∀ id ∈ c.shared.db.outbox.keys, id ∈ c'.shared.db.outbox.keys) oneReader mixedLogins := by
    decide +kernel
  obtain ⟨c', hreached, hother⟩ := Option.map_eq_some_iff.1 hrun
  refine ⟨c', hreached, ?_, not_authorityCurrent hother⟩
  exact Interleaving.System.along_mono (fun c move c' hok => not_reapsUnderTransition hok) hkept

end FaAuthM8

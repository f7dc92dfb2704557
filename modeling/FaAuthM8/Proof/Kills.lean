import FaAuthM8.Proof.Blacklist
import FaAuthM8.Proof.Resurrection

/-!
# Access tokens after an authorization change

An operation that revokes every session of a user captures the identifiers that the active rows record, some
statements before it commits. What it has captured reaches the blacklist, by its post-commit step or by way of
the outbox. It is all the operation can reach: a token that a refresh or another login has superseded is in no
row any more, and the deletion of an account drops what it has captured.
-/

namespace FaAuthM8

/-- An undelivered effect of the outbox puts the token on the blacklist. -/
def Queued (w : World) (token : AccessToken) : Prop :=
  ∃ id row, w.db.outbox.lookup id = some row ∧ row.status ≠ .completed ∧
    ∃ target ∈ row.effect.targets, target.jti = token.jti

/-- The token needs no more work, or an undelivered effect does it. -/
def Secured (w : World) (token : AccessToken) : Prop := Silenced w token ∨ Queued w token

/-- After its commit, the process is about to put the token on the blacklist. -/
def Local.Pushing (token : AccessToken) : Local → Prop
  | .postCommit targets => ∃ target ∈ targets, target.jti = token.jti
  | .commands rest => ∃ ttl, .blacklistJti token.jti ttl ∈ rest
  | _ => False

def CommitsRevocation (uid : UserId) (targets : List RevocationTarget) (w w' : World) : Prop :=
  ∃ events, w'.log = events ++ w.log ∧ .revoked (.user uid) targets ∈ events

/-- A request that revokes every session of a user by way of Redis has a client. -/
def Local.hasClient : Local → Bool
  | .revokeUser r _ => r.redis
  | _ => true

/-- The user whose sessions the request is about to capture. -/
def Local.capturesUser : Local → Option UserId
  | .update r (.apply _ _) => some r.userId
  | .delete r (.purge _ _ _) => some r.userId
  | .repair r (.capture _) => some r.userId
  | .revokeUser r .capture => some r.userId
  | _ => none

/-- All but the deletion of an account keep what they capture. -/
def Local.keepsCaptured : Local → Bool
  | .delete _ _ => false
  | _ => true

def RecordsActive (w : World) (uid : UserId) (jti : Jti) : Prop :=
  ∃ id row, w.db.sessions.lookup id = some row ∧ row.userId = uid ∧ isActiveSession w.now row = true ∧
    row.jwtJti = jti

/-- For every access token that the user is issued by the commit in `w'` and that is unexpired there: an active
row of the user recorded it in `w`, or its revocation is on its way. -/
def AllRecorded (kept : Bool) (w w' : World) (uid : UserId) : Prop :=
  ∀ pair, .issued pair ∈ w'.log → pair.access.sub = uid → pair.access.isCurrent w'.now = true →
    (kept = true ∧ RecordsActive w uid pair.access.jti) ∨ Secured w' pair.access

/-- Every unexpired access token the user was issued is among these targets, or its revocation is on its
way. -/
def AllCaptured (w : World) (uid : UserId) (targets : List RevocationTarget) : Prop :=
  ∀ pair, .issued pair ∈ w.log → pair.access.sub = uid → pair.access.isCurrent w.now = true →
    (∃ target ∈ targets, target.jti = pair.access.jti) ∨ Secured w pair.access

/-- If the request revokes the user, it is with these targets. -/
def Local.BoundTo (uid : UserId) (targets : List RevocationTarget) : Local → Prop
  | .update r (.purge _ _ _ captured) => r.userId = uid ∧ captured = targets
  | .update r (.commit _ plan _ captured _) =>
      r.userId = uid ∧ (plan.authorizationChanged = true → captured = targets)
  | .delete r (.commit _ _ _ _) => r.userId = uid ∧ [] = targets
  | .repair r (.purge _ captured) | .repair r (.commit _ captured _) => r.userId = uid ∧ captured = targets
  | .revokeUser r (.purge captured) | .revokeUser r (.commit captured _) => r.userId = uid ∧ captured = targets
  | .postCommit _ | .commands _ | .idle => True
  | _ => False

def Db.outboxDrained (db : Db) : Bool := db.outbox.entries.all (·.2.status == .completed)

theorem Db.outboxDrained_iff {db : Db} : db.outboxDrained = true ↔
    ∀ id row, db.outbox.lookup id = some row → row.status = .completed := by
  simp only [outboxDrained, List.all_eq_true, beq_iff_eq]
  constructor
  · intro hall id row hrow
    exact hall _ (Table.lookup_eq_some_iff.1 hrow)
  · intro hall entry hentry
    exact hall _ _ (Table.lookup_eq_some_iff.2 hentry)

/-- The token is valid for less than a second. -/
def AccessToken.inLastSecond (now : Int) (token : AccessToken) : Bool :=
  now < token.exp && token.exp < now + second

section

variable {settings : Settings} {p q : Pid} {w w' : World} {l l' : Local} {a : Action}

/-! ### One step -/

/-- What is secured stays so: an effect is completed only when its tokens need no more work. -/
theorem Step.secured (hgrounded : Grounded w) (hcovering : l.Covering w)
    (hstep : Step settings p w l a w' l') {token : AccessToken} {generation : Nat}
    (hsigned : .signed q token generation ∈ w.log) (hsecured : Secured w token) : Secured w' token := by
  have hstays : Silenced w token → Silenced w' token := hstep.silenced hgrounded.drawn hcovering hsigned
  rcases hsecured with hsilenced | ⟨id, row, hrow, hwaits, target, htarget, hjti⟩
  · exact .inl (hstays hsilenced)
  · have hkept {row' : RevocationOutbox} (hrow' : w'.db.outbox.lookup id = some row')
        (hstatus : row'.status ≠ .completed) (heffect : row'.effect = row.effect) : Secured w' token :=
      .inr ⟨id, row', hrow', hstatus, target, heffect ▸ htarget, hjti⟩
    cases hstep.outboxChange hgrounded.fresh with
    | same houtbox => exact hkept (houtbox ▸ hrow) hwaits rfl
    | enqueued _ henqueued => exact hkept (henqueued.kept id row hrow) hwaits rfl
    | leased _ hleased =>
        rcases hleased id with hsame | ⟨before, hbefore, -, hlease⟩
        · exact hkept (hsame ▸ hrow) hwaits rfl
        · obtain rfl := Option.some.inj (hrow.symm.trans hbefore)
          exact hkept hlease nofun rfl
    | @finished r success id' copy current rest hlocal hcurrent houtbox =>
        by_cases hid : id = id'
        · subst hid hlocal
          obtain rfl := Option.some.inj (hrow.symm.trans hcurrent)
          obtain ⟨-, heffect, hstatus, -⟩ := finished_eq settings r.now success copy row rfl
          have hsaved : w'.db.outbox.lookup id = some ((if success then OutboxWorker.completed r.now copy
              else OutboxWorker.failed settings r.now copy).saveOver copy row) := by
            rw [houtbox, AList.lookup_insert]
          rcases hstatus with hsame | ⟨rfl, -⟩ | ⟨-, hpending⟩ | ⟨-, hdead, -⟩
          · exact hkept hsaved (hsame ▸ hwaits) heffect
          · obtain ⟨-, hcopy, hdone⟩ := hcovering
            rw [hcopy.effect row hrow] at htarget
            exact .inl (hstays ((hdone rfl target htarget).2 q token generation hsigned hjti.symm))
          · exact hkept hsaved (by rw [hpending]; decide) heffect
          · exact hkept hsaved (by rw [hdead]; decide) heffect
        · exact hkept (by rw [houtbox, Table.lookup_insert_eq, if_neg hid, hrow]) hwaits rfl
    | reaped _ _ houtbox =>
        exact hkept ((houtbox id row).2 ⟨hrow, fun hcompleted => absurd hcompleted hwaits⟩) hwaits rfl

theorem mem_applyPostCommitRevocation_of_left {now : Int} {targets : List RevocationTarget}
    {target : RevocationTarget} (htarget : target ∈ targets)
    (hpositive : 0 < wholeSeconds (target.expiresAt - now)) :
    .blacklistJti target.jti (wholeSeconds (target.expiresAt - now)) ∈
      applyPostCommitRevocation now targets := by
  rw [applyPostCommitRevocation, List.mem_flatMap]
  refine ⟨target, htarget, ?_⟩
  rw [postCommitCommands, if_pos hpositive]
  exact List.mem_cons_self

/-- While Redis answers, the next statement after a commit gets the token onto the blacklist, or leaves that
to a later one. -/
theorem Step.pushing (hcovering : l.Covering w) (hup : w.redisUp = true) (hrunning : a ≠ .abort)
    (hstep : Step settings p w l a w' l') {token : AccessToken} {generation : Nat}
    (hsigned : .signed q token generation ∈ w.log) (hpushing : l.Pushing token) :
    l'.Pushing token ∨ Silenced w' token := by
  cases l with
  | postCommit targets =>
      cases hstep with
      | abort => exact absurd rfl hrunning
      | error hopen => cases hopen
      | postCommit =>
          obtain ⟨target, htarget, hjti⟩ := hpushing
          by_cases hpositive : 0 < wholeSeconds (target.expiresAt - w.now)
          · exact .inl ⟨_, hjti ▸ mem_applyPostCommitRevocation_of_left htarget hpositive⟩
          · have hexp : token.exp ≤ target.expiresAt :=
              (hcovering target htarget).2 q token generation hsigned hjti.symm
            rw [wholeSeconds_pos_iff] at hpositive
            exact .inr (.inr (by omega))
  | commands rest =>
      obtain ⟨ttl, hmem⟩ := hpushing
      cases hstep with
      | abort => exact absurd rfl hrunning
      | error hopen => cases hopen
      | commandsDone => exact absurd hmem List.not_mem_nil
      | @commandError command rest _ hsend =>
          have houtlasts := hcovering command List.mem_cons_self
          cases command with
          | blacklistJti jti ttl' => simp [World.send, hup, Redis.execute, houtlasts.1] at hsend
          | revoke jti => simp [World.send, hup, Redis.execute] at hsend
          | register | rotate => exact absurd houtlasts not_false
      | @command command rest _ _ hsend =>
          rcases List.mem_cons.1 hmem with rfl | hlater
          · have houtlasts := (hcovering _ List.mem_cons_self).2
            exact .inr (.inl (houtlasts.listed hsend hsigned rfl))
          · exact .inl ⟨ttl, hlater⟩
  | _ => exact absurd hpushing not_false

/-- What the commit has captured is in the outbox, or in what the process does next. -/
theorem Step.commitsRevocation (hfresh : w.db.IdsFresh) (hstep : Step settings p w l a w' l')
    {uid : UserId} {targets : List RevocationTarget} (hcommits : CommitsRevocation uid targets w w')
    (hclient : l.hasClient = true) {token : AccessToken}
    (hcaptured : ∃ target ∈ targets, target.jti = token.jti) : Queued w' token ∨ l'.Pushing token := by
  obtain ⟨events, hlog, hrevoked⟩ := hcommits
  obtain ⟨events', hlog', hlogged⟩ := hstep.records
  obtain rfl := List.append_cancel_right (hlog.symm.trans hlog')
  obtain ⟨target, htarget, hjti⟩ := hcaptured
  cases hlogged _ hrevoked with
  | revokedUser hrevokes =>
      cases hrevokes with
      | @transition _ generation htransition =>
          have hmem : blacklistRow uid generation w.now target ∈
              enqueueRoleChangeEffects uid generation targets w.now :=
            mem_enqueueRoleChangeEffects.2 (.inl ⟨target, htarget, rfl⟩)
          obtain ⟨id, hrow⟩ := (htransition.enqueued hfresh).stored _ hmem
          exact .inl ⟨id, _, hrow, nofun, _, List.mem_cons_self, hjti⟩
      | erase _ htargets =>
          rw [htargets] at htarget
          exact absurd htarget List.not_mem_nil
      | @revokeUser r doomed _ _ =>
          have hredis : r.redis = true := hclient
          cases hstep with
          | abort | error =>
              obtain rfl := List.append_left_eq_self.1 hlog.symm
              exact absurd hrevoked List.not_mem_nil
          | revokeUser hrevoke =>
              cases hrevoke with
              | commit =>
                  rw [if_pos hredis]
                  exact .inr ⟨target, htarget, hjti⟩

/-! ### From the capture to the commit -/

theorem Step.capture (hstep : Step settings p w l a w' l') {uid : UserId} (hcaptures : l.capturesUser = some uid) :
    l'.BoundTo uid (if l.keepsCaptured then captureTargets w.db uid w.now else []) := by
  cases l with
  | update r phase =>
      cases phase with
      | apply =>
          obtain rfl := Option.some.inj hcaptures
          cases hstep with
          | abort | error => exact trivial
          | update hupdate =>
              cases hupdate with
              | apply => exact ⟨rfl, rfl⟩
              | applyUnchanged _ hunchanged =>
                  refine ⟨rfl, fun hchanged => ?_⟩
                  rw [hunchanged] at hchanged
                  cases hchanged
      | _ => cases hcaptures
  | delete r phase =>
      cases phase with
      | purge =>
          obtain rfl := Option.some.inj hcaptures
          cases hstep with
          | abort | error => exact trivial
          | delete hdelete =>
              cases hdelete with
              | purge => exact ⟨rfl, rfl⟩
      | _ => cases hcaptures
  | repair r phase =>
      cases phase with
      | capture =>
          obtain rfl := Option.some.inj hcaptures
          cases hstep with
          | abort | error => exact trivial
          | repair hrepair =>
              cases hrepair with
              | capture => exact ⟨rfl, rfl⟩
      | _ => cases hcaptures
  | revokeUser r phase =>
      cases phase with
      | capture =>
          obtain rfl := Option.some.inj hcaptures
          cases hstep with
          | abort | error => exact trivial
          | revokeUser hrevoke =>
              cases hrevoke with
              | capture => exact ⟨rfl, rfl⟩
      | _ => cases hcaptures
  | _ => cases hcaptures

theorem Step.boundTo (hstep : Step settings p w l a w' l') (hproceeds : a = .proceed) {uid : UserId}
    {targets : List RevocationTarget} (hbound : l.BoundTo uid targets) : l'.BoundTo uid targets := by
  cases hstep with
  | begin | tick | setRedis | reap => cases hproceeds
  | abort | error | commandError | postCommit | commandsDone | command => exact trivial
  | update hupdate =>
      cases hupdate with
      | purge => exact ⟨hbound.1, fun _ => hbound.2⟩
      | commit => exact trivial
      | _ => cases hbound
  | delete hdelete =>
      cases hdelete with
      | commit => exact trivial
      | _ => cases hbound
  | repair hrepair =>
      cases hrepair with
      | purge => exact hbound
      | commit => exact trivial
      | _ => cases hbound
  | revokeUser hrevoke =>
      cases hrevoke with
      | capture => cases hbound
      | purge => exact hbound
      | commit => split <;> exact trivial
  | login | refresh | logout | revokeSession | deleteMe | legacySweep | drain => cases hbound

theorem Step.commitsBound (hstep : Step settings p w l a w' l') {uid : UserId} {targets : List RevocationTarget}
    (hbound : l.BoundTo uid targets) (huser : l.revokesUser = some uid) (hcommits : w'.log ≠ w.log) :
    CommitsRevocation uid targets w w' := by
  cases l with
  | update r phase =>
      cases phase with
      | commit copy plan revision captured doomed =>
          rw [Local.revokesUser, Option.ite_none_right_eq_some] at huser
          obtain ⟨rfl, hcaptured⟩ := hbound
          obtain rfl := hcaptured huser.1
          cases hstep with
          | abort | error => exact absurd rfl hcommits
          | update hupdate =>
              cases hupdate with
              | commit =>
                  rw [if_pos huser.1]
                  exact ⟨_, rfl, List.mem_cons_self⟩
      | _ => cases huser
  | delete r phase =>
      cases phase with
      | commit =>
          obtain ⟨rfl, rfl⟩ := hbound
          cases hstep with
          | abort | error => exact absurd rfl hcommits
          | delete hdelete =>
              cases hdelete with
              | commit => exact ⟨_, rfl, List.mem_cons_self⟩
      | _ => cases huser
  | repair r phase =>
      cases phase with
      | commit =>
          obtain ⟨rfl, rfl⟩ := hbound
          cases hstep with
          | abort | error => exact absurd rfl hcommits
          | repair hrepair =>
              cases hrepair with
              | commit => exact ⟨_, rfl, List.mem_cons_self⟩
      | _ => cases huser
  | revokeUser r phase =>
      cases phase with
      | commit =>
          obtain ⟨rfl, rfl⟩ := hbound
          cases hstep with
          | abort | error => exact absurd rfl hcommits
          | revokeUser hrevoke =>
              cases hrevoke with
              | commit => exact ⟨_, rfl, List.mem_cons_self⟩
      | _ => cases huser
  | deleteMe => cases hbound
  | _ => cases huser

theorem run_boundTo {c c' : Interleaving.Config World Local} {schedule : List (Pid × Action)} {uid : UserId}
    {targets : List RevocationTarget} (hproceeds : ∀ move ∈ schedule, move.1 = p → move.2 = .proceed)
    (hbound : (c.locals p).BoundTo uid targets) (hrun : (issuer settings).run c schedule = some c') :
    (c'.locals p).BoundTo uid targets := by
  have hkeeps : ∀ c move c', (c.locals p).BoundTo uid targets → (issuer settings).next c move = some c' →
      (move.1 = p → move.2 = .proceed) → (c'.locals p).BoundTo uid targets := by
    intro c move c' hbound hnext hproceeds
    obtain ⟨l', hlocals, hstep⟩ := next_sound hnext
    rw [hlocals]
    by_cases hp : p = move.1
    · subst hp
      rw [Function.update_self]
      exact hstep.boundTo (hproceeds rfl) hbound
    · rw [Function.update_of_ne hp]
      exact hbound
  exact Interleaving.System.run_invariant hkeeps hbound
    (Interleaving.System.along_of_mem fun move hmem _ _ => hproceeds move hmem) hrun

theorem AllRecorded.captured {kept : Bool} {uid : UserId} (hrecorded : AllRecorded kept w w' uid) :
    AllCaptured w' uid (if kept then captureTargets w.db uid w.now else []) := by
  intro pair hissued huser hcurrent
  obtain ⟨rfl, id, row, hrow, howner, hactive, hjti⟩ | hsecured := hrecorded pair hissued huser hcurrent
  · exact .inl ⟨row.target, mem_captureTargets.2 ⟨id, row, hrow, howner, hactive, rfl⟩, hjti⟩
  · exact .inr hsecured

/-! ### The run -/

/-- What holds of the shared state and of every request as long as the rows cover their tokens. -/
def CoveringInv (settings : Settings) : Interleaving.Config World Local → Prop :=
  Interleaving.Asserted (fun w => Grounded w ∧ EffectsCover w) fun p w l =>
    Tracked settings p w l ∧ l.Covering w

theorem CoveringInv.next {c c' : Interleaving.Config World Local} {move : Pid × Action}
    (hinv : CoveringInv settings c) (hnext : (issuer settings).next c move = some c')
    (hrows : c.shared.rowsCover = true) : CoveringInv settings c' := by
  obtain ⟨hgrounded, heffects⟩ := hinv.shared
  obtain ⟨htracked, hcovering⟩ := hinv.locals move.1
  refine asserted_next hnext fun l' hstep => ?_
  refine ⟨⟨hstep.grounded hgrounded htracked, hstep.effectsCover hgrounded.fresh hcovering heffects⟩,
    ⟨hstep.tracked hgrounded htracked, hstep.covering hgrounded heffects hrows hcovering⟩, fun q hq => ?_⟩
  obtain ⟨hother, hotherCovering⟩ := hinv.locals q
  exact ⟨hstep.othersTracked hgrounded htracked hq hother,
    hcovering.mono hgrounded.drawn hgrounded.fresh hstep hotherCovering⟩

/-- The token has been signed and is secured. -/
structure SecuredIn (settings : Settings) (q : Pid) (token : AccessToken) (generation : Nat)
    (c : Interleaving.Config World Local) : Prop where
  covering : CoveringInv settings c
  signed : .signed q token generation ∈ c.shared.log
  secured : Secured c.shared token

theorem SecuredIn.next {token : AccessToken} {generation : Nat} {c c' : Interleaving.Config World Local}
    {move : Pid × Action} (hin : SecuredIn settings q token generation c)
    (hnext : (issuer settings).next c move = some c') (hrows : c.shared.rowsCover = true) :
    SecuredIn settings q token generation c' := by
  obtain ⟨hinv, hsigned, hsecured⟩ := hin
  obtain ⟨hgrounded, -⟩ := hinv.shared
  obtain ⟨-, hcovering⟩ := hinv.locals move.1
  obtain ⟨l', -, hstep⟩ := next_sound hnext
  exact ⟨hinv.next hnext hrows, hstep.log_mono hsigned, hstep.secured hgrounded hcovering hsigned hsecured⟩

/-- The token is secured, or the process is about to do it. -/
structure InHand (settings : Settings) (p q : Pid) (token : AccessToken) (generation : Nat)
    (c : Interleaving.Config World Local) : Prop where
  covering : CoveringInv settings c
  signed : .signed q token generation ∈ c.shared.log
  secured : Secured c.shared token ∨ (c.locals p).Pushing token

theorem InHand.next {token : AccessToken} {generation : Nat} {c c' : Interleaving.Config World Local}
    {move : Pid × Action} (hhand : InHand settings p q token generation c)
    (hnext : (issuer settings).next c move = some c') (hrows : c.shared.rowsCover = true)
    (hpushes : (c.locals p).Pushing token → c.shared.redisUp = true ∧ move ≠ (p, .abort)) :
    InHand settings p q token generation c' := by
  obtain ⟨hinv, hsigned, hsecured⟩ := hhand
  rcases hsecured with hsecured | hpushing
  · obtain ⟨hinv', hsigned', hsecured'⟩ := SecuredIn.next ⟨hinv, hsigned, hsecured⟩ hnext hrows
    exact ⟨hinv', hsigned', .inl hsecured'⟩
  · obtain ⟨-, hcovering⟩ := hinv.locals move.1
    obtain ⟨l', hlocals, hstep⟩ := next_sound hnext
    obtain ⟨hup, hrunning⟩ := hpushes hpushing
    refine ⟨hinv.next hnext hrows, hstep.log_mono hsigned, ?_⟩
    by_cases hp : p = move.1
    · subst hp
      rw [hlocals, Function.update_self]
      have haction : move.2 ≠ .abort := fun heq => hrunning (Prod.ext rfl heq)
      exact (hstep.pushing hcovering hup haction hsigned hpushing).symm.imp .inl id
    · right
      rw [hlocals, Function.update_of_ne hp]
      exact hpushing

/-- A token whose work is done is rejected, unless it is in its last second. -/
theorem Silenced.rejected (hmode : settings.isStateful = true) {token : AccessToken}
    (hsilenced : Silenced w token) (hlast : token.inLastSecond w.now = false) (user : AccessToken) :
    getCurrentUser settings (some w.redis) w.now token ≠ .ok user := by
  by_cases hcurrent : token.isCurrent w.now = true
  · refine getCurrentUser_blacklisted hmode ?_ user
    simp only [AccessToken.isCurrent, decide_eq_true_eq] at hcurrent
    simp only [AccessToken.inLastSecond, Bool.and_eq_false_iff, decide_eq_false_iff_not] at hlast
    rcases hsilenced with ⟨vanishes, hlisted, hexp⟩ | hexp
    · simp only [Redis.isBlacklisted, keyExists, hlisted, Option.any_some, decide_eq_true_eq]
      omega
    · omega
  · intro haccepted
    rw [Bool.not_eq_true] at hcurrent
    rw [getCurrentUser, hcurrent] at haccepted
    cases haccepted

/-- What a commit has captured, or finds on its way, is rejected once the post-commit step has run and the outbox
is drained. -/
theorem captured_rejected (hmode : settings.isStateful = true) {c₀ c c₁ c₂ c' : Interleaving.Config World Local}
    {before pushing after : List (Pid × Action)} {uid : UserId} {targets : List RevocationTarget}
    (hstarts : Starts c₀)
    (hdrawn : ∀ id row, c₀.shared.db.outbox.lookup id = some row → ∀ target ∈ row.effect.targets,
      target.jti < c₀.shared.nextJti)
    (hrows : (issuer settings).Along (fun c _ _ => c.shared.rowsCover = true) c₀
      (before ++ (p, a) :: (pushing ++ after)))
    (hbefore : (issuer settings).run c₀ before = some c)
    (hcommit : (issuer settings).next c (p, a) = some c₁)
    (hcommits : CommitsRevocation uid targets c.shared c₁.shared)
    (hclient : (c.locals p).hasClient = true) (hcaptured : AllCaptured c.shared uid targets)
    (hpushing : (issuer settings).run c₁ pushing = some c₂)
    (hpushes : (issuer settings).Along (fun c move _ => c.shared.redisUp = true ∧ move ≠ (p, .abort)) c₁ pushing)
    (hpushed : c₂.locals p = .idle) (hafter : (issuer settings).run c₂ after = some c')
    (hdrained : c'.shared.db.outboxDrained = true) {pair : TokenPair} (hissued : .issued pair ∈ c.shared.log)
    (huser : pair.access.sub = uid) (hlast : pair.access.inLastSecond c'.shared.now = false)
    (user : AccessToken) :
    getCurrentUser settings (some c'.shared.redis) c'.shared.now pair.access ≠ .ok user := by
  obtain ⟨hrowsBefore, hrest⟩ := Interleaving.System.along_append.1 hrows
  obtain ⟨hrowsCommit, hrest⟩ := hrest c hbefore c₁ hcommit
  obtain ⟨hrowsPushing, hrest⟩ := Interleaving.System.along_append.1 hrest
  have hrowsAfter := hrest c₂ hpushing
  -- up to the commit
  have hfirst : CoveringInv settings c₀ := by
    refine ⟨⟨hstarts.grounded, fun id row hrow target htarget => ?_⟩, fun q => ⟨hstarts.tracked q, ?_⟩⟩
    · refine ⟨hdrawn id row hrow target htarget, fun q token generation hsigned => ?_⟩
      simp [hstarts.log] at hsigned
    · rw [hstarts.idle q]
      exact trivial
  have hinv : CoveringInv settings c :=
    Interleaving.System.run_invariant (fun _ _ _ hinv hnext hrows => hinv.next hnext hrows) hfirst hrowsBefore
      hbefore
  obtain ⟨hgrounded, -⟩ := hinv.shared
  obtain ⟨q, generation, hsigned, -⟩ := hgrounded.drawn.issued pair hissued
  -- the commit
  have hcommitted : InHand settings p q pair.access generation c₁ := by
    obtain ⟨-, hcovering⟩ := hinv.locals p
    obtain ⟨l', hlocals, hstep⟩ := next_sound hcommit
    refine ⟨hinv.next hcommit hrowsCommit, hstep.log_mono hsigned, ?_⟩
    rw [hlocals, Function.update_self]
    by_cases hcurrent : pair.access.isCurrent c.shared.now = true
    · rcases hcaptured pair hissued huser hcurrent with hcaptured | hsecured
      · exact (hstep.commitsRevocation hgrounded.fresh hcommits hclient hcaptured).imp .inr id
      · exact .inl (hstep.secured hgrounded hcovering hsigned hsecured)
    · refine .inl (hstep.secured hgrounded hcovering hsigned (.inl (.inr ?_)))
      simp only [AccessToken.isCurrent, decide_eq_true_eq, second] at hcurrent ⊢
      omega
  -- the post-commit step
  have hpushedOff : InHand settings p q pair.access generation c₂ :=
    Interleaving.System.run_invariant
      (fun _ _ _ hhand hnext hok => hhand.next hnext hok.1 fun _ => hok.2) hcommitted
      (Interleaving.System.along_and hrowsPushing hpushes) hpushing
  have hsecured : Secured c₂.shared pair.access := by
    refine hpushedOff.secured.resolve_right fun hstill => ?_
    rw [hpushed] at hstill
    exact hstill
  -- until the outbox is drained
  have hsecures : ∀ c move c', SecuredIn settings q pair.access generation c →
      (issuer settings).next c move = some c' → c.shared.rowsCover = true →
      SecuredIn settings q pair.access generation c' :=
    fun _ _ _ hsecured hnext hrows => hsecured.next hnext hrows
  have hdone := (Interleaving.System.run_invariant hsecures
    ⟨hpushedOff.covering, hpushedOff.signed, hsecured⟩ hrowsAfter hafter).secured
  rcases hdone with hsilenced | ⟨id, row, hrow, hwaits, -⟩
  · exact hsilenced.rejected hmode hlast user
  · exact absurd (Db.outboxDrained_iff.1 hdrained id row hrow) hwaits

/-- In stateful mode, and while no row expires before its token: once an operation that revokes every session
of a user has committed, its post-commit step has run with Redis up, and the outbox is drained, no access
token the user was issued before the commit is accepted outside its last second, provided that an active row
recorded every unexpired one when the operation captured the rows, or that its revocation was on its way when
the operation committed. -/
theorem revocation_kills_tokens (settings : Settings) (hmode : settings.isStateful = true)
    {c₀ c c₁ c₂ c₃ c₄ c' : Interleaving.Config World Local} {before during pushing after : List (Pid × Action)}
    {p : Pid} {a b : Action} {uid : UserId} (hstarts : Starts c₀)
    (hdrawn : ∀ id row, c₀.shared.db.outbox.lookup id = some row → ∀ target ∈ row.effect.targets,
      target.jti < c₀.shared.nextJti)
    (hrows : (issuer settings).Along (fun c _ _ => c.shared.rowsCover = true) c₀
      (before ++ (p, a) :: (during ++ (p, b) :: (pushing ++ after))))
    (hbefore : (issuer settings).run c₀ before = some c) (hcaptures : (c.locals p).capturesUser = some uid)
    (hcapture : (issuer settings).next c (p, a) = some c₁)
    (hduring : (issuer settings).run c₁ during = some c₂)
    (hproceeds : ∀ move ∈ during, move.1 = p → move.2 = .proceed)
    (hrevokes : (c₂.locals p).revokesUser = some uid) (hclient : (c₂.locals p).hasClient = true)
    (hcommit : (issuer settings).next c₂ (p, b) = some c₃) (hcommits : c₃.shared.log ≠ c₂.shared.log)
    (hrecorded : AllRecorded (c.locals p).keepsCaptured c.shared c₂.shared uid)
    (hpushing : (issuer settings).run c₃ pushing = some c₄)
    (hpushes : (issuer settings).Along (fun c move _ => c.shared.redisUp = true ∧ move ≠ (p, .abort)) c₃ pushing)
    (hpushed : c₄.locals p = .idle) (hafter : (issuer settings).run c₄ after = some c')
    (hdrained : c'.shared.db.outboxDrained = true) :
    ∀ pair, .issued pair ∈ c₂.shared.log → pair.access.sub = uid →
      pair.access.inLastSecond c'.shared.now = false → ∀ user,
      getCurrentUser settings (some c'.shared.redis) c'.shared.now pair.access ≠ .ok user := by
  intro pair hissued huser hlast user
  have hreached : (issuer settings).run c₀ (before ++ (p, a) :: during) = some c₂ :=
    Interleaving.System.run_append.2 ⟨c, hbefore, Interleaving.System.run_cons.2 ⟨c₁, hcapture, hduring⟩⟩
  have hbound : (c₂.locals p).BoundTo uid
      (if (c.locals p).keepsCaptured then captureTargets c.shared.db uid c.shared.now else []) := by
    refine run_boundTo hproceeds ?_ hduring
    obtain ⟨l', hlocals, hstep⟩ := next_sound hcapture
    rw [hlocals, Function.update_self]
    exact hstep.capture hcaptures
  obtain ⟨l', -, hstep⟩ := next_sound hcommit
  refine captured_rejected hmode hstarts hdrawn ?_ hreached hcommit (hstep.commitsBound hbound hrevokes hcommits)
    hclient hrecorded.captured hpushing hpushes hpushed hafter hdrained hissued huser hlast user
  rw [List.append_assoc, List.cons_append]
  exact hrows

end

/-- Every pair of the log is recorded by an active row of the user. -/
def recordsAll (w w' : World) (uid : UserId) : Bool :=
  w'.log.all fun
    | .issued pair => w.db.sessions.entries.any fun entry =>
        entry.2.userId == uid && isActiveSession w.now entry.2 && entry.2.jwtJti == pair.access.jti
    | _ => true

theorem AllRecorded.of_recordsAll {w w' : World} {uid : UserId} (hall : recordsAll w w' uid = true) :
    AllRecorded true w w' uid := by
  intro pair hissued _ _
  obtain ⟨⟨id, row⟩, hmem, hrow⟩ := List.any_eq_true.1 (List.all_eq_true.1 hall _ hissued)
  simp only [Bool.and_eq_true, beq_iff_eq] at hrow
  obtain ⟨⟨howner, hactive⟩, hjti⟩ := hrow
  exact .inl ⟨rfl, id, row, Table.lookup_eq_some_iff.2 hmem, howner, hactive, hjti⟩

/-- An administrator makes the reader a writer, up to the capture of the rows. -/
def roleChangeToCapture : List (Pid × Action) :=
  (1, .begin (.update ⟨⟨9, .superadmin⟩, 1, { role := some (some .writer) }⟩ .load)) ::
    List.replicate 5 (1, .proceed)

/-- A worker delivers both effects. -/
def drainBoth : List (Pid × Action) :=
  (2, .begin (.drain ⟨0, true⟩ .claim)) :: (2, .claim [0, 1]) :: List.replicate 8 (2, .proceed)

/-- A token that is in the row reaches the blacklist by way of the outbox when the role changes. -/
theorem revocation_kills_tokens_roleChange :
    ∃ c₂ c', (issuer {}).run oneReader
        (firstLogin 0 ++ roleChangeToCapture ++ List.replicate 2 (1, .proceed)) = some c₂ ∧
      (issuer {}).run c₂ ((1, .proceed) :: drainBoth) = some c' ∧
      .issued (readerPair {}) ∈ c₂.shared.log ∧ ∀ user,
      getCurrentUser {} (some c'.shared.redis) c'.shared.now (readerPair {}).access ≠ .ok user := by
  have hruns : ((issuer {}).run oneReader (firstLogin 0 ++ roleChangeToCapture)).bind (fun c =>
      ((issuer {}).next c (1, .proceed)).bind fun c₁ => ((issuer {}).run c₁ [(1, .proceed)]).bind fun c₂ =>
        ((issuer {}).next c₂ (1, .proceed)).bind fun c₃ => ((issuer {}).run c₃ drainBoth).map fun c' =>
          ((decide ((c.locals 1).capturesUser = some 1 ∧ (c.locals 1).keepsCaptured = true ∧
                recordsAll c.shared c₂.shared 1 = true),
              decide ((c₂.locals 1).revokesUser = some 1 ∧ (c₂.locals 1).hasClient = true ∧
                c₃.shared.log ≠ c₂.shared.log)),
            decide (c₃.locals 1 = .idle), c'.shared.db.outboxDrained,
            decide (.issued (readerPair {}) ∈ c₂.shared.log),
            (readerPair {}).access.inLastSecond c'.shared.now)) =
        some ((true, true), true, true, true, false) := by
    decide +kernel
  have hrows : (issuer {}).Along (fun c _ _ => c.shared.rowsCover = true) oneReader
      (firstLogin 0 ++ roleChangeToCapture ++ (1, .proceed) :: ([(1, .proceed)] ++ (1, .proceed) ::
        ([] ++ drainBoth))) := by
    decide +kernel
  obtain ⟨c, hbefore, hrest⟩ := Option.bind_eq_some_iff.1 hruns
  obtain ⟨c₁, hcapture, hrest⟩ := Option.bind_eq_some_iff.1 hrest
  obtain ⟨c₂, hduring, hrest⟩ := Option.bind_eq_some_iff.1 hrest
  obtain ⟨c₃, hcommit, hrest⟩ := Option.bind_eq_some_iff.1 hrest
  obtain ⟨c', hafter, hfacts⟩ := Option.map_eq_some_iff.1 hrest
  simp only [Prod.mk.injEq, decide_eq_true_eq] at hfacts
  obtain ⟨⟨⟨hcaptures, hkeeps, hall⟩, hrevokes, hclient, hcommits⟩, hidle, hdrained, hissued, hlast⟩ := hfacts
  have hreached : (issuer {}).run oneReader
      (firstLogin 0 ++ roleChangeToCapture ++ List.replicate 2 (1, .proceed)) = some c₂ :=
    Interleaving.System.run_append.2 ⟨c, hbefore, Interleaving.System.run_cons.2 ⟨c₁, hcapture, hduring⟩⟩
  refine ⟨c₂, c', hreached, Interleaving.System.run_cons.2 ⟨c₃, hcommit, hafter⟩, hissued, ?_⟩
  exact revocation_kills_tokens {} rfl oneReader_starts (fun id row hrow => by cases hrow) hrows hbefore hcaptures
    hcapture hduring (by decide) hrevokes hclient hcommit hcommits (hkeeps ▸ .of_recordsAll hall) rfl
    (by exact trivial) hidle hafter hdrained _ hissued rfl hlast

/-- The reader signs in again, which re-stamps the row of the first session. -/
def signInAgain : List (Pid × Action) :=
  (0, .begin (.login ⟨.password "a" "secret", true⟩ .read)) :: List.replicate 2 (0, .proceed) ++
    (0, .select (some 0)) :: List.replicate 3 (0, .proceed)

/-- A run in which process `p` commits a revocation of every session of the reader and takes its post-commit
step, the outbox is empty, and the first token of the reader is accepted as if nothing had happened. -/
def FirstTokenSurvives (p : Pid) (before pushing : List (Pid × Action)) : Prop :=
  ∃ c c₁ c', (issuer {}).run oneReader before = some c ∧ (c.locals p).revokesUser = some 1 ∧
    (issuer {}).next c (p, .proceed) = some c₁ ∧ c₁.shared.log ≠ c.shared.log ∧
    (issuer {}).run c₁ pushing = some c' ∧ c'.locals p = .idle ∧ c'.shared.db.outboxDrained = true ∧
    .issued (readerPair {}) ∈ c.shared.log ∧
    getCurrentUser {} (some c'.shared.redis) c'.shared.now (readerPair {}).access =
      .ok (readerPair {}).access

theorem FirstTokenSurvives.of_run {p : Pid} {before pushing : List (Pid × Action)}
    (hruns : ((issuer {}).run oneReader before).bind (fun c =>
      ((issuer {}).next c (p, .proceed)).bind fun c₁ => ((issuer {}).run c₁ pushing).map fun c' =>
        (decide ((c.locals p).revokesUser = some 1 ∧ c₁.shared.log ≠ c.shared.log),
          decide (c'.locals p = .idle), c'.shared.db.outboxDrained,
          decide (.issued (readerPair {}) ∈ c.shared.log),
          decide (getCurrentUser {} (some c'.shared.redis) c'.shared.now (readerPair {}).access =
            .ok (readerPair {}).access))) = some (true, true, true, true, true)) :
    FirstTokenSurvives p before pushing := by
  obtain ⟨c, hbefore, hrest⟩ := Option.bind_eq_some_iff.1 hruns
  obtain ⟨c₁, hcommit, hrest⟩ := Option.bind_eq_some_iff.1 hrest
  obtain ⟨c', hpushing, hfacts⟩ := Option.map_eq_some_iff.1 hrest
  simp only [Prod.mk.injEq, decide_eq_true_eq] at hfacts
  obtain ⟨⟨hrevokes, hcommits⟩, hidle, hdrained, hissued, haccepted⟩ := hfacts
  exact ⟨c, c₁, c', hbefore, hrevokes, hcommit, hcommits, hpushing, hidle, hdrained, hissued, haccepted⟩

/-- An administrator's revocation does not reach the token that a second login has superseded, and the
deletion of the account does not even reach the one in the row. -/
theorem revocation_misses_tokens :
    FirstTokenSurvives 2 (signIn ++ signInAgain ++ revokeReader.take 3) (List.replicate 4 (2, .proceed)) ∧
    FirstTokenSurvives 2 (signIn ++ (2, .begin (.delete ⟨⟨9, .superadmin⟩, 1⟩ .load)) ::
      List.replicate 5 (2, .proceed)) [] := by
  refine ⟨.of_run ?_, .of_run ?_⟩
  · decide +kernel
  · decide +kernel

end FaAuthM8

import FaAuthM8.Proof.Delivery

/-!
# The blacklist outlasts the tokens

A revocation takes the expiry of a token from the token itself, or from the row that records its identifier,
by way of a capture or of the outbox. As long as no row expires before its token, every entry that Redis is
asked for lasts up to the last second of the token, and a later entry does not cut an earlier one short.
-/

namespace FaAuthM8

/-- The identifier has been drawn, and every token signed under it has the property. -/
def EveryToken (w : World) (jti : Jti) (P : AccessToken → Prop) : Prop :=
  jti < w.nextJti ∧ ∀ q token generation, .signed q token generation ∈ w.log → token.jti = jti → P token

/-- No token of the target expires after it. -/
def Covers (w : World) (target : RevocationTarget) : Prop :=
  EveryToken w target.jti (·.exp ≤ target.expiresAt)

/-- No row expires before the token whose identifier it records. -/
def World.rowsCover (w : World) : Bool :=
  w.db.sessions.entries.all fun entry => w.log.all fun
    | .signed _ token _ => token.jti != entry.2.jwtJti || token.exp ≤ entry.2.jwtExpiresAt
    | _ => true

theorem World.rowsCover_iff {w : World} : w.rowsCover = true ↔
    ∀ id row, w.db.sessions.lookup id = some row → ∀ q token generation,
      .signed q token generation ∈ w.log → token.jti = row.jwtJti → token.exp ≤ row.jwtExpiresAt := by
  simp only [rowsCover, List.all_eq_true]
  constructor
  · intro hall id row hrow q token generation hsigned hjti
    have hcovers := hall _ (Table.lookup_eq_some_iff.1 hrow) _ hsigned
    simpa [hjti] using hcovers
  · intro hall entry hentry event hevent
    cases event with
    | signed q token generation =>
        have hrow := Table.lookup_eq_some_iff.2 hentry
        by_cases hjti : token.jti = entry.2.jwtJti
        · simpa [hjti] using hall _ _ hrow q token generation hevent hjti
        · simp [hjti]
    | _ => rfl

/-- An entry set now for so many seconds lasts up to the last second of every token of the identifier. -/
def Outlasts (w : World) (jti : Jti) (ttl : Int) : Prop :=
  EveryToken w jti (·.exp < w.now + (ttl + 1) * second)

/-- The commands of a revocation. -/
def RedisCommand.Outlasts (w : World) : RedisCommand → Prop
  | .blacklistJti jti ttl => 0 < ttl ∧ FaAuthM8.Outlasts w jti ttl
  | .revoke _ => True
  | .register _ _ | .rotate _ _ _ => False

/-- The token is on the blacklist up to its last second. -/
def Listed (w : World) (token : AccessToken) : Prop :=
  ∃ vanishes, w.redis.blacklist token.jti = some vanishes ∧ token.exp < vanishes + second

/-- The token is on the blacklist up to its last second, or this second has begun. -/
def Silenced (w : World) (token : AccessToken) : Prop :=
  Listed w token ∨ token.exp < w.now + second

def OutboxEffect.targets : OutboxEffect → List RevocationTarget
  | .blacklist jti expiresAt => [⟨jti, expiresAt⟩]
  | .publish _ => []

/-- The effects that wait in the outbox cover their tokens. -/
def EffectsCover (w : World) : Prop :=
  ∀ id row, w.db.outbox.lookup id = some row → ∀ target ∈ row.effect.targets, Covers w target

/-- A worker's copy has the effect of the stored row. -/
structure SameEffect (w : World) (id : OutboxId) (copy : RevocationOutbox) : Prop where
  drawn : id < w.db.nextOutboxId
  effect : ∀ row, w.db.outbox.lookup id = some row → row.effect = copy.effect

/-- The tokens of the effect need no more work. -/
def EffectDone (w : World) (effect : OutboxEffect) : Prop :=
  ∀ target ∈ effect.targets, EveryToken w target.jti (Silenced w)

def DrainPhase.Covering (w : World) : DrainPhase → Prop
  | .claim | .next _ => True
  | .deliver id copy _ => SameEffect w id copy ∧ ∀ target ∈ copy.effect.targets, Covers w target
  | .revoke _ id copy _ => SameEffect w id copy ∧ EffectDone w copy.effect
  | .finish success id copy _ => SameEffect w id copy ∧ (success = true → EffectDone w copy.effect)

/-- What a request has captured covers its tokens, and so does what it goes on to send. -/
def Local.Covering (w : World) : Local → Prop
  | .update _ (.purge _ _ _ targets) | .update _ (.commit _ _ _ targets _) =>
      ∀ target ∈ targets, Covers w target
  | .repair _ (.purge _ targets) | .repair _ (.commit _ targets _) => ∀ target ∈ targets, Covers w target
  | .revokeSession _ (.purge row) | .revokeSession _ (.commit row _) => Covers w row.target
  | .revokeUser _ (.purge targets) | .revokeUser _ (.commit targets _) =>
      ∀ target ∈ targets, Covers w target
  | .postCommit targets => ∀ target ∈ targets, Covers w target
  | .commands rest => ∀ command ∈ rest, command.Outlasts w
  | .logout r _ => ∃ pair, .issued pair ∈ w.log ∧ pair.access = r.access
  | .drain r phase => r.now ≤ w.now ∧ phase.Covering w
  | _ => True

section

variable {settings : Settings} {p q : Pid} {w w' : World} {l l' m : Local} {a : Action}

/-! ### What a step keeps -/

theorem EveryToken.mono {jti : Jti} {P P' : AccessToken → Prop} (hevery : EveryToken w jti P)
    (hstep : Step settings p w l a w' l')
    (hkept : ∀ q token generation, .signed q token generation ∈ w.log → P token → P' token) :
    EveryToken w' jti P' := by
  obtain ⟨hdrawn, hall⟩ := hevery
  refine ⟨Nat.lt_of_lt_of_le hdrawn hstep.nextJti_le, fun q token generation hsigned hjti => ?_⟩
  rcases hstep.mem_log hsigned with hold | hlogged
  · exact hkept q token generation hold (hall q token generation hold hjti)
  · cases hlogged with
    | signed hlocal hpair =>
        -- a new token has the next identifier, which had not been drawn
        have hnew := (createAuthTokens_signedFrom hpair).accessJti
        rw [hjti] at hnew
        exact absurd hdrawn (hnew ▸ Nat.lt_irrefl _)

theorem Covers.mono {target : RevocationTarget} (hcovers : Covers w target)
    (hstep : Step settings p w l a w' l') : Covers w' target :=
  EveryToken.mono hcovers hstep fun _ _ _ _ h => h

theorem Outlasts.mono {jti : Jti} {ttl : Int} (houtlasts : Outlasts w jti ttl)
    (hstep : Step settings p w l a w' l') : Outlasts w' jti ttl := by
  refine EveryToken.mono houtlasts hstep fun _ token _ _ hexp => ?_
  have hnow := hstep.clocks.1
  show token.exp < w'.now + (ttl + 1) * second
  omega

theorem RedisCommand.Outlasts.mono {command : RedisCommand} (houtlasts : command.Outlasts w)
    (hstep : Step settings p w l a w' l') : command.Outlasts w' := by
  cases command with
  | blacklistJti jti ttl => exact ⟨houtlasts.1, houtlasts.2.mono hstep⟩
  | revoke => exact trivial
  | register | rotate => exact houtlasts

theorem SameEffect.mono {id : OutboxId} {copy : RevocationOutbox} (hsame : SameEffect w id copy)
    (hgrows : OutboxGrows w w') : SameEffect w' id copy where
  drawn := Nat.lt_of_lt_of_le hsame.drawn hgrows.nextOutboxId
  effect row' hrow' := by
    obtain ⟨row, hrow, heffect⟩ := hgrows.effect id row' hsame.drawn hrow'
    rw [heffect, hsame.effect row hrow]

/-! ### The blacklist -/

/-- How a step may change the blacklist: it sets one entry that outlasts the tokens. -/
inductive BlacklistChange (w w' : World) : Prop
  | same (hsame : w'.redis.blacklist = w.redis.blacklist)
  | set {jti : Jti} {ttl : Int} (houtlasts : Outlasts w jti ttl)
      (hset : w'.redis.blacklist = Function.update w.redis.blacklist jti (some (w.now + ttl * second)))

theorem World.send_blacklist {command : RedisCommand} (hsend : w.send command = some w')
    (houtlasts : ∀ jti ttl, command = .blacklistJti jti ttl → Outlasts w jti ttl) :
    BlacklistChange w w' := by
  obtain ⟨-, redis, hexecute, rfl⟩ := World.send_eq_some hsend
  cases command with
  | register jti ttl =>
      rw [Redis.execute] at hexecute
      obtain ⟨-, heq⟩ := Option.ite_none_right_eq_some.1 hexecute
      cases heq
      exact .same rfl
  | rotate oldJti newJti ttl =>
      rw [Redis.execute] at hexecute
      split at hexecute
      · obtain ⟨-, heq⟩ := Option.ite_none_right_eq_some.1 hexecute
        cases heq
        exact .same rfl
      · cases hexecute
        exact .same rfl
  | revoke jti =>
      cases hexecute
      exact .same rfl
  | blacklistJti jti ttl =>
      rw [Redis.execute] at hexecute
      obtain ⟨-, heq⟩ := Option.ite_none_right_eq_some.1 hexecute
      cases heq
      exact .set (houtlasts jti ttl rfl) rfl

private theorem blacklist_send {command : RedisCommand} (hsend : w.send command = some w')
    (hother : ∀ jti ttl, command ≠ .blacklistJti jti ttl) : BlacklistChange w w' :=
  World.send_blacklist hsend fun jti ttl heq => absurd heq (hother jti ttl)

/-- The entry that is set at `now` for what was left at an earlier `clock`. -/
theorem Covers.outlasts {jti : Jti} {clock expiresAt : Int} (hcovers : Covers w ⟨jti, expiresAt⟩)
    (hclock : clock ≤ w.now) : Outlasts w jti (wholeSeconds (expiresAt - clock)) := by
  refine ⟨hcovers.1, fun q token generation hsigned hjti => ?_⟩
  have hexp : token.exp ≤ expiresAt := hcovers.2 q token generation hsigned hjti
  have hleft := lt_wholeSeconds_add_one_mul (expiresAt - clock)
  show token.exp < w.now + (wholeSeconds (expiresAt - clock) + 1) * second
  omega

theorem JtisDrawn.covers (hdrawn : JtisDrawn w) {pair : TokenPair} (hissued : .issued pair ∈ w.log) :
    Covers w ⟨pair.access.jti, pair.access.exp⟩ := by
  obtain ⟨q, generation, hsigned, -⟩ := hdrawn.issued pair hissued
  refine ⟨hdrawn.signed _ _ _ hsigned, fun q' token generation' hsigned' hjti => ?_⟩
  obtain ⟨-, rfl, -⟩ := hdrawn.once _ _ _ _ _ _ hsigned' hsigned hjti
  exact Int.le_refl _

theorem Step.blacklistChange (hdrawn : JtisDrawn w) (hcovering : l.Covering w)
    (hstep : Step settings p w l a w' l') : BlacklistChange w w' := by
  cases hstep with
  | begin | tick | setRedis | reap | abort | error | commandError | postCommit | commandsDone =>
      exact .same rfl
  | @command command _ _ _ hsend =>
      refine World.send_blacklist hsend fun jti ttl heq => ?_
      have houtlasts := hcovering command List.mem_cons_self
      rw [heq] at houtlasts
      exact houtlasts.2
  | login hstep =>
      cases hstep with
      | register hsend => exact blacklist_send hsend (by simp)
      | _ => exact .same rfl
  | refresh hstep =>
      cases hstep with
      | rotate _ hsend => exact blacklist_send hsend (by simp)
      | _ => exact .same rfl
  | logout hstep =>
      cases hstep with
      | blacklist hsend =>
          obtain ⟨pair, hissued, haccess⟩ := hcovering
          refine World.send_blacklist hsend fun jti ttl heq => ?_
          obtain ⟨rfl, rfl⟩ := RedisCommand.blacklistJti.inj heq
          have hcovers := hdrawn.covers hissued
          rw [haccess] at hcovers
          exact hcovers.outlasts (Int.le_refl _)
      | refreshRevoke _ hsend => exact blacklist_send hsend (by simp)
      | _ => exact .same rfl
  | drain hstep =>
      cases hstep with
      | blacklist heffect hsend =>
          obtain ⟨hclock, -, hcovers⟩ := hcovering
          refine World.send_blacklist hsend fun jti ttl heq => ?_
          obtain ⟨rfl, rfl⟩ := RedisCommand.blacklistJti.inj heq
          exact (hcovers _ (by simp [heffect, OutboxEffect.targets])).outlasts hclock
      | revoke hsend => exact blacklist_send hsend (by simp)
      | _ => exact .same rfl
  | update hstep | delete hstep | repair hstep | revokeSession hstep | revokeUser hstep
  | deleteMe hstep | legacySweep hstep => cases hstep <;> exact .same rfl

/-- A token that needs no more work stays so: every entry that is set for it lasts long enough. -/
theorem Step.silenced (hdrawn : JtisDrawn w) (hcovering : l.Covering w)
    (hstep : Step settings p w l a w' l') {token : AccessToken} {generation : Nat}
    (hsigned : .signed q token generation ∈ w.log) (hsilenced : Silenced w token) :
    Silenced w' token := by
  rcases hsilenced with ⟨vanishes, hlisted, hexp⟩ | hlast
  · left
    cases hstep.blacklistChange hdrawn hcovering with
    | same hsame => exact ⟨vanishes, by rw [hsame, hlisted], hexp⟩
    | @set jti ttl houtlasts hset =>
        by_cases hjti : token.jti = jti
        · refine ⟨w.now + ttl * second, by rw [hset, hjti, Function.update_self], ?_⟩
          have hlasts := houtlasts.2 q token generation hsigned hjti
          rw [Int.add_mul, Int.one_mul] at hlasts
          omega
        · exact ⟨vanishes, by rw [hset, Function.update_of_ne hjti, hlisted], hexp⟩
  · right
    have hnow := hstep.clocks.1
    omega

theorem EffectDone.mono {effect : OutboxEffect} (hdone : EffectDone w effect) (hdrawn : JtisDrawn w)
    (hcovering : l.Covering w) (hstep : Step settings p w l a w' l') : EffectDone w' effect := by
  intro target htarget
  refine (hdone target htarget).mono hstep fun _ _ _ hsigned hsilenced => ?_
  exact hstep.silenced hdrawn hcovering hsigned hsilenced

/-! ### What requests go on to send -/

theorem Local.Covering.mono (hdrawn : JtisDrawn w) (hfresh : w.db.IdsFresh) (hmover : l.Covering w)
    (hstep : Step settings p w l a w' l') (hcovering : m.Covering w) : m.Covering w' := by
  have htargets {targets : List RevocationTarget} (hall : ∀ target ∈ targets, Covers w target) :
      ∀ target ∈ targets, Covers w' target :=
    fun target htarget => (hall target htarget).mono hstep
  have hgrows := hstep.outboxGrows hfresh
  cases m with
  | update r phase =>
      cases phase with
      | purge | commit => exact htargets hcovering
      | _ => exact trivial
  | repair r phase =>
      cases phase with
      | purge | commit => exact htargets hcovering
      | _ => exact trivial
  | revokeSession r phase =>
      cases phase with
      | purge | commit => exact Covers.mono hcovering hstep
      | _ => exact trivial
  | revokeUser r phase =>
      cases phase with
      | purge | commit => exact htargets hcovering
      | _ => exact trivial
  | postCommit => exact htargets hcovering
  | commands => exact fun command hmem => (hcovering command hmem).mono hstep
  | logout =>
      obtain ⟨pair, hissued, haccess⟩ := hcovering
      exact ⟨pair, hstep.log_mono hissued, haccess⟩
  | drain r phase =>
      obtain ⟨hclock, hphase⟩ := hcovering
      refine ⟨Int.le_trans hclock hstep.clocks.1, ?_⟩
      cases phase with
      | claim | next => exact trivial
      | deliver => exact ⟨hphase.1.mono hgrows, htargets hphase.2⟩
      | revoke => exact ⟨hphase.1.mono hgrows, hphase.2.mono hdrawn hmover hstep⟩
      | finish =>
          exact ⟨hphase.1.mono hgrows, fun hsuccess => (hphase.2 hsuccess).mono hdrawn hmover hstep⟩
  | _ => exact trivial

theorem covers_of_row (hdrawn : JtisDrawn w) (hrows : w.rowsCover = true) {id : SessionId}
    {row : ClientSession} (hrow : w.db.sessions.lookup id = some row) : Covers w row.target :=
  ⟨hdrawn.rows id row hrow, World.rowsCover_iff.1 hrows id row hrow⟩

theorem captureTargets_covers (hdrawn : JtisDrawn w) (hrows : w.rowsCover = true) (uid : UserId)
    (now : Int) : ∀ target ∈ captureTargets w.db uid now, Covers w target := by
  intro target htarget
  obtain ⟨id, row, hrow, -, -, rfl⟩ := mem_captureTargets.1 htarget
  exact covers_of_row hdrawn hrows hrow

theorem applyPostCommitRevocation_outlasts {targets : List RevocationTarget}
    (hcovers : ∀ target ∈ targets, Covers w target) :
    ∀ command ∈ applyPostCommitRevocation w.now targets, command.Outlasts w := by
  intro command hcommand
  obtain ⟨target, htarget, hmem⟩ := List.mem_flatMap.1 hcommand
  rw [postCommitCommands] at hmem
  split at hmem
  · next hpositive =>
      rw [List.mem_cons, List.mem_singleton] at hmem
      rcases hmem with rfl | rfl
      · exact ⟨hpositive, (hcovers target htarget).outlasts (Int.le_refl _)⟩
      · exact trivial
  · obtain rfl := List.mem_singleton.1 hmem
    exact trivial

theorem Outlasts.listed {jti : Jti} {ttl : Int} (houtlasts : Outlasts w jti ttl)
    (hsend : w.send (.blacklistJti jti ttl) = some w') {token : AccessToken} {generation : Nat}
    (hsigned : .signed q token generation ∈ w.log) (hjti : token.jti = jti) : Listed w' token := by
  obtain ⟨-, redis, hexecute, rfl⟩ := World.send_eq_some hsend
  rw [Redis.execute] at hexecute
  obtain ⟨-, heq⟩ := Option.ite_none_right_eq_some.1 hexecute
  cases heq
  refine ⟨w.now + ttl * second, by simp [hjti], ?_⟩
  have hlasts := houtlasts.2 q token generation hsigned hjti
  rw [Int.add_mul, Int.one_mul] at hlasts
  omega

/-- A worker has dealt with the effect: Redis has the entry, or its last second has begun. -/
theorem DrainStep.covering {r : DrainRequest} {phase : DrainPhase} (hgrounded : Grounded w)
    (heffects : EffectsCover w) (hbefore : (Local.drain r phase).Covering w)
    (hafter : (Local.drain r phase).Covering w') (hdrain : DrainStep settings p w r phase w' l') :
    l'.Covering w' := by
  have hstep : Step settings p w (.drain r phase) .proceed w' l' := .drain hdrain
  obtain ⟨hclock, hcovering⟩ := hbefore
  obtain ⟨hclock', hcovering'⟩ := hafter
  cases hdrain with
  | claim => exact ⟨hclock', trivial⟩
  | done => exact trivial
  | @next id rest copy hcopy =>
      refine ⟨hclock, ⟨hgrounded.fresh.outbox id copy hcopy, fun row hrow => ?_⟩, heffects id copy hcopy⟩
      rw [Option.some.inj (hcopy.symm.trans hrow)]
  | @lapsed id rest copy jti expiresAt heffect httl =>
      refine ⟨hclock, hcovering.1, fun _ target htarget => ?_⟩
      have hcovers := hcovering.2 target htarget
      rw [heffect] at htarget
      obtain rfl := List.mem_singleton.1 htarget
      refine ⟨hcovers.1, fun q token generation hsigned hjti => .inr ?_⟩
      have hexp : token.exp ≤ expiresAt := hcovers.2 q token generation hsigned hjti
      have hless : expiresAt - r.now < second := by
        rw [← Int.not_le, ← wholeSeconds_pos_iff]
        exact Int.not_lt.2 httl
      omega
  | @blacklist id rest copy jti expiresAt w' heffect hsend =>
      refine ⟨hclock', hcovering'.1, fun target htarget => ?_⟩
      have hcovers := hcovering.2 target htarget
      have hdrawn := hstep.nextJti_le
      rw [heffect] at htarget
      obtain rfl := List.mem_singleton.1 htarget
      refine ⟨Nat.lt_of_lt_of_le hcovers.1 hdrawn, fun q token generation hsigned hjti => .inl ?_⟩
      have hlog := (World.send_frame hsend).2.2.2.2.2
      have hsigned' : .signed q token generation ∈ w.log := by simpa [hlog] using hsigned
      exact (hcovers.outlasts hclock).listed hsend hsigned' hjti
  | publish heffect =>
      refine ⟨hclock', hcovering'.1, fun _ target htarget => ?_⟩
      rw [heffect] at htarget
      exact absurd htarget List.not_mem_nil
  | deliveryFailed hphase =>
      refine ⟨hclock', ?_, fun hsuccess => absurd hsuccess Bool.false_ne_true⟩
      rcases hphase with rfl | ⟨jti, rfl⟩
      · exact hcovering'.1
      · exact hcovering'.1
  | revoke => exact ⟨hclock', hcovering'.1, fun _ => hcovering'.2⟩
  | finish => exact ⟨hclock', trivial⟩

theorem Begins.covering {request : Local} (hbegins : Begins settings w request) : request.Covering w := by
  cases hbegins with
  | logoutStateful _ _ hfirst haccess | logoutHybrid _ _ hfirst haccess => exact ⟨_, hfirst, haccess⟩
  | drain hnow => exact ⟨Int.le_of_eq hnow, trivial⟩
  | _ => exact trivial

theorem Step.covering (hgrounded : Grounded w) (heffects : EffectsCover w) (hrows : w.rowsCover = true)
    (hcovering : l.Covering w) (hstep : Step settings p w l a w' l') : l'.Covering w' := by
  have hafter : l.Covering w' :=
    hcovering.mono hgrounded.drawn hgrounded.fresh hstep hcovering
  have hcaptured (uid : UserId) : ∀ target ∈ captureTargets w.db uid w.now, Covers w' target :=
    fun target htarget =>
      (captureTargets_covers hgrounded.drawn hrows uid w.now target htarget).mono hstep
  cases hstep with
  | begin hbegins => exact hbegins.covering
  | tick | setRedis | reap | abort | error | commandError | commandsDone => exact trivial
  | postCommit => exact applyPostCommitRevocation_outlasts hcovering
  | command => exact fun command hmem => hafter command (List.mem_cons_of_mem _ hmem)
  | update hstep =>
      cases hstep with
      | apply => exact hcaptured _
      | applyUnchanged => exact fun target htarget => absurd htarget List.not_mem_nil
      | purge => exact hafter
      | _ => exact trivial
  | delete hstep => cases hstep <;> exact trivial
  | repair hstep =>
      cases hstep with
      | capture => exact hcaptured _
      | purge => exact hafter
      | _ => exact trivial
  | login hstep => cases hstep <;> exact trivial
  | refresh hstep => cases hstep <;> exact trivial
  | @logout r _ _ _ _ hstep =>
      cases hstep with
      | refreshRevoke | refreshFailed | refreshSkip =>
          obtain ⟨phase, heq, -⟩ := r.finish_eq _ _
          rw [heq]
          exact hafter
      | respond => exact trivial
      | _ => exact hafter
  | revokeSession hstep =>
      cases hstep with
      | load hrow => exact covers_of_row hgrounded.drawn hrows hrow
      | purge => exact hafter
      | commit =>
          split
          · intro target htarget
            obtain rfl := List.mem_singleton.1 htarget
            exact hafter
          · exact trivial
  | revokeUser hstep =>
      cases hstep with
      | capture => exact hcaptured _
      | purge => exact hafter
      | commit =>
          split
          · exact hafter
          · exact trivial
  | deleteMe hstep => cases hstep <;> exact trivial
  | legacySweep hstep => cases hstep <;> exact trivial
  | drain hstep => exact hstep.covering hgrounded heffects hcovering hafter

theorem CommitsTransition.covering {uid : UserId} {generation : Nat} {targets : List RevocationTarget}
    (hcommits : CommitsTransition w w' uid generation targets l) (hcovering : l.Covering w) :
    ∀ target ∈ targets, Covers w target := by
  cases hcommits with
  | update | repair => exact hcovering

theorem Step.effectsCover (hfresh : w.db.IdsFresh) (hcovering : l.Covering w)
    (hstep : Step settings p w l a w' l') (heffects : EffectsCover w) : EffectsCover w' := by
  intro id row' hrow' target htarget
  refine Covers.mono ?_ hstep
  cases hstep.outboxChange hfresh with
  | same houtbox => exact heffects id row' (houtbox ▸ hrow') target htarget
  | enqueued hcommits henqueued =>
      rcases henqueued.origin id row' hrow' with hold | ⟨hmem, -⟩
      · exact heffects id row' hold target htarget
      · rcases mem_enqueueRoleChangeEffects.1 hmem with ⟨captured, hcaptured, rfl⟩ | rfl
        · obtain rfl := List.mem_singleton.1 htarget
          exact hcommits.covering hcovering captured hcaptured
        · exact absurd htarget List.not_mem_nil
  | leased _ hleased =>
      rcases hleased id with hsame | ⟨row, hrow, -, hlease⟩
      · exact heffects id row' (hsame ▸ hrow') target htarget
      · obtain rfl := Option.some.inj (hrow'.symm.trans hlease)
        exact heffects id row hrow target htarget
  | @finished r success id' copy current rest _ hcurrent houtbox =>
      rw [houtbox, Table.lookup_insert_eq] at hrow'
      split at hrow'
      · next hid =>
          subst hid
          obtain ⟨-, heffect, -⟩ :=
            finished_eq settings r.now success copy current (Option.some.inj hrow').symm
          rw [heffect] at htarget
          exact heffects id current hcurrent target htarget
      · exact heffects id row' hrow' target htarget
  | reaped _ _ houtbox => exact heffects id row' ((houtbox id row').1 hrow').1 target htarget

end

end FaAuthM8

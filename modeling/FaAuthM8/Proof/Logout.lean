import FaAuthM8.Proof.Issuing

/-!
# Logging out

A logout takes up to three swallowed steps: the row and the blacklist entry of the access token, the
allowlist entry of the refresh token, and the rows of one of the two identifiers. When the pair shares its
identifier, an answer of success means that the rows are gone for good, with one exception: under
`fail_open`, a logout that found no row to delete before Redis failed it goes on without deleting any.
-/

namespace FaAuthM8

/-- The session behind `jti` is over: no row carries it, it is inactive for everyone, and in no run that
goes on from here does another refresh that presents it get past the check of its lineage. -/
structure SessionOver (settings : Settings) (c : Interleaving.Config World Local) (jti : Jti) : Prop where
  unrecorded : ∀ id row, c.shared.db.sessions.lookup id = some row → row.jwtJti ≠ jti
  inactive : ∀ uid, (decideJtiStatus c.shared.db jti uid).active = false
  refused : ∀ schedule c', (issuer settings).run c schedule = some c' → ∀ q,
    (c'.locals q).exchanges jti → (c.locals q).exchanges jti

/-- Redis carries out the revocation of the refresh token of a logout. -/
def LogoutRequest.redisAnswers (r : LogoutRequest) (w : World) : Bool :=
  r.redis && w.redisUp && r.refresh.isCurrent w.now

/-- In stateful mode the rows of a valid access token are gone. -/
def AccessOver (settings : Settings) (w : World) (access : AccessToken) : Prop :=
  settings.isStateful = true → CarriedIn w access.jti [] ∨ access.isCurrent w.now = false

/-- A logout deletes the rows of one of the identifiers it was sent. -/
def Presented (access : AccessToken) (refresh : RefreshToken) (jti : Jti) : Prop :=
  jti = access.jti ∨ jti = refresh.jti

/-- What a logout has done when it has reached a point. -/
def LogoutPhase.Done (settings : Settings) (w : World) (r : LogoutRequest) : LogoutPhase → Prop
  | .accessPurge => True
  | .accessCommit doomed => CarriedIn w r.access.jti doomed
  | .blacklist => AccessOver settings w r.access
  | .refreshRevoke accessJti _ =>
      AccessOver settings w r.access ∧ ∀ jti, accessJti = some jti → jti = r.access.jti
  | .sessionPurge jti _ => AccessOver settings w r.access ∧ Presented r.access r.refresh jti
  | .sessionCommit jti doomed _ =>
      AccessOver settings w r.access ∧ Presented r.access r.refresh jti ∧ CarriedIn w jti doomed
  | .respond deleted anyFailed => AccessOver settings w r.access ∧
      (∀ jti, deleted = some jti → Presented r.access r.refresh jti ∧ CarriedIn w jti []) ∧
      (deleted = none → settings.effectiveFailureMode .sessionWrite = .failClosed → anyFailed = true)

/-- A logout knows its tokens were issued, and what it has done so far. -/
def Local.LogsOut (settings : Settings) (w : World) : Local → Prop
  | .logout r phase =>
      (JtiIssued w r.access.jti ∧ JtiIssued w r.refresh.jti) ∧ phase.Done settings w r
  | _ => True

/-- What an answer of success has left behind. -/
structure LogoutAnswered (settings : Settings) (w : World) (access : AccessToken)
    (refresh : RefreshToken) (deleted : Option Jti) : Prop where
  accessIssued : JtiIssued w access.jti
  refreshIssued : JtiIssued w refresh.jti
  accessOver : AccessOver settings w access
  gone : ∀ jti, deleted = some jti → Presented access refresh jti ∧ CarriedIn w jti []
  skipped : deleted = none → settings.effectiveFailureMode .sessionWrite = .failOpen

def LogoutsAnswered (settings : Settings) (w : World) : Prop :=
  ∀ access refresh deleted, .loggedOut access refresh deleted ∈ w.log →
    LogoutAnswered settings w access refresh deleted

theorem Presented.issued {w : World} {access : AccessToken} {refresh : RefreshToken} {jti : Jti}
    (hpresented : Presented access refresh jti) (haccess : JtiIssued w access.jti)
    (hrefresh : JtiIssued w refresh.jti) : JtiIssued w jti := by
  rcases hpresented with rfl | rfl
  · exact haccess
  · exact hrefresh

theorem AccessToken.expired_mono {token : AccessToken} {now now' : Int}
    (hexpired : token.isCurrent now = false) (hle : now ≤ now') : token.isCurrent now' = false := by
  rw [isCurrent, decide_eq_false_iff_not, Int.not_lt] at hexpired ⊢
  exact Int.le_trans hexpired hle

section

variable {settings : Settings} {p q : Pid} {w w' : World} {l l' : Local} {a : Action}

theorem Step.accessOver (hfresh : w.db.IdsFresh) (hissuing : Issuing settings p w l)
    (hstep : Step settings p w l a w' l') {access : AccessToken} (hissued : JtiIssued w access.jti)
    (hover : AccessOver settings w access) : AccessOver settings w' access := by
  intro hmode
  rcases hover hmode with hgone | hexpired
  · exact .inl (hstep.carriedIn hfresh hissuing hissued hgone)
  · exact .inr (AccessToken.expired_mono hexpired hstep.clocks.1)

theorem Step.gone (hfresh : w.db.IdsFresh) (hissuing : Issuing settings p w l)
    (hstep : Step settings p w l a w' l') {access : AccessToken} {refresh : RefreshToken}
    (haccess : JtiIssued w access.jti) (hrefresh : JtiIssued w refresh.jti) {deleted : Option Jti}
    (hgone : ∀ jti, deleted = some jti → Presented access refresh jti ∧ CarriedIn w jti []) :
    ∀ jti, deleted = some jti → Presented access refresh jti ∧ CarriedIn w' jti [] := by
  intro jti hjti
  obtain ⟨hpresented, hcarried⟩ := hgone jti hjti
  exact ⟨hpresented,
    hstep.carriedIn hfresh hissuing (hpresented.issued haccess hrefresh) hcarried⟩

/-- What a logout has done is not undone by a step, of itself or of another process. -/
theorem Step.done_mono (hfresh : w.db.IdsFresh) (hissuing : Issuing settings p w l)
    (hstep : Step settings p w l a w' l') {m : Local} (hlogsOut : m.LogsOut settings w) :
    m.LogsOut settings w' := by
  cases m with
  | logout r phase =>
      obtain ⟨⟨haccess, hrefresh⟩, hdone⟩ := hlogsOut
      have hover := hstep.accessOver hfresh hissuing haccess
      refine ⟨⟨hstep.jtiIssued haccess, hstep.jtiIssued hrefresh⟩, ?_⟩
      cases phase with
      | accessPurge => exact trivial
      | accessCommit => exact hstep.carriedIn hfresh hissuing haccess hdone
      | blacklist => exact hover hdone
      | refreshRevoke | sessionPurge => exact ⟨hover hdone.1, hdone.2⟩
      | sessionCommit =>
          obtain ⟨haccessOver, hpresented, hcarried⟩ := hdone
          exact ⟨hover haccessOver, hpresented,
            hstep.carriedIn hfresh hissuing (hpresented.issued haccess hrefresh) hcarried⟩
      | respond =>
          obtain ⟨haccessOver, hgone, hskipped⟩ := hdone
          exact ⟨hover haccessOver, hstep.gone hfresh hissuing haccess hrefresh hgone, hskipped⟩
  | _ => exact trivial

theorem LogoutRequest.finish_logsOut {r : LogoutRequest} {result : Option Jti} {anyFailed : Bool}
    (hissued : JtiIssued w r.access.jti ∧ JtiIssued w r.refresh.jti)
    (hover : AccessOver settings w r.access)
    (hpresented : ∀ jti, result = some jti → Presented r.access r.refresh jti)
    (hskipped : result = none → settings.effectiveFailureMode .sessionWrite = .failClosed →
      anyFailed = true) : (r.finish result anyFailed).LogsOut settings w := by
  cases result with
  | none => exact ⟨hissued, hover, nofun, hskipped⟩
  | some jti => exact ⟨hissued, hover, hpresented jti rfl⟩

theorem LogoutStep.logsOut {r : LogoutRequest} {phase : LogoutPhase} (hbefore : phase.Done settings w r)
    (hafter : (Local.logout r phase).LogsOut settings w')
    (hlogout : LogoutStep settings p w r phase w' l') : l'.LogsOut settings w' := by
  obtain ⟨hissued, hdone⟩ := hafter
  have hself {jti : Jti} (heq : some r.access.jti = some jti) : jti = r.access.jti :=
    (Option.some.inj heq).symm
  cases hlogout with
  | accessPurge => exact ⟨hissued, carriedIn_sessionIds w r.access.jti⟩
  | accessExpired hcurrent => exact ⟨hissued, fun _ => .inr hcurrent, nofun⟩
  | accessCommit => exact ⟨hissued, fun _ => .inl (CarriedIn.deleted hbefore rfl)⟩
  | blacklist | blacklistSkip => exact ⟨hissued, hdone, fun _ => hself⟩
  | blacklistFailed => exact ⟨hissued, hdone, nofun⟩
  | @refreshRevoke accessJti =>
      refine LogoutRequest.finish_logsOut hissued hdone.1 (fun jti heq => ?_) nofun
      cases accessJti with
      | none => exact .inr (Option.some.inj heq).symm
      | some accessJti => exact .inl ((Option.some.inj heq).symm.trans (hdone.2 accessJti rfl))
  | refreshFailed =>
      exact LogoutRequest.finish_logsOut hissued hdone.1 (fun jti heq => .inl (hdone.2 jti heq))
        fun _ _ => rfl
  | refreshSkip =>
      refine LogoutRequest.finish_logsOut hissued hdone.1 (fun jti heq => .inl (hdone.2 jti heq))
        fun _ hclosed => ?_
      rw [hclosed]
      exact Bool.or_true _
  | @sessionPurge jti => exact ⟨hissued, hdone.1, hdone.2, carriedIn_sessionIds w jti⟩
  | sessionCommit =>
      refine ⟨hissued, hdone.1, fun jti heq => ?_, nofun⟩
      obtain rfl := Option.some.inj heq
      exact ⟨hdone.2.1, CarriedIn.deleted hbefore.2.2 rfl⟩
  | respond => exact trivial

theorem Begins.logsOut (hdrawn : JtisDrawn w) {request : Local} (hbegins : Begins settings w request) :
    request.LogsOut settings w := by
  cases hbegins with
  | logoutStateful _ _ hfirst haccess hsecond hrefresh =>
      exact ⟨⟨⟨_, hfirst, congrArg _ haccess⟩, hrefresh ▸ hdrawn.refreshIssued hsecond⟩, trivial⟩
  | logoutHybrid hmode _ hfirst haccess hsecond hrefresh =>
      refine ⟨⟨⟨_, hfirst, congrArg _ haccess⟩, hrefresh ▸ hdrawn.refreshIssued hsecond⟩, ?_, nofun⟩
      intro hstateful
      rw [hmode] at hstateful
      cases hstateful
  | _ => exact trivial

theorem Step.logsOut (hgrounded : Grounded w) (htracked : Tracked settings p w l)
    (hlogsOut : l.LogsOut settings w) (hstep : Step settings p w l a w' l') : l'.LogsOut settings w' := by
  have hafter := hstep.done_mono hgrounded.fresh htracked.issuing hlogsOut
  cases hstep with
  | begin hbegins => exact hbegins.logsOut hgrounded.drawn
  | tick | setRedis | reap | abort | error | commandError | postCommit | commandsDone | command =>
      exact trivial
  | update hstep => cases hstep <;> exact trivial
  | delete hstep => cases hstep <;> exact trivial
  | repair hstep => cases hstep <;> exact trivial
  | login hstep => cases hstep <;> exact trivial
  | refresh hstep => cases hstep <;> exact trivial
  | logout hstep => exact hstep.logsOut hlogsOut.2 hafter
  | revokeSession hstep =>
      cases hstep with
      | load | purge => exact trivial
      | commit => split <;> exact trivial
  | revokeUser hstep =>
      cases hstep with
      | capture | purge => exact trivial
      | commit => split <;> exact trivial
  | deleteMe hstep => cases hstep <;> exact trivial
  | legacySweep hstep => cases hstep <;> exact trivial
  | drain hstep => cases hstep <;> exact trivial

theorem Step.logoutsAnswered (hgrounded : Grounded w) (htracked : Tracked settings p w l)
    (hanswered : LogoutsAnswered settings w) (hlogsOut : l.LogsOut settings w)
    (hstep : Step settings p w l a w' l') : LogoutsAnswered settings w' := by
  intro access refresh deleted hlogged
  rcases hstep.mem_log hlogged with hold | hnew
  · obtain ⟨haccess, hrefresh, hover, hgone, hskipped⟩ := hanswered access refresh deleted hold
    exact ⟨hstep.jtiIssued haccess, hstep.jtiIssued hrefresh,
      hstep.accessOver hgrounded.fresh htracked.issuing haccess hover,
      hstep.gone hgrounded.fresh htracked.issuing haccess hrefresh hgone, hskipped⟩
  · have hafter := hstep.done_mono hgrounded.fresh htracked.issuing hlogsOut
    cases hnew with
    | @loggedOut r _ anyFailed hlocal hanswer =>
        subst hlocal
        obtain ⟨⟨haccess, hrefresh⟩, hover, hgone, hskipped⟩ := hafter
        refine ⟨haccess, hrefresh, hover, hgone, fun hnone => ?_⟩
        cases hmode : settings.effectiveFailureMode .sessionWrite with
        | failOpen => rfl
        | failClosed => exact hmode.symm.trans (hanswer (hskipped hnone hmode))

/-- What holds in every state of every run. -/
def LogoutInv (settings : Settings) : Interleaving.Config World Local → Prop :=
  Interleaving.Asserted (fun w => Grounded w ∧ LogoutsAnswered settings w) fun p w l =>
    Tracked settings p w l ∧ l.LogsOut settings w

theorem LogoutInv.next {c c' : Interleaving.Config World Local} {move : Pid × Action}
    (hinv : LogoutInv settings c) (hnext : (issuer settings).next c move = some c') :
    LogoutInv settings c' := by
  refine asserted_next hnext fun l' hstep => ?_
  obtain ⟨hgrounded, hanswered⟩ := hinv.shared
  obtain ⟨htracked, hlogsOut⟩ := hinv.locals move.1
  refine ⟨⟨hstep.grounded hgrounded htracked,
      hstep.logoutsAnswered hgrounded htracked hanswered hlogsOut⟩,
    ⟨hstep.tracked hgrounded htracked, hstep.logsOut hgrounded htracked hlogsOut⟩, fun q hq => ?_⟩
  obtain ⟨hother, hlogsOut'⟩ := hinv.locals q
  exact ⟨hstep.othersTracked hgrounded htracked hq hother,
    hstep.done_mono hgrounded.fresh htracked.issuing hlogsOut'⟩

/-- An identifier in the hands of a client that no row carries is over. -/
theorem LogoutInv.sessionOver (hmode : settings.isStateless = false)
    {c : Interleaving.Config World Local} (hinv : LogoutInv settings c) {jti : Jti}
    (hissued : JtiIssued c.shared jti) (hgone : CarriedIn c.shared jti []) : SessionOver settings c jti where
  unrecorded id row hrow hjti := absurd (hgone id row hrow hjti) List.not_mem_nil
  inactive := hgone.inactive
  refused schedule c'' hrun := by
    let Inv (c' : Interleaving.Config World Local) : Prop :=
      LogoutInv settings c' ∧ JtiIssued c'.shared jti ∧ CarriedIn c'.shared jti [] ∧
        ∀ q, (c'.locals q).exchanges jti → (c.locals q).exchanges jti
    have hkeeps (c₁ : Interleaving.Config World Local) (move : Pid × Action)
        (c₂ : Interleaving.Config World Local) (hbefore : Inv c₁)
        (hnext : (issuer settings).next c₁ move = some c₂) : Inv c₂ := by
      obtain ⟨hinv₁, hissued₁, hgone₁, hrefused⟩ := hbefore
      obtain ⟨l', hlocals, hstep⟩ := next_sound hnext
      refine ⟨hinv₁.next hnext, hstep.jtiIssued hissued₁, hstep.carriedIn hinv₁.shared.1.fresh
        (hinv₁.locals move.1).1.issuing hissued₁ hgone₁, fun q hq => hrefused q ?_⟩
      rw [hlocals] at hq
      by_cases hmover : q = move.1
      · subst hmover
        rw [Function.update_self] at hq
        rcases hstep.exchanges hmode hq with hbefore | ⟨copy, hlineage⟩
        · exact hbefore
        · rw [hgone₁.lineage] at hlineage
          cases hlineage
      · rwa [Function.update_of_ne hmover] at hq
    have hfinal : Inv c'' :=
      Interleaving.System.run_keeps hkeeps ⟨hinv, hissued, hgone, fun _ hq => hq⟩ hrun
    exact hfinal.2.2.2

theorem LogoutStep.skips {r : LogoutRequest} {accessJti : Option Jti} {failed anyFailed : Bool}
    (hlogout : LogoutStep settings p w r (.refreshRevoke accessJti failed) w'
      (.logout r (.respond none anyFailed))) : r.redisAnswers w = false := by
  generalize hafter : Local.logout r (.respond none anyFailed) = after at hlogout
  cases hlogout with
  | refreshRevoke => cases hafter
  | refreshFailed hredis hwhy =>
      rw [LogoutRequest.redisAnswers, hredis, Bool.true_and]
      cases hcurrent : r.refresh.isCurrent w.now with
      | true => rw [hwhy hcurrent, Bool.false_and]
      | false => exact Bool.and_false _
  | refreshSkip hredis => rw [LogoutRequest.redisAnswers, hredis, Bool.false_and, Bool.false_and]

theorem Step.skips {r : LogoutRequest} {accessJti : Option Jti} {failed anyFailed : Bool}
    (hstep : Step settings p w (.logout r (.refreshRevoke accessJti failed)) a w'
      (.logout r (.respond none anyFailed))) : r.redisAnswers w = false := by
  cases hstep with
  | logout hlogout => exact hlogout.skips

/-- In every state of every run, a logout of a pair with one identifier that has answered success has ended
the session, unless it deleted nothing: under `fail_open`, in hybrid mode or with an access token that has
expired. And a logout deletes nothing only where Redis does not carry out its revocation. -/
theorem logout_ends_session (settings : Settings) (hmode : settings.isStateless = false)
    {c c' : Interleaving.Config World Local} (hstarts : Starts c) {schedule : List (Pid × Action)}
    (hrun : (issuer settings).run c schedule = some c') :
    (∀ access refresh deleted, .loggedOut access refresh deleted ∈ c'.shared.log →
      access.jti = refresh.jti → SessionOver settings c' access.jti ∨
        (deleted = none ∧ settings.effectiveFailureMode .sessionWrite = .failOpen ∧
          (settings.isStateful = true → access.isCurrent c'.shared.now = false))) ∧
    ∀ move c'' r accessJti failed anyFailed, (issuer settings).next c' move = some c'' →
      c'.locals move.1 = .logout r (.refreshRevoke accessJti failed) →
      c''.locals move.1 = .logout r (.respond none anyFailed) → r.redisAnswers c'.shared = false := by
  have hinv : LogoutInv settings c' := by
    refine Interleaving.System.run_keeps (fun c move c' hinv hnext => LogoutInv.next hinv hnext) ?_ hrun
    refine ⟨⟨hstarts.grounded, fun access refresh deleted hlogged => ?_⟩, fun p => ⟨hstarts.tracked p, ?_⟩⟩
    · rw [hstarts.log] at hlogged
      cases hlogged
    · rw [hstarts.idle p]
      exact trivial
  constructor
  · intro access refresh deleted hlogged hshared
    obtain ⟨haccess, -, hover, hgone, hskipped⟩ := hinv.shared.2 access refresh deleted hlogged
    cases deleted with
    | none =>
        by_cases hstateful : settings.isStateful = true
        · rcases hover hstateful with hcarried | hexpired
          · exact .inl (hinv.sessionOver hmode haccess hcarried)
          · exact .inr ⟨rfl, hskipped rfl, fun _ => hexpired⟩
        · exact .inr ⟨rfl, hskipped rfl, fun h => absurd h hstateful⟩
    | some jti =>
        obtain ⟨hpresented, hcarried⟩ := hgone jti rfl
        have hjti : jti = access.jti := hpresented.elim id fun hrefresh => hrefresh.trans hshared.symm
        subst hjti
        exact .inl (hinv.sessionOver hmode haccess hcarried)
  · intro move c'' r accessJti failed anyFailed hnext hlocal hlocal'
    obtain ⟨l', hlocals, hstep⟩ := next_sound hnext
    rw [hlocals, Function.update_self] at hlocal'
    subst hlocal'
    rw [hlocal] at hstep
    exact hstep.skips

end

/-- The reader signs in, signs out with its pair, and the logout answers success. -/
def loginThenLogout : List (Pid × Action) :=
  firstLogin 0 ++
    (1, .begin (.logout ⟨(readerPair {}).access, (readerPair {}).refresh, true⟩ .accessPurge)) ::
      List.replicate 7 (1, .proceed)

theorem logout_ends_session_loginThenLogout :
    ∃ c', (issuer {}).run oneReader loginThenLogout = some c' ∧
      .loggedOut (readerPair {}).access (readerPair {}).refresh (some 0) ∈ c'.shared.log ∧
      SessionOver {} c' (readerPair {}).access.jti := by
  have hruns : ((issuer {}).run oneReader loginThenLogout).map (fun c' => decide
      (.loggedOut (readerPair {}).access (readerPair {}).refresh (some 0) ∈ c'.shared.log))
        = some true := by
    decide +kernel
  obtain ⟨c', hrun, hlogged⟩ := Option.map_eq_some_iff.1 hruns
  refine ⟨c', hrun, of_decide_eq_true hlogged, ?_⟩
  have hended := (logout_ends_session {} rfl oneReader_starts hrun).1 _ _ _ (of_decide_eq_true hlogged) rfl
  exact hended.resolve_right fun hskipped => nomatch hskipped.1

def failingOpen : Settings := { tokenMode := .hybrid, effectiveFailureMode := fun _ => .failOpen }

/-- The reader signs in, and signs out while Redis is unavailable. -/
def logoutWithoutRedis : List (Pid × Action) :=
  firstLogin 0 ++ (2, .setRedis false) ::
    (1, .begin (.logout ⟨(readerPair {}).access, (readerPair {}).refresh, false⟩
      (.refreshRevoke none false))) ::
    List.replicate 2 (1, .proceed)

/-- The logout answers success and the session goes on. -/
theorem logout_leaves_session :
    ∃ c', (issuer failingOpen).run oneReader logoutWithoutRedis = some c' ∧
      .loggedOut (readerPair {}).access (readerPair {}).refresh none ∈ c'.shared.log ∧
      ¬ SessionOver failingOpen c' (readerPair {}).access.jti := by
  have hruns : ((issuer failingOpen).run oneReader logoutWithoutRedis).map (fun c' =>
      (decide (.loggedOut (readerPair {}).access (readerPair {}).refresh none ∈ c'.shared.log),
        (decideJtiStatus c'.shared.db 0 1).active)) = some (true, true) := by
    decide +kernel
  obtain ⟨c', hrun, hresult⟩ := Option.map_eq_some_iff.1 hruns
  obtain ⟨hlogged, hactive⟩ := Prod.mk.inj hresult
  refine ⟨c', hrun, of_decide_eq_true hlogged, fun hover => ?_⟩
  exact absurd hactive (Bool.eq_false_iff.1 (hover.inactive 1))

end FaAuthM8

import FaAuthM8.Proof.OauthFlow
import FaAuthM8.Proof.Redirects

/-!
# Where a code is sent

A login names the target its code is sent to and the challenge its code is exchanged for, in one request, and
both are checked there only. They stay together in the session record; the callback takes the target of its
redirect from the record it has loaded, and mints the code for the challenge of the same record. So a code is
sent where the request asked whose verifier it needs, and the target has passed the check.
-/

namespace FaAuthM8

/-- The login has been asked for and has passed the checks. -/
def Granted (settings : OauthSettings) (asked : String → String → Prop) (target challenge : String) : Prop :=
  asked target challenge ∧ checkLoginUrl settings target challenge = none

def MintedFor (log : List OauthEvent) (code challenge : String) : Prop :=
  ∃ p state payload, .minted p state code payload ∈ log ∧ payload.codeChallenge = challenge

/-- What a process holds of the login it serves. -/
def HoldsLogin (settings : OauthSettings) (asked : String → String → Prop) (log : List OauthEvent) :
    OauthLocal → Prop
  | .loginUrl r .check => asked r.redirectTarget r.codeChallenge
  | .loginUrl r .generate => Granted settings asked r.redirectTarget r.codeChallenge
  | .loginUrl _ (.store _ session) => Granted settings asked session.redirectTarget session.codeChallenge
  | .callback _ (.google session) => Granted settings asked session.redirectTarget session.codeChallenge
  | .callback _ (.store session code _) | .callback _ (.delete session code) =>
      Granted settings asked session.redirectTarget session.codeChallenge ∧
        MintedFor log code session.codeChallenge
  | .done (.redirect target code) =>
      ∃ challenge, Granted settings asked target challenge ∧ MintedFor log code challenge
  | _ => True

def StoresLogins (settings : OauthSettings) (asked : String → String → Prop) (w : OauthWorld) : Prop :=
  ∀ state entry, w.sessions.lookup state = some entry →
    Granted settings asked entry.value.redirectTarget entry.value.codeChallenge

section

variable {settings : OauthSettings} {asked : String → String → Prop} {p : Nat} {w w' : OauthWorld}
  {l l' : OauthLocal} {a : OauthAction}

theorem checkLoginUrl_of_step {r r' : LoginUrlRequest}
    (hstep : oauthStep settings p w (.loginUrl r .check) .proceed = some (w', .loginUrl r' .generate)) :
    r' = r ∧ checkLoginUrl settings r.redirectTarget r.codeChallenge = none := by
  simp only [oauthStep, LoginUrlRequest.step] at hstep
  split at hstep
  · cases hstep
  · next hchecked =>
      split at hstep
      · cases hstep
        exact ⟨rfl, hchecked⟩
      · cases hstep

theorem session_of_generate {r r' : LoginUrlRequest} {state pkceVerifier state' : String}
    {session : OauthSession}
    (hstep : oauthStep settings p w (.loginUrl r .generate) (.generate state pkceVerifier) =
      some (w', .loginUrl r' (.store state' session))) :
    session.redirectTarget = r.redirectTarget ∧ session.codeChallenge = r.codeChallenge := by
  simp only [oauthStep, LoginUrlRequest.step] at hstep
  split at hstep
  · cases hstep
  · split at hstep
    · cases hstep
    · cases hstep
      exact ⟨rfl, rfl⟩

theorem OauthStep.log_subset (hstep : OauthStep settings p w l a w' l') : w.log ⊆ w'.log := by
  cases hstep with
  | environment hsame => rw [hsame.log]; exact List.Subset.refl _
  | ended hsame => rw [hsame.log]; exact List.Subset.refl _
  | limited hsame => rw [hsame.log]; exact List.Subset.refl _
  | initiated => exact List.subset_cons_self _ _
  | minted => exact List.subset_cons_self _ _
  | storedCode => exact List.subset_cons_self _ _
  | consumed => exact List.subset_cons_self _ _
  | yielded => exact List.subset_cons_self _ _
  | _ => exact List.Subset.refl _

theorem HoldsLogin.mono {log log' : List OauthEvent} (hsubset : log ⊆ log')
    (hholds : HoldsLogin settings asked log l) : HoldsLogin settings asked log' l := by
  have hminted {code challenge : String} : MintedFor log code challenge → MintedFor log' code challenge := by
    intro ⟨q, state, payload, hmem, hchallenge⟩
    exact ⟨q, state, payload, hsubset hmem, hchallenge⟩
  cases l with
  | callback state phase =>
      cases phase with
      | store | delete => exact hholds.imp_right hminted
      | _ => exact hholds
  | done result =>
      cases result with
      | redirect target code =>
          obtain ⟨challenge, hgranted, hcode⟩ := hholds
          exact ⟨challenge, hgranted, hminted hcode⟩
      | _ => exact hholds
  | loginUrl r phase => cases phase <;> exact hholds
  | exchange | idle => exact hholds

theorem redirect_of_step {target code : String}
    (hstep : oauthStep settings p w l a = some (w', .done (.redirect target code))) :
    l = .done (.redirect target code) ∨
      ∃ state session, l = .callback state (.delete session code) ∧ session.redirectTarget = target := by
  cases a with
  | tick now =>
      obtain ⟨-, heq⟩ := Option.ite_none_right_eq_some.1 hstep
      exact .inl (Prod.mk.inj (Option.some.inj heq)).2
  | redis up => exact .inl (Prod.mk.inj (Option.some.inj hstep)).2
  | begin request =>
      obtain ⟨-, heq⟩ := Option.ite_none_right_eq_some.1 hstep
      cases request <;> cases heq
  | fail =>
      obtain ⟨-, heq⟩ := Option.ite_none_left_eq_some.1 hstep
      cases heq
  | generate state pkceVerifier =>
      cases l with
      | loginUrl r phase =>
          cases phase with
          | generate =>
              simp only [oauthStep, LoginUrlRequest.step] at hstep
              split at hstep
              · cases hstep
              · split at hstep <;> cases hstep
          | _ => cases hstep
      | callback state phase => cases phase <;> cases hstep
      | _ => cases hstep
  | grant code grant =>
      cases l with
      | callback state phase =>
          cases phase with
          | google session =>
              obtain ⟨-, heq⟩ := Option.ite_none_left_eq_some.1 hstep
              cases heq
          | _ => cases hstep
      | loginUrl r phase => cases phase <;> cases hstep
      | _ => cases hstep
  | proceed =>
      cases l with
      | loginUrl r phase =>
          cases phase with
          | check =>
              simp only [oauthStep, LoginUrlRequest.step] at hstep
              split at hstep
              · cases hstep
              · split at hstep <;> cases hstep
          | generate => cases hstep
          | store =>
              obtain ⟨-, heq⟩ := Option.ite_none_right_eq_some.1 hstep
              cases heq
      | callback state phase =>
          cases phase with
          | lookup =>
              simp only [oauthStep, callbackStep] at hstep
              split at hstep
              · split at hstep <;> cases hstep
              · cases hstep
          | google => cases hstep
          | store =>
              obtain ⟨-, heq⟩ := Option.ite_none_right_eq_some.1 hstep
              cases heq
          | delete session code =>
              obtain ⟨-, heq⟩ := Option.ite_none_right_eq_some.1 hstep
              cases heq
              exact .inr ⟨state, session, rfl, rfl⟩
      | exchange r phase =>
          cases phase with
          | limit =>
              simp only [oauthStep, ExchangeRequest.step] at hstep
              split at hstep
              · split at hstep <;> cases hstep
              · cases hstep
          | check =>
              simp only [oauthStep, ExchangeRequest.step] at hstep
              split at hstep <;> cases hstep
          | pop =>
              simp only [oauthStep, ExchangeRequest.step] at hstep
              split at hstep
              · split at hstep
                · cases hstep
                · split at hstep <;> cases hstep
              · cases hstep
          | verify payload =>
              simp only [oauthStep, ExchangeRequest.step] at hstep
              split at hstep <;> cases hstep
      | _ => cases hstep

theorem OauthStep.storesLogins (hstep : OauthStep settings p w l a w' l')
    (hstores : StoresLogins settings asked w) (hholds : HoldsLogin settings asked w.log l) :
    StoresLogins settings asked w' := by
  have hsame (heq : w'.sessions = w.sessions) : StoresLogins settings asked w' := by
    intro state entry hentry
    exact hstores state entry (heq ▸ hentry)
  cases hstep with
  | environment hflow | ended hflow | limited hflow => exact hsame hflow.sessions
  | @storedSession r state session =>
      intro state' entry hentry
      rw [OauthWorld.storeSession, Table.lookup_insert_eq] at hentry
      split at hentry
      · obtain rfl := Option.some.inj hentry
        exact hholds
      · exact hstores state' entry hentry
  | deletedSession =>
      intro state' entry hentry
      rw [OauthWorld.deleteSession, Table.lookup_erase_eq] at hentry
      split at hentry
      · cases hentry
      · exact hstores state' entry hentry
  | _ => exact hsame rfl

theorem HoldsLogin.mover (hstep : oauthStep settings p w l a = some (w', l'))
    (hasked : ∀ r, a = .begin (.loginUrl r) → asked r.redirectTarget r.codeChallenge)
    (hstores : StoresLogins settings asked w) (hholds : HoldsLogin settings asked w.log l) :
    HoldsLogin settings asked w'.log l' := by
  have hsubset := (oauthStep_sound hstep).log_subset
  have hended {result : OauthResult} (heq : l' = .done result) : HoldsLogin settings asked w'.log l' := by
    subst heq
    cases result with
    | redirect target code =>
        obtain rfl | ⟨state, session, rfl, rfl⟩ := redirect_of_step hstep
        · exact hholds.mono hsubset
        · obtain ⟨q, state', payload, hminted, hchallenge⟩ := hholds.2
          exact ⟨_, hholds.1, q, state', payload, hsubset hminted, hchallenge⟩
    | _ => trivial
  cases oauthStep_sound hstep with
  | environment => exact hholds.mono hsubset
  | @begin _ request =>
      cases request with
      | loginUrl r => exact hasked r rfl
      | callback | exchange => trivial
  | ended => exact hended rfl
  | checked => exact ⟨hholds, (checkLoginUrl_of_step hstep).2⟩
  | initiated hfresh hl' =>
      obtain ⟨result, heq⟩ | ⟨session, rfl, -⟩ := hl'
      · exact hended heq
      · obtain ⟨htarget, hchallenge⟩ := session_of_generate hstep
        show Granted settings asked session.redirectTarget session.codeChallenge
        rw [htarget, hchallenge]
        exact hholds
  | found hfound =>
      obtain ⟨entry, hentry, rfl⟩ := session_eq_some hfound
      exact hstores _ entry hentry
  | minted => exact ⟨hholds, p, _, _, List.mem_cons_self, rfl⟩
  | storedCode =>
      obtain ⟨hgranted, q, state, payload, hminted, hchallenge⟩ := hholds
      exact ⟨hgranted, q, state, payload, hsubset hminted, hchallenge⟩
  | deletedSession => exact ⟨_, hholds.1, hholds.2⟩
  | consumed _ hl' =>
      obtain ⟨result, heq⟩ | rfl := hl'
      · exact hended heq
      · trivial
  | storedSession | limited | passed | yielded => trivial

end

section

variable {settings : OauthSettings} {asked : String → String → Prop}
  {c₀ c c' : Interleaving.Config OauthWorld OauthLocal}

abbrev LoginsGranted (settings : OauthSettings) (asked : String → String → Prop) :
    Interleaving.Config OauthWorld OauthLocal → Prop :=
  Interleaving.Asserted (StoresLogins settings asked) fun _ w l => HoldsLogin settings asked w.log l

theorem LoginsGranted.next {move : Nat × OauthAction} (hgranted : LoginsGranted settings asked c)
    (hnext : (oauthFlow settings).next c move = some c')
    (hasked : ∀ r, move.2 = .begin (.loginUrl r) → asked r.redirectTarget r.codeChallenge) :
    LoginsGranted settings asked c' := by
  have hstep : oauthStep settings move.1 c.shared (c.locals move.1) move.2 =
      some (c'.shared, c'.locals move.1) := Interleaving.System.step_of_next hnext
  have hrule := oauthStep_sound hstep
  have hholds := hgranted.locals move.1
  refine .moved hnext (hrule.storesLogins hgranted.shared hholds)
    (hholds.mover hstep hasked hgranted.shared) fun q _ => ?_
  exact (hgranted.locals q).mono hrule.log_subset

theorem OauthStarts.loginsGranted (hstarts : OauthStarts c₀) : LoginsGranted settings asked c₀ := by
  refine ⟨fun state entry hentry => ?_, fun p => ?_⟩
  · rw [hstarts.sessions, AList.lookup_empty] at hentry
    cases hentry
  · rw [hstarts.idle p]
    trivial

/-- The redirect check of a configuration; a URL that cannot be parsed is an internal error. -/
def RedirectSettings.check (redirects : RedirectSettings) (target : String) : Option HttpException :=
  match redirects.validateRedirectTarget target with
  | .ok () => none
  | .error (.http e) => some e
  | .error .valueError => some { statusCode := 500, detail := "Internal Server Error" }

theorem RedirectSettings.check_eq_none {redirects : RedirectSettings} {target : String} :
    redirects.check target = none ↔ redirects.validateRedirectTarget target = .ok () := by
  rw [check]
  split
  · next heq => simp [heq]
  · next heq => simp [heq]
  · next heq => simp [heq]

/-- In every run, a code that a callback sends to a target was asked for by one login request that names the
target and whose target passes the check, so that it lies under an allowed prefix where prefixes are pinned, and
only the verifier of that request's challenge yields tokens for it. -/
theorem oauth_code_sent_where_asked {redirects : RedirectSettings}
    (hcheck : settings.validateRedirectTarget = redirects.check) (hstarts : OauthStarts c₀)
    {schedule : List (Nat × OauthAction)} (hrun : (oauthFlow settings).run c₀ schedule = some c) {p : Nat}
    {target code : String} (hsent : c.locals p = .done (.redirect target code)) :
    ∃ r : LoginUrlRequest, (∃ q, (q, OauthAction.begin (.loginUrl r)) ∈ schedule) ∧ r.redirectTarget = target ∧
      redirects.validateRedirectTarget target = .ok () ∧
      (redirects.oauthAllowedRedirectPrefixes ≠ [] →
        ∃ split, Urls.urlsplit redirects.checkNetloc target.toList = some split ∧
          ∃ allowed, IsAllowed redirects allowed ∧ LiesUnder allowed split.withoutParams) ∧
      ∀ verifier payload, .yielded code verifier payload ∈ c.shared.log →
        settings.challengeOf verifier = r.codeChallenge := by
  let asked : String → String → Prop := fun target challenge =>
    ∃ q, (q, OauthAction.begin (.loginUrl ⟨target, challenge⟩)) ∈ schedule
  have hmoves : (oauthFlow settings).Along (fun _ move _ => move ∈ schedule) c₀ schedule :=
    Interleaving.System.along_of_mem fun _ hmem _ _ => hmem
  have hkeeps : ∀ c move c', LoginsGranted settings asked c → (oauthFlow settings).next c move = some c' →
      move ∈ schedule → LoginsGranted settings asked c' := by
    intro c move c' hgranted hnext hmem
    refine hgranted.next hnext fun r heq => ⟨move.1, ?_⟩
    rw [← heq]
    exact hmem
  have hgranted : LoginsGranted settings asked c :=
    Interleaving.System.run_invariant hkeeps hstarts.loginsGranted hmoves hrun
  have hassert : OauthAsserted settings c :=
    Interleaving.System.run_keeps (fun _ _ _ => oauthAsserted_next) hstarts.asserted hrun
  have hholds := hgranted.locals p
  rw [hsent] at hholds
  obtain ⟨challenge, ⟨hasked, hchecked⟩, q, state, minted, hminted, hchallenge⟩ := hholds
  have haccepts : redirects.validateRedirectTarget target = .ok () := by
    rw [← RedirectSettings.check_eq_none, ← hcheck]
    rw [checkLoginUrl] at hchecked
    split at hchecked
    · cases hchecked
    · assumption
  refine ⟨⟨target, challenge⟩, hasked, rfl, haccepts, fun hpinned => liesUnder_of_accepts hpinned haccepts, ?_⟩
  intro verifier payload hyielded
  obtain ⟨-, q', state', full, hminted', -, hverified⟩ := hassert.shared.history.yielded _ _ _ hyielded
  obtain ⟨-, -, rfl⟩ := hassert.shared.history.mintedOnce _ _ _ _ _ _ _ hminted' hminted
  exact hverified.trans hchallenge

end

/-- Logins of a web client whose callback is pinned. -/
def pinnedOauth : OauthSettings :=
  { exampleOauth with validateRedirectTarget := pinnedCallback.check }

/-- A login that is sent to the callback with its code. -/
def loginAtCallback : List (Nat × OauthAction) :=
  [(0, .begin (.loginUrl ⟨"https://app.example/cb", "bbbbbbbbbbbbbbbbbbbbbbbbbbbbbbbbbbbbbbbbbbb"⟩)), (0, .proceed),
    (0, .generate "state" "verifier"), (0, .proceed), (1, .begin (.callback "state")), (1, .proceed),
    (1, .grant exampleCode { accessToken := "token", email := "a@x" }), (1, .proceed), (1, .proceed)]

theorem oauth_code_sent_where_asked_loginAtCallback :
    ∃ c r, (oauthFlow pinnedOauth).run freshFlow loginAtCallback = some c ∧
      c.locals 1 = .done (.redirect "https://app.example/cb" exampleCode) ∧
      (∃ q, (q, OauthAction.begin (.loginUrl r)) ∈ loginAtCallback) ∧
      r.redirectTarget = "https://app.example/cb" ∧
      (∃ split, Urls.urlsplit pinnedCallback.checkNetloc "https://app.example/cb".toList = some split ∧
        ∃ allowed, IsAllowed pinnedCallback allowed ∧ LiesUnder allowed split.withoutParams) ∧
      ∀ verifier payload, .yielded exampleCode verifier payload ∈ c.shared.log →
        pinnedOauth.challengeOf verifier = r.codeChallenge := by
  have hends : ((oauthFlow pinnedOauth).run freshFlow loginAtCallback).map (fun c => c.locals 1) =
      some (.done (.redirect "https://app.example/cb" exampleCode)) := by
    decide +kernel
  obtain ⟨c, hrun, hsent⟩ := Option.map_eq_some_iff.1 hends
  obtain ⟨r, hasked, htarget, -, hinside, hverified⟩ :=
    oauth_code_sent_where_asked rfl freshFlow_starts hrun hsent
  exact ⟨c, r, hrun, hsent, hasked, htarget, hinside (by decide), hverified⟩

end FaAuthM8

import FaAuthM8.Proof.Copies

/-!
# Issuing a session

Logins and refreshes sign a token pair and later record its identifier in a session row. The identifier is
drawn once, so it tells which process signed the pair and from which copy, and until that process saves it
no row carries it.
-/

namespace FaAuthM8

/-- A signed pair whose session row is still to be saved. -/
structure Issue where
  uid : UserId
  copy : User
  pair : TokenPair

def LoginPhase.pair : LoginPhase → Option TokenPair
  | .read => none
  | .reload _ => none
  | .sign _ _ => none
  | .load _ _ pair => some pair
  | .save _ _ pair _ _ => some pair
  | .register _ pair => some pair
  | .purgeExpired _ pair => some pair
  | .purgeCommit pair _ => some pair
  | .respond pair => some pair

def RefreshPhase.pair : RefreshPhase → Option TokenPair
  | .rotate _ pair => some pair
  | .load _ pair => some pair
  | .save _ pair _ _ => some pair
  | .respond pair => some pair
  | _ => none

/-- The pair a request has signed. -/
def Local.pair : Local → Option TokenPair
  | .login _ phase => phase.pair
  | .refresh _ phase => phase.pair
  | _ => none

def Local.unsaved : Local → Option Issue
  | .login _ (.load uid copy pair) => some ⟨uid, copy, pair⟩
  | .login _ (.save uid copy pair _ _) => some ⟨uid, copy, pair⟩
  | .refresh r (.rotate copy pair) => some ⟨r.token.sub, copy, pair⟩
  | .refresh r (.load copy pair) => some ⟨r.token.sub, copy, pair⟩
  | .refresh r (.save copy pair _ _) => some ⟨r.token.sub, copy, pair⟩
  | _ => none

theorem Local.Saves.unsaved {l : Local} {uid : UserId} {copy : User} {pair : TokenPair}
    {data : ClientSessionCreate} {existing : Option (SessionId × ClientSession)}
    (hsaves : l.Saves uid copy pair data existing) : l.unsaved = some ⟨uid, copy, pair⟩ := by
  cases hsaves with
  | login => rfl
  | refresh huser =>
      subst huser
      rfl

/-- Logins and refreshes. -/
def Local.isIssue : Local → Bool
  | .login _ _ => true
  | .refresh _ _ => true
  | _ => false

/-- The log tells apart who signed which identifier, and every identifier in use has been drawn. -/
structure JtisDrawn (w : World) : Prop where
  rows : ∀ id row, w.db.sessions.lookup id = some row → row.jwtJti < w.nextJti
  signed : ∀ q token generation, .signed q token generation ∈ w.log → token.jti < w.nextJti
  once : ∀ q token generation q' token' generation', .signed q token generation ∈ w.log →
    .signed q' token' generation' ∈ w.log → token.jti = token'.jti →
    q = q' ∧ token = token' ∧ generation = generation'
  issued : ∀ pair, .issued pair ∈ w.log → ∃ q generation, .signed q pair.access generation ∈ w.log ∧
    pair.refresh.jti = pair.access.jti ∧ pair.refresh.sub = pair.access.sub

/-- The pair of a request was signed by its process. -/
def PairSigned (p : Pid) (w : World) (pair : TokenPair) : Prop :=
  (∃ generation, .signed p pair.access generation ∈ w.log) ∧ pair.refresh.jti = pair.access.jti ∧
    pair.refresh.sub = pair.access.sub

/-- What is known of a pair whose session is still to be saved. -/
structure Unsaved (settings : Settings) (p : Pid) (w : World) (issue : Issue) : Prop where
  signed : .signed p issue.pair.access issue.copy.authGeneration ∈ w.log
  signedFrom : ∃ now, now ≤ w.now ∧
    issue.pair.SignedFrom settings now issue.pair.access.jti issue.uid issue.copy
  unrecorded : ∀ id row, w.db.sessions.lookup id = some row → row.jwtJti ≠ issue.pair.access.jti
  unissued : ∀ pair, .issued pair ∈ w.log → pair.access.jti ≠ issue.pair.access.jti

/-- What is known of the row a request is about to save. -/
structure SavePrepared (settings : Settings) (w : World) (uid : UserId) (pair : TokenPair)
    (data : ClientSessionCreate) (existing : Option (SessionId × ClientSession)) : Prop where
  jti : data.jwtJti = pair.access.jti
  prepared : ∃ now externalToken, now ≤ w.now ∧ pair.access.exp ≤ now + settings.accessTokenExpires ∧
    data = authSessionData settings now pair.refresh.jti pair.refresh externalToken
  selected : ∀ id row, existing = some (id, row) → id < w.db.nextSessionId ∧ row.userId = uid ∧
    row.jwtJti ≠ pair.access.jti ∧
    ∀ current, w.db.sessions.lookup id = some current → current.userId = uid

structure Issuing (settings : Settings) (p : Pid) (w : World) (l : Local) : Prop where
  pair : ∀ pair, l.pair = some pair → PairSigned p w pair
  unsaved : ∀ issue, l.unsaved = some issue → Unsaved settings p w issue
  saves : ∀ uid copy pair data existing, l.Saves uid copy pair data existing →
    SavePrepared settings w uid pair data existing

section

variable {settings : Settings} {p q : Pid} {w w' : World} {l l' : Local} {a : Action}

theorem Step.issue_cases (hstep : Step settings p w l a w' l') (hissue : l'.isIssue = true) :
    (∃ r phase, l = .login r phase ∧ LoginStep settings p w r phase w' l') ∨
      (∃ r phase, l = .refresh r phase ∧ RefreshStep settings p w r phase w' l') ∨
      (w' = w ∧ l = .idle ∧ (a = .begin l' ∧ Begins settings w l') ∧
        ((∃ r, l' = .login r .read) ∨ ∃ r, l' = .refresh r .allowlist)) := by
  cases hstep with
  | begin hbegins =>
      refine .inr (.inr ⟨rfl, rfl, ⟨rfl, hbegins⟩, ?_⟩)
      cases hbegins with
      | login => exact .inl ⟨_, rfl⟩
      | refresh => exact .inr ⟨_, rfl⟩
      | _ => cases hissue
  | tick | setRedis | reap | abort | error | commandError | postCommit | commandsDone | command =>
      cases hissue
  | update hstep => cases hstep <;> cases hissue
  | delete hstep => cases hstep <;> cases hissue
  | repair hstep => cases hstep <;> cases hissue
  | login hstep => exact .inl ⟨_, _, rfl, hstep⟩
  | refresh hstep => exact .inr (.inl ⟨_, _, rfl, hstep⟩)
  | @logout r _ _ _ _ hstep =>
      cases hstep with
      | refreshRevoke | refreshFailed | refreshSkip =>
          obtain ⟨phase, heq, -⟩ := r.finish_eq _ _
          rw [heq] at hissue
          cases hissue
      | _ => cases hissue
  | revokeSession hstep =>
      cases hstep with
      | load | purge => cases hissue
      | commit => split at hissue <;> cases hissue
  | revokeUser hstep =>
      cases hstep with
      | capture | purge => cases hissue
      | commit => split at hissue <;> cases hissue
  | deleteMe hstep => cases hstep <;> cases hissue
  | legacySweep hstep => cases hstep <;> cases hissue
  | drain hstep => cases hstep <;> cases hissue

theorem Local.isIssue_of_pair {pair : TokenPair} (hpair : l.pair = some pair) : l.isIssue = true := by
  cases l with
  | login | refresh => rfl
  | _ => cases hpair

theorem Local.isIssue_of_unsaved {issue : Issue} (hunsaved : l.unsaved = some issue) :
    l.isIssue = true := by
  cases l with
  | login | refresh => rfl
  | _ => cases hunsaved

theorem Local.Saves.isIssue {uid : UserId} {copy : User} {pair : TokenPair}
    {data : ClientSessionCreate} {existing : Option (SessionId × ClientSession)}
    (hsaves : l.Saves uid copy pair data existing) : l.isIssue = true :=
  Local.isIssue_of_unsaved hsaves.unsaved

theorem SavesRow.isIssue {id : SessionId} {row : ClientSession} (hsaves : SavesRow p w id row l) :
    l.isIssue = true := by
  cases hsaves with
  | inserted hlocal => exact hlocal.isIssue
  | restamped hlocal => exact hlocal.isIssue

structure SignsPair (settings : Settings) (p : Pid) (w w' : World) (l : Local) (issue : Issue) :
    Prop where
  signs : l.Signs issue.uid issue.copy
  pair : createAuthTokens settings w.now w.nextJti issue.uid issue.copy = some issue.pair
  world : w' = { w with nextJti := w.nextJti + 1 }.record
    [.signed p issue.pair.access issue.copy.authGeneration]

/-- A request's pair is the one it had, or it has just signed it. -/
theorem Step.pair (hstep : Step settings p w l a w' l') {pair : TokenPair}
    (hpair : l'.pair = some pair) :
    l.pair = some pair ∨ ∃ uid copy, SignsPair settings p w w' l ⟨uid, copy, pair⟩ := by
  rcases hstep.issue_cases (Local.isIssue_of_pair hpair) with
    ⟨r, phase, rfl, hlogin⟩ | ⟨r, phase, rfl, hrefresh⟩ | ⟨-, -, -, ⟨r, rfl⟩ | ⟨r, rfl⟩⟩
  · cases hlogin with
    | @sign uid copy pair' next hsigned hnext =>
        obtain rfl : pair' = pair := by
          rcases hnext with rfl | rfl
          · exact Option.some.inj hpair
          · exact Option.some.inj hpair
        exact .inr ⟨uid, copy, .login, hsigned, rfl⟩
    | @save uid _ pair' =>
        left
        rcases r.afterSave_eq settings uid pair' with heq | heq | heq <;>
          · rw [heq] at hpair
            exact hpair
    | register _ hnext =>
        rcases hnext with rfl | rfl
        · exact .inl hpair
        · exact .inl hpair
    | load | purgeExpired | purgeCommit => exact .inl hpair
    | read | create | reload | respond => cases hpair
  · cases hrefresh with
    | @sign copy pair' hsigned =>
        obtain rfl : pair' = pair := by
          split at hpair
          · exact Option.some.inj hpair
          · exact Option.some.inj hpair
        exact .inr ⟨_, copy, .refresh rfl, hsigned, rfl⟩
    | lock => split at hpair <;> cases hpair
    | rotate | rotateSkip | load | save => exact .inl hpair
    | allowlist | lineage | reuse | respond => cases hpair
  · cases hpair
  · cases hpair

/-- A pair that is unsaved after a step was unsaved before, or the step signed it. The step saves no row and
issues no pair. -/
theorem Step.unsaved (hstep : Step settings p w l a w' l') {issue : Issue}
    (hunsaved : l'.unsaved = some issue) :
    (l.unsaved = some issue ∨ SignsPair settings p w w' l issue) ∧
      w'.db.sessions = w.db.sessions ∧ ∀ pair, .issued pair ∈ w'.log → .issued pair ∈ w.log := by
  have hsent {command : RedisCommand} (hsend : w.send command = some w') :
      w'.db.sessions = w.db.sessions ∧ ∀ pair, .issued pair ∈ w'.log → .issued pair ∈ w.log := by
    obtain ⟨hdb, -, -, -, -, hlog⟩ := World.send_frame hsend
    refine ⟨by rw [hdb], fun pair hissued => ?_⟩
    simpa [hlog] using hissued
  rcases hstep.issue_cases (Local.isIssue_of_unsaved hunsaved) with
    ⟨r, phase, rfl, hlogin⟩ | ⟨r, phase, rfl, hrefresh⟩ | ⟨-, -, -, ⟨r, rfl⟩ | ⟨r, rfl⟩⟩
  · cases hlogin with
    | @sign uid copy pair next hsigned hnext =>
        refine ⟨.inr ?_, rfl, fun pair' hissued => by simpa using hissued⟩
        rcases hnext with rfl | rfl
        · cases hunsaved
        · obtain rfl := Option.some.inj hunsaved
          exact ⟨.login, hsigned, rfl⟩
    | load => exact ⟨.inl hunsaved, rfl, fun _ h => h⟩
    | @save uid _ pair =>
        rcases r.afterSave_eq settings uid pair with heq | heq | heq <;>
          · rw [heq] at hunsaved
            cases hunsaved
    | register _ hnext => rcases hnext with rfl | rfl <;> cases hunsaved
    | read | create | reload | purgeExpired | purgeCommit | respond => cases hunsaved
  · cases hrefresh with
    | @sign copy pair hsigned =>
        refine ⟨.inr ?_, rfl, fun pair' hissued => by simpa using hissued⟩
        split at hunsaved
        · cases hunsaved
        · obtain rfl := Option.some.inj hunsaved
          exact ⟨.refresh rfl, hsigned, rfl⟩
    | lock => split at hunsaved <;> cases hunsaved
    | rotate _ hsend => exact ⟨.inl hunsaved, hsent hsend⟩
    | rotateSkip | load => exact ⟨.inl hunsaved, rfl, fun _ h => h⟩
    | allowlist | lineage | reuse | save | respond => cases hunsaved
  · cases hunsaved
  · cases hunsaved

theorem Step.saves (hstep : Step settings p w l a w' l') {uid : UserId} {copy : User}
    {pair : TokenPair} {data : ClientSessionCreate} {existing : Option (SessionId × ClientSession)}
    (hsaves : l'.Saves uid copy pair data existing) :
    w' = w ∧ l.unsaved = some ⟨uid, copy, pair⟩ ∧ (∃ pick, selectSession w.db uid pick = some existing) ∧
      ∃ externalToken,
        data = authSessionData settings w.now pair.refresh.jti pair.refresh externalToken := by
  rcases hstep.issue_cases hsaves.isIssue with
    ⟨r, phase, rfl, hlogin⟩ | ⟨r, phase, rfl, hrefresh⟩ | ⟨-, -, -, ⟨r, rfl⟩ | ⟨r, rfl⟩⟩
  · cases hlogin with
    | load hselect =>
        cases hsaves
        exact ⟨rfl, rfl, ⟨_, hselect⟩, _, rfl⟩
    | sign _ hnext => rcases hnext with rfl | rfl <;> cases hsaves
    | @save uid _ pair =>
        rcases r.afterSave_eq settings uid pair with heq | heq | heq <;>
          · rw [heq] at hsaves
            cases hsaves
    | register _ hnext => rcases hnext with rfl | rfl <;> cases hsaves
    | read | create | reload | purgeExpired | purgeCommit | respond => cases hsaves
  · cases hrefresh with
    | load hselect =>
        cases hsaves with
        | refresh huser =>
            subst huser
            exact ⟨rfl, rfl, ⟨_, hselect⟩, none, rfl⟩
    | lock | sign => split at hsaves <;> cases hsaves
    | allowlist | lineage | reuse | rotate | rotateSkip | save | respond => cases hsaves
  · cases hsaves
  · cases hsaves

theorem Step.save_cases (hstep : Step settings p w l a w' l') {uid : UserId} {copy : User}
    {pair : TokenPair} {data : ClientSessionCreate} {existing : Option (SessionId × ClientSession)}
    (hlocal : l.Saves uid copy pair data existing) :
    w'.db = w.db ∨ commit [createClientSession uid copy data existing] w.db = .ok w'.db := by
  cases hlocal with
  | login =>
      cases hstep with
      | abort | error => exact .inl rfl
      | login hlogin =>
          cases hlogin with
          | save _ hcommit => exact .inr hcommit
  | refresh huser =>
      subst huser
      cases hstep with
      | abort | error => exact .inl rfl
      | refresh hrefresh =>
          cases hrefresh with
          | save _ hcommit => exact .inr hcommit

theorem Step.nextSessionId_le (hstep : Step settings p w l a w' l') :
    w.db.nextSessionId ≤ w'.db.nextSessionId := by
  obtain ⟨writes, hcommit⟩ := hstep.commits
  exact commit_nextSessionId hcommit

theorem Local.Signs.unique {uid uid' : UserId} {copy copy' : User} (hsigns : l.Signs uid copy)
    (hsigns' : l.Signs uid' copy') : uid = uid' ∧ copy = copy' := by
  have heq := hsigns.copy.symm.trans hsigns'.copy
  rw [Option.some.injEq, Prod.mk.injEq] at heq
  exact heq

theorem SavesRow.facts {id : SessionId} {row : ClientSession} (hsaves : SavesRow p w id row l)
    (hissuing : Issuing settings p w l) : ∃ uid copy pair data existing,
      l.Saves uid copy pair data existing ∧ row.userId = uid ∧ row.jwtJti = pair.access.jti := by
  cases hsaves with
  | @inserted uid copy pair data hlocal _ _ hrow =>
      subst hrow
      exact ⟨uid, copy, pair, data, none, hlocal, rfl, (hissuing.saves _ _ _ _ _ hlocal).jti⟩
  | @restamped uid copy pair data loaded current hlocal _ hcurrent hrow =>
      subst hrow
      have hprepared := hissuing.saves _ _ _ _ _ hlocal
      obtain ⟨-, -, hjti, howner⟩ := hprepared.selected id loaded rfl
      refine ⟨uid, copy, pair, data, _, hlocal, howner current hcurrent, ?_⟩
      have hne : data.jwtJti ≠ loaded.jwtJti := by
        rw [hprepared.jti]
        exact hjti.symm
      exact (Column.writeBack_of_ne hne current.jwtJti).trans hprepared.jti

theorem SavesRow.signed {id : SessionId} {row : ClientSession} (hsaves : SavesRow p w id row l)
    (hissuing : Issuing settings p w l) :
    ∃ token generation, .signed p token generation ∈ w.log ∧ row.jwtJti = token.jti := by
  obtain ⟨uid, copy, pair, data, existing, hlocal, -, hjti⟩ := hsaves.facts hissuing
  exact ⟨_, _, (hissuing.unsaved _ hlocal.unsaved).signed, hjti⟩

theorem Local.Responds.pair {pair : TokenPair} (hresponds : l.Responds pair) : l.pair = some pair := by
  cases hresponds <;> rfl

theorem Step.jtisDrawn (hfresh : w.db.IdsFresh) (hdrawn : JtisDrawn w)
    (hissuing : Issuing settings p w l) (hstep : Step settings p w l a w' l') : JtisDrawn w' where
  rows id row hrow := by
    refine Nat.lt_of_lt_of_le ?_ hstep.nextJti_le
    rcases hstep.row_origin hfresh hrow with hold | hsaves
    · exact hdrawn.rows id row hold
    · obtain ⟨token, generation, hsigned, hjti⟩ := hsaves.signed hissuing
      exact hjti ▸ hdrawn.signed p token generation hsigned
  signed q token generation hsigned := by
    rcases hstep.mem_log hsigned with hold | hnew
    · exact Nat.lt_of_lt_of_le (hdrawn.signed q token generation hold) hstep.nextJti_le
    · cases hnew with
      | signed _ hpair hnext =>
          rw [hnext, (createAuthTokens_signedFrom hpair).accessJti]
          exact Nat.lt_succ_self _
  once q token generation q' token' generation' hsigned hsigned' hjti := by
    have hnew {q token generation} (hnew : Logged settings p w l w' (.signed q token generation)) :
        token.jti = w.nextJti := by
      cases hnew with
      | signed _ hpair => exact (createAuthTokens_signedFrom hpair).accessJti
    rcases hstep.mem_log hsigned with hold | hlogged
    · rcases hstep.mem_log hsigned' with hold' | hlogged'
      · exact hdrawn.once _ _ _ _ _ _ hold hold' hjti
      · have hlt := hdrawn.signed _ _ _ hold
        rw [hjti, hnew hlogged'] at hlt
        exact absurd hlt (Nat.lt_irrefl _)
    · rcases hstep.mem_log hsigned' with hold' | hlogged'
      · have hlt := hdrawn.signed _ _ _ hold'
        rw [← hjti, hnew hlogged] at hlt
        exact absurd hlt (Nat.lt_irrefl _)
      · cases hlogged with
        | signed hsigns hpair =>
            cases hlogged' with
            | signed hsigns' hpair' =>
                obtain ⟨rfl, rfl⟩ := hsigns.unique hsigns'
                rw [hpair, Option.some.injEq] at hpair'
                exact ⟨rfl, by rw [hpair'], rfl⟩
  issued pair hissued := by
    have hlog {q generation} (hsigned : .signed q pair.access generation ∈ w.log) :
        .signed q pair.access generation ∈ w'.log := hstep.log_mono hsigned
    rcases hstep.mem_log hissued with hold | hnew
    · obtain ⟨q, generation, hsigned, hrest⟩ := hdrawn.issued pair hold
      exact ⟨q, generation, hlog hsigned, hrest⟩
    · cases hnew with
      | issued hresponds =>
          obtain ⟨⟨generation, hsigned⟩, hrest⟩ := hissuing.pair pair hresponds.pair
          exact ⟨p, generation, hlog hsigned, hrest⟩

theorem SignsPair.facts {issue : Issue} (hsigns : SignsPair settings p w w' l issue) :
    issue.pair.SignedFrom settings w.now w.nextJti issue.uid issue.copy ∧
      .signed p issue.pair.access issue.copy.authGeneration ∈ w'.log := by
  refine ⟨createAuthTokens_signedFrom hsigns.pair, ?_⟩
  rw [hsigns.world]
  exact List.mem_cons_self

theorem SignsPair.unsaved {issue : Issue} (hsigns : SignsPair settings p w w' l issue)
    (hdrawn : JtisDrawn w) : Unsaved settings p w' issue := by
  obtain ⟨hfrom, hsigned⟩ := hsigns.facts
  have hjti := hfrom.accessJti
  have hworld := hsigns.world
  refine ⟨hsigned, ⟨w.now, ?_, hjti ▸ hfrom⟩, fun id row hrow => ?_, fun pair hissued => ?_⟩
  · rw [hworld]
    exact Int.le_refl _
  · rw [hworld] at hrow
    rw [hjti]
    exact Nat.ne_of_lt (hdrawn.rows id row hrow)
  · have hissued' : .issued pair ∈ w.log := by simpa [hworld] using hissued
    obtain ⟨q, generation, hsigned', -⟩ := hdrawn.issued pair hissued'
    rw [hjti]
    exact Nat.ne_of_lt (hdrawn.signed _ _ _ hsigned')

theorem Step.issuing (hfresh : w.db.IdsFresh) (hdrawn : JtisDrawn w)
    (hissuing : Issuing settings p w l) (hstep : Step settings p w l a w' l') :
    Issuing settings p w' l' where
  pair pair hpair := by
    rcases hstep.pair hpair with hold | ⟨uid, copy, hsigns⟩
    · obtain ⟨⟨generation, hsigned⟩, hrest⟩ := hissuing.pair pair hold
      exact ⟨⟨generation, hstep.log_mono hsigned⟩, hrest⟩
    · obtain ⟨hfrom, hsigned⟩ := hsigns.facts
      exact ⟨⟨_, hsigned⟩, hfrom.refreshJti.trans hfrom.accessJti.symm,
        hfrom.refreshSub.trans hfrom.accessSub.symm⟩
  unsaved issue hunsaved := by
    obtain ⟨hold | hsigns, hsessions, hissued⟩ := hstep.unsaved hunsaved
    · have hbefore := hissuing.unsaved issue hold
      obtain ⟨now, hnow, hfrom⟩ := hbefore.signedFrom
      refine ⟨hstep.log_mono hbefore.signed, ⟨now, Int.le_trans hnow hstep.clocks.1, hfrom⟩, ?_, ?_⟩
      · rw [hsessions]
        exact hbefore.unrecorded
      · exact fun pair hpair => hbefore.unissued pair (hissued pair hpair)
    · exact hsigns.unsaved hdrawn
  saves uid copy pair data existing hsaves := by
    obtain ⟨rfl, hunsaved, ⟨pick, hselect⟩, externalToken, hdata⟩ := hstep.saves hsaves
    have hbefore := hissuing.unsaved _ hunsaved
    obtain ⟨now, hnow, hfrom⟩ := hbefore.signedFrom
    refine ⟨?_, ⟨w'.now, externalToken, Int.le_refl _, ?_, hdata⟩, fun id row hexisting => ?_⟩
    · rw [hdata]
      exact hfrom.refreshJti
    · exact Int.le_trans hfrom.accessExp (Int.add_le_add_right hnow _)
    · rcases selectSession_eq_some hselect with ⟨hnone, -⟩ | ⟨id', row', hsome, hrow, huser⟩
      · rw [hnone] at hexisting
        cases hexisting
      · rw [hsome, Option.some.injEq, Prod.mk.injEq] at hexisting
        obtain ⟨rfl, rfl⟩ := hexisting
        refine ⟨hfresh.sessions _ _ hrow, huser, hbefore.unrecorded _ _ hrow, fun current hcurrent => ?_⟩
        rw [hrow, Option.some.injEq] at hcurrent
        exact hcurrent ▸ huser

theorem Step.othersIssuing (hfresh : w.db.IdsFresh) (hdrawn : JtisDrawn w)
    (hissuing : Issuing settings p w l) (hstep : Step settings p w l a w' l') (hq : q ≠ p) {m : Local}
    (hother : Issuing settings q w m) : Issuing settings q w' m where
  pair pair hpair := by
    obtain ⟨⟨generation, hsigned⟩, hrest⟩ := hother.pair pair hpair
    exact ⟨⟨generation, hstep.log_mono hsigned⟩, hrest⟩
  unsaved issue hunsaved := by
    have hbefore := hother.unsaved issue hunsaved
    obtain ⟨now, hnow, hfrom⟩ := hbefore.signedFrom
    -- an identifier the mover signed is not the one `q` signed
    have hdistinct {token : AccessToken} {generation : Nat} (hsigned : .signed p token generation ∈ w.log) :
        token.jti ≠ issue.pair.access.jti := fun hjti =>
      hq (hdrawn.once _ _ _ _ _ _ hbefore.signed hsigned hjti.symm).1
    refine ⟨hstep.log_mono hbefore.signed, ⟨now, Int.le_trans hnow hstep.clocks.1, hfrom⟩, ?_, ?_⟩
    · intro id row hrow
      rcases hstep.row_origin hfresh hrow with hold | hsaves
      · exact hbefore.unrecorded id row hold
      · obtain ⟨token, generation, hsigned, hjti⟩ := hsaves.signed hissuing
        rw [hjti]
        exact hdistinct hsigned
    · intro pair hissued
      rcases hstep.mem_log hissued with hold | hnew
      · exact hbefore.unissued pair hold
      · cases hnew with
        | issued hresponds =>
            obtain ⟨⟨generation, hsigned⟩, -⟩ := hissuing.pair pair hresponds.pair
            exact hdistinct hsigned
  saves uid copy pair data existing hsaves := by
    have hbefore := hother.saves uid copy pair data existing hsaves
    obtain ⟨now, externalToken, hnow, hexp, hdata⟩ := hbefore.prepared
    refine ⟨hbefore.jti, ⟨now, externalToken, Int.le_trans hnow hstep.clocks.1, hexp, hdata⟩, ?_⟩
    intro id row hexisting
    obtain ⟨hid, huser, hjti, howner⟩ := hbefore.selected id row hexisting
    refine ⟨Nat.lt_of_lt_of_le hid hstep.nextSessionId_le, huser, hjti, fun current hcurrent => ?_⟩
    rcases hstep.row_origin hfresh hcurrent with hold | hsaved
    · exact howner current hold
    · cases hsaved with
      | inserted _ _ hnew => exact absurd hnew (Nat.ne_of_lt hid)
      | restamped _ _ hwas hrow =>
          have huserId := howner _ hwas
          rw [hrow]
          exact huserId

/-- What holds of the shared state in every run. -/
structure Grounded (w : World) : Prop where
  fresh : w.db.IdsFresh
  drawn : JtisDrawn w

/-- What holds of every request in every run. -/
structure Tracked (settings : Settings) (p : Pid) (w : World) (l : Local) : Prop where
  holds : HoldsUserLock p w l
  issuing : Issuing settings p w l
  planned : Planned settings l
  repairs : RepairsCurrent w l

theorem Step.grounded (hgrounded : Grounded w) (htracked : Tracked settings p w l)
    (hstep : Step settings p w l a w' l') : Grounded w' where
  fresh := hstep.idsFresh hgrounded.fresh
  drawn := hstep.jtisDrawn hgrounded.fresh hgrounded.drawn htracked.issuing

theorem Step.tracked (hgrounded : Grounded w) (htracked : Tracked settings p w l)
    (hstep : Step settings p w l a w' l') : Tracked settings p w' l' where
  holds := hstep.holdsUserLock htracked.holds
  issuing := hstep.issuing hgrounded.fresh hgrounded.drawn htracked.issuing
  planned := hstep.planned htracked.planned
  repairs := hstep.repairsCurrent htracked.repairs

theorem Step.othersTracked (hgrounded : Grounded w) (htracked : Tracked settings p w l)
    (hstep : Step settings p w l a w' l') (hq : q ≠ p) {m : Local} (hother : Tracked settings q w m) :
    Tracked settings q w' m where
  holds := hstep.othersHoldUserLock hq hother.holds
  issuing := hstep.othersIssuing hgrounded.fresh hgrounded.drawn htracked.issuing hq hother.issuing
  planned := hother.planned
  repairs :=
    hstep.othersRepairCurrent hgrounded.fresh htracked.holds hq hother.holds hother.repairs

theorem Tracked.idle (settings : Settings) (p : Pid) (w : World) : Tracked settings p w .idle where
  holds := .of_none rfl
  issuing := by
    refine ⟨fun pair hpair => ?_, fun issue hunsaved => ?_, fun uid copy pair data existing hsaves => ?_⟩
    · cases hpair
    · cases hunsaved
    · cases hsaves
  planned := .of_none rfl
  repairs := .of_none rfl

/-- A start of the issuer: no request is running and nothing has happened yet. The database is any database
whose identifiers have been drawn. -/
structure Starts (c : Interleaving.Config World Local) : Prop where
  idle : ∀ p, c.locals p = .idle
  log : c.shared.log = []
  fresh : c.shared.db.IdsFresh
  rows : ∀ id row, c.shared.db.sessions.lookup id = some row → row.jwtJti < c.shared.nextJti

theorem Starts.grounded {c : Interleaving.Config World Local} (hstarts : Starts c) :
    Grounded c.shared where
  fresh := hstarts.fresh
  drawn :=
    { rows := hstarts.rows
      signed := by simp [hstarts.log]
      once := by simp [hstarts.log]
      issued := by simp [hstarts.log] }

theorem Starts.tracked {c : Interleaving.Config World Local} (hstarts : Starts c) (p : Pid) :
    Tracked settings p c.shared (c.locals p) := by
  rw [hstarts.idle p]
  exact Tracked.idle settings p c.shared

/-! ### Identifiers in the hands of clients

The identifier of an issued pair has been saved for the last time: no step writes it into a row again.
-/

/-- A client holds a pair under this identifier. -/
def JtiIssued (w : World) (jti : Jti) : Prop := ∃ pair, .issued pair ∈ w.log ∧ pair.access.jti = jti

/-- Every row that carries the identifier is among the given ones. -/
def CarriedIn (w : World) (jti : Jti) (ids : List SessionId) : Prop :=
  ∀ id row, w.db.sessions.lookup id = some row → row.jwtJti = jti → id ∈ ids

theorem carriedIn_sessionIds (w : World) (jti : Jti) :
    CarriedIn w jti (sessionIds w.db (carries jti)) := by
  intro id row hrow hjti
  exact mem_sessionIds.2 ⟨row, hrow, by simp [carries, hjti]⟩

theorem CarriedIn.deleted {jti : Jti} {ids : List SessionId} (hcarried : CarriedIn w jti ids)
    (hdb : w'.db = w.db.deleteSessions ids) : CarriedIn w' jti [] := by
  intro id row hrow hjti
  rw [hdb, Db.lookup_deleteSessions] at hrow
  exact absurd (hcarried id row hrow.1 hjti) hrow.2

theorem CarriedIn.inactive {jti : Jti} (hgone : CarriedIn w jti []) (uid : UserId) :
    (decideJtiStatus w.db jti uid).active = false := by
  rw [← Bool.not_eq_true, decideJtiStatus_active_iff]
  rintro ⟨-, id, row, -, hfound, -⟩
  obtain ⟨hrow, hjti⟩ := sessionByJti_eq_some hfound
  exact absurd (hgone id row hrow hjti) List.not_mem_nil

theorem CarriedIn.lineage {jti : Jti} (hgone : CarriedIn w jti []) (copy : User) :
    refreshLineageIsCurrent w.db copy jti = false := by
  rw [← Bool.not_eq_true, refreshLineageIsCurrent_iff]
  rintro ⟨id, row, hfound, -⟩
  obtain ⟨hrow, hjti⟩ := sessionByJti_eq_some hfound
  exact absurd (hgone id row hrow hjti) List.not_mem_nil

theorem Step.jtiIssued (hstep : Step settings p w l a w' l') {jti : Jti} (hissued : JtiIssued w jti) :
    JtiIssued w' jti := by
  obtain ⟨pair, hpair, hjti⟩ := hissued
  exact ⟨pair, hstep.log_mono hpair, hjti⟩

theorem Step.carriedIn (hfresh : w.db.IdsFresh) (hissuing : Issuing settings p w l)
    (hstep : Step settings p w l a w' l') {jti : Jti} {ids : List SessionId} (hissued : JtiIssued w jti)
    (hcarried : CarriedIn w jti ids) : CarriedIn w' jti ids := by
  intro id row hrow hjti
  rcases hstep.row_origin hfresh hrow with hold | hsaves
  · exact hcarried id row hold hjti
  · obtain ⟨pair, hpair, hpairJti⟩ := hissued
    obtain ⟨uid, copy, pair', data, existing, hlocal, -, hrowJti⟩ := hsaves.facts hissuing
    exact absurd (hpairJti.trans (hjti.symm.trans hrowJti))
      ((hissuing.unsaved _ hlocal.unsaved).unissued pair hpair)

theorem JtisDrawn.refreshIssued (hdrawn : JtisDrawn w) {pair : TokenPair} (hissued : .issued pair ∈ w.log) :
    JtiIssued w pair.refresh.jti := by
  obtain ⟨-, -, -, hjti, -⟩ := hdrawn.issued pair hissued
  exact ⟨pair, hissued, hjti.symm⟩

/-- A refresh that presents the identifier and is past the check of its lineage. -/
def Local.exchanges (jti : Jti) : Local → Prop
  | .refresh _ .allowlist | .refresh _ .lock | .refresh _ (.lineage _) => False
  | .refresh r _ => r.token.jti = jti
  | _ => False

theorem Step.exchanges (hmode : settings.isStateless = false) (hstep : Step settings p w l a w' l')
    {jti : Jti} (hexchanges : l'.exchanges jti) :
    l.exchanges jti ∨ ∃ copy, refreshLineageIsCurrent w.db copy jti = true := by
  have hissue : l'.isIssue = true := by
    cases l' with
    | refresh => rfl
    | _ => cases hexchanges
  rcases hstep.issue_cases hissue with
    ⟨r, phase, rfl, hlogin⟩ | ⟨r, phase, rfl, hrefresh⟩ | ⟨-, -, -, ⟨r, rfl⟩ | ⟨r, rfl⟩⟩
  · cases hlogin <;> cases hexchanges
  · cases hrefresh with
    | lock =>
        rw [hmode, if_neg Bool.false_ne_true] at hexchanges
        cases hexchanges
    | lineage hlineage => exact .inr ⟨_, hexchanges ▸ hlineage⟩
    | sign =>
        rw [hmode, if_neg Bool.false_ne_true] at hexchanges
        exact .inl hexchanges
    | rotate | rotateSkip | load | save => exact .inl hexchanges
    | allowlist | reuse | respond => cases hexchanges
  · cases hexchanges
  · cases hexchanges

end

/-- One reader who signs in with a password, and no request running. -/
def oneReader : Interleaving.Config World Local where
  shared :=
    { db :=
        { users := AList.insert 1 { email := "a", role := .reader, hashedPassword := some "secret" } ∅
          policyRevision := some 0
          nextUserId := 2 } }
  locals _ := .idle

theorem oneReader_starts : Starts oneReader where
  idle _ := rfl
  log := rfl
  fresh := .of_keys (by decide) (by decide) (by decide)
  rows _ _ hrow := by cases hrow

/-- The beginning of a password login of the reader, up to the query for its session row. -/
def loginUntilLoad (p : Pid) : List (Pid × Action) :=
  (p, .begin (.login ⟨.password "a" "secret", false⟩ .read)) :: List.replicate 2 (p, .proceed)

/-- A password login of the reader that finds no session row. -/
def firstLogin (p : Pid) : List (Pid × Action) :=
  loginUntilLoad p ++ (p, .select none) :: List.replicate 2 (p, .proceed)

/-- A password login of the reader that re-stamps the row of the first one. -/
def relogin (p : Pid) : List (Pid × Action) :=
  loginUntilLoad p ++ (p, .select (some 0)) :: List.replicate 2 (p, .proceed)

/-- The pair that the first login of the reader issues. -/
def readerPair (settings : Settings) : TokenPair where
  access :=
    { sub := 1
      jti := 0
      exp := truncateToSecond settings.accessTokenExpires
      isActive := true
      isSuperuser := false
      role := .reader
      email := "a" }
  refresh := { sub := 1, jti := 0, exp := truncateToSecond settings.refreshTokenExpires }

end FaAuthM8

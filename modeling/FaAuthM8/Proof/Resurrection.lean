import FaAuthM8.Proof.Cutover
import FaAuthM8.Proof.Exchange
import FaAuthM8.Proof.Revocations

/-!
# A refresh and a revocation

A refresh checks its lineage, and stores a row some statements later. A logout or an administrator's
revocation does not wait for the row lock of the user, so it can delete the session in between, and the
refresh then finds no row and inserts one. A revocation that comes earlier fails the check, and one that comes
after the refresh has loaded the row it was checked by fails its save. So as long as none commits between the
check and the query, and nobody signs in anew, nothing is stored for a session that has been revoked.
-/

namespace FaAuthM8

/-- The refresh has passed its lineage check, and has not yet loaded the row that carries its token: it has
still to query for a row, or the query has returned none, or another row of the user. -/
def Local.Overtakable (settings : Settings) (token : RefreshToken) : Local → Prop
  | .refresh r (.sign _) => settings.isStateless = false ∧ r.token = token
  | .refresh r (.rotate _ _) | .refresh r (.load _ _) => r.token = token
  | .refresh r (.save _ _ _ existing) =>
      r.token = token ∧ ∀ found, existing = some found → found.2.jwtJti ≠ token.jti
  | _ => False

/-- The step commits a revocation of the session of a refresh that has passed its lineage check and has not
yet loaded its row. -/
def OvertakesRefresh (settings : Settings) (c : Interleaving.Config World Local) (move : Pid × Action)
    (c' : Interleaving.Config World Local) : Prop :=
  ∃ q token, (c.locals q).Overtakable settings token ∧
    Revokes c.shared c'.shared token.sub token.jti (c.locals move.1)

/-- The step from `w` to `w'` commits a refresh of `uid` that exchanges one identifier for another. -/
def Exchanges (w w' : World) (uid : UserId) (presented new : Jti) : Prop :=
  ∃ events, w'.log = events ++ w.log ∧ .exchanged uid presented new ∈ events

/-- Where a refresh has committed after a revocation of its session, the row it has written is active at no
time after that. -/
def NoneResurrected (settings : Settings) (c : Interleaving.Config World Local)
    (schedule : List (Pid × Action)) : Prop :=
  ∀ uid presented new c₁ move c₂ between c₃ move' c₄ rest c',
    (issuer settings).Passes c schedule c₁ move c₂ between →
    Revokes c₁.shared c₂.shared uid presented (c₁.locals move.1) →
    (issuer settings).Passes c₂ between c₃ move' c₄ rest →
    Exchanges c₃.shared c₄.shared uid presented new →
    (issuer settings).run c₄ rest = some c' →
    (decideJtiStatus c'.shared.db new uid).active = false

/-- A token pair was signed under this identifier. -/
def JtiSigned (w : World) (jti : Jti) : Prop :=
  ∃ q token generation, .signed q token generation ∈ w.log ∧ token.jti = jti

/-- A row with the identifier of a signed token belongs to the user of the token, and no other row carries
it. -/
structure RowsKnown (w : World) : Prop where
  owned : ∀ id row, w.db.sessions.lookup id = some row → ∀ q token generation,
    .signed q token generation ∈ w.log → token.jti = row.jwtJti → row.userId = token.sub
  unique : ∀ id row id' row', w.db.sessions.lookup id = some row → w.db.sessions.lookup id' = some row' →
    row.jwtJti = row'.jwtJti → JtiSigned w row.jwtJti → id = id'

/-- A refresh that is about to insert a row has found none. -/
def InsertsFirst (w : World) (l : Local) : Prop :=
  ∀ r copy pair data, l = .refresh r (.save copy pair data none) → NoSession w r.token.sub

/-- A refresh that has passed its lineage check finds the row of its token, and a refresh that has loaded this
row finds it as it was. -/
structure Anchored (settings : Settings) (w : World) (l : Local) : Prop where
  carried : ∀ token, l.Overtakable settings token →
    ∃ id row, w.db.sessions.lookup id = some row ∧ row.jwtJti = token.jti
  loaded : ∀ r copy pair data id row, l = .refresh r (.save copy pair data (some (id, row))) →
    row.jwtJti = r.token.jti → ∀ current, w.db.sessions.lookup id = some current →
      current.jwtJti = r.token.jti

/-- A request holds the rows it is about to delete. -/
def LocksDoomed (p : Pid) (w : World) (l : Local) : Prop :=
  ∀ doomed, l.Dooms doomed → l.isLogin = false → ∀ id ∈ doomed,
    w.locks.session id = some p ∧ id < w.db.nextSessionId

/-- The request is about to save another identifier. -/
def Local.Avoids (jti : Jti) (l : Local) : Prop :=
  ∀ issue, l.unsaved = some issue → issue.pair.access.jti ≠ jti

/-- The session with this identifier, if a token was signed under it, is gone from the table. -/
def SessionGone (w : World) (jti : Jti) : Prop :=
  jti < w.nextJti ∧ (JtiSigned w jti → CarriedIn w jti [])

def Action.beginsLogin : Action → Bool
  | .begin request => request.isLogin
  | _ => false

/-- Every row was there before, and has kept its owner. -/
def RowsShrink (w w' : World) : Prop :=
  ∀ id row', w'.db.sessions.lookup id = some row' →
    ∃ row, w.db.sessions.lookup id = some row ∧ row.userId = row'.userId

theorem NoSession.shrink {w w' : World} {uid : UserId} (hnone : NoSession w uid) (hshrink : RowsShrink w w') :
    NoSession w' uid := by
  intro id row' hrow'
  obtain ⟨row, hrow, huser⟩ := hshrink id row' hrow'
  rw [← huser]
  exact hnone id row hrow

section

variable {settings : Settings} {p q : Pid} {w w' : World} {l l' m : Local} {a : Action}

theorem JtisDrawn.jtiSigned (hdrawn : JtisDrawn w) {pair : TokenPair} (hissued : .issued pair ∈ w.log) :
    JtiSigned w pair.refresh.jti := by
  obtain ⟨q, generation, hsigned, hjti, -⟩ := hdrawn.issued pair hissued
  exact ⟨q, pair.access, generation, hsigned, hjti.symm⟩

theorem Step.signed_cases (hstep : Step settings p w l a w' l') {q : Pid} {token : AccessToken}
    {generation : Nat} (hsigned : .signed q token generation ∈ w'.log) :
    .signed q token generation ∈ w.log ∨ token.jti = w.nextJti := by
  rcases hstep.mem_log hsigned with hold | hlogged
  · exact .inl hold
  · cases hlogged with
    | signed hlocal hpair => exact .inr (createAuthTokens_signedFrom hpair).accessJti

theorem Step.jtiSigned_of_lt (hstep : Step settings p w l a w' l') {jti : Jti} (hlt : jti < w.nextJti)
    (hsigned : JtiSigned w' jti) : JtiSigned w jti := by
  obtain ⟨q, token, generation, hsigned, rfl⟩ := hsigned
  rcases hstep.signed_cases hsigned with hold | hnew
  · exact ⟨q, token, generation, hold, rfl⟩
  · rw [hnew] at hlt
    exact absurd hlt (Nat.lt_irrefl _)

/-! ### Rows and their identifiers -/

/-- A saved row carries the identifier the mover signed, which no other row carried. -/
theorem SavesRow.known (htracked : Tracked settings p w l) {id : SessionId} {row : ClientSession}
    (hsaves : SavesRow p w id row l) :
    ∃ token generation, .signed p token generation ∈ w.log ∧ row.jwtJti = token.jti ∧
      row.userId = token.sub ∧
      ∀ id' row', w.db.sessions.lookup id' = some row' → row'.jwtJti ≠ token.jti := by
  obtain ⟨uid, copy, pair, data, existing, hlocal, huser, hjti⟩ := hsaves.facts htracked.issuing
  have hunsaved := htracked.issuing.unsaved _ hlocal.unsaved
  obtain ⟨now, -, hfrom⟩ := hunsaved.signedFrom
  exact ⟨pair.access, _, hunsaved.signed, hjti, huser.trans hfrom.accessSub.symm, hunsaved.unrecorded⟩

theorem SavesRow.unique {id id' : SessionId} {row row' : ClientSession} (hsaves : SavesRow p w id row l)
    (hsaves' : SavesRow p w id' row' l) : id = id' := by
  cases hsaves with
  | inserted hlocal howner hid hrow =>
      cases hlocal with
      | login =>
          cases hsaves' with
          | inserted _ _ hid' _ => rw [hid, hid']
          | restamped hlocal' => cases hlocal'
      | refresh huser =>
          cases hsaves' with
          | inserted _ _ hid' _ => rw [hid, hid']
          | restamped hlocal' => cases hlocal'
  | restamped hlocal hfree hcurrent hrow =>
      cases hlocal with
      | login =>
          cases hsaves' with
          | inserted hlocal' => cases hlocal'
          | restamped hlocal' =>
              cases hlocal'
              rfl
      | refresh huser =>
          cases hsaves' with
          | inserted hlocal' => cases hlocal'
          | restamped hlocal' =>
              cases hlocal'
              rfl

theorem Step.rowsKnown (hgrounded : Grounded w) (htracked : Tracked settings p w l) (hknown : RowsKnown w)
    (hstep : Step settings p w l a w' l') : RowsKnown w' where
  owned id row hrow q token generation hsigned hjti := by
    rcases hstep.row_origin hgrounded.fresh hrow with hold | hsaves
    · rcases hstep.signed_cases hsigned with hsigned | hnew
      · exact hknown.owned id row hold q token generation hsigned hjti
      · have hlt := hgrounded.drawn.rows id row hold
        rw [← hjti, hnew] at hlt
        exact absurd hlt (Nat.lt_irrefl _)
    · obtain ⟨token', generation', hsigned', hjti', huser, -⟩ := hsaves.known htracked
      have hdrawn := (hstep.grounded hgrounded htracked).drawn
      obtain ⟨-, rfl, -⟩ := hdrawn.once _ _ _ _ _ _ hsigned (hstep.log_mono hsigned') (hjti.trans hjti')
      exact huser
  unique id row id' row' hrow hrow' hjti hsigned := by
    rcases hstep.row_origin hgrounded.fresh hrow with hold | hsaves
    · have hsignedBefore := hstep.jtiSigned_of_lt (hgrounded.drawn.rows id row hold) hsigned
      rcases hstep.row_origin hgrounded.fresh hrow' with hold' | hsaves'
      · exact hknown.unique id row id' row' hold hold' hjti hsignedBefore
      · obtain ⟨token, generation, -, hjti', -, hother⟩ := hsaves'.known htracked
        exact absurd (hjti.trans hjti') (hother id row hold)
    · rcases hstep.row_origin hgrounded.fresh hrow' with hold' | hsaves'
      · obtain ⟨token, generation, -, hjti', -, hother⟩ := hsaves.known htracked
        exact absurd (hjti.symm.trans hjti') (hother id' row' hold')
      · exact hsaves.unique hsaves'

theorem RowsKnown.owner (hknown : RowsKnown w) (hdrawn : JtisDrawn w) {token : RefreshToken}
    (hissued : ∃ pair, .issued pair ∈ w.log ∧ pair.refresh = token) {id : SessionId} {row : ClientSession}
    (hrow : w.db.sessions.lookup id = some row) (hjti : row.jwtJti = token.jti) : row.userId = token.sub := by
  obtain ⟨pair, hissued, rfl⟩ := hissued
  obtain ⟨q, generation, hsigned, hpairJti, hsub⟩ := hdrawn.issued pair hissued
  have howner := hknown.owned id row hrow q pair.access generation hsigned (hpairJti.symm.trans hjti.symm)
  exact howner.trans hsub.symm

theorem NoSession.gone {uid : UserId} (hnone : NoSession w uid) (hknown : RowsKnown w) (hdrawn : JtisDrawn w)
    {token : RefreshToken} (hissued : ∃ pair, .issued pair ∈ w.log ∧ pair.refresh = token)
    (huid : token.sub = uid) : CarriedIn w token.jti [] := by
  intro id row hrow hjti
  exact absurd ((hknown.owner hdrawn hissued hrow hjti).trans huid) (hnone id row hrow)

/-! ### While nobody signs in -/

theorem Step.not_login (hstep : Step settings p w l a w' l') (hbegins : a.beginsLogin = false)
    (hbefore : l.isLogin = false) : l'.isLogin = false := by
  cases l' with
  | login r phase =>
      rcases hstep.issue_cases rfl with ⟨r', phase', rfl, -⟩ | ⟨r', phase', rfl, hrefresh⟩ | ⟨-, -, hbegan, -⟩
      · cases hbefore
      · cases hrefresh
      · rw [hbegan.1] at hbegins
        exact hbegins
  | _ => rfl

theorem Step.insertsFirst (hstep : Step settings p w l a w' l') : InsertsFirst w' l' := by
  intro r copy pair data hlocal
  subst hlocal
  obtain ⟨rfl, -, ⟨pick, hselect⟩, -⟩ := hstep.saves (.refresh rfl)
  obtain ⟨-, hnone⟩ | ⟨id, row, hsome, -⟩ := selectSession_eq_some hselect
  · exact hnone
  · cases hsome

theorem InsertsFirst.shrink (hfirst : InsertsFirst w m) (hshrink : RowsShrink w w') : InsertsFirst w' m :=
  fun r copy pair data hlocal => (hfirst r copy pair data hlocal).shrink hshrink

theorem Local.Overtakable.exchanging {token : RefreshToken} (hover : l.Overtakable settings token) :
    l.exchanging = some token := by
  cases l with
  | refresh r phase =>
      cases phase with
      | sign => exact congrArg some hover.2
      | rotate | load => exact congrArg some hover
      | save => exact congrArg some hover.1
      | _ => cases hover
  | _ => cases hover

/-- A refresh comes between the check of its lineage and its row by the check. -/
theorem Step.overtakable (hstep : Step settings p w l a w' l') {token : RefreshToken}
    (hover : l'.Overtakable settings token) : w'.db.sessions = w.db.sessions ∧
      (l.Overtakable settings token ∨ ∃ copy, refreshLineageIsCurrent w.db copy token.jti = true) := by
  have hissue : l'.isIssue = true := by
    cases l' with
    | refresh => rfl
    | _ => cases hover
  rcases hstep.issue_cases hissue with
    ⟨r, phase, rfl, hlogin⟩ | ⟨r, phase, rfl, hrefresh⟩ | ⟨-, -, -, ⟨r, rfl⟩ | ⟨r, rfl⟩⟩
  · cases hlogin <;> cases hover
  · cases hrefresh with
    | lock =>
        split at hover
        · next hstateless =>
            obtain ⟨hmode, -⟩ := hover
            rw [hstateless] at hmode
            cases hmode
        · cases hover
    | lineage hlineage =>
        obtain ⟨-, rfl⟩ := hover
        exact ⟨rfl, .inr ⟨_, hlineage⟩⟩
    | sign =>
        split at hover
        · cases hover
        · next hmode => exact ⟨rfl, .inl ⟨Bool.not_eq_true _ ▸ hmode, hover⟩⟩
    | rotate _ hsend => exact ⟨by rw [(World.send_frame hsend).1], .inl hover⟩
    | rotateSkip => exact ⟨rfl, .inl hover⟩
    | load => exact ⟨rfl, .inl hover.1⟩
    | allowlist | reuse | save | respond => cases hover
  · cases hover
  · cases hover

theorem Step.anchored (hanchored : Anchored settings w l) (hstep : Step settings p w l a w' l') :
    Anchored settings w' l' where
  carried token hover := by
    obtain ⟨hsessions, hold | ⟨copy, hlineage⟩⟩ := hstep.overtakable hover
    · rw [hsessions]
      exact hanchored.carried token hold
    · obtain ⟨id, row, hfound, -⟩ := refreshLineageIsCurrent_iff.1 hlineage
      rw [hsessions]
      exact ⟨id, row, sessionByJti_eq_some hfound⟩
  loaded r copy pair data id row hlocal hjti current hcurrent := by
    subst hlocal
    obtain ⟨rfl, -, ⟨pick, hselect⟩, -⟩ := hstep.saves (.refresh rfl)
    obtain ⟨hnone, -⟩ | ⟨id', row', hsome, hrow, -⟩ := selectSession_eq_some hselect
    · cases hnone
    · obtain ⟨rfl, rfl⟩ := Prod.mk.inj (Option.some.inj hsome)
      obtain rfl := Option.some.inj (hrow.symm.trans hcurrent)
      exact hjti

/-- Without logins, a row is written over by a process that holds the row of its owner. -/
theorem SavesRow.owner_locked (hgrounded : Grounded w) (htracked : Tracked settings p w l)
    (hlogin : l.isLogin = false) {id : SessionId} {row row' : ClientSession} (hsaves : SavesRow p w id row' l)
    (hrow : w.db.sessions.lookup id = some row) : w.locks.user row.userId = some p := by
  cases hsaves with
  | inserted _ _ hid => exact absurd hid (Nat.ne_of_lt (hgrounded.fresh.sessions id row hrow))
  | restamped hlocal =>
      obtain ⟨-, -, -, howner⟩ := (htracked.issuing.saves _ _ _ _ _ hlocal).selected _ _ rfl
      rw [howner row hrow]
      cases hlocal with
      | login => cases hlogin
      | refresh huser => exact htracked.holds _ (congrArg some huser)

/-- While a refresh is running, no step of another process but a revocation touches a row of the user. -/
theorem Step.row_held (hgrounded : Grounded w) (htracked : Tracked settings p w l) (hnamed : NamesDoomed w l)
    (hlogin : l.isLogin = false) (hstep : Step settings p w l a w' l') (hq : q ≠ p) {id : SessionId}
    {row : ClientSession} (hrow : w.db.sessions.lookup id = some row)
    (hheld : w.locks.user row.userId = some q) :
    w'.db.sessions.lookup id = some row ∨ (w'.log ≠ w.log ∧ l.NamesRow id row) := by
  obtain hkept | ⟨row', hsaves⟩ | hrevokes := hstep.row_kept hgrounded.fresh hnamed hlogin hrow
  · exact .inl hkept
  · have hmine := hsaves.owner_locked hgrounded htracked hlogin hrow
    exact absurd (Option.some.inj (hheld.symm.trans hmine)) hq
  · exact .inr hrevokes

theorem Step.othersAnchored (hgrounded : Grounded w) (hknown : RowsKnown w) (htracked : Tracked settings p w l)
    (hnamed : NamesDoomed w l) (hlogin : l.isLogin = false) (hstep : Step settings p w l a w' l') (hq : q ≠ p)
    (hother : Tracked settings q w m) (hissued : PresentsIssued w m)
    (hok : ∀ token, m.Overtakable settings token → ¬ Revokes w w' token.sub token.jti l)
    (hanchored : Anchored settings w m) : Anchored settings w' m where
  carried token hover := by
    obtain ⟨id, row, hrow, hjti⟩ := hanchored.carried token hover
    have hexchanging := hover.exchanging
    have howner := hknown.owner hgrounded.drawn (hissued token (Local.exchanging_presents hexchanging)) hrow hjti
    have hheld := hother.holds _ (Local.exchanging_lockedUser hexchanging)
    rw [← howner] at hheld
    obtain hkept | ⟨hcommits, huser | hnames⟩ :=
      hstep.row_held hgrounded htracked hnamed hlogin hq hrow hheld
    · exact ⟨id, row, hkept, hjti⟩
    · exact absurd (.all (howner ▸ huser) hcommits) (hok token hover)
    · exact absurd (.one hrow hjti hnames hcommits) (hok token hover)
  loaded r copy pair data id row hlocal hjti current hcurrent := by
    rcases hstep.row_origin hgrounded.fresh hcurrent with hold | hsaves
    · exact hanchored.loaded r copy pair data id row hlocal hjti current hold
    · subst hlocal
      obtain ⟨hid, -, -, howner⟩ := (hother.issuing.saves _ _ _ _ _ (.refresh rfl)).selected id row rfl
      cases hsaves with
      | inserted _ _ hnew => exact absurd hnew (Nat.ne_of_lt hid)
      | restamped hlocal hfree hwas hrow =>
          have hmine := (SavesRow.restamped hlocal hfree hwas rfl).owner_locked hgrounded htracked hlogin hwas
          rw [howner _ hwas, hother.holds _ rfl] at hmine
          exact absurd (Option.some.inj hmine) hq

theorem Step.exchanges_commits (hstep : Step settings p w l a w' l') {uid : UserId} {presented new : Jti}
    (hexchanges : Exchanges w w' uid presented new) : ∃ token existing,
      CommitsExchange p w w' token existing l ∧ token.sub = uid ∧ token.jti = presented := by
  obtain ⟨events, hlog, hmem⟩ := hexchanges
  obtain ⟨logged, hlog', hlogged⟩ := hstep.records
  obtain rfl : events = logged := List.append_cancel_right (hlog.symm.trans hlog')
  cases hlogged _ hmem with
  | exchanged hlocal =>
      subst hlocal
      cases hstep with
      | abort | error =>
          obtain rfl := List.append_left_eq_self.1 hlog.symm
          cases hmem
      | refresh hrefresh =>
          cases hrefresh with
          | save hfree hcommit => exact ⟨_, _, .save rfl hfree hcommit rfl, rfl, rfl⟩

/-- A refresh that commits still finds a row with the identifier it exchanges. -/
theorem Anchored.present (hanchored : Anchored settings w l) (hissuing : Issuing settings p w l)
    {presented : RefreshToken} {existing : Option (SessionId × ClientSession)}
    (hcommits : CommitsExchange p w w' presented existing l) :
    ∃ id row, w.db.sessions.lookup id = some row ∧ row.jwtJti = presented.jti := by
  cases hcommits with
  | @save r copy pair data htoken hfree hcommit =>
      subst htoken
      cases existing with
      | none => exact hanchored.carried r.token ⟨rfl, nofun⟩
      | some found =>
          obtain ⟨id, loaded⟩ := found
          by_cases hjti : loaded.jwtJti = r.token.jti
          · have hprepared := hissuing.saves _ _ _ _ _ (.refresh rfl)
            obtain ⟨-, -, hunsaved, -⟩ := hprepared.selected id loaded rfl
            obtain ⟨db₁, happly, -⟩ := commit_cons_eq_ok.1 hcommit
            obtain ⟨hsame, -⟩ | ⟨current, hcurrent, -⟩ := Db.updateSession_eq_ok happly
            · have hrestamped : data.jwtJti = loaded.jwtJti := congrArg ClientSession.jwtJti hsame
              exact absurd (hrestamped.symm.trans hprepared.jti) hunsaved
            · exact ⟨id, current, hcurrent, hanchored.loaded r copy pair data id loaded rfl hjti current hcurrent⟩
          · exact hanchored.carried r.token ⟨rfl, fun found hfound => Option.some.inj hfound ▸ hjti⟩

/-- Without logins, a step stores no row that was not there, and changes no owner. -/
theorem Step.rowsShrink (hgrounded : Grounded w) (hknown : RowsKnown w) (hissued : PresentsIssued w l)
    (hlogin : l.isLogin = false) (hfirst : InsertsFirst w l) (hanchored : Anchored settings w l)
    (htracked : Tracked settings p w l) (hstep : Step settings p w l a w' l') : RowsShrink w w' := by
  intro id row' hrow'
  rcases hstep.row_origin hgrounded.fresh hrow' with hold | hsaves
  · exact ⟨row', hold, rfl⟩
  · cases hsaves with
    | restamped hlocal hfree hcurrent hrow =>
        subst hrow
        exact ⟨_, hcurrent, rfl⟩
    | inserted hlocal =>
        cases hlocal with
        | login => cases hlogin
        | @refresh r huser =>
            -- the row of the token is still there, so the query cannot have found none
            obtain ⟨id, row, hrow, hjti⟩ := hanchored.carried r.token ⟨rfl, nofun⟩
            have howner := hknown.owner hgrounded.drawn (hissued r.token rfl) hrow hjti
            exact absurd howner (hfirst r _ _ _ rfl id row hrow)

/-! ### What a revocation is about to delete -/

theorem Step.locksRows (hgrounded : Grounded w) (hlogsOut : l.LogsOut settings w)
    (hstep : Step settings p w l a w' l') : LocksDoomed p w' l' := by
  intro doomed hdooms hlogin id hid
  obtain ⟨rfl, hmem⟩ := hstep.locksDoomed hlogsOut hlogin hdooms
  obtain ⟨row, hrow, -⟩ := (hmem id).1 hid
  refine ⟨?_, hgrounded.fresh.sessions id row hrow⟩
  show (if _ then some p else _) = some p
  rw [if_pos (by simpa using hid)]

theorem Step.othersLockRows (hstep : Step settings p w l a w' l') (hq : q ≠ p) (hlocks : LocksDoomed q w m) :
    LocksDoomed q w' m := by
  intro doomed hdooms hlogin id hid
  obtain ⟨hlocked, hlt⟩ := hlocks doomed hdooms hlogin id hid
  exact ⟨((hstep.sameLocks hq).session id).2 hlocked, Nat.lt_of_lt_of_le hlt hstep.nextSessionId_le⟩

/-- A row that a step writes over is named by no other request, unless it was before. -/
theorem SavesRow.named (hissuing : Issuing settings p w l) (hlogsOut : m.LogsOut settings w) {id : SessionId}
    {row row' : ClientSession} (hsaves : SavesRow p w id row' l) (hrow : w.db.sessions.lookup id = some row)
    (howner : row.userId = row'.userId) (hnames : m.NamesRow id row') : m.NamesRow id row := by
  -- the saved identifier is in nobody's hands yet
  have hunissued (hissued : JtiIssued w row'.jwtJti) : False := by
    obtain ⟨pair, hpair, hjti⟩ := hissued
    obtain ⟨uid, copy, pair', data, existing, hlocal, -, hrowJti⟩ := hsaves.facts hissuing
    exact (hissuing.unsaved _ hlocal.unsaved).unissued pair hpair (hjti.trans hrowJti)
  obtain huser | hnames := hnames
  · exact .inl (howner ▸ huser)
  · right
    cases m with
    | logout r phase =>
        obtain ⟨⟨haccess, hrefresh⟩, hdone⟩ := hlogsOut
        cases phase with
        | accessCommit =>
            have hjti : row'.jwtJti = r.access.jti := hnames
            exact absurd (hjti ▸ haccess) hunissued
        | sessionCommit jti =>
            have hpresented : Presented r.access r.refresh jti := hdone.2.1
            have hjti : row'.jwtJti = r.revokedJti jti := hnames
            rw [hpresented.revokedJti] at hjti
            exact absurd (hjti ▸ hpresented.issued haccess hrefresh) hunissued
        | _ => cases hnames
    | revokeSession r phase =>
        cases phase with
        | commit => exact hnames
        | _ => cases hnames
    | legacySweep phase =>
        cases phase with
        | commit =>
            obtain ⟨row₀, hrow₀, hlegacy⟩ := hsaves.legacyRow hnames
            obtain rfl := Option.some.inj (hrow.symm.trans hrow₀)
            exact hlegacy
        | _ => cases hnames
    | _ => cases hnames

theorem Step.othersNamesDoomed (hgrounded : Grounded w) (hissuing : Issuing settings p w l)
    (hshrink : RowsShrink w w') (hstep : Step settings p w l a w' l') (hq : q ≠ p)
    (hlogsOut : m.LogsOut settings w) (hlocks : LocksDoomed q w m) (hnamed : NamesDoomed w m) :
    NamesDoomed w' m := by
  intro doomed hdooms hlogin id row' hrow'
  rcases hstep.row_origin hgrounded.fresh hrow' with hold | hsaves
  · exact hnamed doomed hdooms hlogin id row' hold
  · obtain ⟨row, hrow, howner⟩ := hshrink id row' hrow'
    have hunnamed : id ∉ doomed := by
      intro hid
      obtain ⟨hlocked, hlt⟩ := hlocks doomed hdooms hlogin id hid
      cases hsaves with
      | inserted _ _ hnew => exact absurd hnew (Nat.ne_of_lt hlt)
      | restamped _ hfree => exact hq (free_iff.1 hfree q hlocked)
    refine ⟨fun hid => absurd hid hunnamed, fun hnames => ?_⟩
    exact (hnamed doomed hdooms hlogin id row hrow).2 (hsaves.named hissuing hlogsOut hrow howner hnames)

/-! ### After a revocation -/

theorem Tracked.avoids (htracked : Tracked settings p w l) {id : SessionId} {row : ClientSession}
    (hrow : w.db.sessions.lookup id = some row) : l.Avoids row.jwtJti := by
  intro issue hunsaved heq
  exact (htracked.issuing.unsaved issue hunsaved).unrecorded id row hrow heq.symm

/-- A process that has just signed has drawn a new identifier. -/
theorem Step.avoids (hstep : Step settings p w l a w' l') {jti : Jti} (hlt : jti < w.nextJti)
    (havoids : l.Avoids jti) : l'.Avoids jti := by
  intro issue hunsaved
  obtain ⟨hold | hsigns, -⟩ := hstep.unsaved hunsaved
  · exact havoids issue hold
  · rw [hsigns.facts.1.accessJti]
    exact (Nat.ne_of_lt hlt).symm

theorem Step.staysGone (hgrounded : Grounded w) (htracked : Tracked settings p w l) {jti : Jti}
    (havoids : l.Avoids jti) (hgone : SessionGone w jti) (hstep : Step settings p w l a w' l') :
    SessionGone w' jti := by
  obtain ⟨hlt, hcarried⟩ := hgone
  refine ⟨Nat.lt_of_lt_of_le hlt hstep.nextJti_le, fun hsigned id row hrow hjti => ?_⟩
  rcases hstep.row_origin hgrounded.fresh hrow with hold | hsaves
  · exact hcarried (hstep.jtiSigned_of_lt hlt hsigned) id row hold hjti
  · obtain ⟨uid, copy, pair, data, existing, hlocal, -, hrowJti⟩ := hsaves.facts htracked.issuing
    exact absurd (hrowJti.symm.trans hjti) (havoids _ hlocal.unsaved)

theorem Step.revoked (hgrounded : Grounded w) (hknown : RowsKnown w) (hnamed : NamesDoomed w l)
    (hstep : Step settings p w l a w' l') {uid : UserId} {jti : Jti} (hrevokes : Revokes w w' uid jti l) :
    NoSession w' uid ∨
      (∃ id row, w.db.sessions.lookup id = some row ∧ row.jwtJti = jti) ∧ SessionGone w' jti := by
  cases hrevokes with
  | all huser hcommits => exact .inl (hstep.noSession_of_revokesUser hgrounded.fresh hnamed hcommits huser)
  | @one id row hrow hjti hnames hcommits =>
      subst hjti
      have hlt := hgrounded.drawn.rows id row hrow
      refine .inr ⟨⟨id, row, hrow, rfl⟩, Nat.lt_of_lt_of_le hlt hstep.nextJti_le, fun hsigned => ?_⟩
      refine hstep.carriedIn_of_names hgrounded.fresh hnamed hcommits hrow hnames fun id' row' hrow' hjti => ?_
      exact (hknown.unique id row id' row' hrow hrow' hjti.symm (hstep.jtiSigned_of_lt hlt hsigned)).symm

/-! ### The run -/

/-- What holds of the shared state and of every request while nobody signs in and no revocation overtakes a
refresh. -/
abbrev ResurrectionInv (settings : Settings) : Interleaving.Config World Local → Prop :=
  Interleaving.Asserted (fun w => Grounded w ∧ RowsKnown w) fun p w l =>
    (Tracked settings p w l ∧ PresentsIssued w l ∧ l.isLogin = false ∧ InsertsFirst w l ∧
      Anchored settings w l) ∧ l.LogsOut settings w ∧ LocksDoomed p w l ∧ NamesDoomed w l

/-- Nobody signs in, and no revocation overtakes a refresh. -/
def Undisturbed (settings : Settings) (c : Interleaving.Config World Local) (move : Pid × Action)
    (c' : Interleaving.Config World Local) : Prop :=
  move.2.beginsLogin = false ∧ ¬ OvertakesRefresh settings c move c'

theorem ResurrectionInv.shrink {c c' : Interleaving.Config World Local} {move : Pid × Action}
    (hinv : ResurrectionInv settings c) (hnext : (issuer settings).next c move = some c') :
    RowsShrink c.shared c'.shared := by
  obtain ⟨hgrounded, hknown⟩ := hinv.shared
  obtain ⟨⟨htracked, hissued, hlogin, hfirst, hanchored⟩, -⟩ := hinv.locals move.1
  obtain ⟨l', -, hstep⟩ := next_sound hnext
  exact hstep.rowsShrink hgrounded hknown hissued hlogin hfirst hanchored htracked

theorem ResurrectionInv.next {c c' : Interleaving.Config World Local} {move : Pid × Action}
    (hinv : ResurrectionInv settings c) (hnext : (issuer settings).next c move = some c')
    (hok : Undisturbed settings c move c') : ResurrectionInv settings c' := by
  obtain ⟨hgrounded, hknown⟩ := hinv.shared
  obtain ⟨⟨htracked, hissued, hlogin, hfirst, hanchored⟩, hlogsOut, hlocks, hnamed⟩ := hinv.locals move.1
  have hshrink := hinv.shrink hnext
  refine asserted_next hnext fun l' hstep => ?_
  refine ⟨⟨hstep.grounded hgrounded htracked, hstep.rowsKnown hgrounded htracked hknown⟩,
    ⟨⟨hstep.tracked hgrounded htracked, hstep.presentsIssued hissued, hstep.not_login hok.1 hlogin,
      hstep.insertsFirst, hstep.anchored hanchored⟩, hstep.logsOut hgrounded htracked hlogsOut,
      hstep.locksRows hgrounded hlogsOut, hstep.namesDoomed hlogsOut⟩, fun q hq => ?_⟩
  obtain ⟨⟨hother, hissued', hlogin', hfirst', hanchored'⟩, hlogsOut', hlocks', hnamed'⟩ := hinv.locals q
  have hfree (token : RefreshToken) (hover : (c.locals q).Overtakable settings token) :
      ¬ Revokes c.shared c'.shared token.sub token.jti (c.locals move.1) :=
    fun hrevokes => hok.2 ⟨q, token, hover, hrevokes⟩
  exact ⟨⟨hstep.othersTracked hgrounded htracked hq hother, hstep.othersPresentIssued hissued', hlogin',
      hfirst'.shrink hshrink,
      hstep.othersAnchored hgrounded hknown htracked hnamed hlogin hq hother hissued' hfree hanchored'⟩,
    hstep.done_mono hgrounded.fresh htracked.issuing hlogsOut', hstep.othersLockRows hq hlocks',
    hstep.othersNamesDoomed hgrounded htracked.issuing hshrink hq hlogsOut' hlocks' hnamed'⟩

theorem ResurrectionInv.unrevoked {c c' : Interleaving.Config World Local} {move : Pid × Action}
    (hinv : ResurrectionInv settings c) (hnext : (issuer settings).next c move = some c') {uid : UserId}
    {presented new : Jti} (hexchanges : Exchanges c.shared c'.shared uid presented new) :
    ¬ NoSession c.shared uid ∧ ¬ SessionGone c.shared presented := by
  obtain ⟨hgrounded, hknown⟩ := hinv.shared
  obtain ⟨⟨htracked, hissued, -, -, hanchored⟩, -⟩ := hinv.locals move.1
  obtain ⟨l', -, hstep⟩ := next_sound hnext
  obtain ⟨token, existing, hcommits, rfl, rfl⟩ := hstep.exchanges_commits hexchanges
  have htoken := hissued token (Local.exchanging_presents hcommits.exchanging)
  obtain ⟨id, row, hrow, hjti⟩ := hanchored.present htracked.issuing hcommits
  constructor
  · intro hnone
    exact hnone id row hrow (hknown.owner hgrounded.drawn htoken hrow hjti)
  · rintro ⟨-, hcarried⟩
    obtain ⟨pair, hpair, rfl⟩ := htoken
    exact absurd (hcarried (hgrounded.drawn.jtiSigned hpair) id row hrow hjti) List.not_mem_nil

/-- The identifier is gone, and nobody is about to save it. -/
abbrev StaysGone (jti : Jti) : Interleaving.Config World Local → Prop :=
  Interleaving.Asserted (fun w => SessionGone w jti) fun _ _ l => l.Avoids jti

theorem ResurrectionInv.staysGone {c c' : Interleaving.Config World Local} {move : Pid × Action} {jti : Jti}
    (hinv : ResurrectionInv settings c) (hnext : (issuer settings).next c move = some c')
    (hgone : StaysGone jti c) : StaysGone jti c' := by
  have hgrounded := hinv.shared.1
  obtain ⟨⟨htracked, -⟩, -⟩ := hinv.locals move.1
  have havoids := hgone.locals move.1
  refine asserted_next hnext fun l' hstep => ⟨?_, hstep.avoids hgone.shared.1 havoids, fun q _ => hgone.locals q⟩
  exact hstep.staysGone hgrounded htracked havoids hgone.shared

/-- A revocation of a session, or of all sessions of its user, is not followed by an exchange of it. -/
theorem ResurrectionInv.revoked {c₁ c₂ c₃ c₄ : Interleaving.Config World Local} {move move' : Pid × Action}
    {between rest : List (Pid × Action)} {uid : UserId} {presented new : Jti}
    (hinv : ResurrectionInv settings c₁) (hnext : (issuer settings).next c₁ move = some c₂)
    (hrevokes : Revokes c₁.shared c₂.shared uid presented (c₁.locals move.1))
    (hinv' : ResurrectionInv settings c₂) (hok : (issuer settings).Along (Undisturbed settings) c₂ between)
    (hpasses : (issuer settings).Passes c₂ between c₃ move' c₄ rest) :
    ¬ Exchanges c₃.shared c₄.shared uid presented new := by
  intro hexchanges
  obtain ⟨hgrounded, hknown⟩ := hinv.shared
  obtain ⟨l', -, hstep⟩ := next_sound hnext
  obtain hnone | ⟨⟨id, row, hrow, rfl⟩, hgone⟩ :=
    hstep.revoked hgrounded hknown (hinv.locals move.1).2.2.2 hrevokes
  · have hkeeps : ∀ c a c', (ResurrectionInv settings c ∧ NoSession c.shared uid) →
        (issuer settings).next c a = some c' → Undisturbed settings c a c' →
        ResurrectionInv settings c' ∧ NoSession c'.shared uid :=
      fun _ _ _ ⟨hinv, hnone⟩ hnext hok => ⟨hinv.next hnext hok, hnone.shrink (hinv.shrink hnext)⟩
    obtain ⟨⟨hinv₃, hnone₃⟩, hnext₃, -⟩ := hpasses.guarded hkeeps ⟨hinv', hnone⟩ hok
    exact (hinv₃.unrevoked hnext₃ hexchanges).1 hnone₃
  · have hkeeps : ∀ c a c', (ResurrectionInv settings c ∧ StaysGone row.jwtJti c) →
        (issuer settings).next c a = some c' → Undisturbed settings c a c' →
        ResurrectionInv settings c' ∧ StaysGone row.jwtJti c' :=
      fun _ _ _ ⟨hinv, hgone⟩ hnext hok => ⟨hinv.next hnext hok, hinv.staysGone hnext hgone⟩
    have hstays : StaysGone row.jwtJti c₂ := by
      refine asserted_next hnext fun l' hstep => ?_
      have havoids (q : Pid) : (c₁.locals q).Avoids row.jwtJti := (hinv.locals q).1.1.avoids hrow
      exact ⟨hgone, hstep.avoids (hgrounded.drawn.rows id row hrow) (havoids _), fun q _ => havoids q⟩
    obtain ⟨⟨hinv₃, hgone₃⟩, hnext₃, -⟩ := hpasses.guarded hkeeps ⟨hinv', hstays⟩ hok
    exact (hinv₃.unrevoked hnext₃ hexchanges).2 hgone₃.shared

theorem Starts.rowsKnown {c c' : Interleaving.Config World Local} {schedule : List (Pid × Action)}
    (hstarts : Starts c) (hrun : (issuer settings).run c schedule = some c') :
    Grounded c'.shared ∧ RowsKnown c'.shared := by
  have hstep : ∀ c move c',
      Interleaving.Asserted (fun w => Grounded w ∧ RowsKnown w) (Tracked settings) c →
      (issuer settings).next c move = some c' →
      Interleaving.Asserted (fun w => Grounded w ∧ RowsKnown w) (Tracked settings) c' := by
    intro c move c' hinv hnext
    obtain ⟨hgrounded, hknown⟩ := hinv.shared
    have htracked := hinv.locals move.1
    refine asserted_next hnext fun l' hstep => ?_
    refine ⟨⟨hstep.grounded hgrounded htracked, hstep.rowsKnown hgrounded htracked hknown⟩,
      hstep.tracked hgrounded htracked, fun q hq => ?_⟩
    exact hstep.othersTracked hgrounded htracked hq (hinv.locals q)
  have hfirst : Interleaving.Asserted (fun w => Grounded w ∧ RowsKnown w) (Tracked settings) c := by
    refine ⟨⟨hstarts.grounded, ⟨?_, ?_⟩⟩, hstarts.tracked⟩
    · intro id row hrow q token generation hsigned
      simp [hstarts.log] at hsigned
    · rintro id row id' row' hrow hrow' hjti ⟨q, token, generation, hsigned, -⟩
      simp [hstarts.log] at hsigned
  exact (Interleaving.System.run_keeps hstep hfirst hrun).shared

theorem ResurrectionInv.idle {c : Interleaving.Config World Local} (hgrounded : Grounded c.shared)
    (hknown : RowsKnown c.shared) (hidle : ∀ p, c.locals p = .idle) : ResurrectionInv settings c := by
  refine ⟨⟨hgrounded, hknown⟩, fun p => ?_⟩
  rw [hidle p]
  refine ⟨⟨.idle settings p c.shared, ?_, rfl, ?_, ⟨?_, ?_⟩⟩, trivial, ?_, .idle _⟩
  · intro token hpresents
    cases hpresents
  · intro r copy pair data hlocal
    cases hlocal
  · intro token hover
    cases hover
  · intro r copy pair data id row hlocal
    cases hlocal
  · intro doomed hdooms
    cases hdooms

/-- From every state reached in which no request is running, and while nobody signs in: if no revocation of
the session commits between the lineage check of a refresh and its query for the row, no refresh leaves an
active row for a session that had been revoked before. -/
theorem refresh_never_resurrects (settings : Settings) {c₀ c : Interleaving.Config World Local}
    {before schedule : List (Pid × Action)} (hstarts : Starts c₀)
    (hbefore : (issuer settings).run c₀ before = some c) (hidle : ∀ p, c.locals p = .idle)
    (hbegins : (issuer settings).Along (fun _ move _ => move.2.beginsLogin = false) c schedule)
    (hok : (issuer settings).Along (fun c move c' => ¬ OvertakesRefresh settings c move c') c schedule) :
    NoneResurrected settings c schedule := by
  intro uid presented new c₁ move c₂ between c₃ move' c₄ rest c' hrevoking hrevokes hpasses hexchanges
  obtain ⟨hgrounded, hknown⟩ := hstarts.rowsKnown hbefore
  have hfirst : ResurrectionInv settings c := .idle hgrounded hknown hidle
  have hkeeps : ∀ c a c', ResurrectionInv settings c → (issuer settings).next c a = some c' →
      Undisturbed settings c a c' → ResurrectionInv settings c' := fun _ _ _ hinv => hinv.next
  obtain ⟨hinv₁, hnext, hmove, hbetween⟩ :=
    hrevoking.guarded hkeeps hfirst (Interleaving.System.along_and hbegins hok)
  exact absurd hexchanges (hinv₁.revoked hnext hrevokes (hinv₁.next hnext hmove) hbetween hpasses)

end

/-- The refresh has not yet loaded its row. -/
def Local.beforeRow : Local → Bool
  | .refresh _ (.sign _) | .refresh _ (.rotate _ _) | .refresh _ (.load _ _) => true
  | .refresh r (.save _ _ _ existing) => existing.all fun found => found.2.jwtJti != r.token.jti
  | _ => false

theorem Local.Overtakable.beforeRow {settings : Settings} {token : RefreshToken} {l : Local}
    (hover : l.Overtakable settings token) : l.beforeRow = true := by
  cases l with
  | refresh r phase =>
      cases phase with
      | sign | rotate | load => rfl
      | save copy pair data existing =>
          obtain ⟨rfl, hother⟩ := hover
          cases existing with
          | none => rfl
          | some found => exact bne_iff_ne.2 (hother found rfl)
      | _ => cases hover
  | _ => cases hover

theorem Local.isIssue.not_revokes {w w' : World} {uid : UserId} {jti : Jti} {l : Local}
    (hissue : l.isIssue = true) : ¬ Revokes w w' uid jti l := by
  intro hrevokes
  cases l with
  | login | refresh =>
      cases hrevokes with
      | all huser => cases huser
      | one _ _ hnames => cases hnames
  | _ => cases hissue

/-- The reader signs in, and Redis is up. -/
def signIn : List (Pid × Action) :=
  (0, .begin (.login ⟨.password "a" "secret", true⟩ .read)) :: List.replicate 2 (0, .proceed) ++
    (0, .select none) :: List.replicate 3 (0, .proceed)

/-- A refresh of the session, up to the query for its row. -/
def refreshUntilLoad : List (Pid × Action) :=
  (1, .begin (.refresh ⟨(readerPair {}).refresh, true⟩ .allowlist)) :: List.replicate 5 (1, .proceed)

/-- An administrator revokes every session of the reader, and Redis is told. -/
def revokeReader : List (Pid × Action) :=
  (2, .begin (.revokeUser ⟨some ⟨9, .superadmin⟩, 1, true⟩ .capture)) :: List.replicate 7 (2, .proceed)

theorem signIn_idle {c : Interleaving.Config World Local} (hrun : (issuer {}).run oneReader signIn = some c)
    (hself : c.locals 0 = .idle) (p : Pid) : c.locals p = .idle := by
  by_cases hp : p = 0
  · rw [hp, hself]
  · have hother : ∀ move ∈ signIn, move.1 ≠ p := by
      have hzero : ∀ move ∈ signIn, move.1 = 0 := by decide
      exact fun move hmem heq => hp (heq.symm.trans (hzero move hmem))
    exact Interleaving.System.run_locals_of_ne hother hrun

/-- The administrator revokes the session when the refresh has loaded its row. -/
def revokedBeforeSave : List (Pid × Action) :=
  refreshUntilLoad ++ (1, .select (some 0)) :: revokeReader ++ [(1, .proceed)]

/-- The refresh fails at its save. -/
theorem refresh_never_resurrects_revokedBeforeSave :
    ∃ c c', (issuer {}).run oneReader signIn = some c ∧ (issuer {}).run c revokedBeforeSave = some c' ∧
      c'.locals 1 = .idle ∧ c'.shared.db.sessions.keys = [] ∧ NoneResurrected {} c revokedBeforeSave := by
  have hstarted : ((issuer {}).run oneReader signIn).bind (fun c =>
      ((issuer {}).run c revokedBeforeSave).map fun c' => (decide (c.locals 0 = .idle),
        decide ((issuer {}).Along (fun _ move _ => move.2.beginsLogin = false) c revokedBeforeSave),
        decide ((issuer {}).Along (fun c move _ => (c.locals move.1).isIssue = true ∨
          ((c.locals 1).beforeRow = false ∧ (c.locals 2).beforeRow = false)) c revokedBeforeSave),
        decide (c'.locals 1 = .idle), c'.shared.db.sessions.keys)) = some (true, true, true, true, []) := by
    decide +kernel
  obtain ⟨c, hsignIn, hrest⟩ := Option.bind_eq_some_iff.1 hstarted
  obtain ⟨c', hrun, hfacts⟩ := Option.map_eq_some_iff.1 hrest
  simp only [Prod.mk.injEq, decide_eq_true_eq] at hfacts
  obtain ⟨hself, hbegins, hloaded, hends, hkeys⟩ := hfacts
  have hidle := signIn_idle hsignIn hself
  have hmoved : ∀ move ∈ revokedBeforeSave, move.1 ∈ [1, 2] := by decide
  have hok : (issuer {}).Along (fun c move c' => ¬ OvertakesRefresh {} c move c') c revokedBeforeSave := by
    refine Interleaving.System.along_mono ?_
      (Interleaving.System.along_and hloaded (Interleaving.System.along_unmoved hmoved))
    rintro c₁ move c₂ ⟨hissue | ⟨hfirst, hsecond⟩, hunmoved⟩ ⟨q, token, hover, hrevokes⟩
    · exact Local.isIssue.not_revokes hissue hrevokes
    · have hbefore := hover.beforeRow
      by_cases hq : q ∈ [1, 2]
      · obtain rfl | hq := List.mem_cons.1 hq
        · rw [hfirst] at hbefore
          cases hbefore
        · rw [List.mem_singleton.1 hq, hsecond] at hbefore
          cases hbefore
      · rw [hunmoved q hq, hidle q] at hbefore
        cases hbefore
  exact ⟨c, c', hsignIn, hrun, hends, hkeys,
    refresh_never_resurrects {} oneReader_starts hsignIn hidle hbegins hok⟩

/-- The administrator revokes the session after the refresh has checked its lineage. -/
def refreshUnderRevocation : List (Pid × Action) :=
  refreshUntilLoad ++ revokeReader ++ [(1, .select none), (1, .proceed)]

/-- The refresh finds no row and inserts one, which is active after the revocation. -/
theorem refresh_resurrects :
    ∃ c c', (issuer {}).run oneReader signIn = some c ∧ (∀ p, c.locals p = .idle) ∧
      (issuer {}).run c refreshUnderRevocation = some c' ∧ (decideJtiStatus c'.shared.db 1 1).active = true ∧
      ¬ NoneResurrected {} c refreshUnderRevocation := by
  have hruns : ((issuer {}).run oneReader signIn).bind (fun c =>
      ((issuer {}).run c (refreshUntilLoad ++ revokeReader.take 3)).bind fun c₁ =>
        ((issuer {}).next c₁ (2, .proceed)).bind fun c₂ =>
          ((issuer {}).run c₂ (revokeReader.drop 4 ++ [(1, .select none)])).bind fun c₃ =>
            ((issuer {}).next c₃ (1, .proceed)).map fun c' =>
              (decide (c.locals 0 = .idle),
                decide ((c₁.locals 2).revokesUser = some 1 ∧ c₂.shared.log ≠ c₁.shared.log),
                decide (c'.shared.log = c'.shared.log.take 2 ++ c₃.shared.log ∧
                  .exchanged 1 0 1 ∈ c'.shared.log.take 2),
                (decideJtiStatus c'.shared.db 1 1).active)) = some (true, true, true, true) := by
    decide +kernel
  obtain ⟨c, hsignIn, hrest⟩ := Option.bind_eq_some_iff.1 hruns
  obtain ⟨c₁, hearlier, hrest⟩ := Option.bind_eq_some_iff.1 hrest
  obtain ⟨c₂, hrevoke, hrest⟩ := Option.bind_eq_some_iff.1 hrest
  obtain ⟨c₃, hbetween, hrest⟩ := Option.bind_eq_some_iff.1 hrest
  obtain ⟨c', hsave, hfacts⟩ := Option.map_eq_some_iff.1 hrest
  simp only [Prod.mk.injEq, decide_eq_true_eq] at hfacts
  obtain ⟨hself, ⟨huser, hcommits⟩, ⟨hlog, hmem⟩, hactive⟩ := hfacts
  have hsplit : refreshUnderRevocation = refreshUntilLoad ++ revokeReader.take 3 ++
      (2, .proceed) :: (revokeReader.drop 4 ++ [(1, .select none)] ++ [(1, .proceed)]) := rfl
  have hrun : (issuer {}).run c refreshUnderRevocation = some c' := by
    rw [hsplit, Interleaving.System.run_append]
    refine ⟨c₁, hearlier, Interleaving.System.run_cons.2 ⟨c₂, hrevoke, ?_⟩⟩
    rw [Interleaving.System.run_append]
    exact ⟨c₃, hbetween, Interleaving.System.run_cons.2 ⟨c', hsave, Interleaving.System.run_nil c'⟩⟩
  refine ⟨c, c', hsignIn, signIn_idle hsignIn hself, hrun, hactive, fun hnone => ?_⟩
  have hrevokes : Revokes c₁.shared c₂.shared 1 0 (c₁.locals 2) := .all huser hcommits
  have hexchanges : Exchanges c₃.shared c'.shared 1 0 1 := ⟨_, hlog, hmem⟩
  have hinactive := hnone 1 0 1 c₁ (2, .proceed) c₂ _ c₃ (1, .proceed) c' [] c'
    ⟨_, hsplit, hearlier, hrevoke⟩ hrevokes ⟨_, rfl, hbetween, hsave⟩ hexchanges (Interleaving.System.run_nil c')
  rw [hactive] at hinactive
  cases hinactive

end FaAuthM8

import FaAuthM8.Proof.Issuing

/-!
# Exchanging a refresh token

The lineage check accepts a refresh token while some row carries its identifier, and the row lock of the user
lets one refresh at a time through. What uses the token up is the save, which re-stamps a row; it is a row of
the user, not always the one the token is recorded in. The token is used up as long as no other row than the
loaded one carries its identifier.
-/

namespace FaAuthM8

/-- The identifiers of the refresh tokens that have been exchanged. -/
def exchangedJtis (log : List Event) : List Jti :=
  log.filterMap fun
    | .exchanged _ presented _ => some presented
    | _ => none

/-- No refresh token has been exchanged twice, and the identifier of an exchanged one is out of use. -/
structure SingleUse (w : World) : Prop where
  once : (exchangedJtis w.log).Nodup
  unrecorded : ∀ jti ∈ exchangedJtis w.log, ∀ id row, w.db.sessions.lookup id = some row →
    row.jwtJti ≠ jti
  inactive : ∀ jti ∈ exchangedJtis w.log, ∀ uid, (decideJtiStatus w.db jti uid).active = false

/-- The step from `w` to `w'` commits an exchange. -/
inductive CommitsExchange (p : Pid) (w w' : World) (presented : RefreshToken)
    (existing : Option (SessionId × ClientSession)) : Local → Prop
  | save {r : RefreshRequest} {copy : User} {pair : TokenPair} {data : ClientSessionCreate}
      (htoken : r.token = presented)
      (hfree : w.locks.sessionsFree p (existing.toList.map (·.1)) = true)
      (hcommit : commit [createClientSession r.token.sub copy data existing] w.db = .ok w'.db)
      (hcommitted : w' = w.committed p w'.db
        (.exchanged r.token.sub r.token.jti data.jwtJti :: stampEvents data.jwtJti w'.db)) :
      CommitsExchange p w w' presented existing (.refresh r (.save copy pair data existing))

/-- The step from `w` to `w'` commits an exchange while a row other than the loaded one carries the presented
identifier. -/
def LeavesPresented (p : Pid) (w w' : World) (l : Local) : Prop :=
  ∃ presented existing, CommitsExchange p w w' presented existing l ∧
    ∃ id row, w.db.sessions.lookup id = some row ∧ row.jwtJti = presented.jti ∧
      existing.map (·.1) ≠ some id

/-- The refresh token a request has been sent. -/
def Local.presents : Local → Option RefreshToken
  | .refresh r _ => some r.token
  | _ => none

/-- The refresh token of a request that is past the lineage check and has not saved yet. -/
def Local.exchanging : Local → Option RefreshToken
  | .refresh r (.sign _) | .refresh r (.rotate _ _) | .refresh r (.load _ _)
  | .refresh r (.save _ _ _ _) => some r.token
  | _ => none

/-- A request presents a token that was issued. -/
def PresentsIssued (w : World) (l : Local) : Prop :=
  ∀ token, l.presents = some token → ∃ pair, .issued pair ∈ w.log ∧ pair.refresh = token

/-- A request presents an issued token, and exchanges one that was not exchanged before. -/
structure ExchangesUnused (w : World) (l : Local) : Prop where
  issued : PresentsIssued w l
  unused : ∀ token, l.exchanging = some token → token.jti ∉ exchangedJtis w.log

/-- Exchanged identifiers are in the hands of clients. -/
def ExchangedIssued (w : World) : Prop := ∀ jti ∈ exchangedJtis w.log, JtiIssued w jti

theorem exchangedJtis_append (events log : List Event) :
    exchangedJtis (events ++ log) = exchangedJtis events ++ exchangedJtis log :=
  List.filterMap_append

theorem exchangedJtis_stampEvents (jti : Jti) (db : Db) : exchangedJtis (stampEvents jti db) = [] := by
  rw [exchangedJtis, List.filterMap_eq_nil_iff]
  intro event hevent
  obtain ⟨found, -, rfl⟩ := List.mem_map.1 hevent
  rfl

theorem Local.exchanging_presents {l : Local} {token : RefreshToken}
    (hexchanging : l.exchanging = some token) : l.presents = some token := by
  cases l with
  | refresh r phase =>
      cases phase with
      | sign | rotate | load | save => exact hexchanging
      | _ => cases hexchanging
  | _ => cases hexchanging

theorem Local.exchanging_lockedUser {l : Local} {token : RefreshToken}
    (hexchanging : l.exchanging = some token) : l.lockedUser = some token.sub := by
  cases l with
  | refresh r phase =>
      cases phase with
      | sign | rotate | load | save => exact congrArg (Option.map RefreshToken.sub) hexchanging
      | _ => cases hexchanging
  | _ => cases hexchanging

theorem singleUse_of {w : World} (honce : (exchangedJtis w.log).Nodup)
    (hgone : ∀ jti ∈ exchangedJtis w.log, CarriedIn w jti []) : SingleUse w where
  once := honce
  unrecorded jti hjti id row hrow heq := absurd (hgone jti hjti id row hrow heq) List.not_mem_nil
  inactive jti hjti := (hgone jti hjti).inactive

theorem SingleUse.gone {w : World} (hsingle : SingleUse w) {jti : Jti}
    (hjti : jti ∈ exchangedJtis w.log) : CarriedIn w jti [] := fun id row hrow heq =>
  absurd heq (hsingle.unrecorded jti hjti id row hrow)

section

variable {settings : Settings} {p q : Pid} {w w' : World} {l l' : Local} {a : Action}

theorem CommitsExchange.exchangedJtis {presented : RefreshToken}
    {existing : Option (SessionId × ClientSession)}
    (hcommits : CommitsExchange p w w' presented existing l) :
    exchangedJtis w'.log = presented.jti :: exchangedJtis w.log := by
  cases hcommits with
  | save htoken _ _ hcommitted =>
      subst htoken
      rw [hcommitted, World.committed, exchangedJtis_append]
      exact congrArg (_ :: · ++ _) (exchangedJtis_stampEvents _ _)

theorem CommitsExchange.exchanging {presented : RefreshToken}
    {existing : Option (SessionId × ClientSession)}
    (hcommits : CommitsExchange p w w' presented existing l) : l.exchanging = some presented := by
  cases hcommits with
  | save htoken => exact congrArg some htoken

theorem Step.exchange_cases (hstep : Step settings p w l a w' l') :
    exchangedJtis w'.log = exchangedJtis w.log ∨
      ∃ presented existing, CommitsExchange p w w' presented existing l := by
  obtain ⟨events, hlog, hlogged⟩ := hstep.records
  by_cases hnone : ∃ r copy pair data existing, l = .refresh r (.save copy pair data existing)
  · obtain ⟨r, copy, pair, data, existing, rfl⟩ := hnone
    cases hstep with
    | abort | error => exact .inl rfl
    | refresh hrefresh =>
        cases hrefresh with
        | save hfree hcommit => exact .inr ⟨_, _, .save rfl hfree hcommit rfl⟩
  · left
    have hempty : exchangedJtis events = [] := by
      rw [exchangedJtis, List.filterMap_eq_nil_iff]
      intro event hevent
      cases hlogged event hevent with
      | exchanged hlocal => exact absurd ⟨_, _, _, _, _, hlocal⟩ hnone
      | _ => rfl
    rw [hlog, exchangedJtis_append, hempty, List.nil_append]

/-- A commit of an exchange leaves every row but the loaded one, and writes the new identifier over that. -/
theorem CommitsExchange.rows (hfresh : w.db.IdsFresh) (hissuing : Issuing settings p w l)
    {presented : RefreshToken} {existing : Option (SessionId × ClientSession)}
    (hcommits : CommitsExchange p w w' presented existing l) (hissued : JtiIssued w presented.jti)
    {id : SessionId} {row : ClientSession} (hjti : row.jwtJti = presented.jti) :
    w'.db.sessions.lookup id = some row ↔
      w.db.sessions.lookup id = some row ∧ existing.map (·.1) ≠ some id := by
  cases hcommits with
  | @save r copy pair data htoken hfree hcommit hcommitted =>
      subst htoken
      have hprepared := hissuing.saves _ _ _ _ _ (.refresh rfl)
      obtain ⟨issued, hpair, hissuedJti⟩ := hissued
      -- the new identifier is not the presented one
      have hnew : data.jwtJti ≠ r.token.jti := by
        intro heq
        have hunissued := (hissuing.unsaved _ (Local.Saves.refresh rfl).unsaved).unissued issued hpair
        exact hunissued (hissuedJti.trans (heq.symm.trans hprepared.jti))
      obtain ⟨db₁, happly, hrest⟩ := commit_cons_eq_ok.1 hcommit
      obtain rfl := Except.ok.inj hrest
      cases existing with
      | none =>
          obtain ⟨-, hinsert⟩ := Db.insertSession_eq_ok.1 happly
          rw [hinsert]
          dsimp only
          rw [Table.lookup_insert_eq]
          constructor
          · intro hlookup
            split at hlookup
            · next hid =>
                obtain rfl := Option.some.inj hlookup
                exact absurd hjti hnew
            · exact ⟨hlookup, nofun⟩
          · rintro ⟨hrow, -⟩
            rw [if_neg (Nat.ne_of_lt (hfresh.sessions id row hrow)), hrow]
      | some found =>
          obtain ⟨id', loaded⟩ := found
          have hne : data.jwtJti ≠ loaded.jwtJti := by
            rw [hprepared.jti]
            exact (hprepared.selected id' loaded rfl).2.2.1.symm
          obtain ⟨hsame, -⟩ | ⟨current, hcurrent, hsave⟩ := Db.updateSession_eq_ok happly
          · exact absurd (congrArg ClientSession.jwtJti hsame) hne
          · rw [hsave]
            dsimp only
            rw [Table.lookup_insert_eq, Option.map_some, Ne, Option.some.injEq]
            constructor
            · intro hlookup
              split at hlookup
              · next hid =>
                  obtain rfl := Option.some.inj hlookup
                  have hwritten := Column.writeBack_of_ne hne current.jwtJti
                  exact absurd (hwritten.symm.trans hjti) hnew
              · next hid => exact ⟨hlookup, fun heq => hid heq.symm⟩
            · rintro ⟨hrow, hother⟩
              rw [if_neg fun heq => hother heq.symm, hrow]

theorem Step.presents (hstep : Step settings p w l a w' l') {token : RefreshToken}
    (hpresents : l'.presents = some token) :
    l.presents = some token ∨ ∃ pair, .issued pair ∈ w.log ∧ pair.refresh = token := by
  have hissue : l'.isIssue = true := by
    cases l' with
    | refresh => rfl
    | _ => cases hpresents
  rcases hstep.issue_cases hissue with
    ⟨r, phase, rfl, hlogin⟩ | ⟨r, phase, rfl, hrefresh⟩ | ⟨-, -, ⟨-, hbegins⟩, ⟨r, rfl⟩ | ⟨r, rfl⟩⟩
  · cases hlogin <;> cases hpresents
  · cases hrefresh with
    | reuse | respond => cases hpresents
    | _ => exact .inl hpresents
  · cases hpresents
  · cases hbegins with
    | refresh hissued htoken =>
        obtain rfl := Option.some.inj hpresents
        exact .inr ⟨_, hissued, htoken⟩

theorem Step.othersPresentIssued (hstep : Step settings p w l a w' l') {m : Local}
    (hother : PresentsIssued w m) : PresentsIssued w' m := by
  intro token hpresents
  obtain ⟨pair, hissued, htoken⟩ := hother token hpresents
  exact ⟨pair, hstep.log_mono hissued, htoken⟩

theorem Step.presentsIssued (hstep : Step settings p w l a w' l') (hknows : PresentsIssued w l) :
    PresentsIssued w' l' := by
  intro token hpresents
  rcases hstep.presents hpresents with hold | ⟨pair, hissued, htoken⟩
  · exact hstep.othersPresentIssued hknows token hold
  · exact ⟨pair, hstep.log_mono hissued, htoken⟩

/-- A request goes past the lineage check only while a row carries the identifier it presents. -/
theorem Step.exchanging (hmode : settings.isStateless = false) (hstep : Step settings p w l a w' l')
    {token : RefreshToken} (hexchanging : l'.exchanging = some token) :
    exchangedJtis w'.log = exchangedJtis w.log ∧
      (l.exchanging = some token ∨ ∃ copy, refreshLineageIsCurrent w.db copy token.jti = true) := by
  have hissue : l'.isIssue = true := by
    cases l' with
    | refresh => rfl
    | _ => cases hexchanging
  rcases hstep.issue_cases hissue with
    ⟨r, phase, rfl, hlogin⟩ | ⟨r, phase, rfl, hrefresh⟩ | ⟨-, -, -, ⟨r, rfl⟩ | ⟨r, rfl⟩⟩
  · cases hlogin <;> cases hexchanging
  · cases hrefresh with
    | lock =>
        rw [hmode, if_neg Bool.false_ne_true] at hexchanging
        cases hexchanging
    | lineage hlineage =>
        obtain rfl := Option.some.inj hexchanging
        exact ⟨rfl, .inr ⟨_, hlineage⟩⟩
    | sign =>
        rw [hmode, if_neg Bool.false_ne_true] at hexchanging
        exact ⟨rfl, .inl hexchanging⟩
    | rotate _ hsend =>
        refine ⟨?_, .inl hexchanging⟩
        rw [(World.send_frame hsend).2.2.2.2.2]
        rfl
    | rotateSkip | load => exact ⟨rfl, .inl hexchanging⟩
    | allowlist | reuse | save | respond => cases hexchanging
  · cases hexchanging
  · cases hexchanging

theorem JtisDrawn.same_sub (hdrawn : JtisDrawn w) {first second : TokenPair}
    (hfirst : .issued first ∈ w.log) (hsecond : .issued second ∈ w.log)
    (hjti : first.refresh.jti = second.refresh.jti) : first.refresh.sub = second.refresh.sub := by
  obtain ⟨q, generation, hsigned, hfirstJti, hfirstSub⟩ := hdrawn.issued first hfirst
  obtain ⟨q', generation', hsigned', hsecondJti, hsecondSub⟩ := hdrawn.issued second hsecond
  have haccess : first.access.jti = second.access.jti := hfirstJti.symm.trans (hjti.trans hsecondJti)
  obtain ⟨-, htoken, -⟩ := hdrawn.once _ _ _ _ _ _ hsigned hsigned' haccess
  rw [hfirstSub, hsecondSub, htoken]

theorem Step.exchangedIssued (hdrawn : JtisDrawn w) (hall : ExchangedIssued w)
    (hknows : ExchangesUnused w l) (hstep : Step settings p w l a w' l') : ExchangedIssued w' := by
  intro jti hjti
  apply hstep.jtiIssued
  rcases hstep.exchange_cases with hsame | ⟨presented, existing, hcommits⟩
  · exact hall jti (hsame ▸ hjti)
  · rw [hcommits.exchangedJtis] at hjti
    rcases List.mem_cons.1 hjti with rfl | hold
    · obtain ⟨pair, hissued, rfl⟩ :=
        hknows.issued presented (Local.exchanging_presents hcommits.exchanging)
      exact hdrawn.refreshIssued hissued
    · exact hall jti hold

theorem Step.singleUse (hgrounded : Grounded w) (htracked : Tracked settings p w l)
    (hall : ExchangedIssued w) (hknows : ExchangesUnused w l) (hsingle : SingleUse w)
    (hstep : Step settings p w l a w' l') (hleaves : ¬ LeavesPresented p w w' l) : SingleUse w' := by
  have hgone : ∀ jti ∈ exchangedJtis w.log, CarriedIn w' jti [] := fun jti hjti =>
    hstep.carriedIn hgrounded.fresh htracked.issuing (hall jti hjti) (hsingle.gone hjti)
  rcases hstep.exchange_cases with hsame | ⟨presented, existing, hcommits⟩
  · exact singleUse_of (hsame ▸ hsingle.once) (hsame ▸ hgone)
  · have hunused := hknows.unused presented hcommits.exchanging
    obtain ⟨pair, hissued, rfl⟩ :=
      hknows.issued presented (Local.exchanging_presents hcommits.exchanging)
    have hpresented : CarriedIn w' pair.refresh.jti [] := by
      intro id row hrow hjti
      obtain ⟨hwas, hother⟩ := (hcommits.rows hgrounded.fresh htracked.issuing
        (hgrounded.drawn.refreshIssued hissued) hjti).1 hrow
      exact absurd ⟨_, existing, hcommits, id, row, hwas, hjti, hother⟩ hleaves
    refine singleUse_of ?_ fun jti hjti => ?_
    · rw [hcommits.exchangedJtis]
      exact List.nodup_cons.2 ⟨hunused, hsingle.once⟩
    · rw [hcommits.exchangedJtis] at hjti
      rcases List.mem_cons.1 hjti with rfl | hold
      · exact hpresented
      · exact hgone jti hold

theorem LeavesPresented.not_singleUse (hgrounded : Grounded w) (htracked : Tracked settings p w l)
    (hknows : ExchangesUnused w l) (hleaves : LeavesPresented p w w' l) : ¬ SingleUse w' := by
  intro hsingle
  obtain ⟨presented, existing, hcommits, id, row, hrow, hjti, hother⟩ := hleaves
  obtain ⟨pair, hissued, rfl⟩ :=
    hknows.issued presented (Local.exchanging_presents hcommits.exchanging)
  have hkept := (hcommits.rows hgrounded.fresh htracked.issuing
    (hgrounded.drawn.refreshIssued hissued) hjti).2 ⟨hrow, hother⟩
  have hmem : pair.refresh.jti ∈ exchangedJtis w'.log := by
    rw [hcommits.exchangedJtis]
    exact List.mem_cons_self
  exact hsingle.unrecorded _ hmem id row hkept hjti

theorem Step.exchangesUnused (hmode : settings.isStateless = false) (hsingle : SingleUse w)
    (hknows : ExchangesUnused w l) (hstep : Step settings p w l a w' l') : ExchangesUnused w' l' where
  issued := hstep.presentsIssued hknows.issued
  unused token hexchanging := by
    obtain ⟨hsame, hold | ⟨copy, hlineage⟩⟩ := hstep.exchanging hmode hexchanging
    · rw [hsame]
      exact hknows.unused token hold
    · rw [hsame]
      intro hmem
      rw [(hsingle.gone hmem).lineage] at hlineage
      cases hlineage

/-- While a request is past the lineage check, the row lock keeps every other one from exchanging its
token. -/
theorem Step.othersExchangeUnused (hgrounded : Grounded w) (htracked : Tracked settings p w l)
    (hknows : ExchangesUnused w l) (hstep : Step settings p w l a w' l') (hq : q ≠ p) {m : Local}
    (hother : Tracked settings q w m) (hothers : ExchangesUnused w m) : ExchangesUnused w' m where
  issued := hstep.othersPresentIssued hothers.issued
  unused token hexchanging := by
    have hunused := hothers.unused token hexchanging
    rcases hstep.exchange_cases with hsame | ⟨presented, existing, hcommits⟩
    · rw [hsame]
      exact hunused
    · rw [hcommits.exchangedJtis, List.mem_cons, not_or]
      refine ⟨fun hjti => ?_, hunused⟩
      obtain ⟨first, hfirst, rfl⟩ := hothers.issued token (Local.exchanging_presents hexchanging)
      obtain ⟨second, hsecond, rfl⟩ :=
        hknows.issued presented (Local.exchanging_presents hcommits.exchanging)
      have hmine := htracked.holds _ (Local.exchanging_lockedUser hcommits.exchanging)
      have hyours := hother.holds _ (Local.exchanging_lockedUser hexchanging)
      rw [hgrounded.drawn.same_sub hfirst hsecond hjti, hmine, Option.some.injEq] at hyours
      exact hq hyours.symm

/-- What holds in every state of a run whose exchanges leave no row with the presented identifier. -/
def ExchangeInv (settings : Settings) : Interleaving.Config World Local → Prop :=
  Interleaving.Asserted (fun w => Grounded w ∧ ExchangedIssued w ∧ SingleUse w) fun p w l =>
    Tracked settings p w l ∧ ExchangesUnused w l

theorem ExchangeInv.next (hmode : settings.isStateless = false)
    {c c' : Interleaving.Config World Local} {move : Pid × Action} (hinv : ExchangeInv settings c)
    (hnext : (issuer settings).next c move = some c')
    (hleaves : ¬ LeavesPresented move.1 c.shared c'.shared (c.locals move.1)) :
    ExchangeInv settings c' := by
  refine asserted_next hnext fun l' hstep => ?_
  obtain ⟨hgrounded, hall, hsingle⟩ := hinv.shared
  obtain ⟨htracked, hknows⟩ := hinv.locals move.1
  refine ⟨⟨hstep.grounded hgrounded htracked, hstep.exchangedIssued hgrounded.drawn hall hknows,
      hstep.singleUse hgrounded htracked hall hknows hsingle hleaves⟩,
    ⟨hstep.tracked hgrounded htracked, hstep.exchangesUnused hmode hsingle hknows⟩, fun q hq => ?_⟩
  obtain ⟨hother, hothers⟩ := hinv.locals q
  exact ⟨hstep.othersTracked hgrounded htracked hq hother,
    hstep.othersExchangeUnused hgrounded htracked hknows hq hother hothers⟩

theorem Starts.exchangeInv (settings : Settings) {c : Interleaving.Config World Local}
    (hstarts : Starts c) : ExchangeInv settings c := by
  have hnone : exchangedJtis c.shared.log = [] := by
    rw [hstarts.log]
    rfl
  refine ⟨⟨hstarts.grounded, fun jti hjti => ?_, singleUse_of ?_ fun jti hjti => ?_⟩,
    fun p => ⟨hstarts.tracked p, ?_⟩⟩
  · rw [hnone] at hjti
    cases hjti
  · rw [hnone]
    exact List.nodup_nil
  · rw [hnone] at hjti
    cases hjti
  · rw [hstarts.idle p]
    exact ⟨nofun, nofun⟩

/-- In a run of any requests outside stateless mode, every refresh token is single use in every state exactly
when every exchange that is committed re-stamps the only row with the presented identifier. -/
theorem refresh_single_use_iff (settings : Settings) (hmode : settings.isStateless = false)
    {c : Interleaving.Config World Local} (hstarts : Starts c) (schedule : List (Pid × Action)) :
    (issuer settings).Along (fun c move c' =>
      ¬ LeavesPresented move.1 c.shared c'.shared (c.locals move.1)) c schedule ↔
    (issuer settings).Along (fun _ _ c' => SingleUse c'.shared) c schedule := by
  refine Interleaving.System.along_iff ?_ ?_ schedule (hstarts.exchangeInv settings)
  · intro c move c' hinv hnext
    constructor
    · intro hleaves
      exact (hinv.next hmode hnext hleaves).shared.2.2
    · intro hsingle hleaves
      obtain ⟨htracked, hknows⟩ := hinv.locals move.1
      exact hleaves.not_singleUse hinv.shared.1 htracked hknows hsingle
  · intro c move c' hinv hnext hleaves
    exact hinv.next hmode hnext hleaves

end

/-- Two logins of the reader find no row and insert one each. Then the first token is presented twice while
Redis is unavailable, and the refresh re-stamps the row of the second login. -/
def twoRows : List (Pid × Action) :=
  let refresh (p : Pid) : List (Pid × Action) :=
    (p, .begin (.refresh ⟨(readerPair {}).refresh, false⟩ .allowlist)) ::
      List.replicate 5 (p, .proceed) ++ (p, .select (some 1)) :: List.replicate 2 (p, .proceed)
  loginUntilLoad 0 ++ (0, .select none) :: loginUntilLoad 1 ++ [(1, .select none)] ++
    List.replicate 2 (0, .proceed) ++ List.replicate 2 (1, .proceed) ++
    (4, .setRedis false) :: refresh 2 ++ refresh 3

def allFailOpen : Settings := { effectiveFailureMode := fun _ => .failOpen }

theorem refresh_single_use_iff_twoRows :
    (issuer allFailOpen).Along (fun c move c' =>
      ¬ LeavesPresented move.1 c.shared c'.shared (c.locals move.1)) oneReader twoRows ↔
    (issuer allFailOpen).Along (fun _ _ c' => SingleUse c'.shared) oneReader twoRows :=
  refresh_single_use_iff allFailOpen rfl oneReader_starts twoRows

/-- The first refresh token is exchanged twice, and its session stays active. -/
theorem refresh_used_twice :
    ∃ c', (issuer allFailOpen).run oneReader twoRows = some c' ∧
      (exchangedJtis c'.shared.log).count (readerPair {}).refresh.jti = 2 ∧
      (decideJtiStatus c'.shared.db (readerPair {}).refresh.jti 1).active = true := by
  have hruns : ((issuer allFailOpen).run oneReader twoRows).map (fun c' =>
      ((exchangedJtis c'.shared.log).count 0, (decideJtiStatus c'.shared.db 0 1).active))
        = some (2, true) := by
    decide +kernel
  obtain ⟨c', hrun, hresult⟩ := Option.map_eq_some_iff.1 hruns
  exact ⟨c', hrun, Prod.mk.inj hresult⟩

end FaAuthM8

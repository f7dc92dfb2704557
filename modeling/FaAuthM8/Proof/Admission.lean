import FaAuthM8.Proof.Issuing

/-!
# Admission to tokens

Three requests issue: the password login and the Google callback, which are one request here, and the
refresh. Each issues from the row it read last. The signing function looks at the role and the flag, and the
activation is left to each of the three: the password login and the refresh look at it, the Google callback
does not.
-/

namespace FaAuthM8

structure User.MayHoldTokens (user : User) : Prop where
  active : user.isActive = true
  consistent : privilegeClaimsAreConsistent user.role user.isSuperuser = true

/-- The row from which a request goes on to issue, on the step that reads it. -/
def readRow : Local → Local → Option (UserId × User)
  | .login _ .read, .login _ (.sign uid copy) => some (uid, copy)
  | .login _ (.reload _), .login _ (.sign uid copy) => some (uid, copy)
  | .refresh r .lock, .refresh _ (.lineage copy) => some (r.token.sub, copy)
  | .refresh r .lock, .refresh _ (.sign copy) => some (r.token.sub, copy)
  | _, _ => none

def noteRead (l l' : Local) (last : Option (UserId × User)) : Option (UserId × User) :=
  (readRow l l').or last

/-- The issuer whose processes also remember the row they read last. -/
def readingIssuer (settings : Settings) :
    Interleaving.System World (Local × Option (UserId × User)) Action :=
  (issuer settings).remembering noteRead

/-- The point at which a request registers the identifier of a new pair in the refresh allowlist. -/
inductive Local.Registers (uid : UserId) : Local → Prop
  | login {r : LoginRequest} {pair : TokenPair} : Registers uid (.login r (.register uid pair))
  | refresh {r : RefreshRequest} {copy : User} {pair : TokenPair} (huser : r.token.sub = uid) :
      Registers uid (.refresh r (.rotate copy pair))

/-- A step of process `p` from local state `l` issues for user `uid`: it signs a token, stores a session row,
or gets to register an identifier. -/
inductive IssuesFor (uid : UserId) (p : Pid) (w w' : World) (l : Local) : Prop
  | signs {token : AccessToken} {generation : Nat}
      (hsigned : w'.log = .signed p token generation :: w.log) (huser : token.sub = uid)
  | stores {id : SessionId} {row : ClientSession} (hrow : w'.db.sessions.lookup id = some row)
      (hwas : w.db.sessions.lookup id ≠ some row) (huser : row.userId = uid)
  | registers (hlocal : l.Registers uid)

/-- Whoever a step issues for, the row that the request has read of that user may hold tokens. -/
def IssuesAdmitted (p : Pid) (w w' : World) (l : Local) (last : Option (UserId × User)) : Prop :=
  ∀ uid, IssuesFor uid p w w' l → ∃ copy, last = some (uid, copy) ∧ copy.MayHoldTokens

/-- A Google callback goes on to sign from the row of a deactivated user. -/
inductive SignsDeactivated (a : Action) : Local → Prop
  | google {r : LoginRequest} {uid : UserId} {copy : User} (hgoogle : r.external ≠ none)
      (hinactive : copy.isActive = false)
      (hconsistent : privilegeClaimsAreConsistent copy.role copy.isSuperuser = true)
      (hgoes : a ≠ .abort) : SignsDeactivated a (.login r (.sign uid copy))

/-- What the row read last says of a request that is to sign or has signed. -/
def ReadAdmitted : Local → Option (UserId × User) → Prop
  | .login r (.reload _), _ => r.external ≠ none
  | .login r (.sign uid copy), last =>
      last = some (uid, copy) ∧ (r.external = none → copy.isActive = true)
  | .login _ (.load uid copy _), last | .login _ (.save uid copy _ _ _), last =>
      last = some (uid, copy) ∧ copy.MayHoldTokens
  | .login _ (.register uid _), last => ∃ copy, last = some (uid, copy) ∧ copy.MayHoldTokens
  | .refresh r (.lineage copy), last | .refresh r (.sign copy), last =>
      last = some (r.token.sub, copy) ∧ copy.isActive = true
  | .refresh r (.rotate copy _), last | .refresh r (.load copy _), last
  | .refresh r (.save copy _ _ _), last => last = some (r.token.sub, copy) ∧ copy.MayHoldTokens
  | _, _ => True

section

variable {settings : Settings} {p : Pid} {w w' : World} {l l' : Local} {a : Action}
  {last : Option (UserId × User)}

theorem ReadAdmitted.of_not_issue (hother : l.isIssue = false) : ReadAdmitted l last := by
  cases l with
  | login | refresh => cases hother
  | _ => exact trivial

/-- A request that signs does so from the row it read last, and that row may hold tokens. -/
theorem ReadAdmitted.signs (hread : ReadAdmitted l last) {uid : UserId} {copy : User}
    (hsigns : l.Signs uid copy)
    (hconsistent : privilegeClaimsAreConsistent copy.role copy.isSuperuser = true)
    (hgoes : a ≠ .abort) (hadmits : ¬ SignsDeactivated a l) :
    last = some (uid, copy) ∧ copy.MayHoldTokens := by
  cases hsigns with
  | @login r =>
      refine ⟨hread.1, ?_, hconsistent⟩
      by_cases hpassword : r.external = none
      · exact hread.2 hpassword
      · rw [← Bool.not_eq_false]
        exact fun hinactive => hadmits (.google hpassword hinactive hconsistent hgoes)
  | refresh hsub => exact ⟨hsub ▸ hread.1, hread.2, hconsistent⟩

theorem Step.readAdmitted (hstep : Step settings p w l a w' l') (hread : ReadAdmitted l last)
    (hstops : a = .abort → RolledBack p w w' l') (hadmits : ¬ SignsDeactivated a l) :
    ReadAdmitted l' (noteRead l l' last) := by
  by_cases hissue : l'.isIssue = true
  · rcases hstep.issue_cases hissue with
      ⟨r, phase, rfl, hlogin⟩ | ⟨r, phase, rfl, hrefresh⟩ | ⟨-, -, -, ⟨r, rfl⟩ | ⟨r, rfl⟩⟩
    · cases hlogin with
      | read _ hpassword => exact ⟨rfl, hpassword⟩
      | create hgoogle =>
          intro hexternal
          simp [LoginRequest.external, hgoogle] at hexternal
      | reload => exact ⟨rfl, fun hpassword => absurd hpassword hread⟩
      | @sign uid copy pair next hsigned hnext =>
          have hgoes : a ≠ .abort := fun habort => by cases (hstops habort).2
          have hconsistent := (createAuthTokens_signedFrom hsigned).consistent
          obtain ⟨-, hmay⟩ := hread.signs .login hconsistent hgoes hadmits
          rcases hnext with rfl | rfl
          · exact trivial
          · exact ⟨hread.1, hmay⟩
      | load => exact hread
      | @save uid copy pair =>
          rcases r.afterSave_eq settings uid pair with hnext | hnext | hnext
          · rw [hnext]
            exact ⟨copy, hread⟩
          · rw [hnext]
            exact trivial
          · rw [hnext]
            exact trivial
      | register _ hnext => rcases hnext with rfl | rfl <;> exact trivial
      | purgeExpired | purgeCommit => exact trivial
      | respond => cases hissue
    · cases hrefresh with
      | allowlist => exact trivial
      | lock _ _ hactive => split <;> exact ⟨rfl, hactive⟩
      | lineage => exact hread
      | sign hsigned =>
          split
          · exact trivial
          · exact ⟨hread.1, hread.2, (createAuthTokens_signedFrom hsigned).consistent⟩
      | rotate | rotateSkip | load => exact hread
      | save => exact trivial
      | reuse | respond => cases hissue
    · exact trivial
    · exact trivial
  · exact .of_not_issue (Bool.eq_false_iff.2 hissue)

theorem Step.issuesAdmitted (hstep : Step settings p w l a w' l') (hfresh : w.db.IdsFresh)
    (hissuing : Issuing settings p w l) (hread : ReadAdmitted l last)
    (hstops : a = .abort → RolledBack p w w' l') (hadmits : ¬ SignsDeactivated a l) :
    IssuesAdmitted p w w' l last := by
  intro uid hissues
  cases hissues with
  | @signs token generation hsigned huser =>
      have hgoes : a ≠ .abort := by
        intro habort
        rw [(hstops habort).1] at hsigned
        exact absurd hsigned (List.cons_ne_self _ _).symm
      obtain ⟨events, hlog, hlogged⟩ := hstep.records
      obtain rfl : events = [.signed p token generation] :=
        List.append_cancel_right (hlog.symm.trans hsigned)
      cases hlogged _ (List.mem_singleton_self _) with
      | @signed uid' copy pair hsigns hpair =>
          have hfrom := createAuthTokens_signedFrom hpair
          obtain rfl := hfrom.accessSub.symm.trans huser
          exact ⟨copy, hread.signs hsigns hfrom.consistent hgoes hadmits⟩
  | stores hrow hwas huser =>
      rcases hstep.row_origin hfresh hrow with hold | hsaves
      · exact absurd hold hwas
      · obtain ⟨_, copy, pair, data, existing, hlocal, howner, -⟩ := hsaves.facts hissuing
        obtain rfl := howner.symm.trans huser
        cases hlocal with
        | login => exact ⟨copy, hread⟩
        | refresh hsub => exact ⟨copy, hsub ▸ hread⟩
  | registers hlocal =>
      cases hlocal with
      | login => exact hread
      | @refresh r copy pair hsub => exact ⟨copy, hsub ▸ hread⟩

theorem SignsDeactivated.issues (hread : ReadAdmitted l last) (hsigns : SignsDeactivated a l)
    (hstep : step settings p w l a = some (w', l')) : ¬ IssuesAdmitted p w w' l last := by
  intro hadmitted
  cases hsigns with
  | @google r uid copy hgoogle hinactive hconsistent hgoes =>
      have hsigns : ∃ pair, createAuthTokens settings w.now w.nextJti uid copy = some pair := by
        rw [createAuthTokens, if_pos hconsistent]
        exact ⟨_, rfl⟩
      obtain ⟨pair, hpair⟩ := hsigns
      have hsigned : w'.log = .signed p pair.access copy.authGeneration :: w.log := by
        cases a with
        | abort => exact absurd rfl hgoes
        | proceed | select =>
            simp only [step, LoginRequest.step, hpair] at hstep
            obtain ⟨rfl, -⟩ := moving_eq_some hstep
            rfl
        | _ => cases hstep
      obtain ⟨copy', hlast, hmay⟩ :=
        hadmitted uid (.signs hsigned (createAuthTokens_signedFrom hpair).accessSub)
      rw [hread.1, Option.some.injEq, Prod.mk.injEq] at hlast
      rw [hlast.2, hmay.active] at hinactive
      cases hinactive

/-- What holds in every state of a run whose Google callbacks sign for active users only. -/
def AdmissionInv (settings : Settings) :
    Interleaving.Config World (Local × Option (UserId × User)) → Prop :=
  Interleaving.Asserted Grounded fun p w m => Tracked settings p w m.1 ∧ ReadAdmitted m.1 m.2

theorem AdmissionInv.next {c c' : Interleaving.Config World (Local × Option (UserId × User))}
    {move : Pid × Action} (hinv : AdmissionInv settings c)
    (hnext : (readingIssuer settings).next c move = some c')
    (hadmits : ¬ SignsDeactivated move.2 (c.locals move.1).1) : AdmissionInv settings c' := by
  refine Interleaving.Asserted.next hnext fun m' heq => ?_
  obtain ⟨hmoves, hnote⟩ := Interleaving.System.remembering_step.1 heq
  have hstep := step_sound hmoves
  obtain ⟨htracked, hread⟩ := hinv.locals move.1
  refine ⟨hstep.grounded hinv.shared htracked, ⟨hstep.tracked hinv.shared htracked, ?_⟩,
    fun q hq => ?_⟩
  · rw [hnote]
    exact hstep.readAdmitted hread (fun habort => step_abort (habort ▸ hmoves)) hadmits
  · exact ⟨hstep.othersTracked hinv.shared htracked hq (hinv.locals q).1, (hinv.locals q).2⟩

/-- Along a run of any requests, tokens are signed, sessions stored and identifiers registered only for users
whose row, as the request read it, is active and consistent, exactly when no Google callback signs from the
row of a deactivated user. -/
theorem issues_admitted_iff (settings : Settings)
    {c : Interleaving.Config World (Local × Option (UserId × User))} (hstarts : Starts c.forget)
    (schedule : List (Pid × Action)) :
    (readingIssuer settings).Along (fun c move _ => ¬ SignsDeactivated move.2 (c.locals move.1).1)
      c schedule ↔
    (readingIssuer settings).Along (fun c move c' =>
      IssuesAdmitted move.1 c.shared c'.shared (c.locals move.1).1 (c.locals move.1).2) c schedule := by
  have hinv : AdmissionInv settings c := by
    refine ⟨hstarts.grounded, fun p => ⟨hstarts.tracked p, ?_⟩⟩
    have hidle : (c.locals p).1 = .idle := hstarts.idle p
    rw [hidle]
    exact trivial
  refine Interleaving.System.along_iff ?_ (fun c move c' hinv hnext hadmits => hinv.next hnext hadmits)
    schedule hinv
  intro c move c' hinv hnext
  obtain ⟨s', m', heq, rfl⟩ := Interleaving.System.next_eq_some.1 hnext
  obtain ⟨hmoves, -⟩ := Interleaving.System.remembering_step.1 heq
  obtain ⟨htracked, hread⟩ := hinv.locals move.1
  constructor
  · intro hadmits
    exact (step_sound hmoves).issuesAdmitted hinv.shared.fresh htracked.issuing hread
      (fun habort => step_abort (habort ▸ hmoves)) hadmits
  · intro hadmitted hsigns
    exact hsigns.issues hread hmoves hadmitted

end

/-- One deactivated user of the Google provider, and no request running. -/
def oneDeactivated : Interleaving.Config World (Local × Option (UserId × User)) where
  shared :=
    { db :=
        { users := AList.insert 1 { provider := .google, email := "a", isActive := false } ∅
          policyRevision := some 0
          nextUserId := 2 } }
  locals _ := (.idle, none)

theorem oneDeactivated_starts : Starts oneDeactivated.forget where
  idle _ := rfl
  log := rfl
  fresh := .of_keys (by decide) (by decide) (by decide)
  rows _ _ hrow := by cases hrow

/-- The callback that signs the user in at Google has read its row. -/
def deactivatedCallback : List (Pid × Action) :=
  [(0, .begin (.login ⟨.google ⟨"access", 3600, "refresh", "g1", "a", true, "A"⟩, true⟩ .read)),
    (0, .proceed)]

theorem issues_admitted_iff_oneDeactivated :
    (readingIssuer {}).Along (fun c move _ => ¬ SignsDeactivated move.2 (c.locals move.1).1)
      oneDeactivated deactivatedCallback ↔
    (readingIssuer {}).Along (fun c move c' =>
      IssuesAdmitted move.1 c.shared c'.shared (c.locals move.1).1 (c.locals move.1).2)
      oneDeactivated deactivatedCallback :=
  issues_admitted_iff {} oneDeactivated_starts deactivatedCallback

def deactivatedToken : AccessToken where
  sub := 1
  jti := 0
  exp := 1800 * second
  isActive := false
  isSuperuser := false
  role := .user
  email := "a"

/-- The next step signs a token pair for the deactivated user. -/
theorem deactivated_user_signed :
    ∃ c c' copy, (readingIssuer {}).run oneDeactivated deactivatedCallback = some c ∧
      (readingIssuer {}).next c (0, .proceed) = some c' ∧
      (c.locals 0).2 = some (1, copy) ∧ copy.isActive = false ∧
      c'.shared.log = .signed 0 deactivatedToken 1 :: c.shared.log ∧
      ¬ IssuesAdmitted 0 c.shared c'.shared (c.locals 0).1 (c.locals 0).2 := by
  have hruns : ((readingIssuer {}).run oneDeactivated deactivatedCallback).map (fun c =>
      ((c.locals 0).2.map (fun read => (read.1, read.2.isActive)), c.shared.log,
        ((readingIssuer {}).next c (0, .proceed)).map (·.shared.log)))
      = some (some (1, false), [], some [.signed 0 deactivatedToken 1]) := by
    decide +kernel
  obtain ⟨c, hrun, hresult⟩ := Option.map_eq_some_iff.1 hruns
  obtain ⟨hread, hrest⟩ := Prod.mk.inj hresult
  obtain ⟨hempty, hsigns⟩ := Prod.mk.inj hrest
  obtain ⟨c', hnext, hlog⟩ := Option.map_eq_some_iff.1 hsigns
  obtain ⟨⟨uid, copy⟩, hlast, heq⟩ := Option.map_eq_some_iff.1 hread
  obtain ⟨rfl, hinactive⟩ := Prod.mk.inj heq
  have hsigned : c'.shared.log = .signed 0 deactivatedToken 1 :: c.shared.log := by rw [hlog, hempty]
  refine ⟨c, c', copy, hrun, hnext, hlast, hinactive, hsigned, fun hadmitted => ?_⟩
  obtain ⟨copy', hlast', hmay⟩ := hadmitted 1 (.signs hsigned rfl)
  rw [hlast, Option.some.injEq, Prod.mk.injEq] at hlast'
  rw [hlast'.2, hmay.active] at hinactive
  cases hinactive

end FaAuthM8

import FaAuthM8.Proof.Deletions
import FaAuthM8.Proof.Revocations
import FaAuthM8.Proof.Serial

/-!
# The session status over serial runs

Where requests run one at a time, each of them works on what the database holds. So a user has at most one
session row, the row carries the generation of its owner, and everything that revokes the user deletes it.
What the status of an identifier then says is whether it belongs to the last session issued to the user and
nothing has revoked that session since.
-/

namespace FaAuthM8

/-- The step from `w` to `w'` commits the issue of session `jti` to user `uid`. -/
inductive IssuesSession (w w' : World) (uid : UserId) (jti : Jti) (l : Local) : Prop
  | save {copy : User} {pair : TokenPair} {data : ClientSessionCreate}
      {existing : Option (SessionId × ClientSession)} (hlocal : l.Saves uid copy pair data existing)
      (hjti : data.jwtJti = jti)
      (hcommit : commit [createClientSession uid copy data existing] w.db = .ok w'.db)

/-- The step from `w` to `w'` commits a change of the role or the activation of user `uid`, its repair, its
deletion, the revocation of all its sessions, or a revocation that names the stored session `jti`. -/
inductive EffectiveRevocation (w w' : World) (uid : UserId) (jti : Jti) : Local → Prop
  | changed {r : UpdateRequest} {phase : UpdatePhase} (huser : r.userId = uid)
      (hchanged : authorizationOf w'.db uid ≠ authorizationOf w.db uid) :
      EffectiveRevocation w w' uid jti (.update r phase)
  | repaired {r : RepairRequest} {generation : Nat} {targets : List RevocationTarget}
      {doomed : List SessionId} (huser : r.userId = uid) (hcommits : w'.log ≠ w.log) :
      EffectiveRevocation w w' uid jti (.repair r (.commit generation targets doomed))
  | deleted {l : Local} (hdeletes : DeletesAccount w w' uid) : EffectiveRevocation w w' uid jti l
  | revokedAll {r : RevokeUserRequest} {targets : List RevocationTarget} {doomed : List SessionId}
      (huser : r.userId = uid) (hcommits : w'.log ≠ w.log) :
      EffectiveRevocation w w' uid jti (.revokeUser r (.commit targets doomed))
  | revokedOne {l : Local} {id : SessionId} {row : ClientSession}
      (hrow : w.db.sessions.lookup id = some row) (hjti : row.jwtJti = jti) (hnames : l.Names id row)
      (hcommits : w'.log ≠ w.log) : EffectiveRevocation w w' uid jti l

/-- The user has a session row that carries the identifier. -/
def HasSession (w : World) (uid : UserId) (jti : Jti) : Prop :=
  ∃ id row, w.db.sessions.lookup id = some row ∧ row.userId = uid ∧ row.jwtJti = jti

/-- What is known of the session rows where requests run one at a time. -/
structure SessionsCurrent (w : World) : Prop where
  owned : ∀ id row, w.db.sessions.lookup id = some row → ∃ owner,
    w.db.users.lookup row.userId = some owner ∧ row.authGeneration = some owner.authGeneration
  unrevoked : ∀ id row, w.db.sessions.lookup id = some row → row.revoked = false
  single : ∀ id id' row row', w.db.sessions.lookup id = some row →
    w.db.sessions.lookup id' = some row' → row.userId = row'.userId → id = id'
  distinct : ∀ id id' row row', w.db.sessions.lookup id = some row →
    w.db.sessions.lookup id' = some row' → row.jwtJti = row'.jwtJti → id = id'

/-- The row a save has loaded, if the user has one, is the stored row. -/
def Selected (w : World) (uid : UserId) (existing : Option (SessionId × ClientSession)) : Prop :=
  (existing = none ∧ ∀ id row, w.db.sessions.lookup id = some row → row.userId ≠ uid) ∨
    ∃ id row, existing = some (id, row) ∧ w.db.sessions.lookup id = some row ∧ row.userId = uid

def LoginPhase.UpToDate (w : World) : LoginPhase → Prop
  | .sign uid copy | .load uid copy _ => w.db.users.lookup uid = some copy
  | .save uid copy _ data existing =>
      w.db.users.lookup uid = some copy ∧ Selected w uid existing ∧ w.now ≤ data.refreshExpiresAt
  | .register uid _ | .purgeExpired uid _ =>
      ∀ id row, w.db.sessions.lookup id = some row → row.userId = uid → w.now ≤ row.refreshExpiresAt
  | .purgeCommit _ doomed => doomed = []
  | _ => True

def RefreshPhase.UpToDate (w : World) (uid : UserId) : RefreshPhase → Prop
  | .lineage copy | .sign copy | .rotate copy _ | .load copy _ => w.db.users.lookup uid = some copy
  | .save copy _ _ existing => w.db.users.lookup uid = some copy ∧ Selected w uid existing
  | _ => True

/-- What a request has read is what the database holds. -/
def Local.UpToDate (settings : Settings) (w : World) : Local → Prop
  | .update r phase => phase.ReadFrom settings w.db w.now r
  | .delete r phase => phase.ReadFrom w.db r
  | .repair r phase => phase.ReadFrom w.db w.now r
  | .login _ phase => phase.UpToDate w
  | .refresh r phase => phase.UpToDate w r.token.sub
  | _ => True

/-- What a save stores: one row of the user, which carries everything it was given. -/
structure StoresSession (w w' : World) (uid : UserId) (copy : User) (data : ClientSessionCreate)
    (id : SessionId) (row : ClientSession) : Prop where
  owner : row.userId = uid
  jti : row.jwtJti = data.jwtJti
  refreshExpiresAt : row.refreshExpiresAt = data.refreshExpiresAt
  stamp : row.authGeneration = some copy.authGeneration
  unrevoked : row.revoked = false
  stored : ∀ id', w'.db.sessions.lookup id' = if id' = id then some row else w.db.sessions.lookup id'
  only : ∀ id' row', w.db.sessions.lookup id' = some row' → row'.userId = uid → id' = id

theorem refreshTokenExpires_nonneg (settings : Settings) : 0 ≤ settings.refreshTokenExpires := by
  simp only [Settings.refreshTokenExpires, second]
  omega

section

variable {settings : Settings} {p q : Pid} {w w' : World} {l l' : Local} {a : Action}

theorem commit_createClientSession_users {uid : UserId} {copy : User} {data : ClientSessionCreate}
    {existing : Option (SessionId × ClientSession)} {db db' : Db}
    (hcommit : commit [createClientSession uid copy data existing] db = .ok db') :
    db'.users = db.users := by
  refine commit_users hcommit fun write hmem => ?_
  obtain rfl := List.mem_singleton.1 hmem
  exact createClientSession_changesUsers _ _ _ _

theorem storesSession {uid : UserId} {copy : User} {data : ClientSessionCreate}
    {existing : Option (SessionId × ClientSession)} (hcurrent : SessionsCurrent w)
    (hselected : Selected w uid existing)
    (hcommit : commit [createClientSession uid copy data existing] w.db = .ok w'.db) :
    ∃ id row, StoresSession w w' uid copy data id row := by
  obtain ⟨db₁, happly, hrest⟩ := commit_cons_eq_ok.1 hcommit
  have hdb : db₁ = w'.db := Except.ok.inj hrest
  rcases hselected with ⟨rfl, hnone⟩ | ⟨id, row, rfl, hrow, huser⟩
  · have hinsert := (Db.insertSession_eq_ok.1 happly).2
    refine ⟨w.db.nextSessionId, newSession uid copy data, rfl, rfl, rfl, rfl, rfl, fun id' => ?_, ?_⟩
    · rw [← hdb, hinsert]
      exact Table.lookup_insert_eq _ _ _ _
    · intro id' row' hrow' huser'
      exact absurd huser' (hnone id' row' hrow')
  · have hsaved : (restampSession row copy data).saveOver row row = restampSession row copy data := by
      simp [ClientSession.saveOver, restampSession]
    refine ⟨id, restampSession row copy data, huser, rfl, rfl, rfl, hcurrent.unrevoked id row hrow, ?_, ?_⟩
    · intro id'
      rw [← hdb]
      obtain ⟨hsame, rfl⟩ | ⟨current, hcurrent', rfl⟩ := Db.updateSession_eq_ok happly
      · rw [hsame]
        split
        · next hid => rw [hid, hrow]
        · rfl
      · obtain rfl : row = current := Option.some.inj (hrow.symm.trans hcurrent')
        rw [hsaved]
        exact Table.lookup_insert_eq _ _ _ _
    · intro id' row' hrow' huser'
      exact hcurrent.single id' id row' row hrow' hrow (huser'.trans huser.symm)

theorem StoresSession.lookup {uid : UserId} {copy : User} {data : ClientSessionCreate} {id : SessionId}
    {row : ClientSession} (hstores : StoresSession w w' uid copy data id row) :
    w'.db.sessions.lookup id = some row := by
  rw [hstores.stored, if_pos rfl]

theorem StoresSession.cases {uid : UserId} {copy : User} {data : ClientSessionCreate} {id id' : SessionId}
    {row row' : ClientSession} (hstores : StoresSession w w' uid copy data id row)
    (hrow' : w'.db.sessions.lookup id' = some row') :
    (id' = id ∧ row' = row) ∨
      (id' ≠ id ∧ w.db.sessions.lookup id' = some row' ∧ row'.userId ≠ uid) := by
  rw [hstores.stored] at hrow'
  split at hrow'
  · next hid => exact .inl ⟨hid, (Option.some.inj hrow').symm⟩
  · next hid => exact .inr ⟨hid, hrow', fun huser => hid (hstores.only id' row' hrow' huser)⟩

theorem StoresSession.hasSession_iff {uid : UserId} {copy : User} {data : ClientSessionCreate}
    {id : SessionId} {row : ClientSession} (hstores : StoresSession w w' uid copy data id row)
    (jti : Jti) : HasSession w' uid jti ↔ jti = data.jwtJti := by
  constructor
  · rintro ⟨id', row', hrow', huser, rfl⟩
    obtain ⟨-, rfl⟩ | ⟨-, -, hother⟩ := hstores.cases hrow'
    · exact hstores.jti
    · exact absurd huser hother
  · rintro rfl
    exact ⟨id, row, hstores.lookup, hstores.owner, hstores.jti⟩

theorem StoresSession.sessionsCurrent {uid : UserId} {copy : User} {data : ClientSessionCreate}
    {id : SessionId} {row : ClientSession} (hstores : StoresSession w w' uid copy data id row)
    (hcurrent : SessionsCurrent w) (hcopy : w.db.users.lookup uid = some copy)
    (husers : w'.db.users = w.db.users)
    (hunrecorded : ∀ id row, w.db.sessions.lookup id = some row → row.jwtJti ≠ data.jwtJti) :
    SessionsCurrent w' where
  owned id' row' hrow' := by
    rw [husers]
    obtain ⟨-, rfl⟩ | ⟨-, hold, -⟩ := hstores.cases hrow'
    · exact ⟨copy, hstores.owner ▸ hcopy, hstores.stamp⟩
    · exact hcurrent.owned id' row' hold
  unrevoked id' row' hrow' := by
    obtain ⟨-, rfl⟩ | ⟨-, hold, -⟩ := hstores.cases hrow'
    · exact hstores.unrevoked
    · exact hcurrent.unrevoked id' row' hold
  single id₁ id₂ row₁ row₂ hrow₁ hrow₂ huser := by
    obtain ⟨rfl, rfl⟩ | ⟨-, hold₁, hother₁⟩ := hstores.cases hrow₁
    · obtain ⟨rfl, -⟩ | ⟨-, -, hother₂⟩ := hstores.cases hrow₂
      · rfl
      · exact absurd (huser.symm.trans hstores.owner) hother₂
    · obtain ⟨-, rfl⟩ | ⟨-, hold₂, -⟩ := hstores.cases hrow₂
      · exact absurd (huser.trans hstores.owner) hother₁
      · exact hcurrent.single id₁ id₂ row₁ row₂ hold₁ hold₂ huser
  distinct id₁ id₂ row₁ row₂ hrow₁ hrow₂ hjti := by
    obtain ⟨rfl, rfl⟩ | ⟨-, hold₁, -⟩ := hstores.cases hrow₁
    · obtain ⟨rfl, -⟩ | ⟨-, hold₂, -⟩ := hstores.cases hrow₂
      · rfl
      · exact absurd (hjti.symm.trans hstores.jti) (hunrecorded id₂ row₂ hold₂)
    · obtain ⟨-, rfl⟩ | ⟨-, hold₂, -⟩ := hstores.cases hrow₂
      · exact absurd (hjti.trans hstores.jti) (hunrecorded id₁ row₁ hold₁)
      · exact hcurrent.distinct id₁ id₂ row₁ row₂ hold₁ hold₂ hjti

/-! ### What revokes a user deletes its session -/

theorem CommitsTransition.noSession {uid : UserId} {generation : Nat} {targets : List RevocationTarget}
    (hfresh : w.db.IdsFresh) (hupToDate : l.UpToDate settings w)
    (hcommits : CommitsTransition w w' uid generation targets l) : NoSession w' uid := by
  have hdoomed {uid : UserId} {doomed : List SessionId} (heq : doomed = sessionIds w.db (ownedBy uid)) :
      ∀ id row, w.db.sessions.lookup id = some row → row.userId = uid → id ∈ doomed :=
    fun id row hrow huser => heq ▸ mem_sessionIds_ownedBy hrow huser
  cases hcommits with
  | update huser _ hchanged hcommit =>
      subst huser
      obtain ⟨-, -, -, hread⟩ := hupToDate
      have hrevoked := (commit_updateWrites hfresh hcommit).revoked hchanged
      exact noSession_deleted (hdoomed (hread hchanged).2) hrevoked.sessions
  | repair huser hcommit =>
      subst huser
      obtain ⟨-, -, hread⟩ := hupToDate
      exact noSession_deleted (hdoomed hread) (commit_repairWrites hfresh hcommit).revoked.sessions

theorem Step.noSession_of_deleted (hfresh : w.db.IdsFresh) (hstep : Step settings p w l a w' l')
    {uid : UserId} (hdeletes : DeletesAccount w w' uid) : NoSession w' uid := by
  intro id row hrow
  obtain ⟨r, copy, terminal, revision, doomed, rfl, rfl, hcommit⟩ | ⟨r, rfl, rfl, hcommit⟩ :=
    hstep.deletesAccount hfresh hdeletes
  · rw [(commit_deletionWrites hcommit).sessions, Db.lookup_deleteUser_sessions] at hrow
    exact hrow.2
  · rw [← Except.ok.inj hcommit, Db.lookup_deleteUser_sessions] at hrow
    exact hrow.2

theorem not_stale_of_upToDate (hupToDate : l.UpToDate settings w) : ¬ StaleTransition w w' l := by
  intro hstale
  cases hstale with
  | update _ hcurrent hstale =>
      have hcopy := hupToDate.1
      rw [hcurrent, Option.some.injEq] at hcopy
      exact hstale (congrArg User.authGeneration hcopy.symm)

/-- A user whose role, activation or generation a step changes, or whose row it deletes, has no session
after it. -/
theorem Step.noSession_of_changed (hgrounded : Grounded w) (htracked : Tracked settings p w l)
    (hupToDate : l.UpToDate settings w) (hstep : Step settings p w l a w' l') {uid : UserId}
    {before : User} (hbefore : w.db.users.lookup uid = some before)
    (hchanged : ∀ after, w'.db.users.lookup uid = some after →
      ¬ (after.authGeneration = before.authGeneration ∧ after.role = before.role ∧
        after.isActive = before.isActive)) : NoSession w' uid := by
  cases hafter : w'.db.users.lookup uid with
  | none => exact hstep.noSession_of_deleted hgrounded.fresh ⟨by rw [hbefore]; rfl, hafter⟩
  | some after =>
      rcases hstep.user_change hgrounded.fresh htracked.planned htracked.repairs
        (not_stale_of_upToDate hupToDate) hbefore hafter with hsame | ⟨-, targets, hcommits⟩
      · exact absurd hsame (hchanged after hafter)
      · exact hcommits.noSession hgrounded.fresh hupToDate

theorem Step.row_was (hfresh : w.db.IdsFresh) (hissuing : Issuing settings p w l)
    (hstep : Step settings p w l a w' l') {id : SessionId} {row : ClientSession}
    (hnone : ∀ jti, ¬ IssuesSession w w' row.userId jti l)
    (hrow : w'.db.sessions.lookup id = some row) : w.db.sessions.lookup id = some row := by
  rcases hstep.row_origin hfresh hrow with hold | hsaves
  · exact hold
  · obtain ⟨uid, copy, pair, data, existing, hlocal, huser, -⟩ := hsaves.facts hissuing
    rcases hstep.save_cases hlocal with hsame | hcommit
    · exact hsame ▸ hrow
    · exact absurd (.save (huser ▸ hlocal) rfl (huser ▸ hcommit)) (hnone data.jwtJti)

theorem Local.UpToDate.saves {uid : UserId} {copy : User} {pair : TokenPair} {data : ClientSessionCreate}
    {existing : Option (SessionId × ClientSession)} (hupToDate : l.UpToDate settings w)
    (hlocal : l.Saves uid copy pair data existing) :
    w.db.users.lookup uid = some copy ∧ Selected w uid existing := by
  cases hlocal with
  | login => exact ⟨hupToDate.1, hupToDate.2.1⟩
  | refresh huser =>
      subst huser
      exact hupToDate

theorem IssuesSession.hasSession_iff (hcurrent : SessionsCurrent w) (hupToDate : l.UpToDate settings w)
    {uid : UserId} {issued : Jti} (hissues : IssuesSession w w' uid issued l) (jti : Jti) :
    HasSession w' uid jti ↔ jti = issued := by
  obtain ⟨hlocal, rfl, hcommit⟩ := hissues
  obtain ⟨id, row, hstores⟩ := storesSession hcurrent (hupToDate.saves hlocal).2 hcommit
  exact hstores.hasSession_iff jti

theorem HasSession.not_noSession {uid : UserId} {jti : Jti} (hhas : HasSession w uid jti) :
    ¬ NoSession w uid := by
  obtain ⟨id, row, hrow, huser, -⟩ := hhas
  exact fun hnone => hnone id row hrow huser

theorem Step.not_hasSession (hgrounded : Grounded w) (htracked : Tracked settings p w l)
    (hcurrent : SessionsCurrent w) (hupToDate : l.UpToDate settings w) (hnamed : NamesDoomed w l)
    (hstep : Step settings p w l a w' l') {uid : UserId} {jti : Jti}
    (hrevocation : EffectiveRevocation w w' uid jti l) : ¬ HasSession w' uid jti := by
  cases hrevocation with
  | @changed r phase huser hchanged =>
      cases hbefore : w.db.users.lookup uid with
      | none =>
          rintro ⟨id, row, hrow, hrowUser, -⟩
          have hnone : ∀ jti, ¬ IssuesSession w w' row.userId jti (.update r phase) := by
            rintro jti ⟨hlocal, -, -⟩
            cases hlocal
          obtain ⟨owner, howner, -⟩ := hcurrent.owned id row
            (hstep.row_was hgrounded.fresh htracked.issuing hnone hrow)
          rw [hrowUser, hbefore] at howner
          cases howner
      | some before =>
          intro hhas
          refine hhas.not_noSession (hstep.noSession_of_changed hgrounded htracked hupToDate hbefore ?_)
          rintro after hafter ⟨-, hrole, hactive⟩
          apply hchanged
          simp [authorizationOf, hbefore, hafter, hrole, hactive]
  | repaired huser hcommits =>
      have hnone := hstep.noSession_of_revokesUser hgrounded.fresh hnamed hcommits (congrArg some huser)
      exact fun hhas => hhas.not_noSession hnone
  | deleted hdeletes =>
      exact fun hhas => hhas.not_noSession (hstep.noSession_of_deleted hgrounded.fresh hdeletes)
  | revokedAll huser hcommits =>
      have hnone := hstep.noSession_of_revokesUser hgrounded.fresh hnamed hcommits (congrArg some huser)
      exact fun hhas => hhas.not_noSession hnone
  | @revokedOne l id row hrow hjti hnames hcommits =>
      subst hjti
      have hgone := hstep.carriedIn_of_names hgrounded.fresh hnamed hcommits hrow hnames
        fun id' row' hrow' hsame => hcurrent.distinct id' id row' row hrow' hrow hsame
      rintro ⟨id', row', hrow', -, hjti⟩
      exact absurd (hgone id' row' hrow' hjti) List.not_mem_nil

theorem Step.erases (hstep : Step settings p w l a w' l') {uid : UserId} (herases : l.Erases uid)
    (hcommitted : w'.db ≠ w.db) : w'.db.users.lookup uid = none := by
  cases herases with
  | delete huser =>
      subst huser
      cases hstep with
      | abort | error => exact absurd rfl hcommitted
      | delete hdelete =>
          cases hdelete with
          | commit hcommit =>
              simp only [World.committed]
              rw [(commit_deletionWrites hcommit).users, Table.lookup_erase_eq, if_pos rfl]
  | deleteMe huser =>
      subst huser
      cases hstep with
      | abort | error => exact absurd rfl hcommitted
      | deleteMe hdelete =>
          cases hdelete with
          | commit =>
              simp only [World.committed, Db.deleteUser]
              rw [Table.lookup_erase_eq, if_pos rfl]

theorem Step.revokes_doomed (hgrounded : Grounded w) (hupToDate : l.UpToDate settings w)
    (hnamed : NamesDoomed w l) (hstep : Step settings p w l a w' l')
    (hcommitted : w'.db ≠ w.db) {doomed : List SessionId} (hdooms : l.Dooms doomed) {id : SessionId}
    {row : ClientSession} (hrow : w.db.sessions.lookup id = some row) (hmem : id ∈ doomed) :
    EffectiveRevocation w w' row.userId row.jwtJti l := by
  have hlog (hlogin : l.isLogin = false) : w'.log ≠ w.log := by
    obtain ⟨hdb, -⟩ | ⟨-, hlog⟩ := hstep.deletion hgrounded.fresh hdooms
    · exact absurd hdb hcommitted
    · exact hlog hlogin
  have hnames (hlogin : l.isLogin = false) : l.NamesRow id row :=
    (hnamed doomed hdooms hlogin id row hrow).1 hmem
  have hsingle (hlogin : l.isLogin = false) (hnobody : l.revokesUser = none) :
      EffectiveRevocation w w' row.userId row.jwtJti l := by
    obtain huser | hone := hnames hlogin
    · rw [hnobody] at huser
      cases huser
    · exact .revokedOne hrow rfl hone (hlog hlogin)
  cases hdooms with
  | @update r copy plan revision targets hchanged =>
      obtain ⟨hcopy, -, hplan, -⟩ := hupToDate
      have huser : r.userId = row.userId := by
        obtain huser | hone := hnames rfl
        · rw [Local.revokesUser, if_pos hchanged] at huser
          exact Option.some.inj huser
        · cases hone
      cases hstep with
      | abort | error => exact absurd rfl hcommitted
      | update hupdate =>
          cases hupdate with
          | commit _ hcommit =>
              obtain ⟨user, hlookup, hrole, hactive, -⟩ :=
                commit_updateWrites_user hgrounded.fresh hcopy hcommit
              refine .changed huser ?_
              rw [← huser]
              exact (authorizationOf_changed_iff hplan hcopy ((hlookup _).trans (if_pos rfl)) hrole
                hactive).2 hchanged
  | @delete r copy terminal revision =>
      obtain ⟨hcopy, -⟩ := hupToDate
      have huser : r.userId = row.userId := Option.some.inj ((hnames rfl).resolve_right fun hone => hone)
      have hgone := hstep.erases (.delete rfl) hcommitted
      rw [huser] at hcopy hgone
      exact .deleted ⟨by rw [hcopy]; rfl, hgone⟩
  | repair => exact .repaired (Option.some.inj ((hnames rfl).resolve_right fun hone => hone)) (hlog rfl)
  | login =>
      obtain rfl : doomed = [] := hupToDate
      cases hmem
  | logoutAccess | logoutSession | legacySweep | revokeSession => exact hsingle rfl rfl
  | revokeUser => exact .revokedAll (Option.some.inj ((hnames rfl).resolve_right fun hone => hone)) (hlog rfl)

theorem Step.hasSession_kept (hgrounded : Grounded w) (htracked : Tracked settings p w l)
    (hcurrent : SessionsCurrent w) (hupToDate : l.UpToDate settings w) (hnamed : NamesDoomed w l)
    (hstep : Step settings p w l a w' l') {uid : UserId} {jti : Jti}
    (hissues : ∀ issued, ¬ IssuesSession w w' uid issued l)
    (hrevocation : ¬ EffectiveRevocation w w' uid jti l) (hhas : HasSession w uid jti) :
    HasSession w' uid jti := by
  obtain ⟨id, row, hrow, rfl, rfl⟩ := hhas
  refine ⟨id, row, ?_, rfl, rfl⟩
  by_cases hcommitted : w'.db = w.db
  · exact hcommitted ▸ hrow
  · have hspared {doomed : List SessionId} (hdooms : l.Dooms doomed) : id ∉ doomed := fun hmem =>
      hrevocation (hstep.revokes_doomed hgrounded hupToDate hnamed hcommitted hdooms hrow hmem)
    cases hstep.sessionsChange hgrounded.fresh with
    | same hsessions => rw [hsessions, hrow]
    | @saved id' row' hsaves hsessions =>
        rw [hsessions, Table.lookup_insert_eq, if_neg ?_, hrow]
        rintro rfl
        cases hsaves with
        | inserted _ _ hid => exact absurd hid (Nat.ne_of_lt (hgrounded.fresh.sessions id row hrow))
        | @restamped uid copy pair data loaded current hlocal _ hstored _ =>
            obtain rfl := Option.some.inj (hrow.symm.trans hstored)
            obtain ⟨-, -, -, howner⟩ := (htracked.issuing.saves _ _ _ _ _ hlocal).selected id loaded rfl
            have huser : row.userId = uid := howner row hrow
            rcases hstep.save_cases hlocal with hsame | hcommit
            · exact hcommitted hsame
            · exact hissues data.jwtJti (.save (huser ▸ hlocal) rfl (huser ▸ hcommit))
    | deleted hdooms hsessions => exact (hsessions id row).2 ⟨hrow, hspared hdooms⟩
    | @erased uid doomed herases hdoomed hsessions =>
        refine (hsessions id row).2 ⟨⟨hrow, ?_⟩, ?_⟩
        · rcases hdoomed with hdooms | rfl
          · exact hspared hdooms
          · exact List.not_mem_nil
        · rintro rfl
          obtain ⟨owner, howner, -⟩ := hcurrent.owned id row hrow
          exact hrevocation (.deleted ⟨by rw [howner]; rfl, hstep.erases herases hcommitted⟩)

/-- A user has a session after a step exactly when the step issued it, or it was there and the step neither
issued another one to the user nor revoked it. -/
theorem Step.hasSession_iff (hgrounded : Grounded w) (htracked : Tracked settings p w l)
    (hcurrent : SessionsCurrent w) (hupToDate : l.UpToDate settings w) (hnamed : NamesDoomed w l)
    (hstep : Step settings p w l a w' l') (uid : UserId) (jti : Jti) :
    HasSession w' uid jti ↔ IssuesSession w w' uid jti l ∨ (HasSession w uid jti ∧
      ¬ ((∃ issued, IssuesSession w w' uid issued l) ∨ EffectiveRevocation w w' uid jti l)) := by
  by_cases hissue : ∃ issued, IssuesSession w w' uid issued l
  · obtain ⟨issued, hissues⟩ := hissue
    rw [hissues.hasSession_iff hcurrent hupToDate]
    constructor
    · rintro rfl
      exact .inl hissues
    · rintro (hissues' | ⟨-, hno⟩)
      · exact ((hissues'.hasSession_iff hcurrent hupToDate issued).1
          ((hissues.hasSession_iff hcurrent hupToDate issued).2 rfl)).symm
      · exact absurd (.inl ⟨issued, hissues⟩) hno
  · have hnone : ∀ issued, ¬ IssuesSession w w' uid issued l := fun issued hissues =>
      hissue ⟨issued, hissues⟩
    constructor
    · intro hhas
      have hno : ¬ EffectiveRevocation w w' uid jti l := fun hrevocation =>
        hstep.not_hasSession hgrounded htracked hcurrent hupToDate hnamed hrevocation hhas
      obtain ⟨id, row, hrow, rfl, hjti⟩ := hhas
      have hwas := hstep.row_was hgrounded.fresh htracked.issuing hnone hrow
      exact .inr ⟨⟨id, row, hwas, rfl, hjti⟩, fun h => h.elim hissue hno⟩
    · rintro (hissues | ⟨hhas, hno⟩)
      · exact absurd hissues (hnone jti)
      · exact hstep.hasSession_kept hgrounded htracked hcurrent hupToDate hnamed hnone
          (fun hrevocation => hno (.inr hrevocation)) hhas

theorem Step.sessionsCurrent (hgrounded : Grounded w) (htracked : Tracked settings p w l)
    (hcurrent : SessionsCurrent w) (hupToDate : l.UpToDate settings w)
    (hstep : Step settings p w l a w' l') : SessionsCurrent w' := by
  by_cases hissue : ∃ uid issued, IssuesSession w w' uid issued l
  · obtain ⟨uid, issued, hlocal, -, hcommit⟩ := hissue
    obtain ⟨hcopy, hselected⟩ := hupToDate.saves hlocal
    obtain ⟨id, row, hstores⟩ := storesSession hcurrent hselected hcommit
    refine hstores.sessionsCurrent hcurrent hcopy (commit_createClientSession_users hcommit) ?_
    rw [(htracked.issuing.saves _ _ _ _ _ hlocal).jti]
    exact (htracked.issuing.unsaved _ hlocal.unsaved).unrecorded
  · have hwas {id : SessionId} {row : ClientSession} (hrow : w'.db.sessions.lookup id = some row) :
        w.db.sessions.lookup id = some row :=
      hstep.row_was hgrounded.fresh htracked.issuing (fun issued hissues => hissue ⟨_, issued, hissues⟩)
        hrow
    refine ⟨fun id row hrow => ?_, fun id row hrow => hcurrent.unrevoked id row (hwas hrow),
      fun id id' row row' hrow hrow' => hcurrent.single id id' row row' (hwas hrow) (hwas hrow'),
      fun id id' row row' hrow hrow' => hcurrent.distinct id id' row row' (hwas hrow) (hwas hrow')⟩
    obtain ⟨owner, howner, hstamp⟩ := hcurrent.owned id row (hwas hrow)
    by_contra hnone
    -- an owner that has changed has no session left
    refine hstep.noSession_of_changed hgrounded htracked hupToDate howner ?_ id row hrow rfl
    rintro after hafter ⟨hgeneration, -⟩
    exact hnone ⟨after, hafter, hgeneration ▸ hstamp⟩

theorem Local.Serves.upToDate {request : AdminRequest}
    (hserves : l.Serves settings w.db w.now request) : l.UpToDate settings w := by
  cases l with
  | update | delete | repair => exact hserves.2
  | _ => exact hserves.elim

theorem Step.upToDate_of_serves {request : AdminRequest}
    (hserves : l.Serves settings w.db w.now request) (hstep : Step settings p w l a w' l') :
    l'.UpToDate settings w' := by
  rcases hstep.serves hserves with ⟨hdb, hnow, rfl | hgoes⟩ | ⟨rfl, -⟩
  · exact trivial
  · rw [← hdb, ← hnow] at hgoes
    exact hgoes.upToDate
  · exact trivial

theorem LoginStep.upToDate {r : LoginRequest} {phase : LoginPhase} (hcurrent : SessionsCurrent w)
    (hupToDate : phase.UpToDate w) (hstep : LoginStep settings p w r phase w' l') :
    l'.UpToDate settings w' := by
  cases hstep with
  | read hcopy | reload hcopy => exact hcopy
  | create | purgeCommit | respond => exact trivial
  | sign _ hnext =>
      rcases hnext with rfl | rfl
      · exact trivial
      · exact hupToDate
  | load hselect =>
      refine ⟨hupToDate, selectSession_eq_some hselect, ?_⟩
      have hlifetime := refreshTokenExpires_nonneg settings
      show w.now ≤ w.now + settings.refreshTokenExpires
      omega
  | @save uid copy pair data existing db' _ hcommit =>
      obtain ⟨-, hselected, hlifetime⟩ := hupToDate
      have hfresh : ∀ id row, db'.sessions.lookup id = some row → row.userId = uid →
          w.now ≤ row.refreshExpiresAt := by
        intro id' row' hrow' huser'
        have hcommit' : commit [createClientSession uid copy data existing] w.db =
          .ok (w.committed p db' []).db := hcommit
        obtain ⟨id, row, hstores⟩ := storesSession hcurrent hselected hcommit'
        obtain ⟨-, rfl⟩ | ⟨-, -, hother⟩ := hstores.cases hrow'
        · rw [hstores.refreshExpiresAt]
          exact hlifetime
        · exact absurd huser' hother
      rcases r.afterSave_eq settings uid pair with heq | heq | heq
      · rw [heq]
        exact hfresh
      · rw [heq]
        exact hfresh
      · rw [heq]
        exact trivial
  | register hsend hnext =>
      obtain ⟨hdb, -, hnow, -⟩ := World.send_frame hsend
      rcases hnext with rfl | rfl
      · show ∀ id row, w'.db.sessions.lookup id = some row → _
        rw [hdb, hnow]
        exact hupToDate
      · exact trivial
  | @purgeExpired uid pair =>
      refine List.eq_nil_iff_forall_not_mem.2 fun id hmem => ?_
      obtain ⟨row, hrow, hexpired⟩ := mem_sessionIds.1 hmem
      simp only [isExpiredSession, Bool.and_eq_true, beq_iff_eq, decide_eq_true_eq] at hexpired
      have hlater := hupToDate id row hrow hexpired.1
      omega

theorem RefreshStep.upToDate {r : RefreshRequest} {phase : RefreshPhase}
    (hupToDate : phase.UpToDate w r.token.sub) (hstep : RefreshStep settings p w r phase w' l') :
    l'.UpToDate settings w' := by
  cases hstep with
  | allowlist | reuse | save | respond => exact trivial
  | lock _ hcopy => split <;> exact hcopy
  | sign => split <;> first | exact trivial | exact hupToDate
  | rotate _ hsend =>
      show w'.db.users.lookup r.token.sub = some _
      rw [(World.send_frame hsend).1]
      exact hupToDate
  | lineage | rotateSkip => exact hupToDate
  | load hselect => exact ⟨hupToDate, selectSession_eq_some hselect⟩

theorem Step.upToDate (hcurrent : SessionsCurrent w) (hupToDate : l.UpToDate settings w)
    (hstep : Step settings p w l a w' l') : l'.UpToDate settings w' := by
  cases hstep with
  | begin hbegins => cases hbegins <;> exact trivial
  | tick | setRedis | reap | abort | error | commandError | postCommit | commandsDone | command =>
      exact trivial
  | @update r phase _ _ _ hupdate =>
      have hserves : (Local.update r phase).Serves settings w.db w.now (.update r) := ⟨rfl, hupToDate⟩
      exact Step.upToDate_of_serves hserves (.update (a := a) hupdate)
  | @delete r phase _ _ _ hdelete =>
      have hserves : (Local.delete r phase).Serves settings w.db w.now (.delete r) := ⟨rfl, hupToDate⟩
      exact Step.upToDate_of_serves hserves (.delete (a := a) hdelete)
  | @repair r phase _ _ _ hrepair =>
      have hserves : (Local.repair r phase).Serves settings w.db w.now (.repair r) := ⟨rfl, hupToDate⟩
      exact Step.upToDate_of_serves hserves (.repair (a := a) hrepair)
  | login hlogin => exact hlogin.upToDate hcurrent hupToDate
  | refresh hrefresh => exact hrefresh.upToDate hupToDate
  | @logout r _ _ _ _ hlogout =>
      cases hlogout with
      | refreshRevoke | refreshFailed | refreshSkip =>
          obtain ⟨phase, heq, -⟩ := r.finish_eq _ _
          rw [heq]
          exact trivial
      | _ => exact trivial
  | revokeSession hrevoke =>
      cases hrevoke with
      | load | purge => exact trivial
      | commit => split <;> exact trivial
  | revokeUser hrevoke =>
      cases hrevoke with
      | capture | purge => exact trivial
      | commit => split <;> exact trivial
  | deleteMe hdelete => cases hdelete <;> exact trivial
  | legacySweep hsweep => cases hsweep <;> exact trivial
  | drain hdrain => cases hdrain <;> exact trivial

/-! ### Runs of one request at a time -/

/-- Every step is of a process while all the others are idle. -/
def Serial (settings : Settings) : Interleaving.Config World Local → List (Pid × Action) → Prop :=
  (issuer settings).Along fun c move _ => ∀ q, q ≠ move.1 → c.locals q = .idle

/-- What holds in every state of a serial run. -/
def StatusInv (settings : Settings) : Interleaving.Config World Local → Prop :=
  Interleaving.Asserted (fun w => Grounded w ∧ SessionsCurrent w ∧ TombstonesFinal w.db) fun p w l =>
    Tracked settings p w l ∧ l.UpToDate settings w ∧ CopiesDrawn w l ∧ l.LogsOut settings w ∧
      NamesDoomed w l

theorem StatusInv.next {c c' : Interleaving.Config World Local} {move : Pid × Action}
    (hinv : StatusInv settings c) (hnext : (issuer settings).next c move = some c')
    (hserial : ∀ q, q ≠ move.1 → c.locals q = .idle) : StatusInv settings c' := by
  refine asserted_next hnext fun l' hstep => ?_
  obtain ⟨hgrounded, hcurrent, hfinal⟩ := hinv.shared
  obtain ⟨htracked, hupToDate, hdrawn, hlogsOut, -⟩ := hinv.locals move.1
  refine ⟨⟨hstep.grounded hgrounded htracked,
      hstep.sessionsCurrent hgrounded htracked hcurrent hupToDate,
      hstep.tombstonesFinal hgrounded.fresh hfinal hdrawn⟩,
    ⟨hstep.tracked hgrounded htracked, hstep.upToDate hcurrent hupToDate,
      hstep.copiesDrawn hgrounded.fresh hdrawn, hstep.logsOut hgrounded htracked hlogsOut,
      hstep.namesDoomed hlogsOut⟩, fun q hq => ?_⟩
  obtain ⟨htracked', -, hdrawn', -⟩ := hinv.locals q
  refine ⟨hstep.othersTracked hgrounded htracked hq htracked', ?_, hstep.othersCopiesDrawn hdrawn', ?_, ?_⟩
  · rw [hserial q hq]
    exact trivial
  · rw [hserial q hq]
    exact trivial
  · rw [hserial q hq]
    exact .idle _

theorem Starts.statusInv (settings : Settings) {c : Interleaving.Config World Local} (hstarts : Starts c)
    (hempty : c.shared.db.sessions = ∅) (hfinal : TombstonesFinal c.shared.db) :
    StatusInv settings c := by
  have hnone (id : SessionId) (row : ClientSession) : c.shared.db.sessions.lookup id ≠ some row := by
    rw [hempty]
    nofun
  refine ⟨⟨hstarts.grounded, ⟨?_, ?_, ?_, ?_⟩, hfinal⟩, fun p => ⟨hstarts.tracked p, ?_, ?_, ?_, ?_⟩⟩
  · exact fun id row hrow => absurd hrow (hnone id row)
  · exact fun id row hrow => absurd hrow (hnone id row)
  · exact fun id _ row _ hrow => absurd hrow (hnone id row)
  · exact fun id _ row _ hrow => absurd hrow (hnone id row)
  · rw [hstarts.idle p]
    exact trivial
  · rw [hstarts.idle p]
    intro uid copy hcopy
    cases hcopy
  · rw [hstarts.idle p]
    exact trivial
  · rw [hstarts.idle p]
    exact .idle _

/-- The decision is active exactly for a session the user has, when its row is active and consistent. -/
theorem decideJtiStatus_active_iff_hasSession (hcurrent : SessionsCurrent w)
    (hfinal : TombstonesFinal w.db) {jti : Jti} {uid : UserId} :
    (decideJtiStatus w.db jti uid).active = true ↔ HasSession w uid jti ∧
      ∃ owner, w.db.users.lookup uid = some owner ∧ owner.isActive = true ∧
        privilegeClaimsAreConsistent owner.role owner.isSuperuser = true := by
  rw [decideJtiStatus_active_iff]
  constructor
  · rintro ⟨-, id, row, owner, hfound, -, huser, howner, hactive, hconsistent, -⟩
    obtain ⟨hrow, hjti⟩ := sessionByJti_eq_some hfound
    exact ⟨⟨id, row, hrow, huser, hjti⟩, owner, howner, hactive, hconsistent⟩
  · rintro ⟨⟨id, row, hrow, rfl, hjti⟩, owner, howner, hactive, hconsistent⟩
    refine ⟨?_, id, row, owner, ?_, hcurrent.unrevoked id row hrow, rfl, howner, hactive, hconsistent, ?_⟩
    · cases htombstone : w.db.tombstones.lookup row.userId with
      | none => rfl
      | some tombstone =>
          rw [(hfinal _ tombstone htombstone).2] at howner
          cases howner
    · cases hfound : sessionByJti w.db jti with
      | none => exact absurd hjti (sessionByJti_eq_none_iff.1 hfound id row hrow)
      | some found =>
          obtain ⟨hrow', hjti'⟩ := sessionByJti_eq_some hfound
          obtain rfl := hcurrent.distinct found.1 id found.2 row hrow' hrow (hjti'.trans hjti.symm)
          rw [← Option.some.inj (hrow'.symm.trans hrow)]
    · obtain ⟨owner', howner', hstamp⟩ := hcurrent.owned id row hrow
      rw [howner, Option.some.injEq] at howner'
      rw [hstamp, howner']

theorem sessionGenerationIsStale_of_active {db : Db} {jti : Jti} {uid : UserId}
    (hactive : (decideJtiStatus db jti uid).active = true) :
    sessionGenerationIsStale db jti uid = false := by
  obtain ⟨htombstone, id, row, owner, hfound, -, rfl, howner, hactive, -, hstamp⟩ :=
    decideJtiStatus_active_iff.1 hactive
  simp [sessionGenerationIsStale, subjectIsTombstoned, htombstone, hfound, howner, hactive, hstamp,
    isSessionGenerationStale]

/-- After a serial run from an empty session table, the status of an identifier is active exactly when it
belongs to the last session issued to the user, nothing has revoked that session since, and the user's row is
there, active and consistent. -/
theorem jti_status_exact (settings : Settings) {c c' : Interleaving.Config World Local}
    (hstarts : Starts c) (hempty : c.shared.db.sessions = ∅) (hfinal : TombstonesFinal c.shared.db)
    {schedule : List (Pid × Action)} (hserial : Serial settings c schedule)
    (hrun : (issuer settings).run c schedule = some c') (jti : Jti) (uid : UserId) :
    ((decideJtiStatus c'.shared.db jti uid).active = true ↔
      (issuer settings).Since
        (fun c move c' => IssuesSession c.shared c'.shared uid jti (c.locals move.1))
        (fun c move c' => (∃ issued, IssuesSession c.shared c'.shared uid issued (c.locals move.1)) ∨
          EffectiveRevocation c.shared c'.shared uid jti (c.locals move.1)) c schedule ∧
      ∃ owner, c'.shared.db.users.lookup uid = some owner ∧ owner.isActive = true ∧
        privilegeClaimsAreConsistent owner.role owner.isSuperuser = true) ∧
    ((decideJtiStatus c'.shared.db jti uid).active = true →
      sessionGenerationIsStale c'.shared.db jti uid = false) := by
  have hinv := hstarts.statusInv settings hempty hfinal
  have hfinalInv : StatusInv settings c' :=
    Interleaving.System.run_invariant (fun c move c' hinv hnext hok => hinv.next hnext hok) hinv hserial
      hrun
  have hnone : ¬ HasSession c.shared uid jti := by
    rintro ⟨id, row, hrow, -⟩
    rw [hempty] at hrow
    cases hrow
  have hsince := Interleaving.System.since_iff (fun c move c' hinv hnext hok => by
    obtain ⟨l', -, hstep⟩ := next_sound hnext
    obtain ⟨hgrounded, hcurrent, -⟩ := hinv.shared
    obtain ⟨htracked, hupToDate, -, -, hnamed⟩ := hinv.locals move.1
    exact ⟨hinv.next hnext hok, hstep.hasSession_iff hgrounded htracked hcurrent hupToDate hnamed uid jti⟩)
    hinv hserial hrun
  refine ⟨?_, sessionGenerationIsStale_of_active⟩
  rw [decideJtiStatus_active_iff_hasSession hfinalInv.shared.2.1 hfinalInv.shared.2.2, hsince]
  simp only [hnone, false_and, or_false]

theorem serial_of_one {p : Pid} {c : Interleaving.Config World Local} {schedule : List (Pid × Action)}
    (hidle : ∀ q, q ≠ p → c.locals q = .idle) (hone : ∀ move ∈ schedule, move.1 = p) :
    Serial settings c schedule := by
  have hmover : (issuer settings).Along (fun _ move _ => move.1 = p) c schedule :=
    Interleaving.System.along_of_mem fun move hmem _ _ => hone move hmem
  have hothers : (issuer settings).Along (fun c' _ _ => ∀ q, ¬ q = p → c'.locals q = c.locals q) c schedule :=
    Interleaving.System.along_unmoved hone
  refine Interleaving.System.along_mono ?_ (Interleaving.System.along_and hmover hothers)
  rintro c' move c'' ⟨rfl, hsame⟩ q hq
  rw [hsame q hq, hidle q hq]

end

/-- The reader logs in, becomes a writer, and logs in again. -/
def loginPromoteLogin : List (Pid × Action) :=
  firstLogin 0 ++
    ((0, .begin (.update ⟨⟨9, .superadmin⟩, 1, { role := some (some .writer) }⟩ .load)) ::
      List.replicate 8 (0, .proceed)) ++ firstLogin 0

/-- The second session is active because nothing has revoked it, and the first one is not. -/
theorem jti_status_exact_loginPromoteLogin :
    ∃ c', (issuer {}).run oneReader loginPromoteLogin = some c' ∧
      (issuer {}).Since
        (fun c move c' => IssuesSession c.shared c'.shared 1 1 (c.locals move.1))
        (fun c move c' => (∃ issued, IssuesSession c.shared c'.shared 1 issued (c.locals move.1)) ∨
          EffectiveRevocation c.shared c'.shared 1 1 (c.locals move.1)) oneReader loginPromoteLogin ∧
      (decideJtiStatus c'.shared.db 0 1).active = false := by
  have hruns : ((issuer {}).run oneReader loginPromoteLogin).map (fun c' =>
      ((decideJtiStatus c'.shared.db 1 1).active, (decideJtiStatus c'.shared.db 0 1).active))
      = some (true, false) := by
    decide +kernel
  obtain ⟨c', hrun, hresult⟩ := Option.map_eq_some_iff.1 hruns
  obtain ⟨hsecond, hfirst⟩ := Prod.mk.inj hresult
  have hone : ∀ move ∈ loginPromoteLogin, move.1 = 0 := by decide
  have hserial : Serial {} oneReader loginPromoteLogin :=
    serial_of_one (fun q _ => oneReader_starts.idle q) hone
  exact ⟨c', hrun, ((jti_status_exact {} oneReader_starts rfl oneReader_tombstonesFinal hserial hrun
    1 1).1.1 hsecond).1, hfirst⟩

end FaAuthM8

import FaAuthM8.Proof.Logout

/-!
# What a revocation names

A request that revokes sessions says which: those of a user, the one with an id or an identifier it was sent,
or those without a generation. It deletes the rows that its query has found, and locked, some statements
before it commits. At the time of the query those are the rows it names.
-/

namespace FaAuthM8

def Local.isLogin : Local → Bool
  | .login _ _ => true
  | _ => false

/-- The user whose sessions the request is about to revoke, all of them. -/
def Local.revokesUser : Local → Option UserId
  | .update r (.commit _ plan _ _ _) => if plan.authorizationChanged then some r.userId else none
  | .delete r (.commit _ _ _ _) => some r.userId
  | .repair r (.commit _ _ _) => some r.userId
  | .revokeUser r (.commit _ _) => some r.userId
  | .deleteMe r .commit => some r.token.sub
  | _ => none

/-- The identifier of the session that a logout ends: that of its two tokens, or, where they differ, the one
it has arrived at. -/
def LogoutRequest.revokedJti (r : LogoutRequest) (jti : Jti) : Jti :=
  if r.access.jti = r.refresh.jti then r.access.jti else jti

/-- The request is about to revoke the session with this row. -/
def Local.Names (id : SessionId) (row : ClientSession) : Local → Prop
  | .logout r (.accessCommit _) => row.jwtJti = r.access.jti
  | .logout r (.sessionCommit jti _ _) => row.jwtJti = r.revokedJti jti
  | .revokeSession r (.commit _ _) => id = r.sessionId
  | .legacySweep (.commit _) => row.authGeneration = none
  | _ => False

/-- The step from `w` to `w'` commits a revocation of all sessions of the user, or of a stored session with
this identifier. That it commits is read off the log, which has grown, and not off the rows. -/
inductive Revokes (w w' : World) (uid : UserId) (jti : Jti) (l : Local) : Prop
  | all (huser : l.revokesUser = some uid) (hcommits : w'.log ≠ w.log)
  | one {id : SessionId} {row : ClientSession} (hrow : w.db.sessions.lookup id = some row)
      (hjti : row.jwtJti = jti) (hnames : l.Names id row) (hcommits : w'.log ≠ w.log)

/-- The request is about to revoke the session with this row, or all sessions of its user. -/
def Local.NamesRow (id : SessionId) (row : ClientSession) (l : Local) : Prop :=
  l.revokesUser = some row.userId ∨ l.Names id row

/-- The request is about to delete exactly the rows it names. -/
def NamesDoomed (w : World) (l : Local) : Prop :=
  ∀ doomed, l.Dooms doomed → l.isLogin = false → ∀ id row, w.db.sessions.lookup id = some row →
    (id ∈ doomed ↔ l.NamesRow id row)

theorem NamesDoomed.idle (w : World) : NamesDoomed w .idle := by
  intro doomed hdooms
  cases hdooms

section

variable {settings : Settings} {p : Pid} {w w' : World} {l l' : Local} {a : Action}

theorem Presented.revokedJti {r : LogoutRequest} {jti : Jti} (hpresented : Presented r.access r.refresh jti) :
    r.revokedJti jti = jti := by
  rw [LogoutRequest.revokedJti]
  split
  · next hsame =>
      obtain rfl | rfl := hpresented
      · rfl
      · exact hsame
  · rfl

private theorem mem_ownedBy_iff {uid : UserId} {id : SessionId} (huser : l.revokesUser = some uid)
    (hnone : ∀ row, ¬ l.Names id row) : id ∈ sessionIds w.db (ownedBy uid) ↔
      ∃ row, w.db.sessions.lookup id = some row ∧ l.NamesRow id row := by
  rw [mem_sessionIds]
  refine exists_congr fun row => and_congr_right fun _ => ?_
  rw [Local.NamesRow, huser, or_iff_left (hnone row), Option.some.injEq, ownedBy, beq_iff_eq, eq_comm]

private theorem mem_carries_iff {jti : Jti} {id : SessionId} (huser : l.revokesUser = none)
    (hnames : ∀ row, l.Names id row ↔ row.jwtJti = jti) : id ∈ sessionIds w.db (carries jti) ↔
      ∃ row, w.db.sessions.lookup id = some row ∧ l.NamesRow id row := by
  rw [mem_sessionIds]
  refine exists_congr fun row => and_congr_right fun _ => ?_
  rw [Local.NamesRow, huser, hnames, carries, beq_iff_eq]
  simp

/-- The query of a revocation locks the rows that the request names. -/
theorem Step.locksDoomed (hlogsOut : l.LogsOut settings w) (hstep : Step settings p w l a w' l')
    (hlogin : l'.isLogin = false) {doomed : List SessionId} (hdooms : l'.Dooms doomed) :
    w' = w.lockSessions p doomed ∧
      ∀ id, id ∈ doomed ↔ ∃ row, w.db.sessions.lookup id = some row ∧ l'.NamesRow id row := by
  cases hstep with
  | begin hbegins => cases hbegins <;> cases hdooms
  | tick | setRedis | reap | abort | error | commandError | postCommit | commandsDone | command =>
      cases hdooms
  | update hstep =>
      cases hstep with
      | purge =>
          cases hdooms with
          | update hchanged => exact ⟨rfl, fun id => mem_ownedBy_iff (if_pos hchanged) fun _ hnames => hnames⟩
      | applyUnchanged hplan hunchanged =>
          cases hdooms with
          | update hchanged =>
              rw [hunchanged] at hchanged
              cases hchanged
      | _ => cases hdooms
  | delete hstep =>
      cases hstep with
      | purge =>
          cases hdooms
          exact ⟨rfl, fun id => mem_ownedBy_iff rfl fun _ hnames => hnames⟩
      | _ => cases hdooms
  | repair hstep =>
      cases hstep with
      | purge =>
          cases hdooms
          exact ⟨rfl, fun id => mem_ownedBy_iff rfl fun _ hnames => hnames⟩
      | _ => cases hdooms
  | login hstep =>
      cases hstep with
      | respond => cases hdooms
      | _ => cases hlogin
  | refresh hstep => cases hstep <;> cases hdooms
  | @logout r _ _ _ _ hstep =>
      cases hstep with
      | accessPurge =>
          cases hdooms
          exact ⟨rfl, fun id => mem_carries_iff rfl fun row => Iff.rfl⟩
      | refreshRevoke | refreshFailed | refreshSkip =>
          obtain ⟨phase, heq, ⟨-, rfl⟩ | ⟨jti, -, rfl⟩⟩ := r.finish_eq _ _ <;>
          · rw [heq] at hdooms
            cases hdooms
      | sessionPurge =>
          cases hdooms
          have hpresented := hlogsOut.2.2
          refine ⟨rfl, fun id => mem_carries_iff rfl fun row => ?_⟩
          rw [Local.Names, hpresented.revokedJti]
      | _ => cases hdooms
  | @revokeSession r _ _ _ _ hstep =>
      cases hstep with
      | load => cases hdooms
      | @purge row doomed hdoomed =>
          cases hdooms
          refine ⟨rfl, fun id => ?_⟩
          constructor
          · intro hmem
            rw [hdoomed] at hmem
            split at hmem
            · next hsome =>
                obtain rfl := List.mem_singleton.1 hmem
                obtain ⟨row', hrow'⟩ := Option.isSome_iff_exists.1 hsome
                exact ⟨row', hrow', .inr rfl⟩
            · cases hmem
          · rintro ⟨row', hrow', huser | rfl⟩
            · cases huser
            · rw [hdoomed, if_pos (by rw [hrow']; rfl)]
              exact List.mem_singleton_self _
      | commit => split at hdooms <;> cases hdooms
  | revokeUser hstep =>
      cases hstep with
      | capture => cases hdooms
      | purge =>
          cases hdooms
          exact ⟨rfl, fun id => mem_ownedBy_iff rfl fun _ hnames => hnames⟩
      | commit => split at hdooms <;> cases hdooms
  | deleteMe hstep => cases hstep <;> cases hdooms
  | legacySweep hstep =>
      cases hstep with
      | purge =>
          cases hdooms
          refine ⟨rfl, fun id => ?_⟩
          rw [mem_sessionIds]
          simp [Local.NamesRow, Local.revokesUser, Local.Names]
      | commit => cases hdooms
  | drain hstep => cases hstep <;> cases hdooms

theorem Step.namesDoomed (hlogsOut : l.LogsOut settings w) (hstep : Step settings p w l a w' l') :
    NamesDoomed w' l' := by
  intro doomed hdooms hlogin id row hrow
  obtain ⟨rfl, hmem⟩ := hstep.locksDoomed hlogsOut hlogin hdooms
  rw [hmem]
  constructor
  · rintro ⟨row', hrow', hnames⟩
    obtain rfl := Option.some.inj (hrow.symm.trans hrow')
    exact hnames
  · exact fun hnames => ⟨row, hrow, hnames⟩

theorem World.committed_log_ne {db' : Db} {event : Event} {events : List Event} :
    (w.committed p db' (event :: events)).log ≠ w.log := by
  intro heq
  have hlength := congrArg List.length heq
  simp only [World.committed, List.cons_append, List.length_cons, List.length_append] at hlength
  omega

/-- A request that has locked the rows it is about to delete is rolled back, or it deletes them and has this
recorded, unless it is a login that tidies up. -/
theorem Step.deletion (hfresh : w.db.IdsFresh) (hstep : Step settings p w l a w' l') {doomed : List SessionId}
    (hdooms : l.Dooms doomed) : (w'.db = w.db ∧ w'.log = w.log) ∨
      (∀ id row, w'.db.sessions.lookup id = some row → w.db.sessions.lookup id = some row ∧ id ∉ doomed) ∧
        (l.isLogin = false → w'.log ≠ w.log) := by
  have hdeleted (hsessions : w'.db.sessions = (w.db.deleteSessions doomed).sessions) (id : SessionId)
      (row : ClientSession) (hrow : w'.db.sessions.lookup id = some row) :
      w.db.sessions.lookup id = some row ∧ id ∉ doomed := by
    rwa [hsessions, Db.lookup_deleteSessions] at hrow
  cases hdooms with
  | update hchanged =>
      cases hstep with
      | abort | error => exact .inl ⟨rfl, rfl⟩
      | update hupdate =>
          cases hupdate with
          | commit _ hcommit =>
              refine .inr ⟨hdeleted ((commit_updateWrites hfresh hcommit).revoked hchanged).sessions, fun _ => ?_⟩
              rw [if_pos hchanged]
              exact World.committed_log_ne
  | delete =>
      cases hstep with
      | abort | error => exact .inl ⟨rfl, rfl⟩
      | delete hdelete =>
          cases hdelete with
          | commit hcommit =>
              refine .inr ⟨fun id row hrow => ?_, fun _ => World.committed_log_ne⟩
              simp only [World.committed] at hrow
              rw [(commit_deletionWrites hcommit).sessions, Db.lookup_deleteUser_sessions,
                Db.lookup_deleteSessions] at hrow
              exact hrow.1
  | repair =>
      cases hstep with
      | abort | error => exact .inl ⟨rfl, rfl⟩
      | repair hrepair =>
          cases hrepair with
          | commit hcommit =>
              have hsessions := (commit_repairWrites hfresh hcommit).revoked.sessions
              exact .inr ⟨hdeleted hsessions, fun _ => World.committed_log_ne⟩
  | login =>
      cases hstep with
      | abort | error => exact .inl ⟨rfl, rfl⟩
      | login hlogin =>
          cases hlogin with
          | purgeCommit => exact .inr ⟨hdeleted rfl, nofun⟩
  | logoutAccess =>
      cases hstep with
      | abort | error => exact .inl ⟨rfl, rfl⟩
      | logout hlogout =>
          cases hlogout with
          | accessCommit => exact .inr ⟨hdeleted rfl, fun _ => World.committed_log_ne⟩
  | logoutSession =>
      cases hstep with
      | abort | error => exact .inl ⟨rfl, rfl⟩
      | logout hlogout =>
          cases hlogout with
          | sessionCommit => exact .inr ⟨hdeleted rfl, fun _ => World.committed_log_ne⟩
  | legacySweep =>
      cases hstep with
      | abort | error => exact .inl ⟨rfl, rfl⟩
      | legacySweep hsweep =>
          cases hsweep with
          | commit => exact .inr ⟨hdeleted rfl, fun _ => World.committed_log_ne⟩
  | revokeSession =>
      cases hstep with
      | abort | error => exact .inl ⟨rfl, rfl⟩
      | revokeSession hrevoke =>
          cases hrevoke with
          | commit hcommit =>
              have hsessions := (revokeSession_deletion hcommit).sessions
              exact .inr ⟨hdeleted hsessions, fun _ => World.committed_log_ne⟩
  | revokeUser =>
      cases hstep with
      | abort | error => exact .inl ⟨rfl, rfl⟩
      | revokeUser hrevoke =>
          cases hrevoke with
          | commit hcommit =>
              have hsessions := (revokeUser_deletion hcommit).sessions
              exact .inr ⟨hdeleted hsessions, fun _ => World.committed_log_ne⟩

theorem Step.erasure (hstep : Step settings p w l a w' l') {uid : UserId} (herases : l.Erases uid) :
    (w'.db = w.db ∧ w'.log = w.log) ∨ NoSession w' uid ∧ w'.log ≠ w.log := by
  cases herases with
  | delete huser =>
      subst huser
      cases hstep with
      | abort | error => exact .inl ⟨rfl, rfl⟩
      | delete hdelete =>
          cases hdelete with
          | commit hcommit =>
              refine .inr ⟨fun id row hrow => ?_, World.committed_log_ne⟩
              simp only [World.committed] at hrow
              rw [(commit_deletionWrites hcommit).sessions, Db.lookup_deleteUser_sessions] at hrow
              exact hrow.2
  | deleteMe huser =>
      subst huser
      cases hstep with
      | abort | error => exact .inl ⟨rfl, rfl⟩
      | deleteMe hdelete =>
          cases hdelete with
          | commit =>
              exact .inr ⟨fun id row hrow => (Db.lookup_deleteUser_sessions.1 hrow).2, World.committed_log_ne⟩

theorem Local.Erases.revokesUser {uid : UserId} (herases : l.Erases uid) : l.revokesUser = some uid := by
  cases herases with
  | delete huser => exact congrArg some huser
  | deleteMe huser => exact congrArg some huser

theorem Local.dooms_or_erases {uid : UserId} (huser : l.revokesUser = some uid) :
    (l.isLogin = false ∧ ∃ doomed, l.Dooms doomed) ∨ l.Erases uid := by
  cases l with
  | update r phase =>
      cases phase with
      | commit copy plan revision targets doomed =>
          rw [Local.revokesUser, Option.ite_none_right_eq_some] at huser
          exact .inl ⟨rfl, doomed, .update huser.1⟩
      | _ => cases huser
  | delete r phase =>
      cases phase with
      | commit => exact .inl ⟨rfl, _, .delete⟩
      | _ => cases huser
  | repair r phase =>
      cases phase with
      | commit => exact .inl ⟨rfl, _, .repair⟩
      | _ => cases huser
  | revokeUser r phase =>
      cases phase with
      | commit => exact .inl ⟨rfl, _, .revokeUser⟩
      | _ => cases huser
  | deleteMe r phase =>
      cases phase with
      | commit => exact .inr (.deleteMe (Option.some.inj huser))
      | _ => cases huser
  | _ => cases huser

theorem Local.Names.dooms {id : SessionId} {row : ClientSession} (hnames : l.Names id row) :
    l.isLogin = false ∧ ∃ doomed, l.Dooms doomed := by
  cases l with
  | logout r phase =>
      cases phase with
      | accessCommit => exact ⟨rfl, _, .logoutAccess⟩
      | sessionCommit => exact ⟨rfl, _, .logoutSession⟩
      | _ => cases hnames
  | revokeSession r phase =>
      cases phase with
      | commit => exact ⟨rfl, _, .revokeSession⟩
      | _ => cases hnames
  | legacySweep phase =>
      cases phase with
      | commit => exact ⟨rfl, _, .legacySweep⟩
      | _ => cases hnames
  | _ => cases hnames

theorem Step.noSession_of_revokesUser (hfresh : w.db.IdsFresh) (hnamed : NamesDoomed w l)
    (hstep : Step settings p w l a w' l') (hcommits : w'.log ≠ w.log) {uid : UserId}
    (huser : l.revokesUser = some uid) : NoSession w' uid := by
  obtain ⟨hlogin, doomed, hdooms⟩ | herases := Local.dooms_or_erases huser
  · obtain ⟨-, hlog⟩ | ⟨hspared, -⟩ := hstep.deletion hfresh hdooms
    · exact absurd hlog hcommits
    · rintro id row hrow rfl
      obtain ⟨hwas, hnot⟩ := hspared id row hrow
      exact hnot ((hnamed doomed hdooms hlogin id row hwas).2 (.inl huser))
  · obtain ⟨-, hlog⟩ | ⟨hnone, -⟩ := hstep.erasure herases
    · exact absurd hlog hcommits
    · exact hnone

theorem Step.carriedIn_of_names (hfresh : w.db.IdsFresh) (hnamed : NamesDoomed w l)
    (hstep : Step settings p w l a w' l') (hcommits : w'.log ≠ w.log) {id : SessionId} {row : ClientSession}
    (hrow : w.db.sessions.lookup id = some row) (hnames : l.Names id row)
    (hunique : ∀ id' row', w.db.sessions.lookup id' = some row' → row'.jwtJti = row.jwtJti → id' = id) :
    CarriedIn w' row.jwtJti [] := by
  obtain ⟨hlogin, doomed, hdooms⟩ := hnames.dooms
  intro id' row' hrow' hjti
  obtain ⟨-, hlog⟩ | ⟨hspared, -⟩ := hstep.deletion hfresh hdooms
  · exact absurd hlog hcommits
  · obtain ⟨hwas, hnot⟩ := hspared id' row' hrow'
    obtain rfl := hunique id' row' hwas hjti
    exact absurd ((hnamed doomed hdooms hlogin id' row hrow).2 (.inr hnames)) hnot

/-- A row stays as it is, unless the step saves it, or commits a revocation that names it. -/
theorem Step.row_kept (hfresh : w.db.IdsFresh) (hnamed : NamesDoomed w l) (hlogin : l.isLogin = false)
    (hstep : Step settings p w l a w' l') {id : SessionId} {row : ClientSession}
    (hrow : w.db.sessions.lookup id = some row) :
    w'.db.sessions.lookup id = some row ∨ (∃ row', SavesRow p w id row' l) ∨
      (w'.log ≠ w.log ∧ l.NamesRow id row) := by
  by_cases hkept : w'.db.sessions.lookup id = some row
  · exact .inl hkept
  · have hchanged : w'.db ≠ w.db := fun heq => hkept (heq ▸ hrow)
    have hrecorded {doomed : List SessionId} (hdooms : l.Dooms doomed) : w'.log ≠ w.log := by
      obtain ⟨hdb, -⟩ | ⟨-, hlog⟩ := hstep.deletion hfresh hdooms
      · exact absurd hdb hchanged
      · exact hlog hlogin
    right
    cases hstep.sessionsChange hfresh with
    | same hsessions => exact absurd (hsessions ▸ hrow) hkept
    | @saved id' row' hsaves hsessions =>
        rw [hsessions, Table.lookup_insert_eq] at hkept
        split at hkept
        · next hid => exact .inl ⟨row', hid ▸ hsaves⟩
        · exact absurd hrow hkept
    | @deleted doomed hdooms hsessions =>
        have hmem : id ∈ doomed := by
          by_contra hnot
          exact hkept ((hsessions id row).2 ⟨hrow, hnot⟩)
        exact .inr ⟨hrecorded hdooms, (hnamed doomed hdooms hlogin id row hrow).1 hmem⟩
    | @erased uid doomed herases hdoomed hsessions =>
        obtain ⟨hdb, -⟩ | ⟨-, hlog⟩ := hstep.erasure herases
        · exact absurd hdb hchanged
        · refine .inr ⟨hlog, ?_⟩
          by_cases hmem : id ∈ doomed
          · obtain hdooms | rfl := hdoomed
            · exact (hnamed doomed hdooms hlogin id row hrow).1 hmem
            · cases hmem
          · have huser : row.userId = uid := by
              by_contra hne
              exact hkept ((hsessions id row).2 ⟨⟨hrow, hmem⟩, hne⟩)
            exact .inl (huser ▸ herases.revokesUser)

end

end FaAuthM8

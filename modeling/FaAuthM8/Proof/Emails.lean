import FaAuthM8.System.Accounts
import FaAuthM8.System.Tables

/-!
# Finding an account by its e-mail

Every stored e-mail is in normal form and no two accounts have one normal form, whatever the history. The
routes that write an e-mail normalise it before they look it up; the login form and the Google callback look
theirs up as it came, so another spelling of a stored e-mail finds nothing.
-/

namespace FaAuthM8

open AccountRequest

/-- The e-mails of a user table: each in normal form, and each held once. -/
structure EmailsStored (rules : EmailRules) (users : Table UserId User) : Prop where
  storable : ∀ uid user, users.lookup uid = some user → rules.Storable user.email
  unique : ∀ uid user other row, users.lookup uid = some user → users.lookup other = some row →
    row.email = user.email → other = uid

/-- The write stores no e-mail that is not in normal form. -/
def Write.KeepsNormal (rules : EmailRules) : Write → Prop
  | insertUser user => rules.Storable user.email
  | updateUser _ loaded draft =>
      ∀ email, draft.email = some email → email = loaded.email ∨ rules.Storable email
  | _ => True

section

variable {rules : EmailRules} {settings : LoginSettings} {db db' : Db}

theorem Db.userConflicts_eq_false {uid other : UserId} {user row : User}
    (hfree : db.userConflicts uid user = false) (hne : other ≠ uid)
    (hrow : db.users.lookup other = some row) : row.email ≠ user.email := by
  have hnil : (db.users.rows fun other row => other != uid &&
      (row.email == user.email || (user.oauthUserId.isSome && row.oauthUserId == user.oauthUserId))) = [] := by
    simpa [Db.userConflicts] using hfree
  have hall := Table.rows_eq_nil_iff.1 hnil other row hrow
  intro hemail
  simp [hne, hemail] at hall

theorem EmailsStored.putUser {uid : UserId} {user : User} (hstored : EmailsStored rules db.users)
    (huser : rules.Storable user.email) (hput : db.putUser uid user = .ok db') :
    EmailsStored rules db'.users := by
  obtain ⟨-, hfree, rfl⟩ := Db.putUser_eq_ok.1 hput
  constructor
  · intro other row hrow
    rw [Table.lookup_insert_eq] at hrow
    split at hrow
    · obtain rfl := Option.some.inj hrow
      exact huser
    · exact hstored.storable other row hrow
  · intro one first other second hfirst hsecond hemail
    rw [Table.lookup_insert_eq] at hfirst hsecond
    split at hfirst
    · next hone =>
        obtain rfl := Option.some.inj hfirst
        split at hsecond
        · next hother => rw [hone, hother]
        · next hother => exact absurd hemail (Db.userConflicts_eq_false hfree hother hsecond)
    · next hone =>
        split at hsecond
        · obtain rfl := Option.some.inj hsecond
          exact absurd hemail.symm (Db.userConflicts_eq_false hfree hone hfirst)
        · exact hstored.unique one first other second hfirst hsecond hemail

theorem EmailsStored.erase {users : Table UserId User} (hstored : EmailsStored rules users) (uid : UserId) :
    EmailsStored rules (users.erase uid) := by
  have hkept : ∀ other row, (users.erase uid).lookup other = some row → users.lookup other = some row := by
    intro other row hrow
    rw [Table.lookup_erase_eq] at hrow
    split at hrow
    · cases hrow
    · exact hrow
  constructor
  · intro other row hrow
    exact hstored.storable other row (hkept other row hrow)
  · intro one first other second hfirst hsecond
    exact hstored.unique one first other second (hkept one first hfirst) (hkept other second hsecond)

theorem UserDraft.saveOver_email {draft : UserDraft} {loaded current user : User}
    (hsave : draft.saveOver loaded current = .ok user) :
    user.email = current.email ∨ (draft.email = some user.email ∧ user.email ≠ loaded.email) := by
  obtain ⟨email, role, hemail, -, -, -, -, -, hstored⟩ := UserDraft.saveOver_eq_ok hsave
  by_cases hsame : email = loaded.email
  · left
    rw [hstored, hsame, Column.writeBack_same]
  · right
    rw [Column.writeBack_of_ne hsame] at hstored
    rw [hemail, hstored]
    exact ⟨rfl, hsame⟩

theorem Write.apply_emailsStored {write : Write} (hstored : EmailsStored rules db.users)
    (hkeeps : write.KeepsNormal rules) (happly : write.apply db = .ok db') : EmailsStored rules db'.users := by
  cases write with
  | insertUser user =>
      have hinsert : db.insertUser user = .ok db' := happly
      rw [Db.insertUser] at hinsert
      cases hput : db.putUser db.nextUserId user with
      | error e => simp [hput, Except.map] at hinsert
      | ok put =>
          have hsame : { put with nextUserId := db.nextUserId + 1 } = db' := by
            simpa [hput, Except.map] using hinsert
          rw [← hsame]
          show EmailsStored rules put.users
          exact hstored.putUser hkeeps hput
  | updateUser uid loaded draft =>
      obtain ⟨-, rfl⟩ | ⟨current, user, hcurrent, hsave, hput⟩ := Db.updateUser_eq_ok happly
      · exact hstored
      · refine hstored.putUser ?_ hput
        obtain hkept | ⟨hnew, hne⟩ := UserDraft.saveOver_email hsave
        · rw [hkept]
          exact hstored.storable uid current hcurrent
        · exact (hkeeps user.email hnew).resolve_left hne
  | setRole uid role isSuperuser generation =>
      obtain ⟨-, rfl⟩ | ⟨current, hcurrent, hput⟩ := Db.setRole_eq_ok happly
      · exact hstored
      · refine hstored.putUser ?_ hput
        exact hstored.storable uid current hcurrent
  | deleteUser uid =>
      rw [← Except.ok.inj happly]
      exact hstored.erase uid
  | insertSession | updateSession | deleteSessions | insertOutbox | updateOutbox | reapOutbox
  | raiseTombstone | revokeUserKeys | setPolicyRevision | appendAudit =>
      rw [(Write.apply_frame happly).users rfl]
      exact hstored

theorem commit_emailsStored {writes : List Write} (hstored : EmailsStored rules db.users)
    (hkeeps : ∀ write ∈ writes, write.KeepsNormal rules) (hcommit : commit writes db = .ok db') :
    EmailsStored rules db'.users := by
  apply commit_rel (R := fun a b => EmailsStored rules a.users → EmailsStored rules b.users) _ _ hcommit _ hstored
  · exact fun _ h => h
  · exact fun _ _ _ hab hbc h => hbc (hab h)
  · exact fun write hmem _ _ happly h => Write.apply_emailsStored h (hkeeps write hmem) happly

/-- A request that succeeds commits one transaction at most, and the e-mails that one writes are in normal
form. -/
def Normalised (rules : EmailRules) (db db' : Db) : Prop :=
  db' = db ∨ ∃ writes, commit writes db = .ok db' ∧ ∀ write ∈ writes, write.KeepsNormal rules

theorem writing_normalised {writes : List Write} (hwriting : writing writes db = .ok db')
    (hkeeps : ∀ write ∈ writes, write.KeepsNormal rules) : Normalised rules db db' := by
  rw [writing] at hwriting
  split at hwriting
  · next committed hcommit =>
      obtain rfl := Except.ok.inj hwriting
      exact .inr ⟨writes, hcommit, hkeeps⟩
  · cases hwriting

theorem ok_of_refused {refused : Prop} [Decidable refused] {e : RequestError} {rest : Except RequestError Db}
    (hok : (if refused then .error e else rest) = .ok db') : rest = .ok db' := by
  split at hok
  · cases hok
  · exact hok

theorem insertUser_normalised {user : User} (hstorable : rules.Storable user.email)
    (hwriting : writing [.insertUser user] db = .ok db') : Normalised rules db db' := by
  apply writing_normalised hwriting
  intro write hmem
  obtain rfl := List.mem_singleton.1 hmem
  exact hstorable

theorem buildUser_storable (hlawful : rules.Lawful) {userCreate : UserCreate} {user : User}
    (hbuilt : buildUser settings.toSettings rules userCreate = some user) : rules.Storable user.email := by
  rw [buildUser.eq_def] at hbuilt
  split at hbuilt
  · cases hbuilt
  · obtain ⟨email, hemail, rfl⟩ := Option.map_eq_some_iff.1 hbuilt
    exact EmailRules.validateBoundedEmail_storable hlawful hemail

theorem createUser_normalised (hlawful : rules.Lawful) {userCreate : UserCreate}
    (hcreated : createUser settings.toSettings rules userCreate db = .ok db') : Normalised rules db db' := by
  rw [createUser] at hcreated
  split at hcreated
  · cases hcreated
  · next user hbuilt => exact insertUser_normalised (buildUser_storable hlawful hbuilt) hcreated

theorem createAudited_normalised (hlawful : rules.Lawful) {actor : Actor} {userCreate : UserCreate}
    (hcreated : createAudited settings.toSettings rules actor userCreate db = .ok db') :
    Normalised rules db db' := by
  rw [createAudited] at hcreated
  split at hcreated
  · cases hcreated
  · next user hbuilt =>
      apply writing_normalised hcreated
      simp only [List.forall_mem_cons, List.not_mem_nil, IsEmpty.forall_iff, implies_true, and_true]
      exact ⟨buildUser_storable hlawful hbuilt, trivial⟩

theorem initialUserDb_normalised (hlawful : rules.Lawful) {firstSuperuser password : String}
    (hseeded : initialUserDb settings.toSettings rules firstSuperuser password db = .ok db') :
    Normalised rules db db' := by
  simp only [initialUserDb] at hseeded
  split at hseeded
  · exact .inl (Except.ok.inj hseeded).symm
  · split at hseeded
    · cases hseeded
    · exact createUser_normalised hlawful hseeded

theorem createNewUserWithPassword_normalised (hlawful : rules.Lawful) {actor : Actor} {userIn : UserCreate}
    (hcreated : createNewUserWithPassword settings.toSettings rules actor userIn db = .ok db') :
    Normalised rules db db' := by
  rw [createNewUserWithPassword] at hcreated
  split at hcreated
  · cases hcreated
  · exact createAudited_normalised hlawful (ok_of_refused hcreated)

theorem registerUser_normalised (hlawful : rules.Lawful) {actor : Actor} {userIn : UserRegister}
    (hcreated : registerUser settings.toSettings rules actor userIn db = .ok db') : Normalised rules db db' := by
  simp only [registerUser] at hcreated
  split at hcreated
  · cases hcreated
  · have hnew := ok_of_refused hcreated
    split at hnew
    · cases hnew
    · exact createAudited_normalised hlawful hnew

theorem createPrivateUser_normalised (hlawful : rules.Lawful) {userIn : PrivateUserCreate}
    (hcreated : createPrivateUser settings.toSettings rules userIn db = .ok db') : Normalised rules db db' := by
  rw [createPrivateUser] at hcreated
  split at hcreated
  · cases hcreated
  · next email hemail =>
      have hstorable := EmailRules.validateEmail_storable hlawful hemail
      exact insertUser_normalised hstorable (ok_of_refused hcreated)

theorem getOrCreateUser_normalised (hlawful : rules.Lawful) {token : OAuthGoogleToken} {uid : UserId}
    {user : User} (hgot : getOrCreateUser settings.toSettings rules token db = .ok (db', uid, user)) :
    Normalised rules db db' := by
  simp only [getOrCreateUser] at hgot
  split at hgot
  · next found hfound =>
      have hsame : db = db' := congrArg Prod.fst (Except.ok.inj hgot)
      exact .inl hsame.symm
  · split at hgot
    · cases hgot
    · split at hgot
      · cases hgot
      · next created hcreated =>
          split at hgot
          · cases hgot
          · have hsame : created = db' := congrArg Prod.fst (Except.ok.inj hgot)
            exact hsame ▸ createUser_normalised hlawful hcreated

/-- The e-mail an admin update leaves in memory is the loaded one or the one of the payload. -/
theorem planUpdate_email {dbUser : User} {userIn : UserUpdate} {plan : UpdatePlan}
    (hplan : planUpdate settings.toSettings dbUser userIn = .ok plan) :
    plan.draft.email = userIn.email.getD (some dbUser.email) := by
  simp only [planUpdate] at hplan
  cases happlied : applyUserUpdate settings.toSettings dbUser.draft userIn with
  | error e => simp [happlied, bind, Except.bind] at hplan
  | ok applied =>
      have hemail : applied.email = userIn.email.getD (some dbUser.email) := by
        rw [applyUserUpdate] at happlied
        split at happlied
        · cases happlied
        · obtain rfl := Except.ok.inj happlied
          rfl
      simp only [happlied, bind, Except.bind] at hplan
      generalize hdraft : (if (resolveUpdateIntent dbUser userIn).activeRequested = true then
        { applied with isActive := (resolveUpdateIntent dbUser userIn).intendedActive }
        else applied) = draft at hplan
      have hsame : draft.email = applied.email := by
        rw [← hdraft]
        split <;> rfl
      rw [← hemail, ← hsame]
      split at hplan
      · cases hnext : nextGeneration draft.authGeneration with
        | error e => simp [hnext] at hplan
        | ok generation =>
            simp only [hnext] at hplan
            rw [← Except.ok.inj hplan]
      · rw [← Except.ok.inj hplan]

theorem keepsNormal_update (hlawful : rules.Lawful) {uid : UserId} {dbUser : User} {draft : UserDraft}
    {sent checked : Option (Option String)} (hchecked : rules.validateEmailUpdate sent = some checked)
    (hdraft : draft.email = checked.getD (some dbUser.email)) :
    (Write.updateUser uid dbUser draft).KeepsNormal rules := by
  intro email hemail
  rw [hdraft] at hemail
  cases hnew : checked with
  | none =>
      rw [hnew, Option.getD_none] at hemail
      exact .inl (Option.some.inj hemail).symm
  | some new =>
      rw [hnew, Option.getD_some] at hemail
      rw [hemail] at hnew
      exact .inr (EmailRules.validateEmailUpdate_storable hlawful hchecked hnew)

theorem updateWrites_keepsNormal {actor : Actor} {uid : UserId} {dbUser : User} {plan : UpdatePlan}
    {targets : List RevocationTarget} {doomed : List SessionId} {revision : Option Nat} {now : Int}
    (hupdate : (Write.updateUser uid dbUser plan.draft).KeepsNormal rules) :
    ∀ write ∈ updateWrites actor uid dbUser plan targets doomed revision now, write.KeepsNormal rules := by
  have hrevoke : ∀ write ∈ (if plan.authorizationChanged then
      .deleteSessions doomed ::
        (enqueueRoleChangeEffects uid plan.draft.authGeneration targets now).map .insertOutbox
      else [] : List Write), write.KeepsNormal rules := by
    intro write hmem
    split at hmem
    · obtain rfl | hmem := List.mem_cons.1 hmem
      · trivial
      · obtain ⟨row, -, rfl⟩ := List.mem_map.1 hmem
        trivial
    · cases hmem
  have hkeys : ∀ write ∈ (if plan.intent.deactivated then [.revokeUserKeys uid] else [] : List Write),
      write.KeepsNormal rules := by
    intro write hmem
    split at hmem
    · obtain rfl := List.mem_singleton.1 hmem
      trivial
    · cases hmem
  intro write hmem
  simp only [updateWrites, List.mem_cons, List.mem_append, List.mem_map, Option.mem_toList,
    List.not_mem_nil, or_false] at hmem
  obtain rfl | hmem | (hmem | ⟨current, -, rfl⟩) | rfl := hmem
  · exact hupdate
  · exact hrevoke write hmem
  · exact hkeys write hmem
  · trivial
  · trivial

theorem changeUserAuthorization_eq_ok {actor : Actor} {uid : UserId} {dbUser : User} {userIn : UserUpdate}
    {now : Int}
    (hupdated : changeUserAuthorization settings.toSettings actor uid dbUser userIn now db = .ok db') :
    ∃ plan targets doomed revision, planUpdate settings.toSettings dbUser userIn = .ok plan ∧
      writing (updateWrites actor uid dbUser plan targets doomed revision now) db = .ok db' := by
  simp only [changeUserAuthorization] at hupdated
  split at hupdated
  · cases hupdated
  · split at hupdated
    · cases hupdated
    · split at hupdated
      · cases hupdated
      · next plan hplan => exact ⟨plan, _, _, _, hplan, hupdated⟩

theorem UserUpdate.validate_email {userIn checked : UserUpdate} (hvalid : userIn.validate rules = some checked) :
    rules.validateEmailUpdate userIn.email = some checked.email := by
  rw [UserUpdate.validate] at hvalid
  split at hvalid
  · obtain ⟨email, hemail, rfl⟩ := Option.map_eq_some_iff.1 hvalid
    exact hemail
  · cases hvalid

theorem updateCurrentUser_normalised (hlawful : rules.Lawful) {actor : Actor} {uid : UserId}
    {userIn : UserUpdate} {now : Int}
    (hupdated : updateCurrentUser settings.toSettings rules actor uid userIn now db = .ok db') :
    Normalised rules db db' := by
  rw [updateCurrentUser] at hupdated
  split at hupdated
  · cases hupdated
  · next checked hvalid =>
      split at hupdated
      · cases hupdated
      · next dbUser hlookup =>
          split at hupdated
          · cases hupdated
          · obtain ⟨plan, targets, doomed, revision, hplan, hwriting⟩ := changeUserAuthorization_eq_ok hupdated
            apply writing_normalised hwriting
            apply updateWrites_keepsNormal
            exact keepsNormal_update hlawful (UserUpdate.validate_email hvalid) (planUpdate_email hplan)

theorem updateUserMe_normalised (hlawful : rules.Lawful) {uid : UserId} {userIn : UserUpdateMe}
    (hupdated : updateUserMe rules uid userIn db = .ok db') : Normalised rules db db' := by
  simp only [updateUserMe] at hupdated
  split at hupdated
  · cases hupdated
  · next checked hvalid =>
      split at hupdated
      · cases hupdated
      · split at hupdated
        · cases hupdated
        · next dbUser hlookup =>
            obtain ⟨email, hemail, rfl⟩ := Option.map_eq_some_iff.1 hvalid
            apply writing_normalised hupdated
            intro write hmem
            obtain rfl := List.mem_singleton.1 hmem
            exact keepsNormal_update hlawful hemail rfl

theorem handle_normalised (hlawful : rules.Lawful) {request : AccountRequest}
    (hhandled : request.handle settings.toSettings rules db = .ok db') : Normalised rules db db' := by
  cases request with
  | seed firstSuperuser password => exact initialUserDb_normalised hlawful hhandled
  | newUser actor userIn => exact createNewUserWithPassword_normalised hlawful hhandled
  | signup actor userIn => exact registerUser_normalised hlawful hhandled
  | privateUser userIn => exact createPrivateUser_normalised hlawful hhandled
  | googleCallback token =>
      rw [handle] at hhandled
      cases hgot : getOrCreateUser settings.toSettings rules token db with
      | error e => simp [hgot, Except.map] at hhandled
      | ok got =>
          obtain ⟨created, uid, user⟩ := got
          obtain rfl : created = db' := by simpa [hgot, Except.map] using hhandled
          exact getOrCreateUser_normalised hlawful hgot
  | update actor uid userIn now => exact updateCurrentUser_normalised hlawful hhandled
  | updateMe uid userIn => exact updateUserMe_normalised hlawful hhandled

theorem serve_emailsStored (hlawful : rules.Lawful) (request : AccountRequest) (hfresh : db.IdsFresh)
    (hstored : EmailsStored rules db.users) :
    (serve settings.toSettings rules db request).IdsFresh ∧
      EmailsStored rules (serve settings.toSettings rules db request).users := by
  rw [serve]
  split
  · next db' hhandled =>
      obtain rfl | ⟨writes, hcommit, hkeeps⟩ := handle_normalised hlawful hhandled
      · exact ⟨hfresh, hstored⟩
      · exact ⟨commit_idsFresh hfresh hcommit, commit_emailsStored hstored hkeeps hcommit⟩
  · exact ⟨hfresh, hstored⟩

theorem serveAll_emailsStored (hlawful : rules.Lawful) (requests : List AccountRequest)
    (hfresh : db.IdsFresh) (hstored : EmailsStored rules db.users) :
    (serveAll settings.toSettings rules requests db).IdsFresh ∧
      EmailsStored rules (serveAll settings.toSettings rules requests db).users := by
  induction requests generalizing db with
  | nil => exact ⟨hfresh, hstored⟩
  | cons request requests ih =>
      obtain ⟨hfresh', hstored'⟩ := serve_emailsStored hlawful request hfresh hstored
      exact ih hfresh' hstored'

/-- Among stored e-mails a lookup by e-mail finds the one account that has it. -/
theorem getUserByEmail_iff (hstored : EmailsStored rules db.users) {email : String} {uid : UserId}
    {user : User} : getUserByEmail db email = some (uid, user) ↔
      db.users.lookup uid = some user ∧ user.email = email := by
  constructor
  · exact getUserByEmail_eq_some
  · intro ⟨huser, hemail⟩
    cases hfound : getUserByEmail db email with
    | none =>
        have hnone := Table.first_eq_none_iff.1 hfound uid user huser
        simp [hemail] at hnone
    | some found =>
        obtain ⟨other, row⟩ := found
        obtain ⟨hrow, hsame⟩ := getUserByEmail_eq_some hfound
        obtain rfl := hstored.unique uid user other row huser hrow (by rw [hsame, hemail])
        rw [hrow] at huser
        rw [Option.some.inj huser]

/-- No two accounts have e-mails with one normal form. -/
def OnePerNormalForm (rules : EmailRules) (db : Db) : Prop :=
  ∀ uid user other row, db.users.lookup uid = some user → db.users.lookup other = some row →
    rules.normalizeEmail row.email = rules.normalizeEmail user.email → other = uid

/-- A password login with this username is a login to this account: it succeeds with its password. -/
def LoginSelects (settings : LoginSettings) (db : Db) (username : String) (uid : UserId) (user : User) : Prop :=
  ∀ password ip, '\x00' ∉ password.toList →
    settings.selectAccount db ⟨username, password, ip⟩ =
      .ok (if settings.verifyPassword password (user.storedHash.getD settings.dummyHash) then some (uid, user)
        else none)

/-- A Google callback with this e-mail is a login to this account, and creates none. -/
def CallbackSelects (settings : LoginSettings) (rules : EmailRules) (db : Db) (email : String) (uid : UserId)
    (user : User) : Prop :=
  ∀ token : OAuthGoogleToken, token.email = email →
    getOrCreateUser settings.toSettings rules token db = .ok (db, uid, user)

/-- The account stored under the normal form of the e-mail, if there is one, is the one both ways of signing
in select. -/
def FoundBy (settings : LoginSettings) (rules : EmailRules) (db : Db) (email : String) : Prop :=
  ∀ uid user, db.users.lookup uid = some user → user.email = rules.normalizeEmail email →
    LoginSelects settings db email uid user ∧ CallbackSelects settings rules db email uid user

theorem loginSelects_of_found {email : String} {uid : UserId} {user : User}
    (hexact : ∀ stored given, settings.sameEmail stored given = (stored == given))
    (hnul : '\x00' ∉ email.toList) (hfound : getUserByEmail db email = some (uid, user)) :
    LoginSelects settings db email uid user := by
  intro password ip hpassword
  have hclean : (LoginForm.mk email password ip).hasNul = false := by
    simp [LoginForm.hasNul, hnul, hpassword]
  have hsame : findUserByEmail settings.sameEmail db.users email = some (uid, user) := by
    rw [findUserByEmail_exact hexact, hfound]
  simp only [LoginSettings.selectAccount, authenticate, hclean, hsame, Option.bind_some,
    Bool.false_eq_true, if_false]

theorem callbackSelects_of_found {email : String} {uid : UserId} {user : User}
    (hfound : getUserByEmail db email = some (uid, user)) :
    CallbackSelects settings rules db email uid user := by
  intro token htoken
  rw [getOrCreateUser, htoken, hfound]

theorem found_of_callbackSelects {email : String} {uid : UserId} {user : User} (hfresh : db.IdsFresh)
    (huser : db.users.lookup uid = some user) (hselects : CallbackSelects settings rules db email uid user) :
    user.email = email := by
  have hgot := hselects ⟨"", 0, "", "", email, true, ""⟩ rfl
  simp only [getOrCreateUser] at hgot
  split at hgot
  · next found hfound =>
      have hsame : found = (uid, user) := congrArg Prod.snd (Except.ok.inj hgot)
      rw [hsame] at hfound
      exact (getUserByEmail_eq_some hfound).2
  · split at hgot
    · cases hgot
    · split at hgot
      · cases hgot
      · split at hgot
        · cases hgot
        · have hnew : db.nextUserId = uid := congrArg (·.2.1) (Except.ok.inj hgot)
          have hold := hfresh.users uid user huser
          rw [hnew] at hold
          exact absurd hold (Nat.lt_irrefl uid)

theorem foundBy_iff {email : String} (hfresh : db.IdsFresh) (hstored : EmailsStored rules db.users)
    (hexact : ∀ stored given, settings.sameEmail stored given = (stored == given)) :
    FoundBy settings rules db email ↔
      rules.normalizeEmail email = email ∨
        ∀ uid user, db.users.lookup uid = some user → user.email ≠ rules.normalizeEmail email := by
  constructor
  · intro hfoundBy
    by_cases hnone : ∀ uid user, db.users.lookup uid = some user → user.email ≠ rules.normalizeEmail email
    · exact .inr hnone
    · push Not at hnone
      obtain ⟨uid, user, huser, hemail⟩ := hnone
      have hselects := (hfoundBy uid user huser hemail).2
      rw [← hemail]
      exact .inl (found_of_callbackSelects hfresh huser hselects)
  · intro hcondition uid user huser hemail
    obtain hnormal | hnone := hcondition
    · rw [hnormal] at hemail
      have hfound := (getUserByEmail_iff hstored).2 ⟨huser, hemail⟩
      have hnul := (hstored.storable uid user huser).noNul
      rw [hemail] at hnul
      exact ⟨loginSelects_of_found hexact hnul hfound, callbackSelects_of_found hfound⟩
    · exact absurd hemail (hnone uid user huser)

theorem onePerNormalForm (hstored : EmailsStored rules db.users) : OnePerNormalForm rules db := by
  intro uid user other row huser hrow hnormal
  have hemail : row.email = user.email := by
    have hfirst : rules.normalizeEmail row.email = row.email := (hstored.storable other row hrow).normal
    have hsecond : rules.normalizeEmail user.email = user.email := (hstored.storable uid user huser).normal
    rw [← hfirst, hnormal, hsecond]
  exact hstored.unique uid user other row huser hrow hemail

/-- After any history of requests no two accounts have one normal form, and an e-mail finds the account
stored under its normal form exactly when it is written that way itself. -/
theorem accounts_found_iff (hlawful : rules.Lawful)
    (hexact : ∀ stored given, settings.sameEmail stored given = (stored == given))
    (requests : List AccountRequest) :
    OnePerNormalForm rules (serveAll settings.toSettings rules requests {}) ∧
      ∀ email, FoundBy settings rules (serveAll settings.toSettings rules requests {}) email ↔
        rules.normalizeEmail email = email ∨
          ∀ uid user, (serveAll settings.toSettings rules requests {}).users.lookup uid = some user →
            user.email ≠ rules.normalizeEmail email := by
  have hempty : ({} : Db).IdsFresh ∧ EmailsStored rules ({} : Db).users := by
    constructor
    · constructor <;> simp
    · constructor <;> simp
  have hreached : (serveAll settings.toSettings rules requests {}).IdsFresh ∧
      EmailsStored rules (serveAll settings.toSettings rules requests {}).users :=
    serveAll_emailsStored hlawful requests hempty.1 hempty.2
  exact ⟨onePerNormalForm hreached.2, fun email => foundBy_iff hreached.1 hreached.2 hexact⟩

end

/-- Settings under which e-mails are compared exactly. -/
def exactSettings : LoginSettings where
  isPrintable _ := true
  sameEmail stored given := stored == given

def bobToken : OAuthGoogleToken where
  accessToken := "access"
  expiresIn := 3600
  refreshToken := "refresh"
  userId := "bob"
  email := "Bob@Example.com"
  emailVerified := true
  name := "Bob"

/-- A service creates one account and the first Google login of an address another. -/
def mixedCaseRequests : List AccountRequest :=
  [.privateUser { email := " Ann@Example.com", password := "correct horse", fullName := "Ann" },
    .googleCallback bobToken]

/-- The accounts that `mixedCaseRequests` leaves. -/
def mixedCaseDb : Db := serveAll exactSettings.toSettings .ascii mixedCaseRequests {}

theorem accounts_found_iff_mixedCase :
    OnePerNormalForm .ascii mixedCaseDb ∧
      ∀ email, FoundBy exactSettings .ascii mixedCaseDb email ↔
        EmailRules.ascii.normalizeEmail email = email ∨
          ∀ uid user, mixedCaseDb.users.lookup uid = some user →
            user.email ≠ EmailRules.ascii.normalizeEmail email :=
  accounts_found_iff EmailRules.ascii_lawful (fun _ _ => rfl) mixedCaseRequests

/-- The address an account was created with finds neither account: the login fails with the right password,
and the second Google login of the same address fails where the first one created the account. -/
theorem mixedCase_not_found :
    (mixedCaseDb.users.lookup 0).map (·.email) = some "ann@example.com" ∧
      (mixedCaseDb.users.lookup 1).map (·.email) = some "bob@example.com" ∧
      exactSettings.selectAccount mixedCaseDb ⟨"Ann@Example.com", "correct horse", "client"⟩ = .ok none ∧
      (exactSettings.selectAccount mixedCaseDb ⟨"ann@example.com", "correct horse", "client"⟩).map
        (Option.map (·.1)) = .ok (some 0) ∧
      (getOrCreateUser exactSettings.toSettings .ascii bobToken mixedCaseDb).map (fun _ => ()) =
        .error (.service (.database .unique)) ∧
      ¬ ∀ email, FoundBy exactSettings .ascii mixedCaseDb email := by
  have hbob : (mixedCaseDb.users.lookup 1).map (·.email) = some "bob@example.com" := by decide +kernel
  have hfails : (getOrCreateUser exactSettings.toSettings .ascii bobToken mixedCaseDb).map (fun _ => ()) =
      .error (.service (.database .unique)) := by decide +kernel
  refine ⟨by decide +kernel, hbob, by decide +kernel, by decide +kernel, hfails, ?_⟩
  intro hclaim
  obtain ⟨user, huser, hemail⟩ := Option.map_eq_some_iff.1 hbob
  have hnormal : EmailRules.ascii.normalizeEmail bobToken.email = "bob@example.com" := by decide +kernel
  have hselects := (hclaim bobToken.email 1 user huser (by rw [hemail, hnormal])).2 bobToken rfl
  rw [hselects] at hfails
  cases hfails

end FaAuthM8

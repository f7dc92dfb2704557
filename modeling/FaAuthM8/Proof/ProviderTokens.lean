import FaAuthM8.Services.ProviderTokens

/-!
# Provider tokens over a run

What a Google login or an update stored decrypts as what was supplied for as long as its key is configured,
through any number of key rotations. A refresh goes through the upsert of the login without provider tokens,
and so sets both columns to null.
-/

namespace FaAuthM8

open Interleaving

/-- One session row is stored, and nothing else changes. -/
structure SessionStored (db db' : Db) (id : SessionId) (row : ClientSession) : Prop where
  users : db'.users = db.users
  sessions : ∀ other, db'.sessions.lookup other = if other = id then some row else db.sessions.lookup other

/-- The user has one session row at most, and it names the user's provider. -/
structure OneSession (uid : UserId) (db : Db) : Prop where
  one : ∀ id row id' row', db.sessions.lookup id = some row → db.sessions.lookup id' = some row' →
    row.userId = uid → row'.userId = uid → id' = id
  provider : ∀ id row user, db.sessions.lookup id = some row → row.userId = uid →
    db.users.lookup uid = some user → row.provider = user.provider

/-- The row the upsert stores: the one it found, restamped, or a new one where there was none. -/
def Upserted (db : Db) (uid : UserId) (user : User) (data : ClientSessionCreate) (id : SessionId)
    (new : ClientSession) : Prop :=
  (sessionOfUser db uid = none ∧ new = newSession uid user data) ∨
    ∃ row, sessionOfUser db uid = some (id, row) ∧ new = restampSession row user data

section

variable {db db' : Db} {uid : UserId} {user : User} {id : SessionId} {row new : ClientSession}

theorem sessionOfUser_iff (hone : OneSession uid db) :
    sessionOfUser db uid = some (id, row) ↔ db.sessions.lookup id = some row ∧ row.userId = uid := by
  constructor
  · intro hfound
    obtain ⟨hrow, huser⟩ := Table.first_eq_some hfound
    exact ⟨hrow, by simpa using huser⟩
  · intro ⟨hrow, huser⟩
    cases hfound : sessionOfUser db uid with
    | none =>
        have hnone := Table.first_eq_none_iff.1 hfound id row hrow
        simp [huser] at hnone
    | some found =>
        obtain ⟨id', row'⟩ := found
        obtain ⟨hrow', huser'⟩ := Table.first_eq_some hfound
        obtain rfl := hone.one id row id' row' hrow hrow' huser (by simpa using huser')
        rw [hrow] at hrow'
        rw [Option.some.inj hrow']

theorem sessionOfUser_eq_none (hnone : sessionOfUser db uid = none) (hrow : db.sessions.lookup id = some row) :
    row.userId ≠ uid := by
  have hother := Table.first_eq_none_iff.1 hnone id row hrow
  simpa using hother

theorem ClientSession.saveOver_loaded (huser : new.userId = row.userId) (hrevoked : new.revoked = row.revoked) :
    new.saveOver row row = new := by
  simp only [ClientSession.saveOver, Column.writeBack_current, ← huser, ← hrevoked]

theorem updateSession_stores (hrow : db.sessions.lookup id = some row) (huser : new.userId = row.userId)
    (hrevoked : new.revoked = row.revoked) :
    ∃ db', commit [.updateSession id row new] db = .ok db' ∧ SessionStored db db' id new := by
  by_cases hsame : new = row
  · refine ⟨db, ?_, rfl, ?_⟩
    · simp [commit, Write.apply, Db.updateSession, hsame, Except.bind]
    · intro other
      split
      · next hother => rw [hother, hrow, hsame]
      · rfl
  · refine ⟨{ db with sessions := db.sessions.insert id new }, ?_, rfl, ?_⟩
    · simp [commit, Write.apply, Db.updateSession, hsame, hrow, Except.bind,
        ClientSession.saveOver_loaded huser hrevoked]
    · exact fun other => Table.lookup_insert_eq _ _ _ _

theorem createClientSession_stores (huser : db.users.lookup uid = some user) (data : ClientSessionCreate) :
    ∃ db' id new, commit [createClientSession uid user data (sessionOfUser db uid)] db = .ok db' ∧
      SessionStored db db' id new ∧ Upserted db uid user data id new := by
  cases hexisting : sessionOfUser db uid with
  | none =>
      refine ⟨{ db with
          sessions := db.sessions.insert db.nextSessionId (newSession uid user data)
          nextSessionId := db.nextSessionId + 1 },
        db.nextSessionId, newSession uid user data, ?_, ⟨rfl, ?_⟩, .inl ⟨hexisting, rfl⟩⟩
      · simp [commit, Write.apply, createClientSession, Db.insertSession, newSession, huser, Except.bind]
      · exact fun other => Table.lookup_insert_eq _ _ _ _
  | some existing =>
      obtain ⟨id, row⟩ := existing
      obtain ⟨hrow, -⟩ := Table.first_eq_some hexisting
      have hstored : ∃ db', commit [.updateSession id row (restampSession row user data)] db = .ok db' ∧
          SessionStored db db' id (restampSession row user data) := updateSession_stores hrow rfl rfl
      obtain ⟨db', hcommit, hstores⟩ := hstored
      exact ⟨db', id, restampSession row user data, hcommit, hstores, .inr ⟨row, hexisting, rfl⟩⟩

/-- What the upsert stores is what it was given, whichever row it stores it in. -/
theorem Upserted.columns {data : ClientSessionCreate} (hupserted : Upserted db uid user data id new) :
    new.userId = uid ∧ new.provider = user.provider ∧ new.refreshExpiresAt = data.refreshExpiresAt ∧
      new.externalAccessToken = data.externalAccessToken ∧
      new.externalRefreshToken = data.externalRefreshToken := by
  obtain ⟨-, rfl⟩ | ⟨row, hexisting, rfl⟩ := hupserted
  · exact ⟨rfl, rfl, rfl, rfl, rfl⟩
  · obtain ⟨-, huser⟩ := Table.first_eq_some hexisting
    exact ⟨by simpa [restampSession] using huser, rfl, rfl, rfl, rfl⟩

theorem Upserted.existing {data : ClientSessionCreate} (hupserted : Upserted db uid user data id new)
    (hone : OneSession uid db) {id' : SessionId} (hrow : db.sessions.lookup id' = some row)
    (huser : row.userId = uid) : id' = id := by
  obtain ⟨hnone, -⟩ | ⟨found, hexisting, -⟩ := hupserted
  · exact absurd huser (sessionOfUser_eq_none hnone hrow)
  · rw [(sessionOfUser_iff hone).2 ⟨hrow, huser⟩] at hexisting
    exact congrArg Prod.fst (Option.some.inj hexisting)

theorem OneSession.stores (hone : OneSession uid db) (hstores : SessionStored db db' id new)
    (hexisting : ∀ id' row, db.sessions.lookup id' = some row → row.userId = uid → id' = id)
    (hprovider : ∀ user, db.users.lookup uid = some user → new.provider = user.provider) :
    OneSession uid db' := by
  have hrow (other : SessionId) (row : ClientSession) (hlookup : db'.sessions.lookup other = some row)
      (huser : row.userId = uid) : other = id := by
    rw [hstores.sessions] at hlookup
    split at hlookup
    · assumption
    · exact hexisting other row hlookup huser
  constructor
  · intro one first other second hfirst hsecond huser huser'
    rw [hrow one first hfirst huser, hrow other second hsecond huser']
  · intro other row user hlookup huser howner
    rw [hstores.users] at howner
    rw [hstores.sessions] at hlookup
    split at hlookup
    · obtain rfl := Option.some.inj hlookup
      exact hprovider user howner
    · exact hone.provider other row user hlookup huser howner

end

/-! ### What is stored -/

def EncryptedUnder (fernet : Fernet) (key : String) (stored token : Option String) : Prop :=
  ∃ nonce, stored = token.map (fernet.encrypt key nonce)

/-- Reading the column with these keys gives the token. -/
def DecryptsTo (fernet : Fernet) (keys : EncryptionKeys) (stored token : Option String) : Prop :=
  stored.map (decryptToken fernet keys) = token.map some

/-- The tokens last supplied can be read from the user's session row, while their key is configured. -/
def TokensKept (fernet : Fernet) (uid : UserId) (w : ProviderWorld) : Prop :=
  ∀ supplied, w.supplied = some supplied → supplied.key ∈ w.keys.multifernet →
    ∃ id row, sessionOfUser w.db uid = some (id, row) ∧
      DecryptsTo fernet w.keys row.externalAccessToken supplied.access ∧
      DecryptsTo fernet w.keys row.externalRefreshToken supplied.refresh

/-- Only the identifier, the hash, the expiries and the generation of the row have changed. -/
def OnlyRotated (before after : ClientSession) : Prop :=
  after = { before with
    jwtJti := after.jwtJti
    refreshTokenHash := after.refreshTokenHash
    jwtExpiresAt := after.jwtExpiresAt
    refreshExpiresAt := after.refreshExpiresAt
    externalTokenExpiresAt := after.externalTokenExpiresAt
    authGeneration := after.authGeneration }

/-- A refresh leaves the row of the user as it was but for what a rotation changes. -/
def RefreshFrame (uid : UserId) (w : ProviderWorld) (action : ProviderAction) (w' : ProviderWorld) : Prop :=
  match action with
  | .refresh _ _ => ∀ id row, sessionOfUser w.db uid = some (id, row) →
      ∃ row', sessionOfUser w'.db uid = some (id, row') ∧ OnlyRotated row row'
  | _ => True

def ClientSession.holdsProviderToken (row : ClientSession) : Bool :=
  row.externalAccessToken.isSome || row.externalRefreshToken.isSome

/-- A refresh gets to write its session while the row of the user holds a provider token. -/
def DropsTokens (settings : Settings) (uid : UserId) (w : ProviderWorld) (action : ProviderAction) : Prop :=
  match action with
  | .refresh token admitted => (w.rotation settings uid token admitted).isSome = true ∧
      ∃ id row, sessionOfUser w.db uid = some (id, row) ∧ row.holdsProviderToken = true
  | _ => False

/-- What a run without such a refresh keeps: the supplied tokens are in the one row of the user. -/
structure ProviderWorld.Tracked (fernet : Fernet) (uid : UserId) (w : ProviderWorld) : Prop where
  session : OneSession uid w.db
  stored : ∀ supplied, w.supplied = some supplied → ∃ id row, w.db.sessions.lookup id = some row ∧
    row.userId = uid ∧ EncryptedUnder fernet supplied.key row.externalAccessToken supplied.access ∧
    EncryptedUnder fernet supplied.key row.externalRefreshToken supplied.refresh

section

variable {settings : Settings} {fernet : Fernet} {uid : UserId} {w w' : ProviderWorld}

theorem EncryptedUnder.decrypts (hlawful : fernet.Lawful) {key : String} {keys : EncryptionKeys}
    {stored token : Option String} (hstored : EncryptedUnder fernet key stored token)
    (hkey : key ∈ keys.multifernet) : DecryptsTo fernet keys stored token := by
  obtain ⟨nonce, rfl⟩ := hstored
  show (token.map (fernet.encrypt key nonce)).map (decryptToken fernet keys) = token.map some
  rw [Option.map_map]
  congr 1
  funext plain
  exact decryptToken_encrypt hlawful hkey nonce plain

theorem ProviderWorld.Tracked.tokensKept (hlawful : fernet.Lawful) (htracked : w.Tracked fernet uid) :
    TokensKept fernet uid w := by
  intro supplied hsupplied hkey
  obtain ⟨id, row, hrow, huser, haccess, hrefresh⟩ := htracked.stored supplied hsupplied
  exact ⟨id, row, (sessionOfUser_iff htracked.session).2 ⟨hrow, huser⟩, haccess.decrypts hlawful hkey,
    hrefresh.decrypts hlawful hkey⟩

theorem createAuthSession_eq_ok {db db' : Db} {keys : EncryptionKeys} {nonces : Nonces} {now : Int} {user : User}
    {token : RefreshToken} {external : Option ExternalTokensData} (huser : db.users.lookup uid = some user)
    (hcreated : createAuthSession settings fernet keys nonces now uid user token external db = .ok db') :
    ∃ id new, SessionStored db db' id new ∧ Upserted db uid user
      (authSessionData (settings.withKeys fernet keys nonces) now token.jti token external) id new := by
  simp only [createAuthSession, committingTokens] at hcreated
  split at hcreated
  · obtain ⟨committed, id, new, hcommit, hstores, hupserted⟩ := createClientSession_stores huser
      (authSessionData (settings.withKeys fernet keys nonces) now token.jti token external)
    rw [hcommit] at hcreated
    obtain rfl := Except.ok.inj hcreated
    exact ⟨id, new, hstores, hupserted⟩
  · cases hcreated

theorem createAuthSession_refresh {db : Db} {keys : EncryptionKeys} {nonces : Nonces} {now : Int} {user : User}
    {token : RefreshToken} (huser : db.users.lookup uid = some user) :
    ∃ db', createAuthSession settings fernet keys nonces now uid user token none db = .ok db' := by
  obtain ⟨db', id, new, hcommit, -⟩ := createClientSession_stores huser
    (authSessionData (settings.withKeys fernet keys nonces) now token.jti token none)
  refine ⟨db', ?_⟩
  simp only [createAuthSession, committingTokens, hcommit]
  rfl

theorem encryptedUnder_map (keys : EncryptionKeys) (nonces : Nonces) (token : Option String) :
    EncryptedUnder fernet keys.current (token.map fun text => encryptToken fernet keys (nonces text) text)
      token := by
  cases token with
  | none => exact ⟨0, rfl⟩
  | some text => exact ⟨nonces text, rfl⟩

theorem OneSession.deleteSessions {db : Db} (hone : OneSession uid db) (doomed : List SessionId) :
    OneSession uid (db.deleteSessions doomed) := by
  have hkept (id : SessionId) (row : ClientSession)
      (hrow : (db.deleteSessions doomed).sessions.lookup id = some row) : db.sessions.lookup id = some row := by
    rw [Db.deleteSessions, Table.lookup_filter] at hrow
    exact (Option.filter_eq_some_iff.1 hrow).1
  constructor
  · intro id row id' row' hrow hrow'
    exact hone.one id row id' row' (hkept id row hrow) (hkept id' row' hrow')
  · intro id row user hrow huser howner
    exact hone.provider id row user (hkept id row hrow) huser howner

theorem OneSession.upserted {db db' : Db} {user : User} {data : ClientSessionCreate} {id : SessionId}
    {new : ClientSession} (hone : OneSession uid db) (huser : db.users.lookup uid = some user)
    (hstores : SessionStored db db' id new) (hupserted : Upserted db uid user data id new) :
    OneSession uid db' := by
  apply hone.stores hstores
  · intro id' row hrow howner
    exact hupserted.existing hone hrow howner
  · intro owner howner
    rw [huser] at howner
    rw [← Option.some.inj howner]
    exact hupserted.columns.2.1

theorem login_tracked {token : OAuthGoogleToken} {nonces : Nonces} (hone : OneSession uid w.db)
    (hlogin : w.login settings fernet uid token nonces = some w') : w'.Tracked fernet uid := by
  simp only [ProviderWorld.login] at hlogin
  split at hlogin
  · cases hlogin
  · next user huser =>
      split at hlogin
      · cases hlogin
      · next pair hpair =>
          split at hlogin
          · cases hlogin
          · next db hcreated =>
              obtain rfl := Option.some.inj hlogin
              obtain ⟨id, new, hstores, hupserted⟩ := createAuthSession_eq_ok huser hcreated
              obtain ⟨howner, -, hexpires, haccess, hrefresh⟩ := hupserted.columns
              have hrow : db.sessions.lookup id = some new := by
                rw [hstores.sessions, if_pos rfl]
              have hlive : id ∉ sessionIds db (isExpiredSession uid w.now) := by
                intro hmem
                obtain ⟨row, hlookup, hexpired⟩ := mem_sessionIds.1 hmem
                obtain rfl : new = row := Option.some.inj (hrow.symm.trans hlookup)
                simp only [isExpiredSession, Bool.and_eq_true, decide_eq_true_eq, hexpires, authSessionData,
                  Settings.refreshTokenExpires, second] at hexpired
                omega
              constructor
              · exact (hone.upserted huser hstores hupserted).deleteSessions _
              · intro supplied hsupplied
                obtain rfl := Option.some.inj hsupplied
                refine ⟨id, new, ?_, howner, ?_, ?_⟩
                · show (db.deleteSessions _).sessions.lookup id = some new
                  rw [Db.deleteSessions, Table.lookup_filter, hrow]
                  simpa using hlive
                · rw [haccess]
                  exact encryptedUnder_map w.keys nonces (some token.accessToken)
                · rw [hrefresh]
                  exact encryptedUnder_map w.keys nonces (some token.refreshToken)

theorem updateTokens_tracked {tokens : ClientSessionUpdateExternal} {nonces : Nonces}
    (hone : OneSession uid w.db) (hupdated : w.updateTokens fernet uid tokens nonces = some w') :
    w'.Tracked fernet uid := by
  simp only [ProviderWorld.updateTokens] at hupdated
  split at hupdated
  · cases hupdated
  · next db hrefreshed =>
      obtain rfl := Option.some.inj hupdated
      simp only [refreshGoogleSessionTokens, committingTokens] at hrefreshed
      split at hrefreshed
      · split at hrefreshed
        · cases hrefreshed
        · next id row hexisting =>
            obtain ⟨hrow, howner⟩ := (sessionOfUser_iff hone).1 hexisting
            split at hrefreshed
            · obtain ⟨committed, hcommit, hstores⟩ : ∃ committed, commit
                  [.updateSession id row (tokens.onto fernet w.keys nonces row)] w.db = .ok committed ∧
                  SessionStored w.db committed id (tokens.onto fernet w.keys nonces row) :=
                updateSession_stores hrow rfl rfl
              rw [hcommit] at hrefreshed
              obtain rfl := Except.ok.inj hrefreshed
              constructor
              · apply hone.stores hstores
                · intro id' row' hrow' howner'
                  exact hone.one id row id' row' hrow hrow' howner howner'
                · intro user huser
                  exact hone.provider id row user hrow howner huser
              · intro supplied hsupplied
                obtain rfl := Option.some.inj hsupplied
                refine ⟨id, tokens.onto fernet w.keys nonces row, ?_, howner, ?_, ?_⟩
                · show committed.sessions.lookup id = _
                  rw [hstores.sessions, if_pos rfl]
                · exact encryptedUnder_map w.keys nonces _
                · exact encryptedUnder_map w.keys nonces _
            · cases hrefreshed
      · cases hrefreshed

theorem rotation_user {token : RefreshToken} {admitted : Bool} {user : User} {pair : TokenPair}
    (hrotation : w.rotation settings uid token admitted = some (user, pair)) :
    w.db.users.lookup uid = some user := by
  simp only [ProviderWorld.rotation] at hrotation
  split at hrotation
  · cases hrotation
  · next found hfound =>
      obtain ⟨-, hsigned⟩ := Option.ite_none_right_eq_some.1 hrotation
      obtain ⟨signed, -, heq⟩ := Option.map_eq_some_iff.1 hsigned
      have hsame : found = user := congrArg Prod.fst heq
      rw [hfound, hsame]

/-- What a refresh that writes its session does: it stores no provider token. -/
theorem refresh_of_rotation (fernet : Fernet) {token : RefreshToken} {admitted : Bool} {user : User} {pair : TokenPair}
    (hrotation : w.rotation settings uid token admitted = some (user, pair)) :
    ∃ w' id new, w.refresh settings fernet uid token admitted = some w' ∧
      w'.keys = w.keys ∧ w'.supplied = w.supplied ∧ SessionStored w.db w'.db id new ∧
      Upserted w.db uid user (authSessionData (settings.withKeys fernet w.keys fun _ => 0) w.now
        pair.refresh.jti pair.refresh none) id new := by
  have huser := rotation_user hrotation
  obtain ⟨db, hcreated⟩ : ∃ db, createAuthSession settings fernet w.keys (fun _ => 0) w.now uid user
      pair.refresh none w.db = .ok db := createAuthSession_refresh huser
  obtain ⟨id, new, hstores, hupserted⟩ := createAuthSession_eq_ok huser hcreated
  refine ⟨{ w with db, nextJti := w.nextJti + 1 }, id, new, ?_, rfl, rfl, hstores, hupserted⟩
  simp only [ProviderWorld.refresh, hrotation, hcreated]

theorem refresh_tracked {token : RefreshToken} {admitted : Bool} (htracked : w.Tracked fernet uid)
    (hrefresh : w.refresh settings fernet uid token admitted = some w')
    (hbare : ∀ id row, sessionOfUser w.db uid = some (id, row) → row.holdsProviderToken = false) :
    w'.Tracked fernet uid := by
  cases hrotation : w.rotation settings uid token admitted with
  | none => simp [ProviderWorld.refresh, hrotation] at hrefresh
  | some rotated =>
      obtain ⟨user, pair⟩ := rotated
      obtain ⟨stored, id, new, hstored, hkeys, hsupplied, hstores, hupserted⟩ :=
        refresh_of_rotation fernet hrotation
      obtain rfl := Option.some.inj (hrefresh.symm.trans hstored)
      obtain ⟨howner, -, -, haccess, hrefresh'⟩ := hupserted.columns
      constructor
      · exact htracked.session.upserted (rotation_user hrotation) hstores hupserted
      · intro supplied hsome
        rw [hsupplied] at hsome
        obtain ⟨id', row, hrow, huser, hold, hold'⟩ := htracked.stored supplied hsome
        obtain rfl := hupserted.existing htracked.session hrow huser
        have hempty := hbare id' row ((sessionOfUser_iff htracked.session).2 ⟨hrow, huser⟩)
        simp only [ClientSession.holdsProviderToken, Bool.or_eq_false_iff, Option.isSome_eq_false_iff,
          Option.isNone_iff_eq_none] at hempty
        refine ⟨id', new, ?_, howner, ?_, ?_⟩
        · rw [hstores.sessions, if_pos rfl]
        · rw [haccess]
          rw [hempty.1] at hold
          exact hold
        · rw [hrefresh']
          rw [hempty.2] at hold'
          exact hold'

/-- A refresh that writes its session keeps the frame of the row exactly when the row holds no provider
token. -/
theorem refreshFrame_iff {token : RefreshToken} {admitted : Bool} (hsession : OneSession uid w.db) :
    RefreshFrame uid w (.refresh token admitted) (w.perform settings fernet uid (.refresh token admitted)) ↔
      ¬ DropsTokens settings uid w (.refresh token admitted) := by
  simp only [RefreshFrame, DropsTokens, ProviderWorld.perform]
  cases hrotation : w.rotation settings uid token admitted with
  | none =>
      have hfails : w.refresh settings fernet uid token admitted = none := by
        simp [ProviderWorld.refresh, hrotation]
      simp only [hfails, Option.getD_none, Option.isSome_none, Bool.false_eq_true, false_and, not_false_eq_true,
        iff_true]
      intro id row hexisting
      exact ⟨row, hexisting, rfl⟩
  | some rotated =>
      obtain ⟨user, pair⟩ := rotated
      have huser := rotation_user hrotation
      obtain ⟨w', id, new, hrefresh, hkeys, hsupplied, hstores, hupserted⟩ :=
        refresh_of_rotation fernet hrotation
      have hsession' := hsession.upserted huser hstores hupserted
      obtain ⟨howner, hprovider, -, haccess, hexternal⟩ := hupserted.columns
      have hnew : sessionOfUser w'.db uid = some (id, new) := by
        apply (sessionOfUser_iff hsession').2
        exact ⟨by rw [hstores.sessions, if_pos rfl], howner⟩
      simp only [hrefresh, Option.getD_some, Option.isSome_some, true_and]
      constructor
      · intro hframe hdrops
        obtain ⟨id', row, hexisting, hholds⟩ := hdrops
        obtain ⟨row', hrow', honly⟩ := hframe id' row hexisting
        obtain ⟨hrow, huser'⟩ := (sessionOfUser_iff hsession).1 hexisting
        obtain rfl := hupserted.existing hsession hrow huser'
        obtain rfl : new = row' := by simpa using hnew.symm.trans hrow'
        have hnone : row.externalAccessToken = none ∧ row.externalRefreshToken = none := by
          rw [OnlyRotated] at honly
          rw [honly] at haccess hexternal
          exact ⟨haccess, hexternal⟩
        simp [ClientSession.holdsProviderToken, hnone] at hholds
      · intro hkept id' row hexisting
        obtain ⟨hrow, huser'⟩ := (sessionOfUser_iff hsession).1 hexisting
        obtain rfl := hupserted.existing hsession hrow huser'
        have hempty : row.externalAccessToken = none ∧ row.externalRefreshToken = none := by
          have hbare : ¬ row.holdsProviderToken = true := fun hholds => hkept ⟨id', row, hexisting, hholds⟩
          simpa [ClientSession.holdsProviderToken] using hbare
        have hsame := hsession.provider id' row user hrow huser' huser
        refine ⟨new, hnew, ?_⟩
        obtain ⟨hnone, -⟩ | ⟨found, hfound, rfl⟩ := hupserted
        · rw [hnone] at hexisting
          cases hexisting
        · obtain rfl : row = found := by simpa using hexisting.symm.trans hfound
          simp [OnlyRotated, restampSession, authSessionData, hsame, hempty]

theorem perform_tracked (htracked : w.Tracked fernet uid) {action : ProviderAction}
    (hkept : ¬ DropsTokens settings uid w action) : (w.perform settings fernet uid action).Tracked fernet uid := by
  cases action with
  | googleLogin token nonces =>
      rw [ProviderWorld.perform]
      cases hlogin : w.login settings fernet uid token nonces with
      | none => exact htracked
      | some w' => exact login_tracked htracked.session hlogin
  | refresh token admitted =>
      rw [ProviderWorld.perform]
      cases hrefresh : w.refresh settings fernet uid token admitted with
      | none => exact htracked
      | some w' =>
          apply refresh_tracked htracked hrefresh
          intro id row hexisting
          have hwrites : (w.rotation settings uid token admitted).isSome = true := by
            rw [Option.isSome_iff_ne_none]
            intro hnone
            simp [ProviderWorld.refresh, hnone] at hrefresh
          rw [← Bool.not_eq_true]
          exact fun hholds => hkept ⟨hwrites, id, row, hexisting, hholds⟩
  | updateTokens tokens nonces =>
      rw [ProviderWorld.perform]
      cases hupdated : w.updateTokens fernet uid tokens nonces with
      | none => exact htracked
      | some w' => exact updateTokens_tracked htracked.session hupdated
  | rotateKeys keys => exact ⟨htracked.session, htracked.stored⟩
  | tick now => exact ⟨htracked.session, htracked.stored⟩

theorem perform_iff (hlawful : fernet.Lawful) (htracked : w.Tracked fernet uid) (action : ProviderAction) :
    TokensKept fernet uid (w.perform settings fernet uid action) ∧
        RefreshFrame uid w action (w.perform settings fernet uid action) ↔
      ¬ DropsTokens settings uid w action := by
  constructor
  · intro hkeeps hdrops
    cases action with
    | refresh token admitted => exact (refreshFrame_iff htracked.session).1 hkeeps.2 hdrops
    | googleLogin | updateTokens | rotateKeys | tick => exact hdrops
  · intro hkept
    refine ⟨(perform_tracked htracked hkept).tokensKept hlawful, ?_⟩
    cases action with
    | refresh token admitted => exact (refreshFrame_iff htracked.session).2 hkept
    | googleLogin | updateTokens | rotateKeys | tick => trivial

/-- In every run of a user with one session at most, the tokens last supplied can be read from the row and no
refresh changes more of the row than a rotation does exactly when no refresh writes its session over a row that
holds a provider token. -/
theorem provider_tokens_kept_iff (hlawful : fernet.Lawful) {c : Config ProviderWorld Unit}
    (hsession : OneSession uid c.shared.db) (hsupplied : c.shared.supplied = none) (schedule : List (Nat × ProviderAction)) :
    (providerTokens settings fernet uid).Along (fun c move c' => TokensKept fernet uid c'.shared ∧
        RefreshFrame uid c.shared move.2 c'.shared) c schedule ↔
      (providerTokens settings fernet uid).Along (fun c move _ => ¬ DropsTokens settings uid c.shared move.2) c
        schedule := by
  have hstep (c : Config ProviderWorld Unit) (move : Nat × ProviderAction) (c' : Config ProviderWorld Unit)
      (hnext : (providerTokens settings fernet uid).next c move = some c') :
      c'.shared = c.shared.perform settings fernet uid move.2 := by
    have hmoved := System.step_of_next hnext
    exact (congrArg Prod.fst (Option.some.inj hmoved)).symm
  have htracked : c.shared.Tracked fernet uid := by
    refine ⟨hsession, ?_⟩
    intro supplied hsome
    rw [hsupplied] at hsome
    cases hsome
  have hiff (c : Config ProviderWorld Unit) (move : Nat × ProviderAction) (c' : Config ProviderWorld Unit)
      (htracked : c.shared.Tracked fernet uid) (hnext : (providerTokens settings fernet uid).next c move = some c') :
      TokensKept fernet uid c'.shared ∧ RefreshFrame uid c.shared move.2 c'.shared ↔
        ¬ DropsTokens settings uid c.shared move.2 := by
    rw [hstep c move c' hnext]
    exact perform_iff hlawful htracked move.2
  have hkeeps (c : Config ProviderWorld Unit) (move : Nat × ProviderAction) (c' : Config ProviderWorld Unit)
      (htracked : c.shared.Tracked fernet uid) (hnext : (providerTokens settings fernet uid).next c move = some c')
      (hkept : TokensKept fernet uid c'.shared ∧ RefreshFrame uid c.shared move.2 c'.shared) :
      c'.shared.Tracked fernet uid := by
    have hdrops := (hiff c move c' htracked hnext).1 hkept
    rw [hstep c move c' hnext]
    exact perform_tracked htracked hdrops
  exact System.along_iff hiff hkeeps schedule htracked

end

/-! ### A login, a refresh and an update -/

/-- A text behind its key: each character of the key marked, then a full stop. -/
def tag (key text : List Char) : List Char := (key.flatMap fun c => ['k', c]) ++ '.' :: text

def untag : List Char → List Char → Option (List Char)
  | [], '.' :: text => some text
  | c :: key, 'k' :: d :: text => if c = d then untag key text else none
  | _, _ => none

theorem untag_tag (key text : List Char) : untag key (tag key text) = some text := by
  induction key with
  | nil => rfl
  | cons c key ih =>
      show (if c = c then untag key (tag key text) else none) = some text
      rw [if_pos rfl, ih]

theorem untag_tag_of_ne {key other : List Char} (text : List Char) (hne : other ≠ key) :
    untag other (tag key text) = none := by
  induction key generalizing other with
  | nil =>
      cases other with
      | nil => exact absurd rfl hne
      | cons d other => simp [untag, tag]
  | cons c key ih =>
      cases other with
      | nil => simp [untag, tag]
      | cons d other =>
          show (if d = c then untag other (tag key text) else none) = none
          by_cases hsame : d = c
          · rw [if_pos hsame]
            apply ih
            exact fun heq => hne (by rw [hsame, heq])
          · rw [if_neg hsame]

def taggingFernet : Fernet where
  encrypt key _ token := String.ofList (tag key.toList token.toList)
  decrypt key encrypted := (untag key.toList encrypted.toList).map String.ofList

theorem taggingFernet_lawful : taggingFernet.Lawful where
  decrypt_encrypt key nonce plain := by
    simp [taggingFernet, untag_tag]
  decrypt_other key other nonce plain hne := by
    have hlist : other.toList ≠ key.toList := fun heq => hne (String.toList_inj.1 heq)
    simp [taggingFernet, untag_tag_of_ne _ hlist]

def annUser : User where
  provider := .google
  email := "ann@example.com"
  oauthUserId := some "ann"

/-- One account without a session, and one key. -/
def annSignedOut : Config ProviderWorld Unit where
  shared := { db := { users := AList.insert 7 annUser ∅ }, keys := { current := "first key" } }
  locals _ := ()

def annToken : OAuthGoogleToken where
  accessToken := "ya29.a0"
  expiresIn := 3600
  refreshToken := "1//0g"
  userId := "ann"
  email := "ann@example.com"
  emailVerified := true
  name := "Ann"

/-- A login, a rotation of the key, an update and another rotation. -/
def tokensAcrossKeys : List (Nat × ProviderAction) :=
  [(0, .googleLogin annToken fun _ => 1), (0, .rotateKeys { current := "second key", old := some "first key" }),
    (0, .tick second), (0, .updateTokens { externalAccessToken := some "ya29.b1" } fun _ => 2),
    (0, .rotateKeys { current := "third key", old := some "second key" })]

theorem provider_tokens_kept_iff_annSignedOut :
    (providerTokens {} taggingFernet 7).Along (fun c move c' => TokensKept taggingFernet 7 c'.shared ∧
        RefreshFrame 7 c.shared move.2 c'.shared) annSignedOut tokensAcrossKeys ↔
      (providerTokens {} taggingFernet 7).Along (fun c move _ => ¬ DropsTokens {} 7 c.shared move.2) annSignedOut
        tokensAcrossKeys :=
  provider_tokens_kept_iff taggingFernet_lawful (by constructor <;> simp [annSignedOut]) rfl tokensAcrossKeys

def annLogin : Nat × ProviderAction := (0, .googleLogin annToken fun _ => 1)

def annRefresh : Nat × ProviderAction := (0, .refresh ⟨7, 0, 7200 * second⟩ true)

/-- After a login the row has the tokens; after one refresh it has none, under the same key. -/
theorem refresh_drops_tokens :
    (((providerTokens {} taggingFernet 7).run annSignedOut [annLogin]).bind fun c =>
        sessionOfUser c.shared.db 7).map (fun found => (found.2.jwtJti, found.2.externalAccessToken.isSome)) =
      some (0, true) ∧
    (((providerTokens {} taggingFernet 7).run annSignedOut [annLogin, annRefresh]).bind fun c =>
        sessionOfUser c.shared.db 7).map (fun found => (found.2.jwtJti, found.2.externalAccessToken)) =
      some (1, none) ∧
    ¬ (providerTokens {} taggingFernet 7).Along (fun c move c' => TokensKept taggingFernet 7 c'.shared ∧
        RefreshFrame 7 c.shared move.2 c'.shared) annSignedOut [annLogin, annRefresh] := by
  have hrow : (((providerTokens {} taggingFernet 7).run annSignedOut [annLogin, annRefresh]).bind fun c =>
      sessionOfUser c.shared.db 7).map (fun found => (found.2.jwtJti, found.2.externalAccessToken)) =
    some (1, none) := by decide +kernel
  have hsupplied : ((providerTokens {} taggingFernet 7).run annSignedOut [annLogin, annRefresh]).map (fun c =>
      (c.shared.supplied.map fun supplied => (supplied.access, decide (supplied.key ∈ c.shared.keys.multifernet)))) =
    some (some (some "ya29.a0", true)) := by decide +kernel
  refine ⟨by decide +kernel, hrow, ?_⟩
  intro hclaim
  obtain ⟨c, hrun, hcolumns⟩ := Option.map_eq_some_iff.1 hsupplied
  obtain ⟨supplied, hsome, heq⟩ := Option.map_eq_some_iff.1 hcolumns
  obtain ⟨haccess, hkey⟩ := Prod.mk.inj heq
  change (providerTokens {} taggingFernet 7).run annSignedOut ([annLogin] ++ [annRefresh]) = some c at hrun
  change System.Along _ _ _ ([annLogin] ++ [annRefresh]) at hclaim
  obtain ⟨before, hlogin, hlast⟩ := System.run_append.1 hrun
  obtain ⟨after, hnext, hafter⟩ := System.run_cons.1 hlast
  obtain rfl : after = c := Option.some.inj hafter
  have hlater := (System.along_append.1 hclaim).2 before hlogin
  obtain ⟨id, row, hexisting, hdecrypts, -⟩ := (hlater after hnext).1.1 supplied hsome (of_decide_eq_true hkey)
  change (((providerTokens {} taggingFernet 7).run annSignedOut ([annLogin] ++ [annRefresh])).bind _).map _ = _ at hrow
  rw [hrun, Option.bind_some, hexisting, Option.map_some] at hrow
  have hnone : row.externalAccessToken = none := congrArg Prod.snd (Option.some.inj hrow)
  rw [DecryptsTo, hnone, haccess] at hdecrypts
  cases hdecrypts

end FaAuthM8

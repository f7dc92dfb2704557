import FaAuthM8.Core.Emails
import FaAuthM8.Routes.Login
import FaAuthM8.Routes.OauthLogin
import FaAuthM8.System.Steps

/-!
# The routes that write e-mails

An account is created by the bootstrap, by an administrator in two ways, by a service and by the first Google
login of an unknown address; its e-mail is changed by an administrator or by its owner. A payload passes its
validators first; the limits on fields other than the e-mail only refuse a request before it starts, and a
request here has met them. Each request runs in a transaction of its own, and a refused one leaves nothing.
-/

namespace FaAuthM8

inductive RequestError
  /-- `ValidationError` -/
  | validation
  | http (e : HttpException)
  | service (e : ServiceError)
deriving DecidableEq, Repr

structure UserCreate where
  provider : AuthProviderType := .password
  email : String
  fullName : Option String := none
  avatar : Option String := none
  isActive : Bool := true
  emailVerified : Bool := false
  isSuperuser : Bool := false
  role : RoleType := .user
  password : Option String := none
  oauthUserId : Option String := none
deriving DecidableEq, Repr

structure UserRegister where
  email : String
  password : String
  fullName : Option String := none
deriving DecidableEq, Repr

structure PrivateUserCreate where
  email : String
  password : String
  fullName : String
  isVerified : Bool := false
deriving DecidableEq, Repr

structure UserUpdateMe where
  email : Option (Option String) := none
  fullName : Option (Option String) := none
  avatar : Option (Option String) := none
deriving DecidableEq, Repr

def UserCreate.checkProviderFields (userIn : UserCreate) : Bool :=
  match userIn.provider with
  | .password => userIn.password.any (· != "") && userIn.oauthUserId.isNone
  | .google => userIn.oauthUserId.any (· != "") && userIn.password.isNone

def UserCreate.validate (rules : EmailRules) (userIn : UserCreate) : Option UserCreate :=
  if userIn.checkProviderFields then
    (rules.validateBoundedEmail userIn.email).map fun email => { userIn with email }
  else none

def UserUpdate.enforceProviderRules (userIn : UserUpdate) : Bool :=
  match userIn.provider.join with
  | some .password => userIn.oauthUserId.join.isNone
  | some .google => userIn.password.join.isNone
  | none => true

def UserUpdate.validate (rules : EmailRules) (userIn : UserUpdate) : Option UserUpdate :=
  if userIn.enforceProviderRules then
    (rules.validateEmailUpdate userIn.email).map fun email => { userIn with email }
  else none

def UserUpdateMe.validate (rules : EmailRules) (userIn : UserUpdateMe) : Option UserUpdateMe :=
  (rules.validateEmailUpdate userIn.email).map fun email => { userIn with email }

/-- The fields a user may update of their own account, as an update. -/
def UserUpdateMe.toUpdate (userIn : UserUpdateMe) : UserUpdate where
  email := userIn.email
  fullName := userIn.fullName
  avatar := userIn.avatar

def conflict (detail : String) : RequestError := .http { statusCode := 409, detail }

def notFound (detail : String) : RequestError := .http { statusCode := 404, detail }

def writing (writes : List Write) (db : Db) : Except RequestError Db :=
  match commit writes db with
  | .ok db' => .ok db'
  | .error e => .error (.service (.database e))

section

variable (settings : Settings) (rules : EmailRules)

/-- `build_user`: the user to insert; `model_validate` checks the e-mail once more. -/
def buildUser (userCreate : UserCreate) : Option User :=
  match userCreate.provider, userCreate.password with
  | .password, none => none
  | provider, password =>
      (rules.validateBoundedEmail userCreate.email).map fun email =>
        { provider
          email
          fullName := userCreate.fullName
          avatar := userCreate.avatar
          isActive := userCreate.isActive
          emailVerified := userCreate.emailVerified
          isSuperuser := deriveIsSuperuser (some userCreate.role)
          role := userCreate.role
          hashedPassword :=
            match provider with
            | .password => password.map settings.getPasswordHash
            | .google => none
          oauthUserId := userCreate.oauthUserId }

def createUser (userCreate : UserCreate) (db : Db) : Except RequestError Db :=
  match buildUser settings rules userCreate with
  | none => .error .validation
  | some user => writing [.insertUser user] db

def createAudited (actor : Actor) (userCreate : UserCreate) (db : Db) : Except RequestError Db :=
  match buildUser settings rules userCreate with
  | none => .error .validation
  | some user =>
      writing [.insertUser user, .appendAudit (actor.audit .add .user db.nextUserId db.nextUserId)] db

/-- The bootstrap: it creates the first superuser and nothing once there is one. -/
def initialUserDb (firstSuperuser password : String) (db : Db) : Except RequestError Db :=
  if (db.users.first fun _ user => user.isSuperuser).isSome then .ok db
  else
    let userIn : UserCreate :=
      { email := firstSuperuser, password := some password, isSuperuser := true, role := .superadmin }
    match userIn.validate rules with
    | none => .error .validation
    | some userIn => createUser settings rules userIn db

def createNewUserWithPassword (actor : Actor) (userIn : UserCreate) (db : Db) : Except RequestError Db :=
  match userIn.validate rules with
  | none => .error .validation
  | some userIn =>
      if (getUserByEmail db userIn.email).isSome then
        .error (.http (badRequest "The user with this email already exists in the system."))
      else createAudited settings rules actor userIn db

def registerUser (actor : Actor) (userIn : UserRegister) (db : Db) : Except RequestError Db :=
  match rules.validateBoundedEmail userIn.email with
  | none => .error .validation
  | some email =>
      if (getUserByEmail db email).isSome then
        .error (.http (badRequest "The user with this email already exists in the system"))
      else
        let userCreate : UserCreate :=
          { email, password := some userIn.password, fullName := userIn.fullName }
        match userCreate.validate rules with
        | none => .error .validation
        | some userCreate => createAudited settings rules actor userCreate db

/-- `create_user` of the private API: the row is built without `model_validate`. -/
def createPrivateUser (userIn : PrivateUserCreate) (db : Db) : Except RequestError Db :=
  match rules.validateEmail userIn.email with
  | none => .error .validation
  | some email =>
      if (getUserByEmail db email).isSome then
        .error (conflict "The user with this email already exists in the system.")
      else
        let user : User :=
          { email
            fullName := some userIn.fullName
            emailVerified := userIn.isVerified
            hashedPassword := some (settings.getPasswordHash userIn.password) }
        writing [.insertUser user] db

/-- `_get_or_create_user`: the account a Google callback selects. The e-mail is looked up as it came. -/
def getOrCreateUser (token : OAuthGoogleToken) (db : Db) : Except RequestError (Db × UserId × User) :=
  match getUserByEmail db token.email with
  | some found => .ok (db, found)
  | none =>
      let userIn : UserCreate :=
        { provider := .google
          oauthUserId := some token.userId
          email := token.email
          emailVerified := token.emailVerified
          fullName := some (String.ofList (Parsing.strip token.name.toList)) }
      match userIn.validate rules with
      | none => .error .validation
      | some userIn =>
          match createUser settings rules userIn db with
          | .error e => .error e
          | .ok db' =>
              match db'.users.lookup db.nextUserId with
              | none => .error (.service .userNotFound)
              | some user => .ok (db', db.nextUserId, user)

/-- `change_user_authorization`, with nothing else running. -/
def changeUserAuthorization (actor : Actor) (uid : UserId) (dbUser : User) (userIn : UserUpdate) (now : Int)
    (db : Db) : Except RequestError Db :=
  let intent := resolveUpdateIntent dbUser userIn
  match rejectSelfPromotion actor.id uid intent with
  | .error e => .error (.service e)
  | .ok () =>
      match if intent.affectsSet then enforceLastSuperuserInvariant db uid dbUser intent else .ok () with
      | .error e => .error (.service e)
      | .ok () =>
          match planUpdate settings dbUser userIn with
          | .error e => .error (.service e)
          | .ok plan =>
              let revision := if intent.affectsSet then some (db.policyRevision.getD 0) else none
              let targets := if plan.authorizationChanged then captureTargets db uid now else []
              let doomed := if plan.authorizationChanged then sessionIds db (ownedBy uid) else []
              writing (updateWrites actor uid dbUser plan targets doomed revision now) db

def updateCurrentUser (actor : Actor) (uid : UserId) (userIn : UserUpdate) (now : Int) (db : Db) :
    Except RequestError Db :=
  match userIn.validate rules with
  | none => .error .validation
  | some userIn =>
      match db.users.lookup uid with
      | none => .error (notFound "The user with this id does not exist in the system")
      | some dbUser =>
          if emailTaken db uid userIn then .error (conflict "User with this email already exists")
          else changeUserAuthorization settings actor uid dbUser userIn now db

def updateUserMe (uid : UserId) (userIn : UserUpdateMe) (db : Db) : Except RequestError Db :=
  match userIn.validate rules with
  | none => .error .validation
  | some userIn =>
      if emailTaken db uid userIn.toUpdate then .error (conflict "User with this email already exists")
      else
        match db.users.lookup uid with
        | none => .error (notFound "User not found")
        | some dbUser =>
            let draft : UserDraft :=
              { dbUser.draft with
                email := userIn.email.getD dbUser.draft.email
                fullName := userIn.fullName.getD dbUser.fullName
                avatar := userIn.avatar.getD dbUser.avatar }
            writing [.updateUser uid dbUser draft] db

end

/-- A request that may write an e-mail. -/
inductive AccountRequest
  | seed (firstSuperuser password : String)
  | newUser (actor : Actor) (userIn : UserCreate)
  | signup (actor : Actor) (userIn : UserRegister)
  | privateUser (userIn : PrivateUserCreate)
  | googleCallback (token : OAuthGoogleToken)
  | update (actor : Actor) (uid : UserId) (userIn : UserUpdate) (now : Int)
  | updateMe (uid : UserId) (userIn : UserUpdateMe)
deriving DecidableEq, Repr

namespace AccountRequest

variable (settings : Settings) (rules : EmailRules)

def handle : AccountRequest → Db → Except RequestError Db
  | seed firstSuperuser password, db => initialUserDb settings rules firstSuperuser password db
  | newUser actor userIn, db => createNewUserWithPassword settings rules actor userIn db
  | signup actor userIn, db => registerUser settings rules actor userIn db
  | privateUser userIn, db => createPrivateUser settings rules userIn db
  | googleCallback token, db => (getOrCreateUser settings rules token db).map (·.1)
  | update actor uid userIn now, db => updateCurrentUser settings rules actor uid userIn now db
  | updateMe uid userIn, db => updateUserMe rules uid userIn db

/-- The database after the request, which is rolled back when it fails. -/
def serve (db : Db) (request : AccountRequest) : Db :=
  match request.handle settings rules db with
  | .ok db' => db'
  | .error _ => db

def serveAll (requests : List AccountRequest) (db : Db) : Db :=
  requests.foldl (serve settings rules) db

end AccountRequest

/-- What `login_access_token` selects before it looks at the account. -/
def LoginSettings.selectAccount (settings : LoginSettings) (db : Db) (form : LoginForm) :
    Except HttpException (Option (UserId × User)) :=
  if form.hasNul then .error invalidCharacters
  else
    let found := findUserByEmail settings.sameEmail db.users form.username
    .ok (authenticate settings.toSettings found form.password)

end FaAuthM8

import FaAuthM8.Core.Config
import FaAuthM8.Services.Generation

/-!
# User updates

`apply_user_update` changes the loaded object in memory only. The admin allowlist contains the role and
never the activation flag; the superuser flag is derived from the role whenever the payload carries one.
-/

namespace FaAuthM8

/-- The role is null in memory when the payload carries a null role. -/
def deriveIsSuperuser (role : Option RoleType) : Bool :=
  role == some .superadmin

theorem privilegeClaimsAreConsistent_iff {role : RoleType} {isSuperuser : Bool} :
    privilegeClaimsAreConsistent role isSuperuser = true ↔
      isSuperuser = deriveIsSuperuser (some role) := by
  simp [privilegeClaimsAreConsistent, deriveIsSuperuser]

def applyUserUpdate (settings : Settings) (dbUser : UserDraft) (userIn : UserUpdate) :
    Except ServiceError UserDraft :=
  match userIn.password with
  | some none => .error .invalidPassword
  | password => .ok
      { dbUser with
        email := userIn.email.getD dbUser.email
        fullName := userIn.fullName.getD dbUser.fullName
        avatar := userIn.avatar.getD dbUser.avatar
        role := userIn.role.getD dbUser.role
        oauthUserId := userIn.oauthUserId.getD dbUser.oauthUserId
        hashedPassword :=
          match password with
          | some (some plain) => some (settings.getPasswordHash plain)
          | _ => dbUser.hashedPassword
        isSuperuser :=
          match userIn.role with
          | some role => deriveIsSuperuser role
          | none => dbUser.isSuperuser }

/-- `get_user_by_email`, where `sameEmail` is the database's comparison of a stored e-mail with the one given. -/
def findUserByEmail (sameEmail : String → String → Bool) (users : Table UserId User) (email : String) :
    Option (UserId × User) :=
  users.first fun _ user => sameEmail user.email email

/-- `get_user_by_email`, on a database that compares e-mails exactly. -/
def getUserByEmail (db : Db) (email : String) : Option (UserId × User) :=
  findUserByEmail (· == ·) db.users email

theorem findUserByEmail_exact {sameEmail : String → String → Bool} {db : Db} {email : String}
    (hexact : ∀ stored given, sameEmail stored given = (stored == given)) :
    findUserByEmail sameEmail db.users email = getUserByEmail db email := by
  simp only [findUserByEmail, getUserByEmail, hexact]

theorem getUserByEmail_eq_some {db : Db} {email : String} {uid : UserId} {user : User}
    (hfound : getUserByEmail db email = some (uid, user)) :
    db.users.lookup uid = some user ∧ user.email = email := by
  obtain ⟨huser, hemail⟩ := Table.first_eq_some hfound
  exact ⟨huser, by simpa using hemail⟩

end FaAuthM8

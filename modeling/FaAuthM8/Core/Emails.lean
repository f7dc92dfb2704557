import FaAuthM8.Lib.Parsing

/-!
# E-mail addresses

An address a payload carries is trimmed and lower-cased before it is checked, and what the check returns is
stored. Lower-casing and the check belong to the language and to the e-mail library; what is used of them
is that neither leaves the normal form.
-/

namespace FaAuthM8

structure EmailRules where
  /-- `str.lower` -/
  lower : List Char → List Char
  /-- The check of an `EmailStr`, with the address as it returns it. -/
  emailStr : String → Option String

namespace EmailRules

variable (rules : EmailRules)

def normalizeEmail (email : String) : String :=
  String.ofList (rules.lower (Parsing.strip email.toList))

def IsNormal (email : String) : Prop := rules.normalizeEmail email = email

/-- The column bound of an e-mail. -/
def EMAIL_MAX_LENGTH : Nat := 255

/-- An `EmailStr` field with its normaliser before it. -/
def validateEmail (email : String) : Option String := rules.emailStr (rules.normalizeEmail email)

/-- The same field with its length bound. -/
def validateBoundedEmail (email : String) : Option String :=
  (rules.validateEmail email).filter fun email => email.length ≤ EMAIL_MAX_LENGTH

/-- The e-mail of an update, which may be unset or null. -/
def validateEmailUpdate : Option (Option String) → Option (Option (Option String))
  | some (some email) => (rules.validateBoundedEmail email).map fun email => some (some email)
  | unset => some unset

/-- Lower-casing a trimmed text brings no whitespace to its ends and has nothing left to do a second time;
the check keeps an address in normal form and accepts none with a control character. -/
structure Lawful : Prop where
  strip_lower : ∀ text, Parsing.strip (rules.lower (Parsing.strip text)) = rules.lower (Parsing.strip text)
  lower_lower : ∀ text, rules.lower (rules.lower text) = rules.lower text
  emailStr_normal : ∀ email checked, rules.emailStr email = some checked → rules.IsNormal email →
    rules.IsNormal checked
  emailStr_nul : ∀ email checked, rules.emailStr email = some checked → '\x00' ∉ checked.toList

variable {rules}

theorem normalizeEmail_normal (hlawful : rules.Lawful) (email : String) :
    rules.IsNormal (rules.normalizeEmail email) := by
  show String.ofList (rules.lower (Parsing.strip (rules.normalizeEmail email).toList)) = _
  rw [normalizeEmail, String.toList_ofList, hlawful.strip_lower, hlawful.lower_lower]

variable (rules) in
/-- What the routes store as an e-mail. -/
structure Storable (email : String) : Prop where
  normal : rules.IsNormal email
  noNul : '\x00' ∉ email.toList

theorem validateEmail_storable (hlawful : rules.Lawful) {email checked : String}
    (hchecked : rules.validateEmail email = some checked) : rules.Storable checked := by
  constructor
  · exact hlawful.emailStr_normal _ _ hchecked (normalizeEmail_normal hlawful email)
  · exact hlawful.emailStr_nul _ _ hchecked

theorem validateBoundedEmail_storable (hlawful : rules.Lawful) {email checked : String}
    (hchecked : rules.validateBoundedEmail email = some checked) : rules.Storable checked := by
  rw [validateBoundedEmail, Option.filter_eq_some_iff] at hchecked
  exact validateEmail_storable hlawful hchecked.1

theorem validateEmailUpdate_storable (hlawful : rules.Lawful) {email checked : Option (Option String)}
    (hchecked : rules.validateEmailUpdate email = some checked) {new : String}
    (hnew : checked = some (some new)) : rules.Storable new := by
  subst hnew
  rw [validateEmailUpdate.eq_def] at hchecked
  split at hchecked
  · obtain ⟨stored, hstored, heq⟩ := Option.map_eq_some_iff.1 hchecked
    obtain rfl : stored = new := by simpa using heq
    exact validateBoundedEmail_storable hlawful hstored
  · next unset hunset => exact absurd (Option.some.inj hchecked) (hunset new)

/-- Rules by which only the ASCII letters have a case and an address is any text with an at sign. -/
def ascii : EmailRules where
  lower := List.map Char.toLower
  emailStr email :=
    if email.toList.contains '@' && !email.toList.contains '\x00' then some email else none

theorem ascii_emailStr {email checked : String} (hchecked : ascii.emailStr email = some checked) :
    '\x00' ∉ email.toList ∧ email = checked := by
  simp only [ascii, Option.ite_none_right_eq_some, Bool.and_eq_true] at hchecked
  obtain ⟨⟨-, hnul⟩, heq⟩ := hchecked
  exact ⟨by simpa using hnul, Option.some.inj heq⟩

theorem ascii_lawful : ascii.Lawful where
  strip_lower text := by
    show Parsing.strip ((Parsing.strip text).map Char.toLower) = _
    rw [Parsing.strip_map Parsing.isSpace_toLower, Parsing.strip_strip]
    rfl
  lower_lower text := by
    show (text.map Char.toLower).map Char.toLower = text.map Char.toLower
    rw [List.map_map]
    apply List.map_congr_left
    intro c _
    exact Parsing.toLower_toLower c
  emailStr_normal email checked hchecked hnormal := by
    obtain ⟨-, rfl⟩ := ascii_emailStr hchecked
    exact hnormal
  emailStr_nul email checked hchecked := by
    obtain ⟨hnul, rfl⟩ := ascii_emailStr hchecked
    exact hnul

end EmailRules

end FaAuthM8

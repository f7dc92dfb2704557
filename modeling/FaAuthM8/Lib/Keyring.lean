import Mathlib.Data.List.Basic

/-!
# Opening with several keys

A value is encrypted under one key and decrypted by trying a list of keys in turn. Where a key decrypts what
was encrypted under it and nothing that was encrypted under another, a value is decrypted as what it was by
every list that has its key, whatever the other keys are and wherever it stands.
-/

namespace Keyring

/-- Encryption draws a nonce. -/
structure Cipher (κ ν α β : Type) where
  encrypt : κ → ν → α → β
  decrypt : κ → β → Option α

variable {κ ν α β : Type} {cipher : Cipher κ ν α β}

/-- A key decrypts what was encrypted under it, and nothing that was encrypted under another. -/
structure Cipher.Lawful (cipher : Cipher κ ν α β) : Prop where
  decrypt_encrypt : ∀ key nonce plain, cipher.decrypt key (cipher.encrypt key nonce plain) = some plain
  decrypt_other : ∀ key other nonce plain, other ≠ key →
    cipher.decrypt other (cipher.encrypt key nonce plain) = none

/-- The first key that decrypts does. -/
def Cipher.decryptAny (cipher : Cipher κ ν α β) (keys : List κ) (encrypted : β) : Option α :=
  keys.findSome? fun key => cipher.decrypt key encrypted

theorem decryptAny_encrypt (hlawful : cipher.Lawful) {keys : List κ} {key : κ} (hkey : key ∈ keys)
    (nonce : ν) (plain : α) : cipher.decryptAny keys (cipher.encrypt key nonce plain) = some plain := by
  classical
  induction keys with
  | nil => simp at hkey
  | cons first keys ih =>
      by_cases hfirst : first = key
      · rw [Cipher.decryptAny, List.findSome?_cons, hfirst, hlawful.decrypt_encrypt]
      · rw [Cipher.decryptAny, List.findSome?_cons, hlawful.decrypt_other _ _ _ _ hfirst]
        apply ih
        exact (List.mem_cons.1 hkey).resolve_left (Ne.symm hfirst)

end Keyring

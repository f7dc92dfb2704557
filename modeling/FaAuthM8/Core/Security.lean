import FaAuthM8.Lib.Keyring

/-!
# Encrypting provider tokens

The tokens of the provider are stored encrypted. A token is encrypted under the current key and decrypted
under the current or the previous one, so that the key can be rotated while values under the previous key
are still stored. A key is the configured text; the key Fernet uses is a hash of it.
-/

namespace FaAuthM8

/-- Fernet, under the key derived from a configured text. -/
abbrev Fernet := Keyring.Cipher String Nat String String

/-- `TOKENS_ENCRYPTION_KEY` and `TOKENS_ENCRYPTION_KEY_OLD`. -/
structure EncryptionKeys where
  current : String
  old : Option String := none
deriving DecidableEq, Repr

/-- `_multifernet`: the keys in the order they are tried; an empty previous key counts as none. -/
def EncryptionKeys.multifernet (keys : EncryptionKeys) : List String :=
  keys.current :: (keys.old.filter (· ≠ "")).toList

/-- `MultiFernet` encrypts under its first key. -/
def encryptToken (fernet : Fernet) (keys : EncryptionKeys) (nonce : Nat) (token : String) : String :=
  fernet.encrypt keys.current nonce token

/-- `decrypt_token`, with nothing for `InvalidToken`. -/
def decryptToken (fernet : Fernet) (keys : EncryptionKeys) (encrypted : String) : Option String :=
  fernet.decryptAny keys.multifernet encrypted

/-- A value is read as long as its key is the current or the previous one. -/
theorem decryptToken_encrypt {fernet : Fernet} (hlawful : fernet.Lawful) {key : String} {keys : EncryptionKeys}
    (hkey : key ∈ keys.multifernet) (nonce : Nat) (token : String) :
    decryptToken fernet keys (fernet.encrypt key nonce token) = some token :=
  Keyring.decryptAny_encrypt hlawful hkey nonce token

end FaAuthM8

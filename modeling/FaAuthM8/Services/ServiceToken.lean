import FaAuthM8.Core.Consumers
import FaAuthM8.Lib.Words
import Mathlib.Data.Finset.Sort
import Mathlib.Data.String.Basic

/-!
# Service tokens

A consumer exchanges its secret for a token that lives for some minutes and says which scopes it carries, in
one claim that lists them with spaces between. This service both issues and verifies it.
-/

namespace FaAuthM8

structure ServiceToken where
  sub : String
  scope : String
  type : String
  aud : String
  iat : Int
  nbf : Int
  exp : Int
deriving DecidableEq, Repr

/-- What a caller may put behind `Bearer`: a token this service signed, or something it did not. -/
inductive BearerToken
  | service (token : ServiceToken)
  | other
deriving DecidableEq, Repr

structure ServiceTokenClaims where
  clientId : String
  scopes : Finset String
deriving DecidableEq

inductive ServiceTokenError
  | invalid
  | expired
deriving DecidableEq, Repr

def serviceTokenAudience : String := "fa-auth-m8/internal-service"

def serviceTokenType : String := "service"

/-- The names in order, with spaces between. -/
def joinSorted (scopes : Finset String) : String := " ".intercalate scopes.sort

/-- The token and its lifetime. -/
def issueServiceToken (now : Int) (clientId : String) (scopes : Finset String) (ttlSeconds : Nat) :
    ServiceToken × Nat :=
  ({ sub := clientId
     scope := joinSorted scopes
     type := serviceTokenType
     aud := serviceTokenAudience
     iat := truncateToSecond now
     nbf := truncateToSecond now
     exp := truncateToSecond (now + ttlSeconds * second) }, ttlSeconds)

def decodeServiceToken (now : Int) : BearerToken → Except ServiceTokenError ServiceTokenClaims
  | .other => .error .invalid
  | .service token =>
      if now < token.iat || now < token.nbf then .error .invalid
      else if token.exp ≤ now then .error .expired
      else if token.aud != serviceTokenAudience then .error .invalid
      else if token.type != serviceTokenType then .error .invalid
      else if token.sub == "" then .error .invalid
      else .ok ⟨token.sub, (Words.splitWhitespace token.scope).toFinset⟩

theorem decodeServiceToken_eq_ok {now : Int} {token : ServiceToken} {claims : ServiceTokenClaims} :
    decodeServiceToken now (.service token) = .ok claims ↔
      token.iat ≤ now ∧ token.nbf ≤ now ∧ now < token.exp ∧ token.aud = serviceTokenAudience ∧
        token.type = serviceTokenType ∧ token.sub ≠ "" ∧
        claims = ⟨token.sub, (Words.splitWhitespace token.scope).toFinset⟩ := by
  simp only [decodeServiceToken, Bool.or_eq_true, decide_eq_true_eq, bne_iff_ne, beq_iff_eq]
  constructor
  · intro hdecoded
    split at hdecoded
    · cases hdecoded
    · next hstarted =>
        split at hdecoded
        · cases hdecoded
        · next hlives =>
            split at hdecoded
            · cases hdecoded
            · next haud =>
                split at hdecoded
                · cases hdecoded
                · next htype =>
                    split at hdecoded
                    · cases hdecoded
                    · next hsub =>
                        rw [not_or, Int.not_lt, Int.not_lt] at hstarted
                        exact ⟨hstarted.1, hstarted.2, Int.not_le.1 hlives, not_not.1 haud, not_not.1 htype,
                          hsub, (Except.ok.inj hdecoded).symm⟩
  · rintro ⟨hissued, hstarted, hlives, haud, htype, hsub, rfl⟩
    rw [if_neg (by omega), if_neg (by omega), if_neg (not_not.2 haud), if_neg (not_not.2 htype),
      if_neg hsub]

/-- The scopes a token carries: the words of the scopes it was issued for. -/
def carriedScopes (scopes : Finset String) : Finset String :=
  (Words.splitWhitespace (joinSorted scopes)).toFinset

theorem mem_carriedScopes {scopes : Finset String} {word : String} :
    word ∈ carriedScopes scopes ↔ ∃ scope ∈ scopes, word ∈ Words.splitWhitespace scope := by
  rw [carriedScopes, joinSorted, List.mem_toFinset, Words.splitWhitespace_join, List.mem_flatMap]
  simp only [Finset.mem_sort]

theorem decode_issueServiceToken {now now' : Int} {clientId : String} {scopes : Finset String}
    {ttlSeconds : Nat} {claims : ServiceTokenClaims} :
    decodeServiceToken now' (.service (issueServiceToken now clientId scopes ttlSeconds).1) = .ok claims ↔
      truncateToSecond now ≤ now' ∧ now' < truncateToSecond (now + ttlSeconds * second) ∧
        clientId ≠ "" ∧ claims = ⟨clientId, carriedScopes scopes⟩ := by
  rw [decodeServiceToken_eq_ok]
  constructor
  · intro ⟨hissued, _, hlives, _, _, hsub, hclaims⟩
    exact ⟨hissued, hlives, hsub, hclaims⟩
  · intro ⟨hissued, hlives, hsub, hclaims⟩
    exact ⟨hissued, hissued, hlives, rfl, rfl, hsub, hclaims⟩

end FaAuthM8

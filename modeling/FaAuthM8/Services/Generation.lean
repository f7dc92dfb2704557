import FaAuthM8.Database

/-!
# The authorization generation

Each user carries a counter that only grows. A session is stamped with its owner's counter when it is
issued, and it is current as long as the two agree.
-/

namespace FaAuthM8

/-- Signed 64-bit ceiling of the stored counter. -/
def GENERATION_MAX : Nat := 2 ^ 63 - 1

inductive ServiceError
  | generationOverflow
  | lastSuperuserRequired
  | selfPromotionForbidden
  | invalidPassword
  | userNotFound
  | notMismatched
  | database (error : DbError)
deriving DecidableEq, Repr

def nextGeneration (current : Nat) : Except ServiceError Nat :=
  if GENERATION_MAX ≤ current then .error .generationOverflow else .ok (current + 1)

theorem nextGeneration_eq_ok {current next : Nat} :
    nextGeneration current = .ok next ↔ current < GENERATION_MAX ∧ next = current + 1 := by
  rw [nextGeneration]
  split
  · next hmax => simp [Nat.not_lt.2 hmax]
  · next hmax => simp [Nat.not_le.1 hmax, eq_comm]

def isSessionGenerationStale (sessionGeneration : Option Nat) (ownerGeneration : Nat) : Bool :=
  sessionGeneration != some ownerGeneration

@[simp] theorem isSessionGenerationStale_eq_false {stamp : Option Nat} {generation : Nat} :
    isSessionGenerationStale stamp generation = false ↔ stamp = some generation := by
  simp [isSessionGenerationStale]

structure JtiStatusDecision where
  active : Bool
  userId : Option UserId := none
  authGeneration : Option Nat := none
deriving DecidableEq, Repr

def subjectIsTombstoned (db : Db) (uid : UserId) : Bool :=
  (db.tombstones.lookup uid).isSome

def sessionByJti (db : Db) (jti : Jti) : Option (SessionId × ClientSession) :=
  db.sessions.first fun _ row => row.jwtJti == jti

def sessionGenerationIsStale (db : Db) (jti : Jti) (expectedUserId : UserId) : Bool :=
  if subjectIsTombstoned db expectedUserId then
    true
  else
    match sessionByJti db jti with
    | none => true
    | some (_, clientSession) =>
        if clientSession.userId != expectedUserId then
          true
        else
          match db.users.lookup clientSession.userId with
          | none => true
          | some owner =>
              if !owner.isActive then
                true
              else
                isSessionGenerationStale clientSession.authGeneration owner.authGeneration

/-- The ordered database decision behind `/private/v1/jti-status`. -/
def decideJtiStatus (db : Db) (jti : Jti) (expectedUserId : UserId) : JtiStatusDecision :=
  if subjectIsTombstoned db expectedUserId then
    ⟨false, none, none⟩
  else
    match sessionByJti db jti with
    | none => ⟨false, none, none⟩
    | some (_, clientSession) =>
        if clientSession.revoked || clientSession.userId != expectedUserId then
          ⟨false, none, none⟩
        else
          match db.users.lookup clientSession.userId with
          | none => ⟨false, none, none⟩
          | some owner =>
              if !owner.isActive || !privilegeClaimsAreConsistent owner.role owner.isSuperuser ||
                  isSessionGenerationStale clientSession.authGeneration owner.authGeneration then
                ⟨false, none, none⟩
              else
                ⟨true, some clientSession.userId, some owner.authGeneration⟩

theorem sessionByJti_eq_some {db : Db} {jti : Jti} {id : SessionId} {row : ClientSession}
    (hfirst : sessionByJti db jti = some (id, row)) :
    db.sessions.lookup id = some row ∧ row.jwtJti = jti := by
  obtain ⟨hrow, hjti⟩ := Table.first_eq_some hfirst
  exact ⟨hrow, by simpa using hjti⟩

theorem sessionByJti_eq_none_iff {db : Db} {jti : Jti} :
    sessionByJti db jti = none ↔
      ∀ id row, db.sessions.lookup id = some row → row.jwtJti ≠ jti := by
  simp [sessionByJti, Table.first_eq_none_iff]

/-- The decision is active exactly for the current session of an existing, active, consistent owner. -/
theorem decideJtiStatus_active_iff {db : Db} {jti : Jti} {uid : UserId} :
    (decideJtiStatus db jti uid).active = true ↔
      db.tombstones.lookup uid = none ∧ ∃ id row owner,
        sessionByJti db jti = some (id, row) ∧ row.revoked = false ∧ row.userId = uid ∧
          db.users.lookup uid = some owner ∧ owner.isActive = true ∧
          privilegeClaimsAreConsistent owner.role owner.isSuperuser = true ∧
          row.authGeneration = some owner.authGeneration := by
  rw [decideJtiStatus]
  cases htomb : db.tombstones.lookup uid with
  | some tombstone => simp [subjectIsTombstoned, htomb]
  | none =>
      rw [if_neg (by simp [subjectIsTombstoned, htomb])]
      cases hrow : sessionByJti db jti with
      | none => simp
      | some found =>
          obtain ⟨id, row⟩ := found
          by_cases hbad : (row.revoked || row.userId != uid) = true
          · simp only [hbad, if_true, Bool.false_eq_true, true_and, false_iff]
            rintro ⟨id', row', owner, hfound, hrevoked, huser, -⟩
            cases hfound
            simp [hrevoked, huser] at hbad
          · have hgood : row.revoked = false ∧ row.userId = uid := by simpa using hbad
            obtain ⟨hrevoked, rfl⟩ := hgood
            dsimp only
            rw [if_neg hbad]
            cases howner : db.users.lookup row.userId with
            | none => simp
            | some owner =>
                dsimp only
                by_cases hstale : (!owner.isActive ||
                    !privilegeClaimsAreConsistent owner.role owner.isSuperuser ||
                    isSessionGenerationStale row.authGeneration owner.authGeneration) = true
                · simp only [hstale, if_true, Bool.false_eq_true, true_and, false_iff]
                  rintro ⟨id', row', owner', hfound, -, -, heq, hactive, hconsistent, hstamp⟩
                  cases hfound
                  cases heq
                  simp [hactive, hconsistent, hstamp, isSessionGenerationStale] at hstale
                · rw [if_neg hstale]
                  have hcurrent := hstale
                  simp only [Bool.not_eq_true, Bool.or_eq_false_iff, Bool.not_eq_false',
                    isSessionGenerationStale_eq_false] at hcurrent
                  simp only [true_and, true_iff]
                  exact ⟨id, row, owner, rfl, hrevoked, rfl, rfl, hcurrent.1.1,
                    hcurrent.1.2, hcurrent.2⟩

end FaAuthM8

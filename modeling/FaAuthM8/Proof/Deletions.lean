import FaAuthM8.Proof.Generations
import FaAuthM8.Proof.Superuser

/-!
# Hard deletions

Two routes delete the row of a user. The administrator's raises the tombstone in the same transaction, one
above the generation of the row it loaded, and asks the guard of the last superuser. The user's own deletes
the row and nothing else: what it asks of superusers it asks of the claims in the token.

A deletion is safe when its tombstone outranks every stamp of the subject and a superuser is left. That is so
for the administrator's unless the row it loaded was out of date in a way that matters.
-/

namespace FaAuthM8

/-- A session of user `uid` carries this generation, or was stamped with it once. -/
inductive Stamped (w : World) (uid : UserId) (generation : Nat) : Prop
  | session {id : SessionId} {row : ClientSession} (hrow : w.db.sessions.lookup id = some row)
      (huser : row.userId = uid) (hstamp : row.authGeneration = some generation)
  | stamped {row : ClientSession} (hmem : .stamped row ∈ w.log) (huser : row.userId = uid)
      (hstamp : row.authGeneration = some generation)

/-- The step from `w` to `w'` deletes the row of user `uid`. -/
structure DeletesAccount (w w' : World) (uid : UserId) : Prop where
  before : (w.db.users.lookup uid).isSome = true
  after : w'.db.users.lookup uid = none

/-- What a deletion is to leave behind: a new tombstone above every stamp of the subject, and another active
canonical superuser if the subject was one. -/
structure DeletionSafe (w w' : World) (uid : UserId) : Prop where
  recorded : ∃ tombstone, w'.db.tombstones.lookup uid = some tombstone ∧
    w.db.tombstones.lookup uid ≠ some tombstone ∧
    ∀ generation, Stamped w uid generation → generation < tombstone.terminalGeneration
  superuser : ∀ user, w.db.users.lookup uid = some user → isActiveCanonicalSuperuser user = true →
    ∃ other user', other ≠ uid ∧ w'.db.users.lookup other = some user' ∧
      isActiveCanonicalSuperuser user' = true

/-- The step from `w` to `w'` commits a deletion of an existing row by the user itself, or one by an
administrator whose loaded copy is older than a stamp of the subject, or is no superuser where the committed
row is the last one. -/
inductive UnsafeDeletion (w w' : World) : Local → Prop
  | selfService {r : DeleteMeRequest} (huser : (w.db.users.lookup r.token.sub).isSome = true)
      (hcommit : commit [.deleteUser r.token.sub] w.db = .ok w'.db) :
      UnsafeDeletion w w' (.deleteMe r .commit)
  | outdated {r : DeleteRequest} {copy : User} {terminal revision : Nat} {doomed : List SessionId}
      {generation : Nat} (huser : (w.db.users.lookup r.userId).isSome = true)
      (hstamped : Stamped w r.userId generation) (hlater : copy.authGeneration < generation)
      (hcommit : commit (deletionWrites r.actor r.userId terminal doomed revision w.now) w.db
        = .ok w'.db) :
      UnsafeDeletion w w' (.delete r (.commit copy terminal revision doomed))
  | unguarded {r : DeleteRequest} {copy : User} {terminal revision : Nat} {doomed : List SessionId}
      (hlast : IsLastSuperuser w.db r.userId) (hcopy : isActiveCanonicalSuperuser copy = false)
      (hcommit : commit (deletionWrites r.actor r.userId terminal doomed revision w.now) w.db
        = .ok w'.db) :
      UnsafeDeletion w w' (.delete r (.commit copy terminal revision doomed))

/-- The user has no tombstone as long as its row is there. -/
def TombstonesFinal (db : Db) : Prop :=
  ∀ uid tombstone, db.tombstones.lookup uid = some tombstone →
    uid < db.nextUserId ∧ db.users.lookup uid = none

/-- The terminal generation of a deletion past its guard is one above that of its copy. -/
def Local.TerminalRead : Local → Prop
  | .delete _ (.purge copy terminal _) => terminal = copy.authGeneration + 1
  | .delete _ (.commit copy terminal _ _) => terminal = copy.authGeneration + 1
  | _ => True

theorem Db.lookup_raiseTombstone_new {db : Db} {uid : UserId} (hnone : db.tombstones.lookup uid = none)
    (terminal : Nat) (now : Int) :
    (db.raiseTombstone uid terminal now).tombstones.lookup uid = some ⟨terminal, now⟩ := by
  simp [Db.raiseTombstone, hnone]

theorem Db.lookup_raiseTombstone_ne {db : Db} {uid other : UserId} (hother : other ≠ uid)
    (terminal : Nat) (now : Int) :
    (db.raiseTombstone uid terminal now).tombstones.lookup other = db.tombstones.lookup other := by
  rw [Db.raiseTombstone]
  split
  · exact AList.lookup_insert_ne hother
  · split
    · exact AList.lookup_insert_ne hother
    · rfl

section

variable {settings : Settings} {p q : Pid} {w w' : World} {l l' : Local} {a : Action}

theorem Step.terminalRead (hstep : Step settings p w l a w' l') (hread : l.TerminalRead) :
    l'.TerminalRead := by
  cases l' with
  | delete r phase' =>
      obtain ⟨-, -, rfl⟩ | ⟨phase, rfl, hdelete⟩ := hstep.of_delete
      · exact trivial
      · cases hdelete with
        | enforceCount hterminal | enforceSkip hterminal => exact (nextGeneration_eq_ok.1 hterminal).2
        | purge => exact hread
        | _ => exact trivial
  | _ => exact trivial

/-- The user behind every loaded copy has been drawn. -/
def CopiesDrawn (w : World) (l : Local) : Prop :=
  ∀ uid copy, l.copy = some (uid, copy) → uid < w.db.nextUserId

theorem Step.othersCopiesDrawn (hstep : Step settings p w l a w' l') {m : Local}
    (hdrawn : CopiesDrawn w m) : CopiesDrawn w' m := by
  intro uid copy hcopy
  exact Nat.lt_of_lt_of_le (hdrawn uid copy hcopy) hstep.nextUserId_le

theorem Step.copiesDrawn (hfresh : w.db.IdsFresh) (hstep : Step settings p w l a w' l')
    (hdrawn : CopiesDrawn w l) : CopiesDrawn w' l' := by
  intro uid copy hcopy
  rcases hstep.copy hcopy with hold | hloaded
  · exact hstep.othersCopiesDrawn hdrawn uid copy hold
  · exact (hstep.idsFresh hfresh).users uid copy hloaded

theorem Step.tombstonesFinal (hfresh : w.db.IdsFresh) (hfinal : TombstonesFinal w.db)
    (hdrawn : CopiesDrawn w l) (hstep : Step settings p w l a w' l') : TombstonesFinal w'.db := by
  intro uid tombstone htombstone
  have hkept (hbefore : w.db.tombstones.lookup uid = some tombstone) :
      uid < w'.db.nextUserId ∧ w'.db.users.lookup uid = none := by
    obtain ⟨hlt, hgone⟩ := hfinal uid tombstone hbefore
    refine ⟨Nat.lt_of_lt_of_le hlt hstep.nextUserId_le, ?_⟩
    cases huser : w'.db.users.lookup uid with
    | none => rfl
    | some user =>
        obtain ⟨before, hbefore⟩ := hstep.user_was hfresh hlt huser
        exact absurd (hgone.symm.trans hbefore) nofun
  cases hstep.tombstonesChange hfresh with
  | same htombstones => exact hkept (htombstones ▸ htombstone)
  | @raised r copy _ _ _ hlocal hcommit =>
      subst hlocal
      have hcommitted := commit_deletionWrites hcommit
      by_cases huid : uid = r.userId
      · subst huid
        refine ⟨Nat.lt_of_lt_of_le (hdrawn _ copy rfl) hstep.nextUserId_le, ?_⟩
        rw [hcommitted.users, Table.lookup_erase_eq, if_pos rfl]
      · rw [hcommitted.tombstones, Db.lookup_raiseTombstone_ne huid] at htombstone
        exact hkept htombstone

theorem Step.deletesAccount (hfresh : w.db.IdsFresh) (hstep : Step settings p w l a w' l') {uid : UserId}
    (hdeletes : DeletesAccount w w' uid) :
    (∃ r copy terminal revision doomed, l = .delete r (.commit copy terminal revision doomed) ∧
      r.userId = uid ∧
      commit (deletionWrites r.actor r.userId terminal doomed revision w.now) w.db = .ok w'.db) ∨
    ∃ r, l = .deleteMe r .commit ∧ r.token.sub = uid ∧
      commit [.deleteUser r.token.sub] w.db = .ok w'.db := by
  obtain ⟨hbefore, hafter⟩ := hdeletes
  have hinserted {key : UserId} {row : User} (husers : w'.db.users = w.db.users.insert key row) :
      False := by
    rw [husers, Table.lookup_insert_eq] at hafter
    split at hafter
    · cases hafter
    · rw [hafter] at hbefore
      cases hbefore
  have herased {key : UserId} (husers : w'.db.users = w.db.users.erase key) : key = uid := by
    by_contra hne
    rw [husers, Table.lookup_erase_eq, if_neg (Ne.symm hne)] at hafter
    rw [hafter] at hbefore
    cases hbefore
  cases hstep.usersChange hfresh with
  | same husers =>
      rw [husers] at hafter
      rw [hafter] at hbefore
      cases hbefore
  | created _ husers => exact (hinserted husers).elim
  | updated _ _ _ _ _ husers => exact (hinserted husers).elim
  | repaired _ _ _ husers => exact (hinserted husers).elim
  | deleted hlocal hcommit husers => exact .inl ⟨_, _, _, _, _, hlocal, herased husers, hcommit⟩
  | selfDeleted hlocal hcommit _ husers => exact .inr ⟨_, hlocal, herased husers, hcommit⟩

/-- An administrator's deletion is safe exactly when no stamp is later than the generation it loaded and its
guard has looked at a superuser if it removes the last one. -/
theorem deletionWrites_safe_iff {r : DeleteRequest} {copy : User} {terminal revision : Nat}
    {doomed : List SessionId} (hnone : w.db.tombstones.lookup r.userId = none)
    (hterminal : terminal = copy.authGeneration + 1)
    (hpassed : isActiveCanonicalSuperuser copy = true → Guarded p w r.userId)
    (hcommit : commit (deletionWrites r.actor r.userId terminal doomed revision w.now) w.db
      = .ok w'.db) :
    DeletionSafe w w' r.userId ↔
      (∀ generation, Stamped w r.userId generation → generation ≤ copy.authGeneration) ∧
        (IsLastSuperuser w.db r.userId → isActiveCanonicalSuperuser copy = true) := by
  have hcommitted := commit_deletionWrites hcommit
  have htombstone : w'.db.tombstones.lookup r.userId = some ⟨terminal, w.now⟩ := by
    rw [hcommitted.tombstones, Db.lookup_raiseTombstone_new hnone]
  have hothers : ∀ other, other ≠ r.userId →
      w'.db.users.lookup other = w.db.users.lookup other := by
    intro other hne
    rw [hcommitted.users, Table.lookup_erase_eq, if_neg hne]
  constructor
  · rintro ⟨⟨tombstone, hwritten, -, habove⟩, hsuperuser⟩
    rw [htombstone, Option.some.injEq] at hwritten
    subst hwritten
    refine ⟨fun generation hstamped => ?_, fun hlast => ?_⟩
    · have hlt : generation < terminal := habove generation hstamped
      omega
    · obtain ⟨⟨user, huser, hcanonical⟩, honly⟩ := hlast
      obtain ⟨other, user', hne, hother, hcanonical'⟩ := hsuperuser user huser hcanonical
      rw [hothers other hne] at hother
      exact absurd (honly other user' hother hcanonical') hne
  · rintro ⟨hstamps, hguard⟩
    refine ⟨⟨⟨terminal, w.now⟩, htombstone, ?_, fun generation hstamped => ?_⟩, ?_⟩
    · rw [hnone]
      nofun
    · have hle := hstamps generation hstamped
      show generation < terminal
      omega
    · intro user huser hcanonical
      have hsome : HasSuperuser w.db := ⟨r.userId, user, huser, hcanonical⟩
      have hother : ∃ other user', other ≠ r.userId ∧ w.db.users.lookup other = some user' ∧
          isActiveCanonicalSuperuser user' = true := by
        rcases hsome.last_or_other r.userId with hlast | hother
        · obtain ⟨other, user', hne, -, huser', hcanonical'⟩ := hpassed (hguard hlast)
          exact ⟨other, user', hne, huser', hcanonical'⟩
        · exact hother
      obtain ⟨other, user', hne, huser', hcanonical'⟩ := hother
      exact ⟨other, user', hne, (hothers other hne).trans huser', hcanonical'⟩

theorem selfService_unsafe {r : DeleteMeRequest} (hcommit : commit [.deleteUser r.token.sub] w.db = .ok w'.db) :
    ¬ DeletionSafe w w' r.token.sub := by
  rintro ⟨⟨tombstone, hwritten, hnew, -⟩, -⟩
  have hsame : w'.db.tombstones = w.db.tombstones :=
    (congrArg Db.tombstones (Except.ok.inj hcommit)).symm
  exact hnew (hsame ▸ hwritten)

/-- A step that is no unsafe deletion leaves every account it deletes recorded, and the other way round. -/
theorem Step.deletion_safe (hfresh : w.db.IdsFresh) (hfinal : TombstonesFinal w.db)
    (hpassed : GuardPassed settings p w l) (hread : l.TerminalRead)
    (hstep : Step settings p w l a w' l') :
    ¬ UnsafeDeletion w w' l ↔ ∀ uid, DeletesAccount w w' uid → DeletionSafe w w' uid := by
  have hnone {uid : UserId} (huser : (w.db.users.lookup uid).isSome = true) :
      w.db.tombstones.lookup uid = none := by
    cases htombstone : w.db.tombstones.lookup uid with
    | none => rfl
    | some tombstone =>
        rw [(hfinal uid tombstone htombstone).2] at huser
        cases huser
  constructor
  · intro hsafe uid hdeletes
    obtain ⟨r, copy, terminal, revision, doomed, rfl, rfl, hcommit⟩ | ⟨r, rfl, rfl, hcommit⟩ :=
      hstep.deletesAccount hfresh hdeletes
    · refine (deletionWrites_safe_iff (hnone hdeletes.before) hread hpassed hcommit).2 ⟨?_, ?_⟩
      · intro generation hstamped
        by_contra hlater
        exact hsafe (.outdated hdeletes.before hstamped (Nat.not_le.1 hlater) hcommit)
      · intro hlast
        by_contra hcopy
        exact hsafe (.unguarded hlast (by simpa using hcopy) hcommit)
    · exact absurd (.selfService hdeletes.before hcommit) hsafe
  · intro hall hunsafe
    cases hunsafe with
    | @selfService r huser hcommit =>
        refine selfService_unsafe hcommit (hall r.token.sub ⟨huser, ?_⟩)
        rw [← Except.ok.inj hcommit, Db.deleteUser, Table.lookup_erase_eq, if_pos rfl]
    | @outdated r copy terminal revision doomed generation huser hstamped hlater hcommit =>
        have hgone : w'.db.users.lookup r.userId = none := by
          rw [(commit_deletionWrites hcommit).users, Table.lookup_erase_eq, if_pos rfl]
        have hsafe := (deletionWrites_safe_iff (hnone huser) hread hpassed hcommit).1
          (hall r.userId ⟨huser, hgone⟩)
        exact absurd (hsafe.1 generation hstamped) (Nat.not_le.2 hlater)
    | @unguarded r copy terminal revision doomed hlast hcopy hcommit =>
        obtain ⟨user, huser, -⟩ := hlast.1
        have hsome : (w.db.users.lookup r.userId).isSome = true := by rw [huser]; rfl
        have hgone : w'.db.users.lookup r.userId = none := by
          rw [(commit_deletionWrites hcommit).users, Table.lookup_erase_eq, if_pos rfl]
        have hsafe := (deletionWrites_safe_iff (hnone hsome) hread hpassed hcommit).1
          (hall r.userId ⟨hsome, hgone⟩)
        rw [hsafe.2 hlast] at hcopy
        cases hcopy

theorem Stamped.recorded {uid : UserId} {generation : Nat} (hstamped : Stamped w uid generation) :
    Recorded w uid generation := by
  cases hstamped with
  | session hrow huser hstamp => exact .session hrow huser hstamp
  | stamped hmem huser hstamp => exact .stamped hmem huser hstamp

/-- What holds in every state of a run. -/
def DeletionInv (settings : Settings) : Interleaving.Config World Local → Prop :=
  Interleaving.Asserted (fun w => w.db.IdsFresh ∧ TombstonesFinal w.db) fun p w l =>
    HoldsUserLock p w l ∧ GuardPassed settings p w l ∧ l.TerminalRead ∧ CopiesDrawn w l

theorem DeletionInv.next {c c' : Interleaving.Config World Local} {move : Pid × Action}
    (hinv : DeletionInv settings c) (hnext : (issuer settings).next c move = some c') :
    DeletionInv settings c' := by
  refine asserted_next hnext fun l' hstep => ?_
  obtain ⟨hfresh, hfinal⟩ := hinv.shared
  obtain ⟨hholds, hpassed, hread, hdrawn⟩ := hinv.locals move.1
  refine ⟨⟨hstep.idsFresh hfresh, hstep.tombstonesFinal hfresh hfinal hdrawn⟩,
    ⟨hstep.holdsUserLock hholds, hstep.guardPassed hpassed, hstep.terminalRead hread,
      hstep.copiesDrawn hfresh hdrawn⟩, fun q hq => ?_⟩
  obtain ⟨hholds', hpassed', hread', hdrawn'⟩ := hinv.locals q
  exact ⟨hstep.othersHoldUserLock hq hholds', hstep.othersGuardPassed hfresh hholds hq hholds' hpassed',
    hread', hstep.othersCopiesDrawn hdrawn'⟩

/-- In a run of any requests, every committed deletion of an account is recorded and leaves a superuser
exactly when no step of the run is an unsafe deletion. -/
theorem deletions_safe_iff (settings : Settings) {c : Interleaving.Config World Local}
    (hrest : ∀ p, c.locals p = .idle) (hfresh : c.shared.db.IdsFresh)
    (hfinal : TombstonesFinal c.shared.db) (schedule : List (Pid × Action)) :
    (issuer settings).Along (fun c move c' => ¬ UnsafeDeletion c.shared c'.shared (c.locals move.1))
      c schedule ↔
    (issuer settings).Along (fun c _ c' => ∀ uid, DeletesAccount c.shared c'.shared uid →
      DeletionSafe c.shared c'.shared uid) c schedule := by
  have hinv : DeletionInv settings c := by
    refine ⟨⟨hfresh, hfinal⟩, fun p => ?_⟩
    rw [hrest p]
    exact ⟨.of_none rfl, trivial, trivial, fun uid copy hcopy => by cases hcopy⟩
  refine Interleaving.System.along_iff ?_ (fun c move c' hinv hnext _ => hinv.next hnext) schedule hinv
  intro c move c' hinv hnext
  obtain ⟨l', -, hstep⟩ := next_sound hnext
  obtain ⟨-, hpassed, hread, -⟩ := hinv.locals move.1
  exact hstep.deletion_safe hinv.shared.1 hinv.shared.2 hpassed hread

end

/-- The reader logs in and is then made a superuser. With the token that still shows a reader it asks for
its own deletion. -/
def staleClaims : List (Pid × Action) :=
  firstLogin 0 ++
    ((1, .begin (.update ⟨⟨9, .superadmin⟩, 1, { role := some (some .superadmin) }⟩ .load)) ::
      List.replicate 8 (1, .proceed)) ++
    (2, .begin (.deleteMe ⟨(readerPair {}).access, true⟩ .authenticate)) :: List.replicate 2 (2, .proceed)

theorem oneReader_tombstonesFinal : TombstonesFinal oneReader.shared.db := by
  intro uid tombstone htombstone
  cases htombstone

theorem deletions_safe_iff_staleClaims :
    (issuer {}).Along (fun c move c' => ¬ UnsafeDeletion c.shared c'.shared (c.locals move.1))
      oneReader (staleClaims ++ [(2, .proceed)]) ↔
    (issuer {}).Along (fun c _ c' => ∀ uid, DeletesAccount c.shared c'.shared uid →
      DeletionSafe c.shared c'.shared uid) oneReader (staleClaims ++ [(2, .proceed)]) :=
  deletions_safe_iff {} oneReader_starts.idle oneReader_starts.fresh oneReader_tombstonesFinal
    (staleClaims ++ [(2, .proceed)])

/-- The next step deletes the only superuser and leaves no tombstone. -/
theorem deletion_unrecorded :
    ∃ c c', (issuer {}).run oneReader staleClaims = some c ∧
      (issuer {}).next c (2, .proceed) = some c' ∧
      (c.shared.db.users.lookup 1).any isActiveCanonicalSuperuser = true ∧
      DeletesAccount c.shared c'.shared 1 ∧ c'.shared.db.tombstones.lookup 1 = none ∧
      ¬ HasSuperuser c'.shared.db ∧ ¬ DeletionSafe c.shared c'.shared 1 := by
  have hruns : ((issuer {}).run oneReader staleClaims).map (fun c =>
      ((c.shared.db.users.lookup 1).any isActiveCanonicalSuperuser,
        ((issuer {}).next c (2, .proceed)).map (fun c' =>
          (c'.shared.db.users.rows (fun _ _ => true), c'.shared.db.tombstones.lookup 1))))
      = some (true, some ([], none)) := by
    decide +kernel
  obtain ⟨c, hrun, hresult⟩ := Option.map_eq_some_iff.1 hruns
  obtain ⟨hcanonical, hnext⟩ := Prod.mk.inj hresult
  obtain ⟨c', hnext, hafter⟩ := Option.map_eq_some_iff.1 hnext
  obtain ⟨hrows, htombstone⟩ := Prod.mk.inj hafter
  have hgone : ∀ uid, c'.shared.db.users.lookup uid = none := by
    intro uid
    cases huser : c'.shared.db.users.lookup uid with
    | none => rfl
    | some user => exact absurd (Table.rows_eq_nil_iff.1 hrows uid user huser) nofun
  have hbefore : (c.shared.db.users.lookup 1).isSome = true := by
    cases huser : c.shared.db.users.lookup 1 with
    | none =>
        rw [huser] at hcanonical
        cases hcanonical
    | some user => rfl
  refine ⟨c, c', hrun, hnext, hcanonical, ⟨hbefore, hgone 1⟩, htombstone, ?_, ?_⟩
  · rintro ⟨uid, user, huser, -⟩
    exact absurd ((hgone uid).symm.trans huser) nofun
  · rintro ⟨⟨tombstone, hwritten, -⟩, -⟩
    exact absurd (htombstone.symm.trans hwritten) nofun

end FaAuthM8

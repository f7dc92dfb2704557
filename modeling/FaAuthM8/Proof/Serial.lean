import FaAuthM8.System.Events

/-!
# Administrative requests on their own

A request that runs from its first statement to its last while no other process moves. Everything it has
read is then what the database holds, so its commit can be described from the database it started on: either
the request leaves that database as it was, or it commits the writes of its plan.
-/

namespace FaAuthM8

/-- A request that changes what a user may do. -/
inductive AdminRequest
  | update (r : UpdateRequest)
  | delete (r : DeleteRequest)
  | repair (r : RepairRequest)
deriving DecidableEq, Repr

namespace AdminRequest

def start : AdminRequest → Local
  | update r => .update r .load
  | delete r => .delete r .load
  | repair r => .repair r .load

def target : AdminRequest → UserId
  | update r => r.userId
  | delete r => r.userId
  | repair r => r.userId

def isDeletion : AdminRequest → Bool
  | delete _ => true
  | update _ | repair _ => false

end AdminRequest

/-- What the locked policy row holds, for an update that locks it. -/
def lockedRevision (db : Db) (copy : User) (userIn : UserUpdate) : Option Nat :=
  if (resolveUpdateIntent copy userIn).affectsSet then some (db.policyRevision.getD 0) else none

/-- What an update has read, when the database has not changed since it began. -/
def UpdatePhase.ReadFrom (settings : Settings) (db : Db) (now : Int) (r : UpdateRequest) :
    UpdatePhase → Prop
  | .load => True
  | .checkEmail copy => db.users.lookup r.userId = some copy
  | .lockPolicy copy =>
      db.users.lookup r.userId = some copy ∧ (resolveUpdateIntent copy r.userIn).affectsSet = true
  | .lockUser copy revision | .enforce copy revision =>
      db.users.lookup r.userId = some copy ∧ lockedRevision db copy r.userIn = some revision
  | .apply copy revision =>
      db.users.lookup r.userId = some copy ∧ revision = lockedRevision db copy r.userIn
  | .purge copy plan revision targets =>
      db.users.lookup r.userId = some copy ∧ revision = lockedRevision db copy r.userIn ∧
        planUpdate settings copy r.userIn = .ok plan ∧ plan.authorizationChanged = true ∧
        targets = captureTargets db r.userId now
  | .commit copy plan revision targets doomed =>
      db.users.lookup r.userId = some copy ∧ revision = lockedRevision db copy r.userIn ∧
        planUpdate settings copy r.userIn = .ok plan ∧
        (plan.authorizationChanged = true →
          targets = captureTargets db r.userId now ∧ doomed = sessionIds db (ownedBy r.userId))

def DeletePhase.ReadFrom (db : Db) (r : DeleteRequest) : DeletePhase → Prop
  | .load => True
  | .lockPolicy copy => db.users.lookup r.userId = some copy
  | .lockUser copy revision | .enforce copy revision =>
      db.users.lookup r.userId = some copy ∧ revision = db.policyRevision.getD 0
  | .purge copy terminal revision =>
      db.users.lookup r.userId = some copy ∧ revision = db.policyRevision.getD 0 ∧
        nextGeneration copy.authGeneration = .ok terminal
  | .commit copy terminal revision doomed =>
      db.users.lookup r.userId = some copy ∧ revision = db.policyRevision.getD 0 ∧
        nextGeneration copy.authGeneration = .ok terminal ∧ doomed = sessionIds db (ownedBy r.userId)

/-- The row a repair works on and the generation it writes. -/
def RepairRequest.Repairs (db : Db) (r : RepairRequest) (newGeneration : Nat) : Prop :=
  ∃ current, db.users.lookup r.userId = some current ∧
    privilegeClaimsAreConsistent current.role current.isSuperuser = false ∧
    nextGeneration current.authGeneration = .ok newGeneration

def RepairPhase.ReadFrom (db : Db) (now : Int) (r : RepairRequest) : RepairPhase → Prop
  | .load => True
  | .capture newGeneration => r.Repairs db newGeneration
  | .purge newGeneration targets =>
      r.Repairs db newGeneration ∧ targets = captureTargets db r.userId now
  | .commit newGeneration targets doomed =>
      r.Repairs db newGeneration ∧ targets = captureTargets db r.userId now ∧
        doomed = sessionIds db (ownedBy r.userId)

/-- A process in this state serves `request`, and has read what it knows from `db`. -/
def Local.Serves (settings : Settings) (db : Db) (now : Int) (request : AdminRequest) : Local → Prop
  | .update r phase => request = .update r ∧ phase.ReadFrom settings db now r
  | .delete r phase => request = .delete r ∧ phase.ReadFrom db r
  | .repair r phase => request = .repair r ∧ phase.ReadFrom db now r
  | _ => False

/-- The request commits its writes, all computed from `db`. -/
inductive AdminRequest.Commits (settings : Settings) (db : Db) (now : Int) (db' : Db) :
    AdminRequest → Prop
  | update {r : UpdateRequest} {copy : User} {plan : UpdatePlan} {targets : List RevocationTarget}
      {doomed : List SessionId} (hcopy : db.users.lookup r.userId = some copy)
      (hplan : planUpdate settings copy r.userIn = .ok plan)
      (hread : plan.authorizationChanged = true →
        targets = captureTargets db r.userId now ∧ doomed = sessionIds db (ownedBy r.userId))
      (hcommit : commit (updateWrites r.actor r.userId copy plan targets doomed
        (lockedRevision db copy r.userIn) now) db = .ok db') : Commits settings db now db' (.update r)
  | delete {r : DeleteRequest} {copy : User} {terminal : Nat}
      (hcopy : db.users.lookup r.userId = some copy)
      (hterminal : nextGeneration copy.authGeneration = .ok terminal)
      (hcommit : commit (deletionWrites r.actor r.userId terminal (sessionIds db (ownedBy r.userId))
        (db.policyRevision.getD 0) now) db = .ok db') : Commits settings db now db' (.delete r)
  | repair {r : RepairRequest} {newGeneration : Nat} (hrepairs : r.Repairs db newGeneration)
      (hcommit : commit (repairWrites r.userId r.intendedRole newGeneration
        (captureTargets db r.userId now) (sessionIds db (ownedBy r.userId)) now) db = .ok db') :
      Commits settings db now db' (.repair r)

/-- The writes a request sends when its next statement is the commit. -/
def Local.transaction (now : Int) : Local → Option (List Write)
  | .update r (.commit copy plan revision targets doomed) =>
      some (updateWrites r.actor r.userId copy plan targets doomed revision now)
  | .delete r (.commit _ terminal revision doomed) =>
      some (deletionWrites r.actor r.userId terminal doomed revision now)
  | .repair r (.commit newGeneration targets doomed) =>
      some (repairWrites r.userId r.intendedRole newGeneration targets doomed now)
  | _ => none

section

variable {settings : Settings} {p : Pid} {w w' : World} {l l' : Local} {a : Action}
  {request : AdminRequest}

/-- The step has committed nothing and the request goes on or has ended. -/
structure Continues (settings : Settings) (request : AdminRequest) (w w' : World) (l' : Local) : Prop where
  db : w'.db = w.db
  now : w'.now = w.now
  serves : l' = .idle ∨ l'.Serves settings w.db w.now request

private theorem Continues.on (hserves : l'.Serves settings w.db w.now request) (hdb : w'.db = w.db)
    (hnow : w'.now = w.now) : Continues settings request w w' l' :=
  ⟨hdb, hnow, .inr hserves⟩

/-- A request whose commit is accepted commits writes computed from what it has read. -/
theorem Local.Serves.commits {db db' : Db} {now : Int} {writes : List Write}
    (hserves : l.Serves settings db now request) (htransaction : l.transaction now = some writes)
    (hcommit : commit writes db = .ok db') : request.Commits settings db now db' := by
  cases l with
  | update r phase =>
      obtain ⟨rfl, hread⟩ := hserves
      cases phase with
      | commit copy plan revision targets doomed =>
          obtain ⟨hcopy, rfl, hplan, htargets⟩ := hread
          obtain rfl := Option.some.inj htransaction
          exact .update hcopy hplan htargets hcommit
      | _ => cases htransaction
  | delete r phase =>
      obtain ⟨rfl, hread⟩ := hserves
      cases phase with
      | commit copy terminal revision doomed =>
          obtain ⟨hcopy, rfl, hterminal, rfl⟩ := hread
          obtain rfl := Option.some.inj htransaction
          exact .delete hcopy hterminal hcommit
      | _ => cases htransaction
  | repair r phase =>
      obtain ⟨rfl, hread⟩ := hserves
      cases phase with
      | commit newGeneration targets doomed =>
          obtain ⟨hrepairs, rfl, rfl⟩ := hread
          obtain rfl := Option.some.inj htransaction
          exact .repair hrepairs hcommit
      | _ => cases htransaction
  | _ => exact hserves.elim

theorem Step.serves (hserves : l.Serves settings w.db w.now request)
    (hstep : Step settings p w l a w' l') :
    Continues settings request w w' l' ∨ (l' = .idle ∧
      ∃ writes, l.transaction w.now = some writes ∧ commit writes w.db = .ok w'.db) := by
  cases hstep with
  | abort | error => exact .inl ⟨rfl, rfl, .inl rfl⟩
  | update hstep =>
      obtain ⟨rfl, hread⟩ := hserves
      cases hstep with
      | load hcopy => exact .inl (.on ⟨rfl, hcopy⟩ rfl rfl)
      | checkEmail _ haffects => exact .inl (.on ⟨rfl, hread, haffects⟩ rfl rfl)
      | checkEmailOnly _ haffects =>
          exact .inl (.on ⟨rfl, hread, by rw [lockedRevision, haffects]; rfl⟩ rfl rfl)
      | lockPolicy =>
          exact .inl (.on ⟨rfl, hread.1, by rw [lockedRevision, hread.2, if_pos rfl]⟩ rfl rfl)
      | lockUser => exact .inl (.on ⟨rfl, hread⟩ rfl rfl)
      | enforceCount | enforceSkip => exact .inl (.on ⟨rfl, hread.1, hread.2.symm⟩ rfl rfl)
      | apply hplan hchanged => exact .inl (.on ⟨rfl, hread.1, hread.2, hplan, hchanged, rfl⟩ rfl rfl)
      | applyUnchanged hplan hchanged =>
          refine .inl (.on ⟨rfl, hread.1, hread.2, hplan, fun h => ?_⟩ rfl rfl)
          rw [hchanged] at h
          cases h
      | purge =>
          obtain ⟨hcopy, hrevision, hplan, -, htargets⟩ := hread
          exact .inl (.on ⟨rfl, hcopy, hrevision, hplan, fun _ => ⟨htargets, rfl⟩⟩ rfl rfl)
      | commit _ hcommit => exact .inr ⟨rfl, _, rfl, hcommit⟩
  | delete hstep =>
      obtain ⟨rfl, hread⟩ := hserves
      cases hstep with
      | load hcopy => exact .inl (.on ⟨rfl, hcopy⟩ rfl rfl)
      | lockPolicy => exact .inl (.on ⟨rfl, hread, rfl⟩ rfl rfl)
      | lockUser => exact .inl (.on ⟨rfl, hread⟩ rfl rfl)
      | enforceCount hterminal | enforceSkip hterminal =>
          exact .inl (.on ⟨rfl, hread.1, hread.2, hterminal⟩ rfl rfl)
      | purge => exact .inl (.on ⟨rfl, hread.1, hread.2.1, hread.2.2, rfl⟩ rfl rfl)
      | commit hcommit => exact .inr ⟨rfl, _, rfl, hcommit⟩
  | repair hstep =>
      obtain ⟨rfl, hread⟩ := hserves
      cases hstep with
      | load _ hcurrent hmismatch hnext =>
          exact .inl (.on ⟨rfl, _, hcurrent, hmismatch, hnext⟩ rfl rfl)
      | capture => exact .inl (.on ⟨rfl, hread, rfl⟩ rfl rfl)
      | purge => exact .inl (.on ⟨rfl, hread.1, hread.2, rfl⟩ rfl rfl)
      | commit hcommit => exact .inr ⟨rfl, _, rfl, hcommit⟩
  | _ => exact hserves.elim

/-- A request served on its own: it begins, and every later move is the next statement or its abrupt end. -/
def servedBy (p : Pid) (request : AdminRequest) (moves : List Action) : List (Pid × Action) :=
  (p, .begin request.start) :: moves.map fun a => (p, a)

/-- Where a request served on its own has got to: it has committed nothing yet, or it has ended with its
commit. -/
inductive Served (settings : Settings) (p : Pid) (request : AdminRequest)
    (c c' : Interleaving.Config World Local) : Prop
  | unfinished (hserves : (c'.locals p).Serves settings c.shared.db c.shared.now request)
      (hdb : c'.shared.db = c.shared.db) (hnow : c'.shared.now = c.shared.now)
  | ended (hidle : c'.locals p = .idle) (hdb : c'.shared.db = c.shared.db)
  | committed (hidle : c'.locals p = .idle)
      (hcommits : request.Commits settings c.shared.db c.shared.now c'.shared.db)

theorem step_idle_eq_none (haction : a = .proceed ∨ a = .abort) : step settings p w .idle a = none := by
  rcases haction with rfl | rfl
  · rfl
  · rfl

theorem step_transaction {writes : List Write} {db' : Db} (htransaction : l.transaction w.now = some writes)
    (hcommit : commit writes w.db = .ok db') (hstep : step settings p w l .proceed = some (w', l')) :
    w'.db = db' ∧ l' = .idle := by
  have hends {writes : List Write} {events : Db → List Event} (hcommit : commit writes w.db = .ok db')
      (hcommitting : committing w p writes events .idle = some (w', l')) : w'.db = db' ∧ l' = .idle := by
    rw [committing, World.transact, hcommit] at hcommitting
    obtain ⟨rfl, rfl⟩ := moving_eq_some hcommitting
    exact ⟨rfl, rfl⟩
  cases l with
  | update r phase =>
      cases phase with
      | commit copy plan revision targets doomed =>
          obtain rfl := Option.some.inj htransaction
          simp only [step, UpdateRequest.step] at hstep
          split at hstep
          · exact hends hcommit hstep
          · cases hstep
      | _ => cases htransaction
  | delete r phase =>
      cases phase with
      | commit copy terminal revision doomed =>
          obtain rfl := Option.some.inj htransaction
          simp only [step, DeleteRequest.step] at hstep
          exact hends hcommit hstep
      | _ => cases htransaction
  | repair r phase =>
      cases phase with
      | commit newGeneration targets doomed =>
          obtain rfl := Option.some.inj htransaction
          simp only [step, RepairRequest.step] at hstep
          exact hends hcommit hstep
      | _ => cases htransaction
  | _ => cases htransaction

theorem Served.next {c c₁ c' : Interleaving.Config World Local}
    (hserved : Served settings p request c c₁) (haction : a = .proceed ∨ a = .abort)
    (hnext : (issuer settings).next c₁ (p, a) = some c') : Served settings p request c c' := by
  obtain ⟨w', l', hstep, rfl⟩ := Interleaving.System.next_eq_some.1 hnext
  cases hserved with
  | unfinished hserves hdb hnow =>
      have hserves₁ : (c₁.locals p).Serves settings c₁.shared.db c₁.shared.now request := by
        rw [hdb, hnow]
        exact hserves
      rcases (step_sound hstep).serves hserves₁ with ⟨hdb', hnow', rfl | hgoes⟩ |
          ⟨rfl, writes, htransaction, hcommit⟩
      · exact .ended (Function.update_self ..) (hdb'.trans hdb)
      · refine .unfinished ?_ (hdb'.trans hdb) (hnow'.trans hnow)
        rw [hdb, hnow] at hgoes
        show (Function.update c₁.locals p l' p).Serves settings c.shared.db c.shared.now request
        rwa [Function.update_self]
      · have hcommits := hserves₁.commits htransaction hcommit
        rw [hdb, hnow] at hcommits
        exact .committed (Function.update_self ..) hcommits
  | ended hidle | committed hidle =>
      have hnone : step settings p c₁.shared (c₁.locals p) a = none := by
        rw [hidle]
        exact step_idle_eq_none haction
      exact absurd (hnone.symm.trans hstep) nofun

theorem served_run {c c' : Interleaving.Config World Local} (hidle : c.locals p = .idle)
    {moves : List Action} (hmoves : ∀ a ∈ moves, a = .proceed ∨ a = .abort)
    (hrun : (issuer settings).run c (servedBy p request moves) = some c') :
    Served settings p request c c' := by
  obtain ⟨c₁, hbegin, hrest⟩ := Interleaving.System.run_cons.1 hrun
  have hbegun : Served settings p request c c₁ := by
    obtain ⟨w', l', hstep, rfl⟩ := Interleaving.System.next_eq_some.1 hbegin
    have hbegins : step settings p c.shared .idle (.begin request.start) = some (w', l') := hidle ▸ hstep
    have hstart : some (c.shared, request.start) = some (w', l') := by
      cases request <;> exact hbegins
    obtain ⟨rfl, rfl⟩ := moving_eq_some hstart
    refine .unfinished ?_ rfl rfl
    show (Function.update c.locals p request.start p).Serves settings c.shared.db c.shared.now request
    rw [Function.update_self]
    cases request <;> exact ⟨rfl, trivial⟩
  clear hrun hbegin
  induction moves generalizing c₁ with
  | nil =>
      obtain rfl := Option.some.inj hrest
      exact hbegun
  | cons a rest ih =>
      obtain ⟨c₂, hnext, hrest⟩ := Interleaving.System.run_cons.1 hrest
      have hserved := hbegun.next (hmoves a List.mem_cons_self) hnext
      exact ih (fun b hb => hmoves b (List.mem_cons_of_mem _ hb)) c₂ hrest hserved

end

section Writes

variable {settings : Settings} {db db' : Db}

def authorizationOf (db : Db) (uid : UserId) : Option (RoleType × Bool) :=
  (db.users.lookup uid).map fun user => (user.role, user.isActive)

theorem commit_updateWrites_user {actor : Actor} {uid : UserId} {copy : User} {plan : UpdatePlan}
    {targets : List RevocationTarget} {doomed : List SessionId} {revision : Option Nat} {now : Int}
    (hfresh : db.IdsFresh) (hcopy : db.users.lookup uid = some copy)
    (hcommit : commit (updateWrites actor uid copy plan targets doomed revision now) db = .ok db') :
    ∃ user, (∀ other, db'.users.lookup other = if other = uid then some user else db.users.lookup other) ∧
      plan.draft.role = some user.role ∧ user.isActive = plan.draft.isActive ∧
      user.authGeneration = plan.draft.authGeneration := by
  obtain ⟨db₁, hupdate, husers⟩ := (commit_updateWrites hfresh hcommit).users
  obtain ⟨user, hsave, hlookup⟩ := Db.updateUser_lookup hupdate hcopy
  obtain ⟨email, role, -, hrole, hrole', -, hactive, hgeneration, -⟩ := UserDraft.saveOver_eq_ok hsave
  rw [Column.writeBack_current] at hrole' hactive hgeneration
  refine ⟨user, fun other => ?_, hrole.trans (congrArg some hrole'.symm), hactive, hgeneration⟩
  rw [husers, hlookup]

/-- An update is an authorization transition exactly when the stored role or activation flag changes. -/
theorem authorizationOf_changed_iff {uid : UserId} {copy user : User} {userIn : UserUpdate}
    {plan : UpdatePlan} (hplan : planUpdate settings copy userIn = .ok plan)
    (hcopy : db.users.lookup uid = some copy) (huser : db'.users.lookup uid = some user)
    (hrole : plan.draft.role = some user.role) (hactive : user.isActive = plan.draft.isActive) :
    authorizationOf db' uid ≠ authorizationOf db uid ↔ plan.authorizationChanged = true := by
  rw [(planUpdate_eq_ok hplan).changed, hrole, ← hactive, authorizationOf, authorizationOf, hcopy, huser]
  simp only [Option.map_some, ne_eq, Option.some.injEq, Prod.mk.injEq, not_and_or]

end Writes

/-- A reader with an active session and one past its refresh expiry. -/
def twoSessions : Interleaving.Config World Local where
  shared :=
    { db :=
        { users := AList.insert 1 { email := "a", role := .reader } ∅
          sessions := AList.insert 1
            { userId := 1, provider := .password, jwtJti := 1, refreshTokenHash := ""
              jwtExpiresAt := 0, refreshExpiresAt := 0, authGeneration := some 1 }
            (AList.insert 0
              { userId := 1, provider := .password, jwtJti := 0, refreshTokenHash := ""
                jwtExpiresAt := 1800 * second, refreshExpiresAt := 7200 * second, authGeneration := some 1 } ∅)
          policyRevision := some 0
          nextUserId := 2
          nextSessionId := 2 }
      now := second
      nextJti := 2 }
  locals _ := .idle

theorem twoSessions_fresh : twoSessions.shared.db.IdsFresh :=
  .of_keys (by decide) (by decide) (by decide)

/-- The reader becomes a writer. -/
def promoteReader : AdminRequest :=
  .update ⟨⟨9, .superadmin⟩, 1, { role := some (some .writer) }⟩

def deleteReader : AdminRequest := .delete ⟨⟨9, .superadmin⟩, 1⟩

end FaAuthM8

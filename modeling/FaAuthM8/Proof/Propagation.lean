import FaAuthM8.Proof.Serial

/-!
# Propagation of a revocation

A revocation reaches Redis in one of two ways: the request pushes the captured targets after its commit, or
the commit enqueues effects that a worker delivers. Both compute the time to live of a blacklist entry from
the expiry of the access token, and both drop the refresh allowlist entry, except that the worker returns
before it does so when that expiry has passed.
-/

namespace FaAuthM8

section Push

variable (redis : Redis) (now : Int) (jti : Jti)

/-- The keys after a target has been blacklisted for `ttl` seconds and its allowlist entry dropped. -/
def Redis.revoked (redis : Redis) (now : Int) (jti : Jti) (ttl : Int) : Redis where
  allowlist := Function.update redis.allowlist jti none
  blacklist := Function.update redis.blacklist jti (some (now + ttl * second))

theorem Redis.revoked_revoked (ttl : Int) :
    (redis.revoked now jti ttl).revoked now jti ttl = redis.revoked now jti ttl := by
  simp [revoked]

theorem Redis.executeAll_revoking {ttl : Int} (httl : 0 < ttl) :
    redis.executeAll now [.blacklistJti jti ttl, .revoke jti] = some (redis.revoked now jti ttl) := by
  simp [execute, httl, revoked]

/-- The deliveries of one effect, one after the other. -/
def deliveries (now : Int) (effect : OutboxEffect) (times : Nat) : List RedisCommand :=
  (List.replicate times (OutboxWorker.effectCommands now effect)).flatten

theorem deliveries_succ (effect : OutboxEffect) (times : Nat) :
    deliveries now effect (times + 1) =
      OutboxWorker.effectCommands now effect ++ deliveries now effect times := by
  rw [deliveries, List.replicate_succ, List.flatten_cons]
  rfl

/-- Delivering again changes nothing. -/
theorem Redis.executeAll_deliveries {expiresAt : Int} (httl : 0 < wholeSeconds (expiresAt - now))
    (times : Nat) : redis.executeAll now (deliveries now (.blacklist jti expiresAt) (times + 1)) =
      some (redis.revoked now jti (wholeSeconds (expiresAt - now))) := by
  have hcommands : OutboxWorker.effectCommands now (.blacklist jti expiresAt) =
      [.blacklistJti jti (wholeSeconds (expiresAt - now)), .revoke jti] := by
    rw [OutboxWorker.effectCommands]
    exact if_neg (Int.not_le.2 httl)
  induction times generalizing redis with
  | zero => rw [deliveries_succ, executeAll_append, hcommands, executeAll_revoking _ _ _ httl]; rfl
  | succ times ih =>
      rw [deliveries_succ, executeAll_append, hcommands, executeAll_revoking _ _ _ httl,
        Option.bind_some, ih, revoked_revoked]

theorem deliveries_lapsed {expiresAt : Int} (httl : wholeSeconds (expiresAt - now) ≤ 0) (times : Nat) :
    deliveries now (.blacklist jti expiresAt) times = [] := by
  induction times with
  | zero => rfl
  | succ times ih =>
      rw [deliveries_succ, ih, OutboxWorker.effectCommands]
      simp [httl]

/-- For any user, target, keys and time, delivering the effect of the target once or more leaves the keys
that the push of the target leaves exactly when the access token has a second left or its allowlist entry is
gone already. -/
theorem delivery_agrees_iff (uid : UserId) (generation : Nat) (created : Int)
    (target : RevocationTarget) (times : Nat) :
    (∃ delivered pushed,
      redis.executeAll now (deliveries now (blacklistRow uid generation created target).effect (times + 1))
        = some delivered ∧
      redis.executeAll now (applyPostCommitRevocation now [target]) = some pushed ∧
      Redis.SameKeys now pushed delivered) ↔
    second ≤ target.expiresAt - now ∨ redis.isValid now target.jti = false := by
  obtain ⟨jti, expiresAt⟩ := target
  have hpush : applyPostCommitRevocation now [⟨jti, expiresAt⟩] = postCommitCommands now ⟨jti, expiresAt⟩ := by
    simp [applyPostCommitRevocation]
  have heffect : (blacklistRow uid generation created ⟨jti, expiresAt⟩).effect = .blacklist jti expiresAt := rfl
  rw [hpush, heffect, ← wholeSeconds_pos_iff, Redis.isValid_eq_false_iff]
  by_cases httl : 0 < wholeSeconds (expiresAt - now)
  · have hcommands : postCommitCommands now ⟨jti, expiresAt⟩ =
        [.blacklistJti jti (wholeSeconds (expiresAt - now)), .revoke jti] := by
      rw [postCommitCommands]
      simp only [httl, if_true]
    refine iff_of_true ⟨redis.revoked now jti (wholeSeconds (expiresAt - now)), _,
      redis.executeAll_deliveries now jti httl times,
      hcommands ▸ redis.executeAll_revoking now jti httl, ?_⟩ (.inl httl)
    exact ⟨fun other => rfl, fun other => rfl⟩
  · have hcommands : postCommitCommands now ⟨jti, expiresAt⟩ = [.revoke jti] := by
      rw [postCommitCommands]
      simp only [httl, if_false]
    rw [hcommands, deliveries_lapsed now jti (Int.not_lt.1 httl)]
    constructor
    · rintro ⟨delivered, pushed, hdelivered, hpushed, hsame⟩
      obtain rfl := Option.some.inj hdelivered
      obtain rfl := Option.some.inj hpushed
      right
      rw [hsame.allowlist jti]
      simp
    · intro hlive
      have hgone := hlive.resolve_left httl
      refine ⟨redis, _, rfl, rfl, ⟨fun other => ?_, fun other => rfl⟩⟩
      by_cases hother : other = jti
      · subst hother
        simpa using hgone
      · simp [Function.update_of_ne hother]

/-- A delivery ten minutes after the access token has lapsed leaves the refresh allowlist entry in place;
the push drops it. -/
theorem late_delivery_keeps_allowlist :
    let redis : Redis := { allowlist := Function.update (fun _ => none) 7 (some (7200 * second)) }
    let now := 2400 * second
    let target : RevocationTarget := ⟨7, 1800 * second⟩
    ((redis.executeAll now (deliveries now (blacklistRow 1 2 0 target).effect 1)).map
        fun keys => keys.isValid now 7) = some true ∧
      ((redis.executeAll now (applyPostCommitRevocation now [target])).map
        fun keys => keys.isValid now 7) = some false := by
  decide

end Push

section Sending

variable {settings : Settings} {p : Pid} {c : Interleaving.Config World Local}

/-- From `c`, process `p` can go on by itself to a state in which its local state is `l` and Redis holds the
keys `redis`. -/
def Sends (settings : Settings) (p : Pid) (c : Interleaving.Config World Local) (l : Local)
    (redis : Redis) : Prop :=
  ∃ n c', (issuer settings).run c (List.replicate n (p, .proceed)) = some c' ∧ c'.locals p = l ∧
    c'.shared.redis = redis

theorem Sends.done {l : Local} {redis : Redis} (hlocal : c.locals p = l)
    (hredis : c.shared.redis = redis) : Sends settings p c l redis :=
  ⟨0, c, rfl, hlocal, hredis⟩

theorem Sends.step {w : World} {l m l' : Local} {redis : Redis} (hlocal : c.locals p = l)
    (hstep : step settings p c.shared l .proceed = some (w, m))
    (hsends : Sends settings p ⟨w, Function.update c.locals p m⟩ l' redis) :
    Sends settings p c l' redis := by
  obtain ⟨n, c', hrun, hlocal', hredis⟩ := hsends
  refine ⟨n + 1, c', ?_, hlocal', hredis⟩
  rw [List.replicate_succ, Interleaving.System.run_cons]
  exact ⟨_, Interleaving.System.next_eq_some.2 ⟨w, m, hlocal ▸ hstep, rfl⟩, hrun⟩

/-- The world after the server has carried out a command. -/
@[simp] def World.sent (w : World) (command : RedisCommand) (redis : Redis) : World :=
  { w with redis, log := .redis command :: w.log }

theorem sending_of_execute {w : World} {command : RedisCommand} {redis : Redis}
    {onError : Option (World × Local)} {after : Local} (hup : w.redisUp = true)
    (hexecute : w.redis.execute w.now command = some redis) :
    sending w command onError after = some (w.sent command redis, after) := by
  rw [sending, World.send, if_pos hup, hexecute]
  rfl

theorem deliver_sends {r : DrainRequest} {id : OutboxId} {copy : RevocationOutbox} {rest : List OutboxId}
    {redis : Redis} (hlocal : c.locals p = .drain r (.deliver id copy rest)) (hclient : r.redis = true)
    (hup : c.shared.redisUp = true) (hnow : c.shared.now = r.now)
    (hexecute : c.shared.redis.executeAll r.now (OutboxWorker.effectCommands r.now copy.effect) = some redis) :
    Sends settings p c (.drain r (.finish true id copy rest)) redis := by
  cases heffect : copy.effect with
  | publish event =>
      rw [heffect] at hexecute
      obtain rfl := Option.some.inj hexecute
      refine .step hlocal ?_ (.done (Function.update_self ..) ?_) (w := c.shared.record [.emitted event])
      · simp [FaAuthM8.step, DrainRequest.step, heffect]
      · rfl
  | blacklist jti expiresAt =>
      rw [heffect, OutboxWorker.effectCommands] at hexecute
      by_cases httl : wholeSeconds (expiresAt - r.now) ≤ 0
      · simp only [httl, if_true] at hexecute
        obtain rfl := Option.some.inj hexecute
        refine .step hlocal ?_ (.done (Function.update_self ..) rfl) (w := c.shared)
        simp [FaAuthM8.step, DrainRequest.step, heffect, httl]
      · simp only [httl, if_false, Redis.executeAll_cons, Redis.executeAll_nil] at hexecute
        obtain ⟨first, hfirst, hsecond⟩ := Option.bind_eq_some_iff.1 hexecute
        rw [Option.bind_fun_some] at hsecond
        rw [← hnow] at hfirst hsecond
        let blacklisting := RedisCommand.blacklistJti jti (wholeSeconds (expiresAt - c.shared.now))
        refine .step (w := c.shared.sent blacklisting first) (m := .drain r (.revoke jti id copy rest)) hlocal ?_
          (.step (w := (c.shared.sent blacklisting first).sent (.revoke jti) redis)
            (Function.update_self ..) ?_ (.done (Function.update_self ..) rfl))
        · simp only [FaAuthM8.step, DrainRequest.step, heffect, httl, if_false, hclient, if_true]
          rw [← hnow]
          exact sending_of_execute hup hfirst
        · exact sending_of_execute hup hsecond

theorem postCommit_sends {targets : List RevocationTarget} {redis : Redis}
    (hlocal : c.locals p = .postCommit targets) (hup : c.shared.redisUp = true)
    (hexecute : c.shared.redis.executeAll c.shared.now
      (applyPostCommitRevocation c.shared.now targets) = some redis) :
    Sends settings p c .idle redis := by
  refine .step hlocal rfl ?_
  generalize applyPostCommitRevocation c.shared.now targets = commands at hexecute
  have hpending : (Function.update c.locals p (.commands commands)) p = .commands commands :=
    Function.update_self ..
  generalize hlocals : Function.update c.locals p (.commands commands) = locals at hpending ⊢
  generalize c.shared = w at hup hexecute ⊢
  clear hlocals hlocal
  induction commands generalizing w locals with
  | nil =>
      obtain rfl := Option.some.inj hexecute
      exact .step hpending rfl (.done (Function.update_self ..) rfl)
  | cons command rest ih =>
      obtain ⟨first, hfirst, hrest⟩ := Option.bind_eq_some_iff.1 hexecute
      refine .step hpending (sending_of_execute hup hfirst) ?_
      exact ih (Function.update locals p (.commands rest)) (Function.update_self ..)
        (w.sent command first) hup hrest

end Sending

section Enqueueing

/-- The outbox rows that are stored in `db'` and were not in `db`. -/
def newRows (db db' : Db) : List RevocationOutbox :=
  (db'.outbox.rows fun id _ => (db.outbox.lookup id).isNone).map (·.2)

/-- The session rows of `db` that are gone in `db'` and were neither revoked nor past their refresh expiry. -/
def removedActive (db db' : Db) (now : Int) : List ClientSession :=
  (db.sessions.rows fun id row => (db'.sessions.lookup id).isNone && isActiveSession now row).map (·.2)

/-- The generation of a user in `db`: the one of the row, or the terminal one of a deleted user. -/
def generationOf (db : Db) (uid : UserId) : Option Nat :=
  match db.users.lookup uid with
  | some user => some user.authGeneration
  | none => (db.tombstones.lookup uid).map (·.terminalGeneration)

def userWideEvent (uid : UserId) (generation : Nat) : SessionRevokedEvent where
  userId := uid
  jti := none
  authGeneration := some generation
  eventId := some (uid, generation, .userWide)

def RevocationOutbox.propagates (row : RevocationOutbox) : UserId × Nat × OutboxEffect :=
  (row.userId, row.authGeneration, row.effect)

/-- The transaction from `db` to `db'` enqueues one blacklist effect for each active session it removes and
one user-wide event, all under the user's new generation, and nothing else. -/
def CarriesPropagation (uid : UserId) (now : Int) (db db' : Db) : Prop :=
  ∃ generation, generationOf db' uid = some generation ∧
    ((newRows db db').map RevocationOutbox.propagates).Perm
      ((removedActive db db' now).map (fun row =>
        (uid, generation, .blacklist row.jwtJti row.jwtExpiresAt)) ++
      [(uid, generation, .publish (userWideEvent uid generation))])

/-- The request is an effective role or activation change, an effective repair or a deletion. -/
def AdminRequest.ChangesAuthorization (db db' : Db) : AdminRequest → Prop
  | update r => authorizationOf db' r.userId ≠ authorizationOf db r.userId
  | delete _ | repair _ => True

theorem newRows_insertOutbox {rows : List RevocationOutbox} {db db' : Db} (hfresh : db.IdsFresh)
    (hcommit : commit (rows.map .insertOutbox) db = .ok db') : newRows db db' = rows.reverse := by
  have hentries : ∃ added, db'.outbox.entries = added ++ db.outbox.entries ∧
      added.map (·.2) = rows.reverse ∧ ∀ entry ∈ added, db.nextOutboxId ≤ entry.1 := by
    induction rows generalizing db with
    | nil =>
        obtain rfl := Except.ok.inj hcommit
        exact ⟨[], rfl, rfl, by simp⟩
    | cons row rest ih =>
        rw [List.map_cons] at hcommit
        obtain ⟨db₁, hinsert, hrest⟩ := commit_cons_eq_ok.1 hcommit
        obtain ⟨added, hentries, hrows, hids⟩ := ih (Write.apply_idsFresh hfresh hinsert) hrest
        obtain ⟨-, rfl⟩ := Db.insertOutbox_eq_ok.1 hinsert
        have hunused : db.nextOutboxId ∉ db.outbox := by
          intro hmem
          obtain ⟨old, hold⟩ := Option.isSome_iff_exists.1 (AList.lookup_isSome.2 hmem)
          exact absurd (hfresh.outbox _ _ hold) (Nat.lt_irrefl _)
        refine ⟨added ++ [⟨db.nextOutboxId, row⟩], ?_, ?_, ?_⟩
        · rw [hentries, AList.entries_insert_of_notMem hunused, List.append_assoc]
          rfl
        · rw [List.map_append, hrows, List.reverse_cons]
          rfl
        · intro entry hmem
          rw [List.mem_append, List.mem_singleton] at hmem
          rcases hmem with hmem | rfl
          · exact Nat.le_of_succ_le (hids entry hmem)
          · exact Nat.le_refl _
  obtain ⟨added, hentries, hrows, hids⟩ := hentries
  have hnew : ∀ entry ∈ added, (db.outbox.lookup entry.1).isNone = true := by
    intro entry hmem
    cases hold : db.outbox.lookup entry.1 with
    | none => rfl
    | some old => exact absurd (hfresh.outbox _ _ hold) (Nat.not_lt.2 (hids entry hmem))
  have hold : ∀ entry ∈ db.outbox.entries, (db.outbox.lookup entry.1).isNone = false := by
    intro entry hmem
    rw [Table.lookup_eq_some_iff.2 hmem]
    rfl
  rw [newRows, Table.rows, hentries, List.filter_append, List.filter_eq_self.2 hnew,
    List.filter_eq_nil_iff.2 fun entry hmem => by simp [hold entry hmem], List.append_nil, ← hrows]
  simp

theorem newRows_congr {a b a' b' : Db} (hbefore : a'.outbox = a.outbox) (hafter : b'.outbox = b.outbox) :
    newRows a' b' = newRows a b := by
  rw [newRows, newRows, hbefore, hafter]

/-- The new rows of a transaction that inserts outbox rows between writes to other tables. -/
theorem newRows_commit (before after : List Write) {rows : List RevocationOutbox} {db db' : Db}
    (hfresh : db.IdsFresh) (hbefore : ∀ write ∈ before, write.changesOutbox = false)
    (hafter : ∀ write ∈ after, write.changesOutbox = false)
    (hcommit : commit (before ++ (rows.map .insertOutbox ++ after)) db = .ok db') :
    newRows db db' = rows.reverse := by
  obtain ⟨db₁, hfirst, hrest⟩ := commit_append_eq_ok.1 hcommit
  obtain ⟨db₂, hinsert, hlast⟩ := commit_append_eq_ok.1 hrest
  rw [← newRows_insertOutbox (commit_idsFresh hfresh hfirst) hinsert]
  exact newRows_congr (commit_outbox hfirst hbefore).symm (commit_outbox hlast hafter)

theorem removedActive_eq {uid : UserId} {now : Int} {db db' : Db}
    (hsessions : db'.sessions = (db.deleteSessions (sessionIds db (ownedBy uid))).sessions) :
    (removedActive db db' now).map (·.target) = captureTargets db uid now := by
  rw [captureTargets, getUserActiveSessions, removedActive, Table.rows, Table.rows]
  congr 2
  congr 1
  refine List.filter_congr fun entry hmem => ?_
  have hrow := Table.lookup_eq_some_iff.2 hmem
  congr 1
  cases howned : ownedBy uid entry.2 with
  | true =>
      rw [Option.isNone_iff_eq_none, Option.eq_none_iff_forall_ne_some]
      intro row hkept
      rw [hsessions, Db.lookup_deleteSessions] at hkept
      exact hkept.2 (mem_sessionIds.2 ⟨entry.2, hrow, howned⟩)
  | false =>
      have hkept : db'.sessions.lookup entry.1 = some entry.2 := by
        rw [hsessions, Db.lookup_deleteSessions]
        refine ⟨hrow, fun hdoomed => ?_⟩
        obtain ⟨row, hrow', howned'⟩ := mem_sessionIds.1 hdoomed
        obtain rfl := Option.some.inj (hrow.symm.trans hrow')
        rw [howned] at howned'
        cases howned'
      rw [hkept]
      rfl

/-- A transaction that deletes a user's sessions and enqueues the effects of their targets carries the
propagation. -/
theorem carriesPropagation_of {uid : UserId} {generation : Nat} {now : Int} {db db' : Db}
    (hgeneration : generationOf db' uid = some generation)
    (hsessions : db'.sessions = (db.deleteSessions (sessionIds db (ownedBy uid))).sessions)
    (hnew : newRows db db' =
      (enqueueRoleChangeEffects uid generation (captureTargets db uid now) now).reverse) :
    CarriesPropagation uid now db db' := by
  refine ⟨generation, hgeneration, ?_⟩
  have hrows : (removedActive db db' now).map (fun row =>
      (uid, generation, OutboxEffect.blacklist row.jwtJti row.jwtExpiresAt)) =
      (captureTargets db uid now).map fun target =>
        (uid, generation, .blacklist target.jti target.expiresAt) := by
    rw [← removedActive_eq hsessions, List.map_map]
    rfl
  rw [hrows, hnew, List.map_reverse]
  refine (List.reverse_perm _).trans ?_
  rw [enqueueRoleChangeEffects, List.map_append, List.map_map]
  exact List.Perm.refl _

/-- The transaction carries what the request owes to the outbox. -/
def AdminRequest.Propagates (request : AdminRequest) (now : Int) (db db' : Db) : Prop :=
  (request.ChangesAuthorization db db' → CarriesPropagation request.target now db db') ∧
    (¬ request.ChangesAuthorization db db' → newRows db db' = [])

section

variable {settings : Settings} {db db' : Db} {now : Int}

theorem newRows_of_same (houtbox : db'.outbox = db.outbox) : newRows db db' = [] := by
  rw [newRows, houtbox, Table.rows, List.filter_eq_nil_iff.2, List.map_nil, List.map_nil]
  intro entry hmem
  rw [Table.lookup_eq_some_iff.2 hmem]
  exact Bool.false_ne_true

theorem update_propagates {r : UpdateRequest} (hfresh : db.IdsFresh)
    (hcommits : AdminRequest.Commits settings db now db' (.update r)) :
    (AdminRequest.update r).Propagates now db db' := by
  cases hcommits with
  | @update _ copy plan targets doomed hcopy hplan hread hcommit =>
      obtain ⟨user, hlookup, hrole, hactive, hgeneration⟩ := commit_updateWrites_user hfresh hcopy hcommit
      have huser : db'.users.lookup r.userId = some user := by rw [hlookup, if_pos rfl]
      have hcommitted := commit_updateWrites hfresh hcommit
      have hiff := authorizationOf_changed_iff hplan hcopy huser hrole hactive
      constructor
      · intro hchanges
        have hchanged : plan.authorizationChanged = true := hiff.1 hchanges
        obtain ⟨rfl, rfl⟩ := hread hchanged
        have hnew : generationOf db' r.userId = some plan.draft.authGeneration := by
          rw [generationOf, huser]
          exact congrArg some hgeneration
        refine carriesPropagation_of hnew (hcommitted.revoked hchanged).sessions ?_
        rw [updateWrites, if_pos hchanged] at hcommit
        refine newRows_commit [.updateUser r.userId copy plan.draft,
          .deleteSessions (sessionIds db (ownedBy r.userId))] _ hfresh
          (by simp [Write.changesOutbox]) ?_ hcommit
        intro write hmem
        simp only [List.mem_append, List.mem_map, Option.mem_toList, List.mem_singleton] at hmem
        rcases hmem with (hmem | ⟨current, -, rfl⟩) | rfl
        · split at hmem
          · obtain rfl := List.mem_singleton.1 hmem
            rfl
          · cases hmem
        · rfl
        · rfl
      · intro hsame
        refine newRows_of_same (hcommitted.untouched ?_).2
        rw [← Bool.not_eq_true, ← hiff]
        exact hsame

theorem repair_propagates {r : RepairRequest} (hfresh : db.IdsFresh)
    (hcommits : AdminRequest.Commits settings db now db' (.repair r)) :
    (AdminRequest.repair r).Propagates now db db' := by
  cases hcommits with
  | @repair _ newGeneration hrepairs hcommit =>
      obtain ⟨current, hcurrent, -, -⟩ := hrepairs
      have hnew : generationOf db' r.userId = some newGeneration := by
        obtain ⟨db₁, hset, husers⟩ := (commit_repairWrites hfresh hcommit).users
        obtain ⟨hnone, -⟩ | ⟨current', hcurrent', hput⟩ := Db.setRole_eq_ok hset
        · rw [hcurrent] at hnone
          cases hnone
        · obtain ⟨-, -, rfl⟩ := Db.putUser_eq_ok.1 hput
          rw [generationOf, husers, AList.lookup_insert]
      refine ⟨fun _ => carriesPropagation_of hnew (commit_repairWrites hfresh hcommit).revoked.sessions ?_,
        fun hno => absurd trivial hno⟩
      refine newRows_commit
        [.setRole r.userId r.intendedRole (deriveIsSuperuser (some r.intendedRole)) newGeneration,
          .deleteSessions (sessionIds db (ownedBy r.userId))]
        [] hfresh (by simp [Write.changesOutbox]) (by simp) ?_
      rw [List.append_nil]
      exact hcommit

/-- A deletion enqueues nothing, and owes at least the user-wide event. -/
theorem deletion_not_propagates {r : DeleteRequest}
    (hcommits : AdminRequest.Commits settings db now db' (.delete r)) :
    ¬ (AdminRequest.delete r).Propagates now db db' := by
  intro hpropagates
  cases hcommits with
  | delete _ _ hcommit =>
      obtain ⟨generation, -, hperm⟩ := hpropagates.1 trivial
      have hlength := hperm.length_eq
      rw [newRows_of_same (commit_deletionWrites hcommit).outbox, List.length_append] at hlength
      exact absurd hlength.symm (Nat.succ_ne_zero _)

end

/-- Of the requests that change what a user may do, served on their own from any database, exactly the
deletions commit without their propagation. -/
theorem propagation_carried_iff (settings : Settings) {p : Pid}
    {c c' : Interleaving.Config World Local} {request : AdminRequest} {moves : List Action}
    (hfresh : c.shared.db.IdsFresh) (hidle : c.locals p = .idle)
    (hmoves : ∀ a ∈ moves, a = .proceed ∨ a = .abort)
    (hrun : (issuer settings).run c (servedBy p request moves) = some c')
    (hcommitted : c'.shared.db ≠ c.shared.db) :
    request.Propagates c.shared.now c.shared.db c'.shared.db ↔ request.isDeletion = false := by
  cases served_run hidle hmoves hrun with
  | unfinished _ hdb | ended _ hdb => exact absurd hdb hcommitted
  | committed _ hcommits =>
      cases request with
      | update r => exact iff_of_true (update_propagates hfresh hcommits) rfl
      | repair r => exact iff_of_true (repair_propagates hfresh hcommits) rfl
      | delete r => exact iff_of_false (deletion_not_propagates hcommits) nofun

end Enqueueing

theorem propagation_carried_iff_promoteReader :
    ∃ c', (issuer {}).run twoSessions (servedBy 0 promoteReader (List.replicate 8 .proceed)) = some c' ∧
      (promoteReader.Propagates second twoSessions.shared.db c'.shared.db ↔
        promoteReader.isDeletion = false) := by
  have hruns : ((issuer {}).run twoSessions (servedBy 0 promoteReader (List.replicate 8 .proceed))).map
      (fun c' => c'.shared.db.audit.length) = some 1 := by
    decide +kernel
  obtain ⟨c', hrun, haudit⟩ := Option.map_eq_some_iff.1 hruns
  have hcommitted : c'.shared.db ≠ twoSessions.shared.db := by
    intro hsame
    rw [hsame] at haudit
    cases haudit
  exact ⟨c', hrun, propagation_carried_iff {} twoSessions_fresh rfl
    (fun a hmem => .inl (List.eq_of_mem_replicate hmem)) hrun hcommitted⟩

/-- The deletion of a reader with one active session enqueues no effect at all. -/
theorem deletion_enqueues_nothing :
    ∃ c', (issuer {}).run twoSessions (servedBy 0 deleteReader (List.replicate 6 .proceed)) = some c' ∧
      (removedActive twoSessions.shared.db c'.shared.db second).length = 1 ∧
      newRows twoSessions.shared.db c'.shared.db = [] ∧
      ¬ deleteReader.Propagates second twoSessions.shared.db c'.shared.db := by
  have hruns : ((issuer {}).run twoSessions (servedBy 0 deleteReader (List.replicate 6 .proceed))).map
      (fun c' => ((removedActive twoSessions.shared.db c'.shared.db second).length,
        newRows twoSessions.shared.db c'.shared.db)) = some (1, []) := by
    decide +kernel
  obtain ⟨c', hrun, hresult⟩ := Option.map_eq_some_iff.1 hruns
  obtain ⟨hremoved, hnew⟩ := Prod.mk.inj hresult
  refine ⟨c', hrun, hremoved, hnew, fun hpropagates => ?_⟩
  obtain ⟨generation, -, hperm⟩ := hpropagates.1 trivial
  have hlength := hperm.length_eq
  rw [hnew, List.length_append] at hlength
  exact absurd hlength.symm (Nat.succ_ne_zero _)

end FaAuthM8

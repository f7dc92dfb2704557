import FaAuthM8.System.ApiKeys

/-!
# Audiences are bound once

A bind reads the audiences of its key and adds rows later. Two binds that both find none add theirs, unless
one of them finds a row of its own already there: the second adds to the set the first has bound when the
two sets share no audience. No other step changes a set that is not empty, and what is bound was authorized.
-/

namespace FaAuthM8

open ApiKeyService

section

variable {caps : ApiKeyCaps} {w w' : KeyWorld} {l l' : KeyLocal} {a : KeyAction} {id : Uuid}

/-- The audience was bound to the key by a request whose consumers included it. -/
def KeyEvent.Binds (id : Uuid) (audience : String) : KeyEvent → Prop
  | .created _ id' consumers audiences | .bound id' consumers audiences =>
      id' = id ∧ audience ∈ audiences ∧ audience ∈ getIntrospectionAudiences consumers

/-- Every key has a set of audiences that may be bound, each of which was eligible when it was bound. -/
structure WellBound (caps : ApiKeyCaps) (w : KeyWorld) : Prop where
  bindable : ∀ id key, w.apiKeys.lookup id = some key → Bindable caps key.audiences
  eligible : ∀ id key, w.apiKeys.lookup id = some key →
    ∀ audience ∈ key.audiences, ∃ event ∈ w.log, event.Binds id audience

/-- A set that is not empty stays as it is, every set is one that may be bound, a bind that does not succeed
changes no key, and neither does one that asks for the set its key has. -/
structure BoundOnce (caps : ApiKeyCaps) (w : KeyWorld) (l : KeyLocal) (w' : KeyWorld) (l' : KeyLocal) :
    Prop where
  stable : ∀ id key, w.apiKeys.lookup id = some key → key.audiences ≠ [] →
    ∃ key', w'.apiKeys.lookup id = some key' ∧ ∀ audience, audience ∈ key'.audiences ↔ audience ∈ key.audiences
  wellBound : WellBound caps w'
  failed : ∀ r phase, l = .binding r phase → (∀ normalized, l' ≠ .done (.bound normalized)) →
    w'.apiKeys = w.apiKeys
  rebound : ∀ r phase normalized key, l = .binding r phase →
    normalizeAudiences r.audiences = .ok normalized → w.apiKeys.lookup r.keyId = some key →
    key.audiences.Perm normalized → w'.apiKeys = w.apiKeys

/-- A bind is about to add audiences to a key that has been bound to others since it was read. -/
def SecondBind (w : KeyWorld) (l : KeyLocal) (a : KeyAction) : Prop :=
  ∃ r normalized key, l = .binding r (.commit normalized) ∧ a = .proceed ∧
    w.apiKeys.lookup r.keyId = some key ∧ key.audiences ≠ [] ∧ ∀ audience ∈ normalized, audience ∉ key.audiences

/-! ### What a request is authorized to bind -/

structure Authorized (caps : ApiKeyCaps) (consumers : PrivateApiConsumers) (audiences : List String) :
    Prop where
  bindable : Bindable caps audiences
  eligible : ∀ audience ∈ audiences, audience ∈ getIntrospectionAudiences consumers

def HoldsAuthorized (caps : ApiKeyCaps) : KeyLocal → Prop
  | .creating r (.count _ audiences) => Authorized caps r.consumers audiences
  | .creating r (.generate audiences _) => Authorized caps r.consumers audiences
  | .creating r (.commit _ key _) => Authorized caps r.consumers key.audiences
  | .binding r (.commit normalized) =>
      validateAudiences caps r.consumers r.audiences = .ok normalized ∧ normalized ≠ []
  | _ => True

theorem authorized_nil (caps : ApiKeyCaps) (consumers : PrivateApiConsumers) : Authorized caps consumers [] :=
  ⟨⟨Nat.zero_le _, List.nodup_nil, by simp⟩, by simp⟩

theorem CreateApiKey.validate_ok {r : CreateApiKey} {audiences : List String}
    (hvalid : r.validate caps = .ok audiences) : Authorized caps r.consumers audiences := by
  rw [validate] at hvalid
  split at hvalid
  · cases hvalid
    exact authorized_nil ..
  · cases hvalid
    exact authorized_nil ..
  · obtain ⟨hbindable, heligible⟩ := validateAudiences_ok hvalid
    exact ⟨hbindable, heligible⟩

theorem HoldsAuthorized.mover (hstep : KeyStep caps w l a w' l') (hholds : HoldsAuthorized caps l) :
    HoldsAuthorized caps l' := by
  cases hstep with
  | tick => exact hholds
  | @begin _ request hfree =>
      cases request with
      | _ => trivial
  | validated hvalid => exact CreateApiKey.validate_ok hvalid
  | counted => exact hholds
  | generated => exact hholds
  | read hvalid hnonempty => exact ⟨hvalid, hnonempty⟩
  | _ => trivial

/-! ### What a step does to a key -/

/-- Where a stored key comes from: it was stored with the same audiences, or it is new, or a bind has added
to its audiences. -/
inductive KeyComes (w : KeyWorld) (l : KeyLocal) (a : KeyAction) (w' : KeyWorld) (id : Uuid) (key' : ApiKey) :
    Prop
  | same {key : ApiKey} (hrow : w.apiKeys.lookup id = some key) (hsame : key'.audiences = key.audiences)
      (hlog : ∀ event ∈ w.log, event ∈ w'.log)
  | created {r : CreateApiKey} {seen : Nat} (hcommit : l = .creating r (.commit id key' seen))
      (hnew : w.apiKeys.lookup id = none)
      (hlog : .created key'.userId id r.consumers key'.audiences ∈ w'.log)
  | bound {r : BindAudiences} {key : ApiKey} {normalized : List String}
      (hcommit : l = .binding r (.commit normalized)) (ha : a = .proceed) (hid : r.keyId = id)
      (hrow : w.apiKeys.lookup id = some key) (hnew : ∀ audience ∈ normalized, audience ∉ key.audiences)
      (hadded : key'.audiences = key.audiences ++ normalized)
      (hlog : .bound id r.consumers normalized ∈ w'.log)

theorem KeyStep.comes (hstep : KeyStep caps w l a w' l') {key' : ApiKey}
    (hrow' : w'.apiKeys.lookup id = some key') : KeyComes w l a w' id key' := by
  cases hstep with
  | @created r id₀ key seen hstorable =>
      rw [KeyWorld.create, Table.lookup_insert_eq] at hrow'
      split at hrow'
      · next hid =>
          obtain rfl := Option.some.inj hrow'
          subst hid
          simp only [KeyWorld.storable, Bool.and_eq_true, Option.isNone_iff_eq_none] at hstorable
          exact .created rfl hstorable.1 List.mem_cons_self
      · exact .same hrow' rfl fun event => List.mem_cons_of_mem _
  | @revoked r key hrow =>
      rw [KeyWorld.revoke, Table.lookup_insert_eq] at hrow'
      split at hrow'
      · next hid =>
          obtain rfl := Option.some.inj hrow'
          subst hid
          exact .same hrow rfl fun event hevent => hevent
      · exact .same hrow' rfl fun event hevent => hevent
  | @bound r key normalized hrow hnew =>
      rw [KeyWorld.bind, Table.lookup_insert_eq] at hrow'
      split at hrow'
      · next hid =>
          obtain rfl := Option.some.inj hrow'
          subst hid
          exact .bound rfl rfl rfl hrow hnew rfl List.mem_cons_self
      · exact .same hrow' rfl fun event => List.mem_cons_of_mem _
  | _ => exact .same hrow' rfl fun event hevent => hevent

theorem KeyStep.keeps (hstep : KeyStep caps w l a w' l') {key : ApiKey}
    (hrow : w.apiKeys.lookup id = some key) : ∃ key', w'.apiKeys.lookup id = some key' := by
  have hinsert (id₀ : Uuid) (key₀ : ApiKey) :
      ∃ key', (AList.insert id₀ key₀ w.apiKeys).lookup id = some key' := by
    rw [Table.lookup_insert_eq]
    split
    · exact ⟨_, rfl⟩
    · exact ⟨key, hrow⟩
  cases hstep with
  | created => exact hinsert _ _
  | revoked => exact hinsert _ _
  | bound => exact hinsert _ _
  | _ => exact ⟨key, hrow⟩

theorem WellBound.next (hstep : KeyStep caps w l a w' l') (hwell : WellBound caps w)
    (hholds : HoldsAuthorized caps l) (hnot : ¬ SecondBind w l a) : WellBound caps w' := by
  have hall {id : Uuid} {key' : ApiKey} (hrow' : w'.apiKeys.lookup id = some key') :
      Bindable caps key'.audiences ∧
        ∀ audience ∈ key'.audiences, ∃ event ∈ w'.log, event.Binds id audience := by
    cases hstep.comes hrow' with
    | same hrow hsame hlog =>
        rw [hsame]
        refine ⟨hwell.bindable id _ hrow, fun audience haudience => ?_⟩
        obtain ⟨event, hevent, hbinds⟩ := hwell.eligible id _ hrow audience haudience
        exact ⟨event, hlog event hevent, hbinds⟩
    | created hcommit _ hlog =>
        subst hcommit
        obtain ⟨hbindable, heligible⟩ : Authorized caps _ _ := hholds
        exact ⟨hbindable, fun audience haudience => ⟨_, hlog, rfl, haudience, heligible audience haudience⟩⟩
    | @bound r key normalized hcommit ha hid hrow hnew hadded hlog =>
        have hempty : key.audiences = [] := by
          by_contra hbound
          exact hnot ⟨r, normalized, key, hcommit, ha, hid ▸ hrow, hbound, hnew⟩
        rw [hadded, hempty, List.nil_append]
        subst hcommit
        obtain ⟨hbindable, heligible⟩ := validateAudiences_ok hholds.1
        exact ⟨hbindable, fun audience haudience => ⟨_, hlog, rfl, haudience, heligible audience haudience⟩⟩
  exact ⟨fun id key hrow => (hall hrow).1, fun id key hrow => (hall hrow).2⟩

theorem KeyStep.stable (hstep : KeyStep caps w l a w' l') (hnot : ¬ SecondBind w l a) {key : ApiKey}
    (hrow : w.apiKeys.lookup id = some key) (hbound : key.audiences ≠ []) :
    ∃ key', w'.apiKeys.lookup id = some key' ∧
      ∀ audience, audience ∈ key'.audiences ↔ audience ∈ key.audiences := by
  obtain ⟨key', hrow'⟩ := hstep.keeps hrow
  refine ⟨key', hrow', fun audience => ?_⟩
  cases hstep.comes hrow' with
  | same hrow₀ hsame _ =>
      obtain rfl := Option.some.inj (hrow.symm.trans hrow₀)
      rw [hsame]
  | created _ hnew _ => cases hrow.symm.trans hnew
  | @bound r key₀ normalized hcommit ha hid hrow₀ hnew =>
      obtain rfl := Option.some.inj (hrow.symm.trans hrow₀)
      exact absurd ⟨r, normalized, key, hcommit, ha, hid ▸ hrow, hbound, hnew⟩ hnot

theorem KeyStep.bind_fails {r : BindAudiences} {phase : BindPhase}
    (hstep : KeyStep caps w (.binding r phase) a w' l')
    (hfails : ∀ normalized, l' ≠ .done (.bound normalized)) : w'.apiKeys = w.apiKeys := by
  cases hstep with
  | bound => exact absurd rfl (hfails _)
  | _ => rfl

/-- Asking for the set a key has changes no key, at whatever point the set was bound. -/
theorem KeyStep.bind_again {r : BindAudiences} {phase : BindPhase} {normalized : List String} {key : ApiKey}
    (hstep : KeyStep caps w (.binding r phase) a w' l') (hholds : HoldsAuthorized caps (.binding r phase))
    (hnormalized : normalizeAudiences r.audiences = .ok normalized)
    (hrow : w.apiKeys.lookup r.keyId = some key) (hsame : key.audiences.Perm normalized) :
    w'.apiKeys = w.apiKeys := by
  cases hstep with
  | @bound _ key₀ found hrow₀ hnew =>
      obtain ⟨hvalid, hnonempty⟩ := hholds
      obtain rfl := Option.some.inj (hrow.symm.trans hrow₀)
      obtain rfl := Except.ok.inj (hnormalized.symm.trans (validateAudiences_normalized hvalid))
      obtain ⟨audience, haudience⟩ := List.exists_mem_of_ne_nil _ hnonempty
      exact absurd (hsame.mem_iff.2 haudience) (hnew audience haudience)
  | _ => rfl

theorem KeyStep.boundOnce (hstep : KeyStep caps w l a w' l') (hwell : WellBound caps w)
    (hholds : HoldsAuthorized caps l) (hnot : ¬ SecondBind w l a) : BoundOnce caps w l w' l' where
  stable _ _ hrow hbound := hstep.stable hnot hrow hbound
  wellBound := hwell.next hstep hholds hnot
  failed r phase hl hfails := by
    subst hl
    exact hstep.bind_fails hfails
  rebound r phase normalized key hl hnormalized hrow hsame := by
    subst hl
    exact hstep.bind_again hholds hnormalized hrow hsame

theorem not_boundOnce (hstep : keyStep caps w l a = some (w', l')) (hholds : HoldsAuthorized caps l)
    (hsecond : SecondBind w l a) : ¬ BoundOnce caps w l w' l' := by
  obtain ⟨r, normalized, key, rfl, rfl, hrow, hbound, hnew⟩ := hsecond
  have hcommits : keyStep caps w (.binding r (.commit normalized)) .proceed =
      some (w.bind r.consumers r.keyId key normalized, .done (.bound normalized)) := by
    have hnone : ¬ normalized.any key.audiences.contains = true := by simpa using hnew
    show r.step caps w (.commit normalized) = _
    simp only [BindAudiences.step, hrow, if_neg hnone]
  obtain ⟨rfl, -⟩ := Prod.mk.inj (Option.some.inj (hcommits.symm.trans hstep))
  intro honce
  obtain ⟨key', hrow', hsame⟩ := honce.stable r.keyId key hrow hbound
  rw [KeyWorld.bind, AList.lookup_insert, Option.some.injEq] at hrow'
  obtain ⟨audience, haudience⟩ := List.exists_mem_of_ne_nil _ hholds.2
  have hadded : audience ∈ key'.audiences := by
    rw [← hrow']
    exact List.mem_append_right _ haudience
  exact hnew audience haudience ((hsame audience).1 hadded)

end

/-! ### Runs -/

section

variable {caps : ApiKeyCaps} {c c' : Interleaving.Config KeyWorld KeyLocal} {move : Nat × KeyAction}

abbrev AudiencesAsserted (caps : ApiKeyCaps) : Interleaving.Config KeyWorld KeyLocal → Prop :=
  Interleaving.Asserted (WellBound caps) fun _ _ l => HoldsAuthorized caps l

theorem boundOnce_next (hassert : AudiencesAsserted caps c)
    (hnext : (apiKeySystem caps).next c move = some c') :
    BoundOnce caps c.shared (c.locals move.1) c'.shared (c'.locals move.1) ↔
      ¬ SecondBind c.shared (c.locals move.1) move.2 := by
  have hstep : keyStep caps _ _ _ = some _ := Interleaving.System.step_of_next hnext
  have hholds := hassert.locals move.1
  constructor
  · intro honce hsecond
    exact not_boundOnce hstep hholds hsecond honce
  · exact (keyStep_sound hstep).boundOnce hassert.shared hholds

theorem audiencesAsserted_next (hassert : AudiencesAsserted caps c)
    (hnext : (apiKeySystem caps).next c move = some c')
    (honce : BoundOnce caps c.shared (c.locals move.1) c'.shared (c'.locals move.1)) :
    AudiencesAsserted caps c' := by
  have hstep := keyStep_sound (Interleaving.System.step_of_next hnext)
  exact Interleaving.Asserted.moved hnext honce.wellBound ((hassert.locals move.1).mover hstep)
    fun q _ => hassert.locals q

/-- Audiences are bound once, exactly when no bind adds to a set that another has bound since it was read. -/
theorem audiences_bound_once_iff (caps : ApiKeyCaps) {c : Interleaving.Config KeyWorld KeyLocal}
    (hidle : ∀ p, c.locals p = .idle) (hwell : WellBound caps c.shared) (schedule : List (Nat × KeyAction)) :
    (apiKeySystem caps).Along
        (fun c move c' => BoundOnce caps c.shared (c.locals move.1) c'.shared (c'.locals move.1)) c schedule ↔
      (apiKeySystem caps).Along (fun c move _ => ¬ SecondBind c.shared (c.locals move.1) move.2)
        c schedule := by
  have hassert : AudiencesAsserted caps c := by
    refine ⟨hwell, fun p => ?_⟩
    rw [hidle p]
    trivial
  exact Interleaving.System.along_iff (fun _ _ _ => boundOnce_next) (fun _ _ _ => audiencesAsserted_next)
    schedule hassert

end

def introspectingConsumers : PrivateApiConsumers :=
  (AList.insert "media" ⟨"secret-m", ["api-key-introspection"]⟩ ∅).insert "billing"
    ⟨"secret-b", ["api-key-introspection"]⟩

/-- A key from before audiences existed. -/
def legacyKey : Interleaving.Config KeyWorld KeyLocal where
  shared := { apiKeys := AList.insert {value := 1} { keyHash := "a", userId := 7 } ∅ }
  locals _ := .idle

/-- Two operators bind the key to different consumers; both find no audience, and the first has committed. -/
def twoBinds : List (Nat × KeyAction) :=
  [(0, .begin (.bind ⟨{value := 1}, introspectingConsumers, ["media"]⟩)),
    (1, .begin (.bind ⟨{value := 1}, introspectingConsumers, [" billing"]⟩)), (0, .proceed), (1, .proceed),
    (0, .proceed), (1, .proceed), (0, .proceed)]

theorem legacyKey_wellBound (caps : ApiKeyCaps) : WellBound caps legacyKey.shared := by
  have hnone {id : Uuid} {key : ApiKey} (hrow : legacyKey.shared.apiKeys.lookup id = some key) :
      key.audiences = [] := by
    rw [legacyKey, Table.lookup_insert_eq] at hrow
    split at hrow
    · exact (Option.some.inj hrow) ▸ rfl
    · rw [AList.lookup_empty] at hrow
      cases hrow
  refine ⟨fun id key hrow => ?_, fun id key hrow => ?_⟩
  · rw [hnone hrow]
    exact (authorized_nil caps ∅).bindable
  · rw [hnone hrow]
    simp

theorem audiences_bound_once_iff_twoBinds :
    (apiKeySystem {}).Along
        (fun c move c' => BoundOnce {} c.shared (c.locals move.1) c'.shared (c'.locals move.1))
        legacyKey twoBinds ↔
      (apiKeySystem {}).Along (fun c move _ => ¬ SecondBind c.shared (c.locals move.1) move.2)
        legacyKey twoBinds :=
  audiences_bound_once_iff {} (fun _ => rfl) (legacyKey_wellBound {}) twoBinds

/-- The second bind adds its consumer to the set the first has bound. -/
theorem audiences_bound_twice :
    ∃ c c' key key', (apiKeySystem {}).run legacyKey twoBinds = some c ∧
      (apiKeySystem {}).next c (1, .proceed) = some c' ∧
      c.shared.apiKeys.lookup {value := 1} = some key ∧ key.audiences = ["media"] ∧
      c'.shared.apiKeys.lookup {value := 1} = some key' ∧ key'.audiences = ["media", "billing"] ∧
      ¬ BoundOnce {} c.shared (c.locals 1) c'.shared (c'.locals 1) := by
  have hbefore : ((apiKeySystem {}).run legacyKey twoBinds).map
      (fun c => c.shared.apiKeys.lookup {value := 1})
        = some (some { keyHash := "a", userId := 7, audiences := ["media"] }) := by
    decide +kernel
  have hafter : ((apiKeySystem {}).run legacyKey (twoBinds ++ [(1, .proceed)])).map
      (fun c' => c'.shared.apiKeys.lookup {value := 1})
        = some (some { keyHash := "a", userId := 7, audiences := ["media", "billing"] }) := by
    decide +kernel
  obtain ⟨c', hboth, hrow'⟩ := Option.map_eq_some_iff.1 hafter
  obtain ⟨c, hrun, hlast⟩ := Interleaving.System.run_append.1 hboth
  obtain ⟨c₁, hnext, hend⟩ := Interleaving.System.run_cons.1 hlast
  obtain rfl := Option.some.inj hend
  rw [hrun, Option.map_some, Option.some.injEq] at hbefore
  refine ⟨c, c₁, _, _, hrun, hnext, hbefore, rfl, hrow', rfl, fun honce => ?_⟩
  obtain ⟨key, hkey, hsame⟩ := honce.stable _ _ hbefore (by simp)
  obtain rfl := Option.some.inj (hrow'.symm.trans hkey)
  exact absurd ((hsame "billing").1 (by decide)) (by decide)

end FaAuthM8

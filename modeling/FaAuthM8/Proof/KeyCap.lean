import FaAuthM8.System.ApiKeys

/-!
# The cap on live API keys

A creation counts the live keys of its user and inserts a key later, with nothing between the two that another
creation of the user would wait for. What counted under the cap stays under it until another of the user's
creations is committed: time, revocations, bindings and other users' creations never raise the count.
-/

namespace FaAuthM8

section

variable {caps : ApiKeyCaps} {w w' : KeyWorld} {l l' : KeyLocal} {a : KeyAction}

def KeyWorld.live (w : KeyWorld) (userId : UserId) : Nat :=
  w.activeCount userId w.now

/-- A creation that is committed leaves its user with no more live keys than the cap. -/
def KeepsCap (caps : ApiKeyCaps) (l : KeyLocal) (w' : KeyWorld) (l' : KeyLocal) : Prop :=
  ∀ r id key seen, l = .creating r (.commit id key seen) → l' = .done (.created id key.audiences) →
    (w'.live r.userId : Int) ≤ caps.apiKeyMaxPerUser

/-- A live key is about to be stored for a user who has reached the cap through another creation that was
committed after the keys were counted. -/
def Overtaken (caps : ApiKeyCaps) (w : KeyWorld) (l : KeyLocal) (a : KeyAction) : Prop :=
  ∃ r id key seen, l = .creating r (.commit id key seen) ∧ a = .proceed ∧ w.storable id key = true ∧
    key.isLive w.now = true ∧ w.creations r.userId ≠ seen ∧ caps.apiKeyMaxPerUser ≤ w.live r.userId

/-! ### Counting -/

theorem ApiKey.isLive_mono {key : ApiKey} {now now' : Int} (hnow : now ≤ now')
    (hlive : key.isLive now' = true) : key.isLive now = true := by
  simp only [ApiKey.isLive, Bool.and_eq_true, Option.all_eq_true, decide_eq_true_eq] at hlive ⊢
  exact ⟨hlive.1, fun expiresAt hexpires => hnow.trans (hlive.2 expiresAt hexpires)⟩

theorem KeyWorld.activeCount_mono (w : KeyWorld) (userId : UserId) {now now' : Int} (hnow : now ≤ now') :
    w.activeCount userId now' ≤ w.activeCount userId now := by
  refine Table.length_rows_mono (fun _ key hkey => ?_) w.apiKeys
  rw [Bool.and_eq_true] at hkey ⊢
  exact ⟨hkey.1, ApiKey.isLive_mono hnow hkey.2⟩

theorem KeyWorld.live_create {id : Uuid} {key : ApiKey} (hstorable : w.storable id key = true)
    (consumers : PrivateApiConsumers) (userId : UserId) :
    (w.create consumers id key).live userId =
      w.live userId + (if key.userId == userId && key.isLive w.now then 1 else 0) := by
  simp only [storable, Bool.and_eq_true, Option.isNone_iff_eq_none] at hstorable
  exact Table.length_rows_insert_new _ key hstorable.1

theorem KeyWorld.live_insert_le {id : Uuid} {key : ApiKey} (key' : ApiKey) (log : List KeyEvent)
    (hrow : w.apiKeys.lookup id = some key) (howner : key'.userId = key.userId)
    (hlive : key'.isLive w.now = true → key.isLive w.now = true) (userId : UserId) :
    KeyWorld.live { w with apiKeys := AList.insert id key' w.apiKeys, log := log } userId ≤ w.live userId := by
  have hcount : KeyWorld.live { w with apiKeys := AList.insert id key' w.apiKeys, log := log } userId
      + (if key.userId == userId && key.isLive w.now then 1 else 0)
      = w.live userId + (if key'.userId == userId && key'.isLive w.now then 1 else 0) :=
    Table.length_rows_insert _ key' hrow
  rw [howner] at hcount
  by_cases hcounts : (key.userId == userId && key'.isLive w.now) = true
  · have hbefore : (key.userId == userId && key.isLive w.now) = true := by
      rw [Bool.and_eq_true] at hcounts ⊢
      exact ⟨hcounts.1, hlive hcounts.2⟩
    rw [if_pos hcounts, if_pos hbefore] at hcount
    omega
  · rw [if_neg hcounts] at hcount
    omega

theorem KeyWorld.creations_create (w : KeyWorld) (consumers : PrivateApiConsumers) (id : Uuid) (key : ApiKey)
    (userId : UserId) :
    (w.create consumers id key).creations userId =
      w.creations userId + (if key.userId == userId then 1 else 0) :=
  List.countP_cons ..

/-- What a step does to the keys of one user: a creation of theirs counts one more creation, and no other step
counts any or raises the number of live keys. -/
inductive CountStep (w : KeyWorld) (l : KeyLocal) (w' : KeyWorld) (l' : KeyLocal) (userId : UserId) : Prop
  | created {r : CreateApiKey} {id : Uuid} {key : ApiKey} {seen : Nat}
      (hcommit : l = .creating r (.commit id key seen)) (hdone : l' = .done (.created id key.audiences))
      (howner : key.userId = userId) (hcreations : w'.creations userId = w.creations userId + 1)
  | other (hcreations : w'.creations userId = w.creations userId) (hlive : w'.live userId ≤ w.live userId)

theorem KeyStep.counts (hstep : KeyStep caps w l a w' l') (userId : UserId) : CountStep w l w' l' userId := by
  cases hstep with
  | tick hnow => exact .other rfl (w.activeCount_mono userId hnow)
  | @created r id key seen hstorable =>
      have hcreations := w.creations_create r.consumers id key userId
      have hlive := KeyWorld.live_create hstorable r.consumers userId
      by_cases howner : (key.userId == userId) = true
      · rw [if_pos howner] at hcreations
        exact .created rfl rfl (beq_iff_eq.1 howner) hcreations
      · rw [if_neg howner] at hcreations
        rw [Bool.not_eq_true] at howner
        rw [howner, Bool.false_and, if_neg Bool.false_ne_true] at hlive
        exact .other hcreations (Nat.le_of_eq hlive)
  | @revoked r key hrow =>
      have hle := KeyWorld.live_insert_le { key with revoked := true } w.log hrow rfl (by simp [ApiKey.isLive])
        userId
      exact .other rfl hle
  | @bound r key normalized hrow hnew =>
      have hle := KeyWorld.live_insert_le { key with audiences := key.audiences ++ normalized }
        (.bound r.keyId r.consumers normalized :: w.log) hrow rfl (fun hlive => hlive) userId
      exact .other rfl hle
  | _ => exact .other rfl (Nat.le_refl _)

/-! ### What a creation has counted -/

/-- The number of creations and of live keys a creation has seen; `first` is the number of creations before
the run. -/
structure Counted (caps : ApiKeyCaps) (first : UserId → Nat) (w : KeyWorld) (userId : UserId) (seen : Nat) :
    Prop where
  started : first userId ≤ seen
  past : seen ≤ w.creations userId
  below : w.creations userId = seen → (w.live userId : Int) < caps.apiKeyMaxPerUser

def HasCounted (caps : ApiKeyCaps) (first : UserId → Nat) (w : KeyWorld) : KeyLocal → Prop
  | .creating _ (.count now _) => now ≤ w.now
  | .creating r (.generate _ seen) => Counted caps first w r.userId seen
  | .creating r (.commit _ key seen) => key.userId = r.userId ∧ Counted caps first w r.userId seen
  | _ => True

/-- Whoever has created a key since the start was within the cap when they last did. -/
structure CapInv (caps : ApiKeyCaps) (first : UserId → Nat) (w : KeyWorld) : Prop where
  started : ∀ userId, first userId ≤ w.creations userId
  within : ∀ userId, first userId < w.creations userId → (w.live userId : Int) ≤ caps.apiKeyMaxPerUser

variable {first : UserId → Nat}

theorem Counted.next {userId : UserId} {seen : Nat} (hcounted : Counted caps first w userId seen)
    (hcounts : CountStep w l w' l' userId) : Counted caps first w' userId seen := by
  have hpast := hcounted.past
  cases hcounts with
  | created _ _ _ hcreations =>
      refine ⟨hcounted.started, by omega, fun hsame => ?_⟩
      omega
  | other hcreations hlive =>
      refine ⟨hcounted.started, by omega, fun hsame => ?_⟩
      have hbelow := hcounted.below (by omega)
      omega

theorem KeyStep.now_le (hstep : KeyStep caps w l a w' l') : w.now ≤ w'.now := by
  cases hstep with
  | tick hnow => exact hnow
  | _ => exact Int.le_refl _

theorem HasCounted.frame {other : KeyLocal} (hstep : KeyStep caps w l a w' l')
    (hcounted : HasCounted caps first w other) : HasCounted caps first w' other := by
  cases other with
  | creating r phase =>
      cases phase with
      | validate => trivial
      | count now audiences => exact Int.le_trans hcounted hstep.now_le
      | generate audiences seen => exact Counted.next hcounted (hstep.counts _)
      | commit id key seen => exact ⟨hcounted.1, hcounted.2.next (hstep.counts _)⟩
  | _ => trivial

theorem HasCounted.mover (hstep : KeyStep caps w l a w' l') (hinv : CapInv caps first w)
    (hcounted : HasCounted caps first w l) : HasCounted caps first w' l' := by
  cases hstep with
  | tick hnow => exact hcounted.frame (.tick hnow : KeyStep caps w l _ _ l)
  | @begin _ request hfree =>
      cases request with
      | _ => trivial
  | validated => exact Int.le_refl _
  | @counted r now audiences hcount =>
      refine ⟨hinv.started r.userId, Nat.le_refl _, fun _ => ?_⟩
      have hmono := w.activeCount_mono r.userId hcounted
      show ((w.activeCount r.userId w.now : Nat) : Int) < _
      omega
  | generated => exact ⟨rfl, hcounted⟩
  | _ => trivial

/-- An overtaken creation leaves its user above the cap. -/
theorem not_keepsCap (hstep : keyStep caps w l a = some (w', l')) (hcounted : HasCounted caps first w l)
    (hovertaken : Overtaken caps w l a) : ¬ KeepsCap caps l w' l' := by
  obtain ⟨r, id, key, seen, rfl, rfl, hstorable, hkey, -, hreached⟩ := hovertaken
  have hcommits : keyStep caps w (.creating r (.commit id key seen)) .proceed =
      if w.storable id key then some (w.create r.consumers id key, .done (.created id key.audiences))
      else some (w, .done .failed) := rfl
  rw [hcommits, if_pos hstorable] at hstep
  obtain ⟨rfl, rfl⟩ := Prod.mk.inj (Option.some.inj hstep)
  intro hkeeps
  have hle := hkeeps r id key seen rfl rfl
  rw [KeyWorld.live_create hstorable, hcounted.1, hkey, beq_self_eq_true, Bool.true_and, if_pos rfl] at hle
  omega

theorem KeyStep.keepsCap (hstep : KeyStep caps w l a w' l') (hinv : CapInv caps first w)
    (hcounted : HasCounted caps first w l) (hnot : ¬ Overtaken caps w l a) : KeepsCap caps l w' l' := by
  intro r id key seen hl hdone
  subst hl
  cases hstep with
  | tick hnow => cases hdone
  | begin hfree => cases hfree
  | ended hresult => exact absurd (KeyLocal.done.inj hdone) (hresult _ _)
  | created hstorable =>
      obtain ⟨howner, hcounted⟩ := hcounted
      have hlive := KeyWorld.live_create hstorable r.consumers r.userId
      rw [hlive, howner, beq_self_eq_true, Bool.true_and]
      have hstarted := hcounted.started
      have hpast := hcounted.past
      by_cases hsame : w.creations r.userId = seen
      · have hbelow := hcounted.below hsame
        split <;> omega
      · have hwithin := hinv.within r.userId (by omega)
        split
        · next hkey =>
            have hbelow : ¬ caps.apiKeyMaxPerUser ≤ w.live r.userId := fun hreached =>
              hnot ⟨r, id, key, seen, rfl, rfl, hstorable, hkey, hsame, hreached⟩
            omega
        · omega

theorem CapInv.next (hstep : KeyStep caps w l a w' l') (hinv : CapInv caps first w)
    (hcounted : HasCounted caps first w l) (hkeeps : KeepsCap caps l w' l') : CapInv caps first w' := by
  have hall (userId : UserId) : first userId ≤ w'.creations userId ∧
      (first userId < w'.creations userId → (w'.live userId : Int) ≤ caps.apiKeyMaxPerUser) := by
    have hstarted := hinv.started userId
    cases hstep.counts userId with
    | created hcommit hdone howner hcreations =>
        subst hcommit
        obtain rfl := hcounted.1.symm.trans howner
        exact ⟨by omega, fun _ => hkeeps _ _ _ _ rfl hdone⟩
    | other hcreations hlive =>
        rw [hcreations]
        refine ⟨hstarted, fun hmore => ?_⟩
        have hwithin := hinv.within userId hmore
        omega
  exact ⟨fun userId => (hall userId).1, fun userId => (hall userId).2⟩

end

/-! ### Runs -/

section

variable {caps : ApiKeyCaps} {first : UserId → Nat} {c c' : Interleaving.Config KeyWorld KeyLocal}
  {move : Nat × KeyAction}

abbrev CapAsserted (caps : ApiKeyCaps) (first : UserId → Nat) :
    Interleaving.Config KeyWorld KeyLocal → Prop :=
  Interleaving.Asserted (CapInv caps first) fun _ w l => HasCounted caps first w l

theorem keepsCap_next (hassert : CapAsserted caps first c) (hnext : (apiKeySystem caps).next c move = some c') :
    KeepsCap caps (c.locals move.1) c'.shared (c'.locals move.1) ↔
      ¬ Overtaken caps c.shared (c.locals move.1) move.2 := by
  have hstep : keyStep caps _ _ _ = some _ := Interleaving.System.step_of_next hnext
  have hcounted := hassert.locals move.1
  constructor
  · intro hkeeps hovertaken
    exact not_keepsCap hstep hcounted hovertaken hkeeps
  · exact (keyStep_sound hstep).keepsCap hassert.shared hcounted

theorem capAsserted_next (hassert : CapAsserted caps first c)
    (hnext : (apiKeySystem caps).next c move = some c')
    (hkeeps : KeepsCap caps (c.locals move.1) c'.shared (c'.locals move.1)) : CapAsserted caps first c' := by
  have hstep := keyStep_sound (Interleaving.System.step_of_next hnext)
  have hcounted := hassert.locals move.1
  exact Interleaving.Asserted.moved hnext (hassert.shared.next hstep hcounted hkeeps)
    (hcounted.mover hstep hassert.shared) fun q _ => (hassert.locals q).frame hstep

/-- No creation that is committed leaves its user above the cap, exactly when none is overtaken by another
creation of the same user between its count and its commit. -/
theorem live_cap_kept_iff (caps : ApiKeyCaps) {c : Interleaving.Config KeyWorld KeyLocal}
    (hidle : ∀ p, c.locals p = .idle) (schedule : List (Nat × KeyAction)) :
    (apiKeySystem caps).Along (fun c move c' => KeepsCap caps (c.locals move.1) c'.shared (c'.locals move.1))
        c schedule ↔
      (apiKeySystem caps).Along (fun c move _ => ¬ Overtaken caps c.shared (c.locals move.1) move.2)
        c schedule := by
  have hassert : CapAsserted caps c.shared.creations c := by
    refine ⟨⟨fun _ => Nat.le_refl _, fun userId hmore => absurd hmore (Nat.lt_irrefl _)⟩, fun p => ?_⟩
    rw [hidle p]
    trivial
  exact Interleaving.System.along_iff (fun _ _ _ => keepsCap_next) (fun _ _ _ => capAsserted_next) schedule
    hassert

end

def keyNumber (n : Fin 16) : Uuid where
  value := n
  value_lt := Nat.lt_trans n.isLt (by decide)

/-- A user with one key fewer than the cap. -/
def nineKeys : Interleaving.Config KeyWorld KeyLocal where
  shared := { apiKeys := (List.finRange 9).foldl (fun keys n =>
    keys.insert (keyNumber (n.castLE (by decide))) { keyHash := toString n.val, userId := 7 }) ∅ }
  locals _ := .idle

/-- Two creations of the user count before either is committed; the first is, and the second is about to be.
-/
def twoCreations : List (Nat × KeyAction) :=
  [(0, .begin (.create { userId := 7, ttlHours := 48 })), (1, .begin (.create { userId := 7, ttlHours := 48 })),
    (0, .proceed), (1, .proceed), (0, .proceed), (1, .proceed), (0, .generate (keyNumber 9) "a"),
    (1, .generate (keyNumber 10) "b"), (0, .proceed)]

theorem live_cap_kept_iff_twoCreations :
    (apiKeySystem {}).Along (fun c move c' => KeepsCap {} (c.locals move.1) c'.shared (c'.locals move.1))
        nineKeys twoCreations ↔
      (apiKeySystem {}).Along (fun c move _ => ¬ Overtaken {} c.shared (c.locals move.1) move.2)
        nineKeys twoCreations :=
  live_cap_kept_iff {} (fun _ => rfl) twoCreations

/-- The key a creation is about to store, with its user. -/
def KeyLocal.pending : KeyLocal → Option (UserId × Uuid × ApiKey)
  | .creating r (.commit id key _) => some (r.userId, id, key)
  | _ => none

theorem KeyLocal.pending_eq_some {l : KeyLocal} {userId : UserId} {id : Uuid} {key : ApiKey}
    (hpending : l.pending = some (userId, id, key)) :
    ∃ r seen, l = .creating r (.commit id key seen) ∧ r.userId = userId := by
  cases l with
  | creating r phase =>
      cases phase with
      | commit id key seen =>
          cases hpending
          exact ⟨r, seen, rfl, rfl⟩
      | _ => cases hpending
  | _ => cases hpending

theorem KeyLocal.result_eq_some {l : KeyLocal} {result : KeyResult} (hresult : l.result = some result) :
    l = .done result := by
  cases l with
  | done result =>
      cases hresult
      rfl
  | _ => cases hresult

/-- The second creation is committed, and leaves its user with eleven live keys under a cap of ten. -/
theorem live_cap_exceeded :
    ∃ c c', (apiKeySystem {}).run nineKeys twoCreations = some c ∧
      (apiKeySystem {}).next c (1, .proceed) = some c' ∧ c'.locals 1 = .done (.created (keyNumber 10) []) ∧
      c'.shared.live 7 = 11 ∧ ¬ KeepsCap {} (c.locals 1) c'.shared (c'.locals 1) := by
  have hbefore : ((apiKeySystem {}).run nineKeys twoCreations).map (fun c => (c.locals 1).pending)
      = some (some (7, keyNumber 10,
        { keyHash := "b", userId := 7, expiresAt := some 172800000000 })) := by
    decide +kernel
  have hafter : ((apiKeySystem {}).run nineKeys (twoCreations ++ [(1, .proceed)])).map
      (fun c' => ((c'.locals 1).result, c'.shared.live 7)) = some (some (.created (keyNumber 10) []), 11) := by
    decide +kernel
  obtain ⟨c', hboth, hresult⟩ := Option.map_eq_some_iff.1 hafter
  obtain ⟨c, hrun, hlast⟩ := Interleaving.System.run_append.1 hboth
  obtain ⟨c₁, hnext, hend⟩ := Interleaving.System.run_cons.1 hlast
  obtain rfl := Option.some.inj hend
  rw [hrun, Option.map_some, Option.some.injEq] at hbefore
  obtain ⟨hdone, hlive⟩ := Prod.mk.inj hresult
  obtain ⟨r, seen, hlocal, huser⟩ := KeyLocal.pending_eq_some hbefore
  have hended := KeyLocal.result_eq_some hdone
  refine ⟨c, c₁, hrun, hnext, hended, hlive, fun hkeeps => ?_⟩
  have hle := hkeeps r _ _ seen hlocal hended
  rw [huser, hlive] at hle
  exact absurd hle (by decide)

end FaAuthM8

import FaAuthM8.System.OauthFlow

/-!
# A code belongs to whoever began the login

The challenge of a login goes with its state into the session record, with the session into the code a
callback mints, and with the code to the exchange that takes it. A state and a code are generated once, so a
code is stored once, by the callback that minted it; it is taken once, by the exchange that found it, and so
yields at most once.
-/

namespace FaAuthM8

section

variable {settings : OauthSettings} {p q : Nat} {w w' : OauthWorld} {l l' : OauthLocal} {a : OauthAction}

def OauthEvent.yields (code : String) : OauthEvent → Bool
  | .yielded code' _ _ => code' == code
  | _ => false

/-- How many times the code has yielded its payload. -/
def OauthWorld.yields (w : OauthWorld) (code : String) : Nat :=
  w.log.countP (·.yields code)

/-- What has happened to states and codes. -/
structure OauthHistory (settings : OauthSettings) (log : List OauthEvent) : Prop where
  initiatedOnce : ∀ state challenge challenge', .initiated state challenge ∈ log →
    .initiated state challenge' ∈ log → challenge = challenge'
  mintedOnce : ∀ p q state state' code payload payload', .minted p state code payload ∈ log →
    .minted q state' code payload' ∈ log → p = q ∧ state = state' ∧ payload = payload'
  consumedOnce : ∀ p q code, .consumed p code ∈ log → .consumed q code ∈ log → p = q
  minted : ∀ p state code payload, .minted p state code payload ∈ log →
    .initiated state payload.codeChallenge ∈ log
  stored : ∀ code, .stored code ∈ log → ∃ p state payload, .minted p state code payload ∈ log
  consumed : ∀ p code, .consumed p code ∈ log → .stored code ∈ log
  yielded : ∀ code verifier payload, .yielded code verifier payload ∈ log →
    (∃ p, .consumed p code ∈ log) ∧ ∃ p state full, .minted p state code full ∈ log ∧
      full.toTokenPayload = payload ∧ settings.challengeOf verifier = full.codeChallenge
  yields : ∀ code, log.countP (·.yields code) ≤ 1

/-- What is stored is what was initiated or minted, and a stored code has not been consumed. -/
structure OauthInv (settings : OauthSettings) (w : OauthWorld) : Prop where
  history : OauthHistory settings w.log
  sessions : ∀ state entry, w.sessions.lookup state = some entry →
    .initiated state entry.value.codeChallenge ∈ w.log
  codes : ∀ code entry, w.codes.lookup code = some entry →
    .stored code ∈ w.log ∧ (∀ p, .consumed p code ∉ w.log) ∧
      ∃ p state, .minted p state code entry.value ∈ w.log

/-- What a process holds of the flow. -/
def HoldsRecord (p : Nat) (log : List OauthEvent) : OauthLocal → Prop
  | .loginUrl _ (.store state session) => .initiated state session.codeChallenge ∈ log
  | .callback state (.google session) => .initiated state session.codeChallenge ∈ log
  | .callback state (.store _ code payload) => .minted p state code payload ∈ log ∧ .stored code ∉ log
  | .exchange r (.verify payload) => .consumed p r.code ∈ log ∧
      (∃ q state, .minted q state r.code payload ∈ log) ∧ ∀ verifier data, .yielded r.code verifier data ∉ log
  | _ => True

/-! ### Freshness -/

theorem hasInitiated_eq_false {state : String} (hfresh : w.hasInitiated state = false) (challenge : String) :
    .initiated state challenge ∉ w.log := by
  intro hmem
  rw [OauthWorld.hasInitiated, List.any_eq_false] at hfresh
  exact hfresh _ hmem (beq_self_eq_true state)

theorem hasMinted_eq_false {code : String} (hfresh : w.hasMinted code = false) (p : Nat) (state : String)
    (payload : AuthCodePayload) : .minted p state code payload ∉ w.log := by
  intro hmem
  rw [OauthWorld.hasMinted, List.any_eq_false] at hfresh
  exact hfresh _ hmem (beq_self_eq_true code)

theorem code_eq_some {code : String} {payload : AuthCodePayload} (hcode : w.code code = some payload) :
    ∃ entry, w.codes.lookup code = some entry ∧ entry.value = payload := by
  obtain ⟨entry, hentry, hvalue⟩ := Option.map_eq_some_iff.1 hcode
  exact ⟨entry, (Option.filter_eq_some_iff.1 hentry).1, hvalue⟩

theorem session_eq_some {state : String} {session : OauthSession} (hsession : w.session state = some session) :
    ∃ entry, w.sessions.lookup state = some entry ∧ entry.value = session := by
  obtain ⟨entry, hentry, hvalue⟩ := Option.map_eq_some_iff.1 hsession
  exact ⟨entry, (Option.filter_eq_some_iff.1 hentry).1, hvalue⟩

/-! ### The history after each event -/

section

variable {log : List OauthEvent} {state code : String}

theorem OauthHistory.initiate {challenge : String} (hhistory : OauthHistory settings log)
    (hfresh : ∀ challenge', .initiated state challenge' ∉ log) :
    OauthHistory settings (.initiated state challenge :: log) where
  initiatedOnce state' first second hfirst hsecond := by
    simp only [List.mem_cons, OauthEvent.initiated.injEq] at hfirst hsecond
    rcases hfirst with ⟨rfl, rfl⟩ | hfirst
    · rcases hsecond with ⟨-, rfl⟩ | hsecond
      · rfl
      · exact absurd hsecond (hfresh _)
    · rcases hsecond with ⟨rfl, rfl⟩ | hsecond
      · exact absurd hfirst (hfresh _)
      · exact hhistory.initiatedOnce _ _ _ hfirst hsecond
  mintedOnce := by simpa using hhistory.mintedOnce
  consumedOnce := by simpa using hhistory.consumedOnce
  minted p state' code payload hminted := by
    simp only [List.mem_cons, reduceCtorEq, false_or] at hminted
    exact List.mem_cons_of_mem _ (hhistory.minted _ _ _ _ hminted)
  stored := by simpa using hhistory.stored
  consumed := by simpa using hhistory.consumed
  yielded := by simpa using hhistory.yielded
  yields := by simpa [OauthEvent.yields] using hhistory.yields

theorem OauthHistory.mint {payload : AuthCodePayload} (hhistory : OauthHistory settings log)
    (hfresh : ∀ q state' payload', .minted q state' code payload' ∉ log)
    (hinitiated : .initiated state payload.codeChallenge ∈ log) :
    OauthHistory settings (.minted p state code payload :: log) where
  initiatedOnce := by simpa using hhistory.initiatedOnce
  mintedOnce q q' state₁ state₂ code' first second hfirst hsecond := by
    simp only [List.mem_cons, OauthEvent.minted.injEq] at hfirst hsecond
    rcases hfirst with ⟨rfl, rfl, rfl, rfl⟩ | hfirst
    · rcases hsecond with ⟨rfl, rfl, -, rfl⟩ | hsecond
      · exact ⟨rfl, rfl, rfl⟩
      · exact absurd hsecond (hfresh _ _ _)
    · rcases hsecond with ⟨rfl, rfl, rfl, rfl⟩ | hsecond
      · exact absurd hfirst (hfresh _ _ _)
      · exact hhistory.mintedOnce _ _ _ _ _ _ _ hfirst hsecond
  consumedOnce := by simpa using hhistory.consumedOnce
  minted q state' code' payload' hminted := by
    simp only [List.mem_cons, OauthEvent.minted.injEq] at hminted
    rcases hminted with ⟨-, rfl, -, rfl⟩ | hminted
    · exact List.mem_cons_of_mem _ hinitiated
    · exact List.mem_cons_of_mem _ (hhistory.minted _ _ _ _ hminted)
  stored code' hstored := by
    simp only [List.mem_cons, reduceCtorEq, false_or] at hstored
    obtain ⟨q, state', payload', hminted⟩ := hhistory.stored _ hstored
    exact ⟨q, state', payload', List.mem_cons_of_mem _ hminted⟩
  consumed := by simpa using hhistory.consumed
  yielded code' verifier data hyielded := by
    simp only [List.mem_cons, reduceCtorEq, false_or] at hyielded
    obtain ⟨⟨q, hconsumed⟩, q', state', full, hminted, hdata, hchallenge⟩ := hhistory.yielded _ _ _ hyielded
    exact ⟨⟨q, List.mem_cons_of_mem _ hconsumed⟩, q', state', full, List.mem_cons_of_mem _ hminted, hdata,
      hchallenge⟩
  yields := by simpa [OauthEvent.yields] using hhistory.yields

theorem OauthHistory.store (hhistory : OauthHistory settings log)
    (hminted : ∃ q state' payload, .minted q state' code payload ∈ log) :
    OauthHistory settings (.stored code :: log) where
  initiatedOnce := by simpa using hhistory.initiatedOnce
  mintedOnce := by simpa using hhistory.mintedOnce
  consumedOnce := by simpa using hhistory.consumedOnce
  minted := by simpa using hhistory.minted
  stored code' hstored := by
    simp only [List.mem_cons, OauthEvent.stored.injEq] at hstored
    rcases hstored with rfl | hstored
    · obtain ⟨q, state', payload, hminted⟩ := hminted
      exact ⟨q, state', payload, List.mem_cons_of_mem _ hminted⟩
    · obtain ⟨q, state', payload, hminted⟩ := hhistory.stored _ hstored
      exact ⟨q, state', payload, List.mem_cons_of_mem _ hminted⟩
  consumed q code' hconsumed := by
    simp only [List.mem_cons, reduceCtorEq, false_or] at hconsumed
    exact List.mem_cons_of_mem _ (hhistory.consumed _ _ hconsumed)
  yielded := by simpa using hhistory.yielded
  yields := by simpa [OauthEvent.yields] using hhistory.yields

theorem OauthHistory.consume (hhistory : OauthHistory settings log) (hstored : .stored code ∈ log)
    (hfresh : ∀ q, .consumed q code ∉ log) : OauthHistory settings (.consumed p code :: log) where
  initiatedOnce := by simpa using hhistory.initiatedOnce
  mintedOnce := by simpa using hhistory.mintedOnce
  consumedOnce q q' code' hfirst hsecond := by
    simp only [List.mem_cons, OauthEvent.consumed.injEq] at hfirst hsecond
    rcases hfirst with ⟨rfl, rfl⟩ | hfirst
    · rcases hsecond with ⟨rfl, -⟩ | hsecond
      · rfl
      · exact absurd hsecond (hfresh _)
    · rcases hsecond with ⟨rfl, rfl⟩ | hsecond
      · exact absurd hfirst (hfresh _)
      · exact hhistory.consumedOnce _ _ _ hfirst hsecond
  minted := by simpa using hhistory.minted
  stored := by simpa using hhistory.stored
  consumed q code' hconsumed := by
    simp only [List.mem_cons, OauthEvent.consumed.injEq] at hconsumed
    rcases hconsumed with ⟨-, rfl⟩ | hconsumed
    · exact List.mem_cons_of_mem _ hstored
    · exact List.mem_cons_of_mem _ (hhistory.consumed _ _ hconsumed)
  yielded code' verifier data hyielded := by
    simp only [List.mem_cons, reduceCtorEq, false_or] at hyielded
    obtain ⟨⟨q, hconsumed⟩, q', state', full, hminted, hdata, hchallenge⟩ := hhistory.yielded _ _ _ hyielded
    exact ⟨⟨q, List.mem_cons_of_mem _ hconsumed⟩, q', state', full, List.mem_cons_of_mem _ hminted, hdata,
      hchallenge⟩
  yields := by simpa [OauthEvent.yields] using hhistory.yields

theorem OauthHistory.yield {verifier : String} {payload : AuthCodePayload}
    (hhistory : OauthHistory settings log) (hconsumed : .consumed p code ∈ log)
    (hminted : ∃ q state', .minted q state' code payload ∈ log)
    (hfresh : ∀ verifier' data, .yielded code verifier' data ∉ log)
    (hverified : settings.challengeOf verifier = payload.codeChallenge) :
    OauthHistory settings (.yielded code verifier payload.toTokenPayload :: log) where
  initiatedOnce := by simpa using hhistory.initiatedOnce
  mintedOnce := by simpa using hhistory.mintedOnce
  consumedOnce := by simpa using hhistory.consumedOnce
  minted := by simpa using hhistory.minted
  stored := by simpa using hhistory.stored
  consumed := by simpa using hhistory.consumed
  yielded code' verifier' data hyielded := by
    simp only [List.mem_cons, OauthEvent.yielded.injEq] at hyielded
    rcases hyielded with ⟨rfl, rfl, rfl⟩ | hyielded
    · obtain ⟨q, state', hminted⟩ := hminted
      exact ⟨⟨p, List.mem_cons_of_mem _ hconsumed⟩, q, state', payload, List.mem_cons_of_mem _ hminted, rfl,
        hverified⟩
    · obtain ⟨⟨q, hconsumed⟩, q', state', full, hminted, hdata, hchallenge⟩ := hhistory.yielded _ _ _ hyielded
      exact ⟨⟨q, List.mem_cons_of_mem _ hconsumed⟩, q', state', full, List.mem_cons_of_mem _ hminted, hdata,
        hchallenge⟩
  yields code' := by
    rw [List.countP_cons]
    by_cases hcode : code = code'
    · subst hcode
      have hnone : log.countP (·.yields code) = 0 := by
        rw [List.countP_eq_zero]
        intro event hevent hyields
        cases event with
        | yielded code₀ verifier₀ data₀ =>
            obtain rfl := beq_iff_eq.1 hyields
            exact hfresh _ _ hevent
        | _ => cases hyields
      rw [hnone]
      split <;> omega
    · rw [if_neg (by simpa [OauthEvent.yields] using hcode)]
      exact hhistory.yields code'

end

/-! ### The records after each step -/

theorem OauthInv.same (hinv : OauthInv settings w) (hsame : SameFlow w w') : OauthInv settings w' := by
  obtain ⟨hsessions, hcodes, hlog⟩ := hsame
  refine ⟨?_, ?_, ?_⟩
  · rw [hlog]
    exact hinv.history
  · rw [hsessions, hlog]
    exact hinv.sessions
  · rw [hcodes, hlog]
    exact hinv.codes

theorem OauthInv.codes_cons (hinv : OauthInv settings w) {event : OauthEvent}
    (hother : ∀ p code, event ≠ .consumed p code) {code : String} {entry : Expiring AuthCodePayload}
    (hentry : w.codes.lookup code = some entry) :
    .stored code ∈ event :: w.log ∧ (∀ p, .consumed p code ∉ event :: w.log) ∧
      ∃ p state, .minted p state code entry.value ∈ event :: w.log := by
  obtain ⟨hstored, hunconsumed, q, state, hminted⟩ := hinv.codes code entry hentry
  refine ⟨List.mem_cons_of_mem _ hstored, fun p hconsumed => ?_, q, state, List.mem_cons_of_mem _ hminted⟩
  rcases List.mem_cons.1 hconsumed with heq | hconsumed
  · exact hother p code heq.symm
  · exact hunconsumed p hconsumed

theorem OauthStep.inv (hstep : OauthStep settings p w l a w' l') (hinv : OauthInv settings w)
    (hholds : HoldsRecord p w.log l) : OauthInv settings w' := by
  cases hstep with
  | environment hsame => exact hinv.same hsame
  | ended hsame => exact hinv.same hsame
  | limited hsame => exact hinv.same hsame
  | initiated hfresh =>
      exact ⟨hinv.history.initiate (hasInitiated_eq_false hfresh),
        fun state entry hentry => List.mem_cons_of_mem _ (hinv.sessions state entry hentry),
        fun code entry hentry => hinv.codes_cons (by simp) hentry⟩
  | @storedSession r state session =>
      refine ⟨hinv.history, fun state' entry hentry => ?_, hinv.codes⟩
      rw [OauthWorld.storeSession, Table.lookup_insert_eq] at hentry
      split at hentry
      · next heq =>
          obtain rfl := Option.some.inj hentry
          exact heq ▸ hholds
      · exact hinv.sessions state' entry hentry
  | minted hfresh =>
      exact ⟨hinv.history.mint (hasMinted_eq_false hfresh) hholds,
        fun state entry hentry => List.mem_cons_of_mem _ (hinv.sessions state entry hentry),
        fun code entry hentry => hinv.codes_cons (by simp) hentry⟩
  | @storedCode state code session payload =>
      obtain ⟨hminted, hunstored⟩ := hholds
      refine ⟨hinv.history.store ⟨p, state, payload, hminted⟩,
        fun state entry hentry => List.mem_cons_of_mem _ (hinv.sessions state entry hentry),
        fun code' entry hentry => ?_⟩
      rw [OauthWorld.storeCode, Table.lookup_insert_eq] at hentry
      split at hentry
      · next heq =>
          obtain rfl := Option.some.inj hentry
          subst heq
          refine ⟨List.mem_cons_self, fun q hconsumed => ?_, p, state, List.mem_cons_of_mem _ hminted⟩
          simp only [OauthWorld.storeCode, List.mem_cons, reduceCtorEq, false_or] at hconsumed
          exact hunstored (hinv.history.consumed _ _ hconsumed)
      · exact hinv.codes_cons (by simp) hentry
  | @deletedSession state code session =>
      refine ⟨hinv.history, fun state' entry hentry => ?_, hinv.codes⟩
      rw [OauthWorld.deleteSession, Table.lookup_erase_eq] at hentry
      split at hentry
      · cases hentry
      · exact hinv.sessions state' entry hentry
  | @consumed r payload _ hstored =>
      obtain ⟨entry, hentry, -⟩ := code_eq_some hstored
      obtain ⟨hwasStored, hunconsumed, -⟩ := hinv.codes _ _ hentry
      refine ⟨hinv.history.consume hwasStored hunconsumed,
        fun state entry hentry => List.mem_cons_of_mem _ (hinv.sessions state entry hentry),
        fun code entry hentry => ?_⟩
      rw [OauthWorld.consume, Table.lookup_erase_eq] at hentry
      split at hentry
      · cases hentry
      · next hother =>
          obtain ⟨hstored', hunconsumed', q, state, hminted⟩ := hinv.codes code entry hentry
          refine ⟨List.mem_cons_of_mem _ hstored', fun q' hconsumed => ?_, q, state,
            List.mem_cons_of_mem _ hminted⟩
          simp only [OauthWorld.consume, List.mem_cons, OauthEvent.consumed.injEq] at hconsumed
          rcases hconsumed with ⟨-, heq⟩ | hconsumed
          · exact hother heq
          · exact hunconsumed' q' hconsumed
  | yielded hverified =>
      obtain ⟨hconsumed, hminted, hfresh⟩ := hholds
      exact ⟨hinv.history.yield hconsumed hminted hfresh (beq_iff_eq.1 hverified),
        fun state entry hentry => List.mem_cons_of_mem _ (hinv.sessions state entry hentry),
        fun code entry hentry => hinv.codes_cons (by simp) hentry⟩
  | _ => exact hinv

/-! ### What processes hold after a step -/

/-- What a process did to a record was its own to do. -/
def OwnEvent (p : Nat) (w : OauthWorld) : OauthEvent → Prop
  | .stored code => ∃ state payload, .minted p state code payload ∈ w.log
  | .yielded code _ _ => .consumed p code ∈ w.log
  | _ => True

theorem OauthStep.log (hstep : OauthStep settings p w l a w' l') (hholds : HoldsRecord p w.log l) :
    w'.log = w.log ∨ ∃ event, w'.log = event :: w.log ∧ OwnEvent p w event := by
  cases hstep with
  | environment hsame => exact .inl hsame.log
  | ended hsame => exact .inl hsame.log
  | limited hsame => exact .inl hsame.log
  | initiated => exact .inr ⟨_, rfl, trivial⟩
  | minted => exact .inr ⟨_, rfl, trivial⟩
  | storedCode => exact .inr ⟨_, rfl, _, _, hholds.1⟩
  | consumed => exact .inr ⟨_, rfl, trivial⟩
  | yielded => exact .inr ⟨_, rfl, hholds.1⟩
  | _ => exact .inl rfl

theorem HoldsRecord.frame {other : OauthLocal} (hstep : OauthStep settings p w l a w' l')
    (hinv : OauthInv settings w) (hholds : HoldsRecord p w.log l) (hq : q ≠ p)
    (hother : HoldsRecord q w.log other) : HoldsRecord q w'.log other := by
  rcases hstep.log hholds with hlog | ⟨event, hlog, hown⟩
  · rw [hlog]
    exact hother
  · rw [hlog]
    cases other with
    | loginUrl r phase =>
        cases phase with
        | store state session => exact List.mem_cons_of_mem _ hother
        | _ => trivial
    | callback state phase =>
        cases phase with
        | google session => exact List.mem_cons_of_mem _ hother
        | store session code payload =>
            refine ⟨List.mem_cons_of_mem _ hother.1, fun hstored => ?_⟩
            rcases List.mem_cons.1 hstored with rfl | hstored
            · obtain ⟨state', payload', hminted⟩ := hown
              exact hq (hinv.history.mintedOnce _ _ _ _ _ _ _ hother.1 hminted).1
            · exact hother.2 hstored
        | _ => trivial
    | exchange r phase =>
        cases phase with
        | verify payload =>
            obtain ⟨hconsumed, ⟨q', state, hminted⟩, hfresh⟩ := hother
            refine ⟨List.mem_cons_of_mem _ hconsumed, ⟨q', state, List.mem_cons_of_mem _ hminted⟩,
              fun verifier data hyielded => ?_⟩
            rcases List.mem_cons.1 hyielded with rfl | hyielded
            · exact hq (hinv.history.consumedOnce _ _ _ hconsumed hown)
            · exact hfresh verifier data hyielded
        | _ => trivial
    | _ => trivial

theorem HoldsRecord.mover (hstep : OauthStep settings p w l a w' l') (hinv : OauthInv settings w)
    (hholds : HoldsRecord p w.log l) : HoldsRecord p w'.log l' := by
  cases hstep with
  | environment hsame =>
      rw [hsame.log]
      exact hholds
  | @begin _ request hfree =>
      cases request with
      | _ => trivial
  | initiated hfresh hl' =>
      rcases hl' with ⟨result, rfl⟩ | ⟨session, rfl, hchallenge⟩
      · trivial
      · show _ ∈ _
        rw [hchallenge]
        exact List.mem_cons_self
  | found hfound =>
      obtain ⟨entry, hentry, rfl⟩ := session_eq_some hfound
      exact hinv.sessions _ _ hentry
  | minted hfresh =>
      refine ⟨List.mem_cons_self, fun hstored => ?_⟩
      simp only [OauthWorld.mint, List.mem_cons, reduceCtorEq, false_or] at hstored
      obtain ⟨q, state, payload, hminted⟩ := hinv.history.stored _ hstored
      exact hasMinted_eq_false hfresh _ _ _ hminted
  | consumed hstored hl' =>
      rcases hl' with ⟨result, rfl⟩ | rfl
      · trivial
      · obtain ⟨entry, hentry, rfl⟩ := code_eq_some hstored
        obtain ⟨-, hunconsumed, q, state, hminted⟩ := hinv.codes _ _ hentry
        refine ⟨List.mem_cons_self, ⟨q, state, List.mem_cons_of_mem _ hminted⟩, fun verifier data hyielded => ?_⟩
        simp only [OauthWorld.consume, List.mem_cons, reduceCtorEq, false_or] at hyielded
        obtain ⟨⟨q', hconsumed⟩, -⟩ := hinv.history.yielded _ _ _ hyielded
        exact hunconsumed q' hconsumed
  | _ => trivial

/-- An exchange that passes the checks takes its code next, and takes it from the store when it is there. -/
structure ConsumesCode (settings : OauthSettings) (p : Nat) (w : OauthWorld) (l : OauthLocal) (a : OauthAction)
    (w' : OauthWorld) (l' : OauthLocal) : Prop where
  reaches : ∀ r, l = .exchange r .check → a = .proceed → r.check settings = none → l' = .exchange r .pop
  consumes : ∀ r payload, l = .exchange r .pop → a = .proceed → w.code r.code = some payload →
    .consumed p r.code ∈ w'.log ∧ w'.codes.lookup r.code = none

theorem oauthStep_consumes (hstep : oauthStep settings p w l a = some (w', l')) :
    ConsumesCode settings p w l a w' l' := by
  refine ⟨?_, ?_⟩
  · intro r hl ha hpasses
    subst hl ha
    have hcheck : oauthStep settings p w (.exchange r .check) .proceed = some (w, .exchange r .pop) := by
      show r.step settings p w .check = _
      rw [ExchangeRequest.step, hpasses]
    exact (Prod.mk.inj (Option.some.inj (hstep.symm.trans hcheck))).2
  · intro r payload hl ha hcode
    subst hl ha
    have htaken : w' = w.consume p r.code := by
      have hpop : r.step settings p w .pop = some (w', l') := hstep
      rw [ExchangeRequest.step, hcode] at hpop
      obtain ⟨-, hpop⟩ := Option.ite_none_right_eq_some.1 hpop
      dsimp only at hpop
      split at hpop
      · exact (Prod.mk.inj (Option.some.inj hpop)).1.symm
      · exact (Prod.mk.inj (Option.some.inj hpop)).1.symm
    subst htaken
    exact ⟨List.mem_cons_self, AList.lookup_erase _ _⟩

end

/-! ### Runs -/

/-- No login has begun. -/
structure OauthStarts (c : Interleaving.Config OauthWorld OauthLocal) : Prop where
  sessions : c.shared.sessions = ∅
  codes : c.shared.codes = ∅
  log : c.shared.log = []
  idle : ∀ p, c.locals p = .idle

section

variable {settings : OauthSettings} {c₀ c c' : Interleaving.Config OauthWorld OauthLocal}

abbrev OauthAsserted (settings : OauthSettings) : Interleaving.Config OauthWorld OauthLocal → Prop :=
  Interleaving.Asserted (OauthInv settings) fun p w l => HoldsRecord p w.log l

theorem OauthStarts.asserted (hstarts : OauthStarts c₀) : OauthAsserted settings c₀ := by
  have hhistory : OauthHistory settings [] := by
    refine ⟨?_, ?_, ?_, ?_, ?_, ?_, ?_, ?_⟩ <;> simp
  refine ⟨⟨hstarts.log ▸ hhistory, ?_, ?_⟩, fun p => ?_⟩
  · intro state entry hentry
    rw [hstarts.sessions, AList.lookup_empty] at hentry
    cases hentry
  · intro code entry hentry
    rw [hstarts.codes, AList.lookup_empty] at hentry
    cases hentry
  · rw [hstarts.idle p]
    trivial

theorem oauthAsserted_next {move : Nat × OauthAction} (hassert : OauthAsserted settings c)
    (hnext : (oauthFlow settings).next c move = some c') : OauthAsserted settings c' := by
  have hstep := oauthStep_sound (Interleaving.System.step_of_next hnext)
  have hinv := hassert.shared
  have hholds := hassert.locals move.1
  exact Interleaving.Asserted.moved hnext (hstep.inv hinv hholds) (hholds.mover hstep hinv)
    fun q hq => HoldsRecord.frame hstep hinv hholds hq (hassert.locals q)

/-- Who a code has yielded its payload to: one state was presented to the callback that minted it, that
state was generated for one challenge, and the verifier hashes to it. -/
def YieldedToInitiator (settings : OauthSettings) (log : List OauthEvent) (code verifier : String)
    (payload : TokenPayload) : Prop :=
  ∃ p state full, .minted p state code full ∈ log ∧ full.toTokenPayload = payload ∧
    (∀ q state' full', .minted q state' code full' ∈ log → state' = state ∧ full' = full) ∧
    ∃ challenge, .initiated state challenge ∈ log ∧
      (∀ challenge', .initiated state challenge' ∈ log → challenge' = challenge) ∧
      settings.challengeOf verifier = challenge

/-- Every code yields its payload at most once, and only to the verifier of the login that led to it; a code
that an exchange has taken is gone, and every exchange that passes the checks and names a stored code takes
it. -/
theorem oauth_code_bound (hstarts : OauthStarts c₀) {schedule : List (Nat × OauthAction)}
    (hrun : (oauthFlow settings).run c₀ schedule = some c) :
    (∀ code, c.shared.yields code ≤ 1) ∧
      (∀ code verifier payload, .yielded code verifier payload ∈ c.shared.log →
        YieldedToInitiator settings c.shared.log code verifier payload) ∧
      (∀ p code, .consumed p code ∈ c.shared.log → c.shared.codes.lookup code = none) ∧
      (oauthFlow settings).Along (fun c move c' => ConsumesCode settings move.1 c.shared (c.locals move.1) move.2
        c'.shared (c'.locals move.1)) c₀ schedule := by
  have hassert : OauthAsserted settings c :=
    Interleaving.System.run_keeps (fun _ _ _ => oauthAsserted_next) hstarts.asserted hrun
  have hhistory := hassert.shared.history
  have hconsumes : ∀ c move c', True → (oauthFlow settings).next c move = some c' →
      ConsumesCode settings move.1 c.shared (c.locals move.1) move.2 c'.shared (c'.locals move.1) ∧ True :=
    fun c move c' _ hnext => ⟨oauthStep_consumes (Interleaving.System.step_of_next hnext), trivial⟩
  refine ⟨hhistory.yields, fun code verifier payload hyielded => ?_, fun p code hconsumed => ?_, ?_⟩
  · obtain ⟨-, p, state, full, hminted, hpayload, hchallenge⟩ := hhistory.yielded _ _ _ hyielded
    have hinitiated := hhistory.minted _ _ _ _ hminted
    refine ⟨p, state, full, hminted, hpayload, fun q state' full' hminted' => ?_, _, hinitiated,
      fun challenge' hinitiated' => hhistory.initiatedOnce _ _ _ hinitiated' hinitiated, hchallenge⟩
    obtain ⟨-, hstate, hfull⟩ := hhistory.mintedOnce _ _ _ _ _ _ _ hminted' hminted
    exact ⟨hstate, hfull⟩
  · cases hentry : c.shared.codes.lookup code with
    | none => rfl
    | some entry =>
        obtain ⟨-, hunconsumed, -⟩ := hassert.shared.codes code entry hentry
        exact absurd hconsumed (hunconsumed p)
  · exact Interleaving.System.along_of_invariant hconsumes schedule trivial

end

/-- A hash under which the verifier of forty-three a's answers the challenge of forty-three b's. -/
def exampleOauth : OauthSettings where
  challengeOf verifier := verifier.map fun c => if c = 'a' then 'b' else c
  isPrintable c := 32 ≤ c.val && c.val ≤ 126

def freshFlow : Interleaving.Config OauthWorld OauthLocal where
  shared := {}
  locals _ := .idle

theorem freshFlow_starts : OauthStarts freshFlow where
  sessions := rfl
  codes := rfl
  log := rfl
  idle _ := rfl

def exampleCode : String := "12345678-1234-4123-8123-123456789abc"

/-- A login, its callback, an exchange with the right verifier, and a replay. -/
def loginAndReplay : List (Nat × OauthAction) :=
  [(0, .begin (.loginUrl ⟨"app://x", "bbbbbbbbbbbbbbbbbbbbbbbbbbbbbbbbbbbbbbbbbbb"⟩)), (0, .proceed),
    (0, .generate "state" "verifier"), (0, .proceed), (1, .begin (.callback "state")), (1, .proceed),
    (1, .grant exampleCode { accessToken := "token", email := "a@x" }), (1, .proceed), (1, .proceed),
    (2, .begin (.exchange
      { client := "1.2.3.4", code := exampleCode,
        codeVerifier := "aaaaaaaaaaaaaaaaaaaaaaaaaaaaaaaaaaaaaaaaaaa" })),
    (3, .begin (.exchange
      { client := "1.2.3.4", code := exampleCode,
        codeVerifier := "aaaaaaaaaaaaaaaaaaaaaaaaaaaaaaaaaaaaaaaaaaa" })),
    (2, .proceed), (3, .proceed), (2, .proceed), (3, .proceed), (2, .proceed), (3, .proceed), (2, .proceed)]

theorem oauth_code_bound_loginAndReplay :
    ∃ c, (oauthFlow exampleOauth).run freshFlow loginAndReplay = some c ∧
      c.locals 2 = .done (.tokens ⟨"token", 1800000, "", "a@x", ""⟩) ∧
      c.locals 3 = .done (.http (badRequest "Invalid or expired auth code.")) ∧
      c.shared.yields exampleCode = 1 ∧ (∀ code, c.shared.yields code ≤ 1) ∧
      c.shared.codes.lookup exampleCode = none := by
  have hends : ((oauthFlow exampleOauth).run freshFlow loginAndReplay).map (fun c =>
      (c.locals 2, c.locals 3, c.shared.yields exampleCode))
        = some (.done (.tokens ⟨"token", 1800000, "", "a@x", ""⟩),
          .done (.http (badRequest "Invalid or expired auth code.")), 1) := by
    decide +kernel
  have hlog : ((oauthFlow exampleOauth).run freshFlow loginAndReplay).map (fun c =>
      decide (.consumed 2 exampleCode ∈ c.shared.log)) = some true := by
    decide +kernel
  obtain ⟨c, hrun, hends⟩ := Option.map_eq_some_iff.1 hends
  rw [hrun, Option.map_some, Option.some.injEq, decide_eq_true_eq] at hlog
  obtain ⟨hfirst, hends⟩ := Prod.mk.inj hends
  obtain ⟨hsecond, hyields⟩ := Prod.mk.inj hends
  obtain ⟨honce, -, hgone, -⟩ := oauth_code_bound freshFlow_starts hrun
  exact ⟨c, hrun, hfirst, hsecond, hyields, honce, hgone 2 exampleCode hlog⟩

end FaAuthM8

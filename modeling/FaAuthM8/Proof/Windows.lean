import FaAuthM8.System.Windows

/-!
# Counters and their expiry

A limiter counts with one command and sets the expiry with another. Between the two the counter has none, and
a call that is cut off there leaves it without one: later calls find the counter already started, so none of
them sets it, and the key is locked as soon as its limit is reached.
-/

namespace FaAuthM8

open Interleaving (Config)

def WindowWorld.Expiring (w : WindowWorld) : Prop := ∀ key, ¬ w.Unset key

/-- A counter without an expiry has a call that is about to set it. -/
def Unlocked (c : Config WindowWorld WindowLocal) : Prop :=
  ∀ key, c.shared.Unset key → ∃ p, (c.locals p).expires key = true

/-- The step ends a call between the start of a counter and its expiry. -/
inductive CutsOff (w : WindowWorld) : WindowLocal → WindowAction → String → Prop
  | lost {attempt : Attempt} (hnone : w.counters.live w.now attempt.key = none) :
      CutsOff w (.incr attempt) .lose attempt.key
  | stopped {attempt : Attempt} (hunset : w.Unset attempt.key) :
      CutsOff w (.expire attempt) .fail attempt.key

/-- The step cuts a call off, and no other call is about to set the expiry of its counter. -/
def Strands (c : Config WindowWorld WindowLocal) (move : Nat × WindowAction) : Prop :=
  ∃ key, CutsOff c.shared (c.locals move.1) move.2 key ∧
    ∀ p, p ≠ move.1 → (c.locals p).expires key = false

variable {settings : WindowSettings} {w w' : WindowWorld} {l l' : WindowLocal} {action : WindowAction}
  {key : String} {c c' : Config WindowWorld WindowLocal} {move : Nat × WindowAction}

theorem CutsOff.unset (hcuts : CutsOff w l action key)
    (hstep : windowStep settings w l action = some (w', l')) : w'.Unset key ∧ l'.expires key = false := by
  cases hcuts with
  | lost hnone =>
      obtain ⟨-, rfl⟩ := Prod.mk.inj (Option.some.inj hstep)
      exact ⟨((StartsCounter.lost hnone).unset hstep).1, rfl⟩
  | stopped hunset =>
      obtain ⟨rfl, rfl⟩ := Prod.mk.inj (Option.some.inj hstep)
      exact ⟨hunset, rfl⟩

/-- A counter that has no expiry after a step is about to get one from the process that moved, or was without
one before, or has just been cut off from the call that would have set it. -/
theorem windowStep_covers (hstep : windowStep settings w l action = some (w', l')) (hunset : w'.Unset key) :
    l'.expires key = true ∨ (w.Unset key ∧ l.expires key = false) ∨ CutsOff w l action key := by
  rcases windowStep_unset hstep hunset with hstarts | hbefore
  · obtain ⟨-, hexpires⟩ := hstarts.unset hstep
    cases hstarts with
    | replied hnone => exact .inl (hexpires rfl)
    | lost hnone => exact .inr (.inr (.lost hnone))
  · cases hexpires : l.expires key with
    | false => exact .inr (.inl ⟨hbefore, rfl⟩)
    | true =>
        rcases windowStep_expires hstep hunset hexpires with hstill | rfl
        · exact .inl hstill
        · cases l <;> simp only [WindowLocal.expires, beq_iff_eq, Bool.false_eq_true] at hexpires
          subst hexpires
          exact .inr (.inr (.stopped hbefore))

/-- A step leaves every counter with an expiry or with a call about to set it, unless it strands one. -/
theorem Unlocked.next (hunlocked : Unlocked c) (hnext : (windows settings).next c move = some c') :
    Unlocked c' ↔ ¬ Strands c move := by
  have hstep : windowStep settings _ _ _ = some _ := Interleaving.System.step_of_next hnext
  have hothers (p : Nat) (hp : p ≠ move.1) : c'.locals p = c.locals p := by
    obtain ⟨s', l', -, rfl⟩ := Interleaving.System.next_eq_some.1 hnext
    exact Function.update_of_ne hp _ _
  constructor
  · rintro hafter ⟨key, hcuts, hnone⟩
    obtain ⟨hunset, hmover⟩ := hcuts.unset hstep
    obtain ⟨p, hp⟩ := hafter key hunset
    by_cases hp' : p = move.1
    · rw [hp', hmover] at hp
      simp at hp
    · rw [hothers p hp', hnone p hp'] at hp
      simp at hp
  · intro hstrands key hunset
    rcases windowStep_covers hstep hunset with hmover | ⟨hbefore, hmover⟩ | hcuts
    · exact ⟨move.1, hmover⟩
    · obtain ⟨p, hp⟩ := hunlocked key hbefore
      have hp' : p ≠ move.1 := by
        rintro rfl
        simp [hmover] at hp
      exact ⟨p, by rw [hothers p hp']; exact hp⟩
    · by_contra hcovered
      refine hstrands ⟨key, hcuts, fun p hp => ?_⟩
      by_contra hexpires
      refine hcovered ⟨p, ?_⟩
      rw [hothers p hp]
      simpa using hexpires

theorem WindowWorld.Expiring.step (hexpiring : w.Expiring)
    (hstep : windowStep settings w l action = some (w', l')) :
    w'.Expiring ↔ ¬ ∃ key, StartsCounter w l action key := by
  constructor
  · rintro hafter ⟨key, hstarts⟩
    exact hafter key (hstarts.unset hstep).1
  · intro hnone key hunset
    rcases windowStep_unset hstep hunset with hstarts | hbefore
    · exact hnone ⟨key, hstarts⟩
    · exact hexpiring key hbefore

/-- In a run from a state in which every counter has an expiry, one has no expiry as soon as a call starts it;
in every state a call in progress is about to set it, exactly when no step strands a counter. -/
theorem windows_expire_iff (settings : WindowSettings) {c : Config WindowWorld WindowLocal}
    (hexpiring : c.shared.Expiring) (schedule : List (Nat × WindowAction)) :
    ((windows settings).Along (fun _ _ c' => c'.shared.Expiring) c schedule ↔
        (windows settings).Along
          (fun c move _ => ¬ ∃ key, StartsCounter c.shared (c.locals move.1) move.2 key) c schedule) ∧
      ((windows settings).Along (fun _ _ c' => Unlocked c') c schedule ↔
        (windows settings).Along (fun c move _ => ¬ Strands c move) c schedule) := by
  constructor
  · have hiff (c move c') (hexpiring : c.shared.Expiring) (hnext : (windows settings).next c move = some c') :
        c'.shared.Expiring ↔ ¬ ∃ key, StartsCounter c.shared (c.locals move.1) move.2 key :=
      hexpiring.step (Interleaving.System.step_of_next hnext)
    exact Interleaving.System.along_iff hiff (fun _ _ _ _ _ hafter => hafter) schedule hexpiring
  · have hunlocked : Unlocked c := fun key hunset => absurd hunset (hexpiring key)
    have hiff (c move c') (hunlocked : Unlocked c) (hnext : (windows settings).next c move = some c') :
        Unlocked c' ↔ ¬ Strands c move := hunlocked.next hnext
    exact Interleaving.System.along_iff hiff (fun _ _ _ _ _ hafter => hafter) schedule hunlocked

/-! ### A locked key -/

/-- The key's counter has reached the value, without an expiry, and no call is about to set one. -/
structure Locked (key : String) (value : Nat) (c : Config WindowWorld WindowLocal) : Prop where
  unset : ∃ counter, c.shared.counters.lookup key = some counter ∧ counter.expiresAt = none ∧
    value ≤ counter.value
  alone : ∀ p, (c.locals p).expires key = false

theorem WindowCounters.live_of_unset {counters : WindowCounters} {now : Int} {counter : WindowCounter}
    (hlookup : counters.lookup key = some counter) (hnone : counter.expiresAt = none) :
    counters.live now key = some counter :=
  WindowCounters.live_eq_some.2 ⟨hlookup, by simp [hnone]⟩

/-- A command only advances a counter without an expiry, unless it is the one to set or delete it. -/
theorem WindowLocal.execute_locked {counter : WindowCounter} (hexecute : l.execute w = some (w', l'))
    (hlookup : w.counters.lookup key = some counter) (hnone : counter.expiresAt = none)
    (hvalue : 1 ≤ counter.value) (hexpires : l.expires key = false) (hkeeps : l ≠ .delete key) :
    l'.expires key = false ∧ ∃ counter', w'.counters.lookup key = some counter' ∧
      counter'.expiresAt = none ∧ counter.value ≤ counter'.value := by
  cases l with
  | idle => simp [execute] at hexecute
  | answered allowed => simp [execute] at hexecute
  | incr attempt =>
      obtain ⟨rfl, rfl⟩ := Prod.mk.inj (Option.some.inj hexecute)
      by_cases hkey : key = attempt.key
      · subst hkey
        have hlive : w.counters.live w.now attempt.key = some counter :=
          WindowCounters.live_of_unset hlookup hnone
        have hcount : (w.counters.incr w.now attempt.key).1 = counter.value + 1 := by
          simp [WindowCounters.incr, hlive]
        have hadvanced : counter.value + 1 ≠ 1 := by omega
        refine ⟨?_, _, WindowCounters.lookup_incr _ _ _, ?_, ?_⟩
        · show WindowLocal.expires attempt.key (if (w.counters.incr w.now attempt.key).1 = 1 then _ else _) = _
          rw [hcount, if_neg hadvanced]
          rfl
        · simp [hlive, hnone]
        · show counter.value ≤ (w.counters.incr w.now attempt.key).1
          omega
      · refine ⟨?_, counter, ?_, hnone, le_rfl⟩
        · show WindowLocal.expires key (if (w.counters.incr w.now attempt.key).1 = 1 then _ else _) = _
          split
          · simpa [expires] using Ne.symm hkey
          · rfl
        · show (w.counters.incr w.now attempt.key).2.lookup key = _
          rw [WindowCounters.lookup_incr_of_ne hkey, hlookup]
  | expire attempt =>
      obtain ⟨rfl, rfl⟩ := Prod.mk.inj (Option.some.inj hexecute)
      have hkey : key ≠ attempt.key := by
        rintro rfl
        simp [expires] at hexpires
      refine ⟨rfl, counter, ?_, hnone, le_rfl⟩
      show (w.counters.expire w.now attempt.key attempt.windowSeconds).lookup key = _
      rw [WindowCounters.lookup_expire_of_ne hkey, hlookup]
  | delete deleted =>
      obtain ⟨rfl, rfl⟩ := Prod.mk.inj (Option.some.inj hexecute)
      have hkey : key ≠ deleted := by
        rintro rfl
        exact hkeeps rfl
      refine ⟨rfl, counter, ?_, hnone, le_rfl⟩
      simp [hkey, hlookup]

/-- A locked key stays locked until it is deleted, whatever time passes and whoever calls. -/
theorem Locked.next {value : Nat} (hvalue : 1 ≤ value) (hlocked : Locked key value c)
    (hnext : (windows settings).next c move = some c') (hkeeps : c.locals move.1 ≠ .delete key) :
    Locked key value c' := by
  obtain ⟨⟨counter, hlookup, hnone, hreached⟩, halone⟩ := hlocked
  have hkept : (c'.locals move.1).expires key = false ∧ ∃ counter', c'.shared.counters.lookup key =
      some counter' ∧ counter'.expiresAt = none ∧ counter.value ≤ counter'.value := by
    have hstep : windowStep settings _ _ _ = some _ := Interleaving.System.step_of_next hnext
    obtain ⟨l₁, hexecute, hreply⟩ | ⟨hcounters, hlocal⟩ := windowStep_cases hstep
    · obtain ⟨hexpires, hgrown⟩ :=
        WindowLocal.execute_locked hexecute hlookup hnone (by omega) (halone _) hkeeps
      refine ⟨?_, hgrown⟩
      obtain ⟨-, heq⟩ | ⟨-, heq⟩ := hreply
      · rw [heq, hexpires]
      · rw [heq]
        rfl
    · refine ⟨?_, counter, by rw [hcounters, hlookup], hnone, le_rfl⟩
      obtain ⟨-, heq⟩ | hsame := hlocal
      · rw [heq]
        rfl
      · rw [hsame, halone]
  obtain ⟨hmover, counter', hlookup', hnone', hgrown⟩ := hkept
  refine ⟨⟨counter', hlookup', hnone', by omega⟩, fun p => ?_⟩
  by_cases hp : p = move.1
  · rw [hp]
    exact hmover
  · obtain ⟨s', l', -, rfl⟩ := Interleaving.System.next_eq_some.1 hnext
    show (Function.update c.locals move.1 l' p).expires key = false
    rw [Function.update_of_ne hp]
    exact halone p

theorem Locked.run {value : Nat} (hvalue : 1 ≤ value) (hlocked : Locked key value c)
    {schedule : List (Nat × WindowAction)} (hrun : (windows settings).run c schedule = some c')
    (hkeeps : (windows settings).Along (fun c move _ => c.locals move.1 ≠ .delete key) c schedule) :
    Locked key value c' :=
  Interleaving.System.run_invariant (fun _ _ _ hlocked hnext hkeeps => hlocked.next hvalue hnext hkeeps)
    hlocked hkeeps hrun

theorem Locked.refuses {attempt : Attempt} {value p : Nat} (hlocked : Locked attempt.key value c)
    (hlimit : attempt.maxRequests ≤ value) (hvalue : 1 ≤ value) (hlocal : c.locals p = .incr attempt)
    (hnext : (windows settings).next c (p, .reply) = some c') : c'.locals p = .answered false := by
  obtain ⟨⟨counter, hlookup, hnone, hreached⟩, -⟩ := hlocked
  have hlive : c.shared.counters.live c.shared.now attempt.key = some counter :=
    WindowCounters.live_of_unset hlookup hnone
  have hcount : (c.shared.counters.incr c.shared.now attempt.key).1 = counter.value + 1 := by
    simp [WindowCounters.incr, hlive]
  have hexecute : (c.locals p).execute c.shared = some (c'.shared, c'.locals p) :=
    Interleaving.System.step_of_next hnext
  rw [hlocal] at hexecute
  have hanswer : c'.locals p = if counter.value + 1 = 1 then .expire attempt
      else .answered (decide (((counter.value + 1 : Nat) : Int) ≤ attempt.maxRequests)) := by
    rw [← hcount]
    exact (Prod.mk.inj (Option.some.inj hexecute)).2.symm
  rw [hanswer, if_neg (by omega), decide_eq_false (by omega)]

/-! ### A crash between the two commands -/

def emptyWindows : Config WindowWorld WindowLocal where
  shared := {}
  locals _ := .idle

/-- A refresh is counted, and the process dies before it sets the expiry. -/
def crashAfterIncr : List (Nat × WindowAction) :=
  [(0, .isAllowed .refresh "6f1c"), (0, .reply), (0, .fail)]

theorem windows_expire_iff_crash :
    ((windows { isPrintable := fun _ => true }).Along (fun _ _ c' => c'.shared.Expiring) emptyWindows
          crashAfterIncr ↔
        (windows { isPrintable := fun _ => true }).Along
          (fun c move _ => ¬ ∃ key, StartsCounter c.shared (c.locals move.1) move.2 key) emptyWindows
          crashAfterIncr) ∧
      ((windows { isPrintable := fun _ => true }).Along (fun _ _ c' => Unlocked c') emptyWindows
          crashAfterIncr ↔
        (windows { isPrintable := fun _ => true }).Along (fun c move _ => ¬ Strands c move) emptyWindows
          crashAfterIncr) :=
  windows_expire_iff _ (by rintro key ⟨counter, hlookup, -⟩; simp [emptyWindows] at hlookup) crashAfterIncr

/-- No call is in progress, and the counter has no expiry; ten calls and a year later, the user is refused. -/
theorem refresh_locked_for_ever :
    ∃ c c', (windows { isPrintable := fun _ => true }).run emptyWindows crashAfterIncr = some c ∧
      (∀ p, c.locals p = .idle) ∧ c.shared.Unset "refresh:attempts:6f1c" ∧
      (windows { isPrintable := fun _ => true }).run c
        ((List.replicate 10 [(1, .isAllowed .refresh "6f1c"), (1, .reply)]).flatten ++
          [(1, .tick (365 * 86400 * second)), (1, .isAllowed .refresh "6f1c"), (1, .reply)]) = some c' ∧
      c'.locals 1 = .answered false := by
  have hcrashed : ((windows { isPrintable := fun _ => true }).run emptyWindows crashAfterIncr).map (fun c =>
      (c.locals 0, c.shared.counters.lookup "refresh:attempts:6f1c")) = some (.idle, some ⟨1, none⟩) := by
    decide +kernel
  obtain ⟨c, hrun, hstate⟩ := Option.map_eq_some_iff.1 hcrashed
  obtain ⟨hidle, hcounter⟩ := Prod.mk.inj hstate
  have hlater : (((windows { isPrintable := fun _ => true }).run emptyWindows crashAfterIncr).bind fun c =>
      (windows { isPrintable := fun _ => true }).run c
        ((List.replicate 10 [(1, .isAllowed .refresh "6f1c"), (1, .reply)]).flatten ++
          [(1, .tick (365 * 86400 * second)), (1, .isAllowed .refresh "6f1c"), (1, .reply)])).map
        (·.locals 1) = some (.answered false) := by
    decide +kernel
  rw [hrun, Option.bind_some] at hlater
  obtain ⟨c', hrun', hanswer⟩ := Option.map_eq_some_iff.1 hlater
  refine ⟨c, c', hrun, fun p => ?_, ⟨_, hcounter, rfl⟩, hrun', hanswer⟩
  by_cases hp : p = 0
  · rw [hp, hidle]
  · refine Interleaving.System.run_locals_of_ne (fun move hmem => ?_) hrun
    simp only [crashAfterIncr, List.mem_cons, List.not_mem_nil, or_false] at hmem
    obtain rfl | rfl | rfl := hmem
    · exact Ne.symm hp
    · exact Ne.symm hp
    · exact Ne.symm hp

end FaAuthM8

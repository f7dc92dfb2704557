import FaAuthM8.Core.CircuitBreaker

/-!
# Probing during an outage

The breaker opens at the first failed ping and its window is never moved: a later failure keeps the time of the
first one. So the window passes once, and from then on every call pings until the server answers again.
-/

namespace FaAuthM8

/-- When the breaker has opened, once the first of the calls has failed. -/
def openedAt (since : Option Int) (outage : List RedisCall) : Option Int :=
  since.or (outage.head?.map (·.answered))

/-- The calls that come when the window of the breaker is over. -/
def lateCalls (since : Option Int) (outage : List RedisCall) : List RedisCall :=
  outage.filter fun call => !isCooling (openedAt since outage) call.now

/-- A window or more lies between the two. -/
def Apart (call later : RedisCall) : Prop :=
  call.now + REDIS_CIRCUIT_BREAKER_SECS * second ≤ later.now

instance : DecidableRel Apart := fun _ _ => inferInstanceAs (Decidable (_ ≤ _))

/-- The pings of an outage are a window apart and its other calls return nothing, and a ping that is answered
later closes the breaker for the calls after it until the next failure. -/
structure ProbingLimited (pool : Bool) (since : Option Int) (outage later : List RedisCall) : Prop where
  apart : (attempts pool since outage).Pairwise Apart
  silent : ∀ served ∈ serveCalls pool since outage, served.2.client = false
  closes : ∀ before probe healthy rest, later = before ++ probe :: (healthy ++ rest) →
    (getRedisClient pool (degradedAfter pool since (outage ++ before)) probe).1.client = true →
    (∀ call ∈ healthy, call.up = true) →
    ∀ served ∈ serveCalls pool (degradedAfter pool since (outage ++ before ++ [probe])) healthy,
      served.2 = ⟨true, true⟩

section

variable {pool : Bool} {since : Option Int} {calls outage : List RedisCall} {call : RedisCall}

theorem isCooling_eq_false {opened now : Int} :
    isCooling (some opened) now = false ↔ opened + REDIS_CIRCUIT_BREAKER_SECS * second ≤ now := by
  simp only [isCooling, Option.any_some, decide_eq_false_iff_not]
  omega

theorem degradedAfter_append (first second : List RedisCall) :
    degradedAfter pool since (first ++ second) =
      degradedAfter pool (degradedAfter pool since first) second := by
  induction first generalizing since with
  | nil => rfl
  | cons call rest ih => exact ih

theorem getRedisClient_of_client (hclient : (getRedisClient pool since call).1.client = true) :
    pool = true ∧ (getRedisClient pool since call).2 = none := by
  simp only [getRedisClient] at hclient ⊢
  split at hclient
  · simp at hclient
  · next hpool =>
      split at hclient
      · simp at hclient
      · next hcooling =>
          split at hclient
          · next hup => exact ⟨by simpa using hpool, by simp [hpool, hcooling, hup]⟩
          · simp at hclient

theorem serveCalls_closed (hup : ∀ call ∈ calls, call.up = true) :
    ∀ served ∈ serveCalls true none calls, served.2 = ⟨true, true⟩ := by
  induction calls with
  | nil => simp [serveCalls]
  | cons call rest ih =>
      have hcall : getRedisClient true none call = (⟨true, true⟩, none) := by
        simp [getRedisClient, isCooling, hup call List.mem_cons_self]
      have hrest := ih fun call hmem => hup call (List.mem_cons_of_mem _ hmem)
      rw [serveCalls, hcall]
      simpa using hrest

/-- A call that the server does not answer: it pings unless the breaker is cooling, and the time of the first
failure stays. -/
theorem getRedisClient_down (since : Option Int) (hdown : call.up = false) : getRedisClient true since call =
    (⟨!isCooling since call.now, false⟩, some (since.getD call.answered)) := by
  cases since with
  | none => simp [getRedisClient, isCooling, hdown]
  | some opened => cases hcooling : isCooling (some opened) call.now <;> simp [getRedisClient, hcooling, hdown]

theorem getRedisClient_silent (pool : Bool) (since : Option Int) (hdown : call.up = false) :
    (getRedisClient pool since call).1.client = false := by
  cases pool with
  | false => rfl
  | true => rw [getRedisClient_down since hdown]

theorem serveCalls_silent (hdown : ∀ call ∈ calls, call.up = false) :
    ∀ served ∈ serveCalls pool since calls, served.2.client = false := by
  induction calls generalizing since with
  | nil => simp [serveCalls]
  | cons call rest ih =>
      obtain ⟨hfirst, hrest⟩ := List.forall_mem_cons.1 hdown
      intro served hmem
      rw [serveCalls, List.mem_cons] at hmem
      obtain rfl | hmem := hmem
      · exact getRedisClient_silent pool since hfirst
      · exact ih hrest served hmem

theorem attempts_cons : attempts pool since (call :: calls) =
    (if (getRedisClient pool since call).1.pinged then [call] else []) ++
      attempts pool (getRedisClient pool since call).2 calls := by
  simp only [attempts, serveCalls, List.filter_cons]
  split
  · rfl
  · rfl

theorem attempts_of_no_pool : attempts false since calls = [] := by
  induction calls generalizing since with
  | nil => rfl
  | cons call rest ih =>
      rw [attempts_cons, ih]
      rfl

/-- Once the breaker has opened, exactly the calls after its window ping; none of them moves the window. -/
theorem attempts_open {opened : Int} (hdown : ∀ call ∈ calls, call.up = false) :
    attempts true (some opened) calls = calls.filter fun call => !isCooling (some opened) call.now := by
  induction calls with
  | nil => rfl
  | cons call rest ih =>
      obtain ⟨hfirst, hrest⟩ := List.forall_mem_cons.1 hdown
      rw [attempts_cons, List.filter_cons, getRedisClient_down _ hfirst, Option.getD_some, ih hrest]
      split
      · rfl
      · rfl

theorem degradedAfter_open {opened : Int} (hdown : ∀ call ∈ calls, call.up = false) :
    degradedAfter true (some opened) calls = some opened := by
  induction calls with
  | nil => rfl
  | cons call rest ih =>
      obtain ⟨hfirst, hrest⟩ := List.forall_mem_cons.1 hdown
      rw [degradedAfter, getRedisClient_down _ hfirst]
      exact ih hrest

/-- What the health route reports is the first failure, however long the outage lasts. -/
theorem degradedAfter_outage (hdown : ∀ call ∈ outage, call.up = false) :
    degradedAfter true since outage = openedAt since outage := by
  cases since with
  | some opened => exact degradedAfter_open hdown
  | none =>
      cases outage with
      | nil => rfl
      | cons first rest =>
          obtain ⟨hfirst, hrest⟩ := List.forall_mem_cons.1 hdown
          rw [degradedAfter, getRedisClient_down _ hfirst]
          exact degradedAfter_open hrest

theorem attempts_pairwise_iff (hdown : ∀ call ∈ outage, call.up = false) (horder : InOrder outage) :
    (attempts true since outage).Pairwise Apart ↔ (lateCalls since outage).Pairwise Apart := by
  cases since with
  | some opened =>
      rw [attempts_open hdown]
      rfl
  | none =>
      cases outage with
      | nil => rfl
      | cons first rest =>
          obtain ⟨hfirst, hrest⟩ := List.forall_mem_cons.1 hdown
          have hended := horder.each first List.mem_cons_self
          have hcooling : isCooling (some first.answered) first.now = true := by
            rw [← Bool.not_eq_false, isCooling_eq_false]
            simp only [REDIS_CIRCUIT_BREAKER_SECS, second]
            omega
          have hlate : lateCalls none (first :: rest) =
              rest.filter fun call => !isCooling (some first.answered) call.now := by
            show (first :: rest).filter (fun call => !isCooling (some first.answered) call.now) = _
            rw [List.filter_cons, hcooling]
            rfl
          have hattempts : attempts true none (first :: rest) = first :: lateCalls none (first :: rest) := by
            rw [attempts_cons, getRedisClient_down _ hfirst, Option.getD_none, attempts_open hrest, hlate]
            rfl
          rw [hattempts, hlate, List.pairwise_cons, and_iff_right_iff_imp]
          intro _ call hmem
          have hover : first.answered + REDIS_CIRCUIT_BREAKER_SECS * second ≤ call.now := by
            simpa [isCooling_eq_false] using (List.mem_filter.1 hmem).2
          show first.now + _ ≤ call.now
          omega

/-- In an outage the breaker limits probing exactly as far as the calls do that come after its one window. -/
theorem probing_limited_iff (pool : Bool) (since : Option Int) {outage : List RedisCall}
    (hdown : ∀ call ∈ outage, call.up = false) (horder : InOrder outage) (later : List RedisCall) :
    ProbingLimited pool since outage later ↔ (pool = true → (lateCalls since outage).Pairwise Apart) := by
  constructor
  · intro hlimited hpool
    subst hpool
    exact (attempts_pairwise_iff hdown horder).1 hlimited.apart
  · intro hlate
    constructor
    · cases pool with
      | false =>
          rw [attempts_of_no_pool]
          exact List.Pairwise.nil
      | true => exact (attempts_pairwise_iff hdown horder).2 (hlate rfl)
    · exact serveCalls_silent hdown
    · intro before probe healthy rest _ hclient hup
      obtain ⟨rfl, hclosed⟩ := getRedisClient_of_client hclient
      have hafter : degradedAfter true since (outage ++ before ++ [probe]) = none := by
        rw [degradedAfter_append]
        exact hclosed
      rw [hafter]
      exact serveCalls_closed hup

end

/-- Two calls come after the window, more than a window apart. -/
def sparseOutage : List RedisCall :=
  [⟨0, 2 * second, false⟩, ⟨10 * second, 10 * second, false⟩, ⟨40 * second, 42 * second, false⟩,
    ⟨75 * second, 77 * second, false⟩]

theorem probing_limited_iff_sparseOutage :
    ProbingLimited true none sparseOutage [⟨110 * second, 110 * second, true⟩] := by
  apply (probing_limited_iff true none (by decide) ⟨by decide, by decide⟩ _).2
  intro _
  decide

/-- Half a minute after the first failure every request pings again. -/
def busyOutage : List RedisCall :=
  [⟨0, 2 * second, false⟩, ⟨33 * second, 35 * second, false⟩, ⟨36 * second, 38 * second, false⟩,
    ⟨39 * second, 41 * second, false⟩]

theorem busy_outage_probed :
    (∀ call ∈ busyOutage, call.up = false) ∧ InOrder busyOutage ∧ attempts true none busyOutage = busyOutage ∧
      ¬ ProbingLimited true none busyOutage [] := by
  have hattempts : attempts true none busyOutage = busyOutage := by
    decide
  refine ⟨by decide, ⟨by decide, by decide⟩, hattempts, ?_⟩
  intro hlimited
  have hapart := hlimited.apart
  rw [hattempts] at hapart
  exact absurd hapart (by decide)

end FaAuthM8

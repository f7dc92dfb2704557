import FaAuthM8.System.Limiter
import Mathlib.Data.List.Perm.Subperm

/-!
# Rate limits count exactly

A counter is named after the key, the period and the calendar window, and it outlives its window; so what a
check reads is the number of checks of that key counted in that window. The values counted in a window are all
different, and an allowed request holds one that is at most the limit.
-/

namespace FaAuthM8

/-- Every event stands in the relation to the events before it. -/
def Throughout (holds : LimiterEvent → List LimiterEvent → Prop) : List LimiterEvent → Prop
  | [] => True
  | e :: older => holds e older ∧ Throughout holds older

theorem Throughout.of_append {holds : LimiterEvent → List LimiterEvent → Prop}
    {newer older : List LimiterEvent} {e : LimiterEvent}
    (hall : Throughout holds (newer ++ e :: older)) : holds e older := by
  induction newer with
  | nil => exact hall.1
  | cons _ _ ih => exact ih hall.2

def LimiterEvent.countsIn (id : Uuid) (period : Period) (window : List Nat) : LimiterEvent → Bool
  | .counted _ id' count => id' = id ∧ count.period = period ∧ count.window = window
  | .answered _ _ _ _ _ => false

def countedIn (log : List LimiterEvent) (id : Uuid) (period : Period) (window : List Nat) : Nat :=
  log.countP (·.countsIn id period window)

/-- Every check reads how many checks of its key its window has seen, itself included. -/
def CountsExactly : List LimiterEvent → Prop :=
  Throughout fun e older =>
    match e with
    | .counted _ id count => count.value = countedIn older id count.period count.window + 1
    | .answered _ _ _ _ _ => True

/-- The event allows a request of the key that was counted in the window under such a limit. -/
def LimiterEvent.allowsIn (id : Uuid) (period : Period) (window : List Nat) (limit : Nat) :
    LimiterEvent → Bool
  | .counted _ _ _ => false
  | .answered _ id' _ result counts =>
      id' = id ∧ result.allowed = true ∧
        ∃ count ∈ counts, count.period = period ∧ count.window = window ∧ count.limit ≤ limit

/-- No window allows more requests of a key than its limit. -/
def AllowedWithin (log : List LimiterEvent) : Prop :=
  ∀ id period window limit, log.countP (·.allowsIn id period window limit) ≤ limit

/-- An allowed request was counted in every configured period. -/
def CountsEach : List LimiterEvent → Prop :=
  Throughout fun e older =>
    match e with
    | .counted _ _ _ => True
    | .answered p id limits result counts =>
        result.allowed = true →
          counts.map Count.entry = limits ∧ ∀ count ∈ counts, .counted p id count ∈ older

/-- A request is rejected for a configured period whose window was full before the request was counted. -/
def RejectsFull : List LimiterEvent → Prop :=
  Throughout fun e older =>
    match e with
    | .counted _ _ _ => True
    | .answered p id limits result _ =>
        result.allowed = false →
          ∃ count, count.entry ∈ limits ∧ result.exceededPeriod = some count.period ∧
            ∃ newer before, older = newer ++ .counted p id count :: before ∧
              count.limit ≤ countedIn before id count.period count.window

/-! ### Counted values -/

section

variable {log : List LimiterEvent} {id : Uuid} {count count' : Count} {p q : Nat}

/-- The two counts came to the same value in the same window. -/
structure SameSlot (count count' : Count) : Prop where
  period : count.period = count'.period
  window : count.window = count'.window
  value : count.value = count'.value

@[simp] theorem countedIn_cons (e : LimiterEvent) (period : Period) (window : List Nat) :
    countedIn (e :: log) id period window
      = countedIn log id period window + if e.countsIn id period window then 1 else 0 := by
  simp [countedIn, List.countP_cons]

theorem countsIn_counted {id' : Uuid} {period : Period} {window : List Nat} :
    (LimiterEvent.counted p id' count).countsIn id period window = true ↔
      id' = id ∧ count.period = period ∧ count.window = window := by
  simp [LimiterEvent.countsIn]

/-- A counted value is at least one and at most the number of checks its window has seen. -/
theorem value_range (hexact : CountsExactly log) (hcounted : .counted p id count ∈ log) :
    1 ≤ count.value ∧ count.value ≤ countedIn log id count.period count.window := by
  induction log with
  | nil => cases hcounted
  | cons e older ih =>
      rw [countedIn_cons]
      rcases List.mem_cons.1 hcounted with heq | holder
      · subst heq
        have hvalue : count.value = countedIn older id count.period count.window + 1 := hexact.1
        rw [if_pos (countsIn_counted.2 ⟨rfl, rfl, rfl⟩)]
        omega
      · have := ih hexact.2 holder
        omega

/-- No two checks came to the same value in a window. -/
theorem slot_unique (hexact : CountsExactly log) (hcounted : .counted p id count ∈ log)
    (hcounted' : .counted q id count' ∈ log) (hslot : SameSlot count count') : p = q := by
  induction log with
  | nil => cases hcounted
  | cons e older ih =>
      rcases List.mem_cons.1 hcounted with heq | holder
      · rcases List.mem_cons.1 hcounted' with heq' | holder'
        · cases heq.trans heq'.symm
          rfl
        · subst heq
          have hvalue : count.value = countedIn older id count.period count.window + 1 := hexact.1
          have hle := (value_range hexact.2 holder').2
          rw [← hslot.period, ← hslot.window, ← hslot.value] at hle
          omega
      · rcases List.mem_cons.1 hcounted' with heq' | holder'
        · subst heq'
          have hvalue : count'.value = countedIn older id count'.period count'.window + 1 := hexact.1
          have hle := (value_range hexact.2 holder).2
          rw [hslot.period, hslot.window, hslot.value] at hle
          omega
        · exact ih hexact.2 holder holder'

end

/-! ### Counters -/

/-- The counter of a window holds the checks its window has seen and outlives the window. -/
def HoldsCount (w : LimiterWorld) (id : Uuid) (period : Period) (t : Datetime) : Prop :=
  let seen := countedIn w.log id period (period.window t)
  let counter := w.counters.lookup (RedisRateLimiter.key id period t)
  counter = none ∧ seen = 0 ∨
    ∃ u, period.window t = period.window u ∧
      counter = some ⟨seen, u.timestamp + period.expirationSeconds * second⟩

def CountersMatch (w : LimiterWorld) : Prop :=
  ∀ id period t, HoldsCount w id period t

theorem HoldsCount.read {w : LimiterWorld} {id : Uuid} {period : Period} {t : Datetime}
    (hholds : HoldsCount w id period t) :
    w.counters.read t.timestamp (RedisRateLimiter.key id period t)
      = countedIn w.log id period (period.window t) := by
  rcases hholds with ⟨hnone, hseen⟩ | ⟨u, hsame, hsome⟩
  · rw [Counters.read, hnone, hseen]
  · rw [Counters.read, hsome]
    exact if_pos (Period.window_near hsame)

theorem count_value {w : LimiterWorld} (hmatch : CountersMatch w) (p : Nat) (id : Uuid) (period : Period)
    (limit : Nat) :
    (w.count p id period limit).1.value = countedIn w.log id period (period.window w.clock) + 1 := by
  have hread := (hmatch id period w.clock).read
  show w.counters.read w.clock.timestamp (RedisRateLimiter.key id period w.clock) + 1 = _
  rw [hread]

theorem CountersMatch.count {w : LimiterWorld} (hmatch : CountersMatch w) (p : Nat) (id : Uuid)
    (period : Period) (limit : Nat) : CountersMatch (w.count p id period limit).2 := by
  have hvalue := count_value hmatch p id period limit
  intro id' period' t
  have hlookup : (w.count p id period limit).2.counters.lookup (RedisRateLimiter.key id' period' t)
      = if RedisRateLimiter.key id' period' t = RedisRateLimiter.key id period w.clock then
          some ⟨(w.count p id period limit).1.value,
            w.clock.timestamp + period.expirationSeconds * second⟩
        else w.counters.lookup (RedisRateLimiter.key id' period' t) :=
    Table.lookup_insert_eq _ _ _ _
  have hseen : countedIn (w.count p id period limit).2.log id' period' (period'.window t)
      = countedIn w.log id' period' (period'.window t) +
        if (LimiterEvent.counted p id (w.count p id period limit).1).countsIn id' period'
          (period'.window t) then 1 else 0 :=
    countedIn_cons _ _ _
  unfold HoldsCount
  simp only [hlookup, hseen, RedisRateLimiter.key_eq_iff, countsIn_counted]
  by_cases hcounted : id' = id ∧ period' = period ∧ period'.window t = period'.window w.clock
  · obtain ⟨hid, hperiod, hsame⟩ := hcounted
    subst hid hperiod
    refine .inr ⟨w.clock, hsame, ?_⟩
    rw [if_pos ⟨rfl, rfl, hsame⟩, if_pos ⟨rfl, rfl, hsame.symm⟩, hsame, hvalue]
  · have hother : ¬ (id = id' ∧ (w.count p id period limit).1.period = period' ∧
        (w.count p id period limit).1.window = period'.window t) := by
      intro ⟨hid, hperiod, hwindow⟩
      obtain rfl : period = period' := hperiod
      exact hcounted ⟨hid.symm, rfl, hwindow.symm⟩
    rw [if_neg hcounted, if_neg hother]
    exact hmatch id' period' t

/-! ### Answers -/

/-- None of the counts is one that an answer of the key was given for. -/
def Unanswered (log : List LimiterEvent) (id : Uuid) (counts : List Count) : Prop :=
  ∀ p limits result counts', .answered p id limits result counts' ∈ log →
    ∀ count ∈ counts, ∀ count' ∈ counts', ¬ SameSlot count count'

/-- What an answer says, given the events before it. -/
structure AnswerFacts (p : Nat) (id : Uuid) (limits : List (Period × Nat)) (result : RateLimitResult)
    (counts : List Count) (older : List LimiterEvent) : Prop where
  counted : ∀ count ∈ counts, .counted p id count ∈ older
  unanswered : Unanswered older id counts
  allowed : result.allowed = true →
    counts.map Count.entry = limits ∧ ∀ count ∈ counts, count.value ≤ count.limit
  rejected : result.allowed = false →
    ∃ count ∈ counts, count.entry ∈ limits ∧ result.exceededPeriod = some count.period ∧
      count.limit < count.value

def AnswersRight : List LimiterEvent → Prop :=
  Throughout fun e older =>
    match e with
    | .counted _ _ _ => True
    | .answered p id limits result counts => AnswerFacts p id limits result counts older

theorem AnswersRight.counted {log : List LimiterEvent} {p : Nat} {id : Uuid}
    {limits : List (Period × Nat)} {result : RateLimitResult} {counts : List Count}
    (hanswers : AnswersRight log) (hanswered : .answered p id limits result counts ∈ log) :
    ∀ count ∈ counts, .counted p id count ∈ log := by
  induction log with
  | nil => cases hanswered
  | cons e older ih =>
      intro count hcount
      rcases List.mem_cons.1 hanswered with heq | holder
      · subst heq
        have hfacts : AnswerFacts p id limits result counts older := hanswers.1
        exact List.mem_cons_of_mem _ (hfacts.counted count hcount)
      · exact List.mem_cons_of_mem _ (ih hanswers.2 holder count hcount)

structure LimiterInv (w : LimiterWorld) : Prop where
  counters : CountersMatch w
  counts : CountsExactly w.log
  answers : AnswersRight w.log

/-- What a check holds: counts of its own that no answer was given for, out of its limits. -/
structure Holding (log : List LimiterEvent) (p : Nat) (id : Uuid) (limits : List (Period × Nat))
    (counts : List Count) (rest : List (Period × Nat)) : Prop where
  counted : ∀ count ∈ counts, .counted p id count ∈ log
  unanswered : Unanswered log id counts
  configured : counts.map Count.entry ++ rest = limits

structure Passing (first : Option RateLimitResult) (counts : List Count) : Prop where
  first : ∀ result ∈ first, result.allowed = true
  counts : ∀ count ∈ counts, count.value ≤ count.limit

def LimiterHolds (p : Nat) (w : LimiterWorld) : LimiterLocal → Prop
  | .idle => True
  | .check id limits first counts rest => Holding w.log p id limits counts rest ∧ Passing first counts
  | .read id limits first counts count rest =>
      Holding w.log p id limits (counts ++ [count]) rest ∧ Passing first counts

section

variable {log : List LimiterEvent} {p q : Nat} {id id' : Uuid} {limits limits' rest : List (Period × Nat)}
  {counts counts' : List Count} {result : RateLimitResult}

theorem Holding.others_count (hholding : Holding log q id limits counts rest) (count : Count) :
    Holding (.counted p id' count :: log) q id limits counts rest where
  counted count hcount := List.mem_cons_of_mem _ (hholding.counted count hcount)
  unanswered p limits result counts' hanswered := by
    rcases List.mem_cons.1 hanswered with heq | holder
    · cases heq
    · exact hholding.unanswered p limits result counts' holder
  configured := hholding.configured

theorem Holding.others_answer (hcounts : CountsExactly log)
    (hcounted : ∀ count ∈ counts', .counted p id' count ∈ log) (hne : q ≠ p)
    (hholding : Holding log q id limits counts rest) :
    Holding (.answered p id' limits' result counts' :: log) q id limits counts rest where
  counted count hcount := List.mem_cons_of_mem _ (hholding.counted count hcount)
  unanswered p'' limits'' result'' counts'' hanswered := by
    rcases List.mem_cons.1 hanswered with heq | holder
    · cases heq
      intro count hcount count' hcount' hslot
      exact hne (slot_unique hcounts (hholding.counted count hcount) (hcounted count' hcount') hslot)
    · exact hholding.unanswered p'' limits'' result'' counts'' holder
  configured := hholding.configured

theorem Holding.count (hcounts : CountsExactly log) (hanswers : AnswersRight log) {count : Count}
    (hvalue : count.value = countedIn log id count.period count.window + 1)
    (hholding : Holding log p id limits counts (count.entry :: rest)) :
    Holding (.counted p id count :: log) p id limits (counts ++ [count]) rest where
  counted c hc := by
    rcases List.mem_append.1 hc with hold | hnew
    · exact List.mem_cons_of_mem _ (hholding.counted c hold)
    · rw [List.mem_singleton.1 hnew]
      exact List.mem_cons_self
  unanswered q limits result counts' hanswered c hc c' hc' hslot := by
    rcases List.mem_cons.1 hanswered with heq | holder
    · cases heq
    · rcases List.mem_append.1 hc with hold | hnew
      · exact hholding.unanswered q limits result counts' holder c hold c' hc' hslot
      · obtain rfl := List.mem_singleton.1 hnew
        have hle := (value_range hcounts (hanswers.counted holder c' hc')).2
        rw [← hslot.period, ← hslot.window, ← hslot.value] at hle
        omega
  configured := by
    rw [List.map_append, List.append_assoc]
    exact hholding.configured

end

/-! ### Steps -/

section

variable {w w' : LimiterWorld} {p q : Nat} {id : Uuid} {limits rest : List (Period × Nat)}
  {counts : List Count} {result : RateLimitResult}

theorem LimiterInv.count (hinv : LimiterInv w) (p : Nat) (id : Uuid) (period : Period) (limit : Nat) :
    LimiterInv (w.count p id period limit).2 where
  counters := hinv.counters.count p id period limit
  counts := ⟨count_value hinv.counters p id period limit, hinv.counts⟩
  answers := ⟨trivial, hinv.answers⟩

theorem LimiterInv.answer (hinv : LimiterInv w) (hfacts : AnswerFacts p id limits result counts w.log) :
    LimiterInv (w.answer p id limits result counts) where
  counters id' period t := by
    have hseen : countedIn (w.answer p id limits result counts).log id' period (period.window t)
        = countedIn w.log id' period (period.window t) :=
      countedIn_cons _ _ _
    unfold HoldsCount
    rw [hseen]
    exact hinv.counters id' period t
  counts := ⟨trivial, hinv.counts⟩
  answers := ⟨hfacts, hinv.answers⟩

/-- Another process's assertion depends on the log alone. -/
theorem LimiterHolds.of_log {l : LimiterLocal}
    (hholding : ∀ id limits counts rest, Holding w.log q id limits counts rest →
      Holding w'.log q id limits counts rest)
    (hholds : LimiterHolds q w l) : LimiterHolds q w' l := by
  cases l with
  | idle => trivial
  | check => exact ⟨hholding _ _ _ _ hholds.1, hholds.2⟩
  | read => exact ⟨hholding _ _ _ _ hholds.1, hholds.2⟩

theorem Passing.pass {first : Option RateLimitResult} {count : Count} {now : Datetime}
    (hpassing : Passing first counts) (hpasses : count.value ≤ count.limit) :
    Passing (first.or (some (RedisRateLimiter.result now count.period count.limit count.value)))
      (counts ++ [count]) where
  first result hresult := by
    cases first with
    | none =>
        cases hresult
        exact RedisRateLimiter.result_allowed_iff.2 hpasses
    | some result' => exact hpassing.first result hresult
  counts c hc := by
    rcases List.mem_append.1 hc with hold | hnew
    · exact hpassing.counts c hold
    · exact List.mem_singleton.1 hnew ▸ hpasses

theorem AnswerFacts.allow {first : Option RateLimitResult} (hholding : Holding w.log p id limits counts [])
    (hpassing : Passing first counts) :
    AnswerFacts p id limits (first.getD { allowed := true }) counts w.log where
  counted := hholding.counted
  unanswered := hholding.unanswered
  allowed _ := ⟨by simpa using hholding.configured, hpassing.counts⟩
  rejected hrejected := by
    cases first with
    | none => cases hrejected
    | some result => cases (hpassing.first result rfl).symm.trans hrejected

theorem AnswerFacts.reject {count : Count} {now : Datetime}
    (hholding : Holding w.log p id limits (counts ++ [count]) rest) (hexceeds : count.limit < count.value) :
    AnswerFacts p id limits (RedisRateLimiter.result now count.period count.limit count.value)
      (counts ++ [count]) w.log where
  counted := hholding.counted
  unanswered := hholding.unanswered
  allowed hallowed := by
    have := RedisRateLimiter.result_allowed_iff.1 hallowed
    omega
  rejected _ := by
    refine ⟨count, by simp, ?_, ?_, hexceeds⟩
    · rw [← hholding.configured]
      simp
    · exact if_neg (Nat.not_le.2 hexceeds)

theorem limiter_step {l l' : LimiterLocal} (hinv : LimiterInv w) (hmover : LimiterHolds p w l)
    (hstep : LimiterStep p w l w' l') :
    LimiterInv w' ∧ LimiterHolds p w' l' ∧
      ∀ q, q ≠ p → ∀ m, LimiterHolds q w m → LimiterHolds q w' m := by
  cases hstep with
  | begin =>
      refine ⟨hinv, ⟨⟨?_, ?_, rfl⟩, ⟨?_, ?_⟩⟩, fun _ _ _ hother => hother⟩
      · simp
      · simp [Unanswered]
      · simp
      · simp
  | tick _ =>
      exact ⟨⟨hinv.counters, hinv.counts, hinv.answers⟩, trivial,
        fun q _ m => LimiterHolds.of_log fun _ _ _ _ hholding => hholding⟩
  | stop => exact ⟨hinv, trivial, fun _ _ _ hother => hother⟩
  | count =>
      obtain ⟨hholding, hpassing⟩ := hmover
      have hvalue := count_value hinv.counters p
      refine ⟨hinv.count _ _ _ _, ⟨?_, hpassing⟩, fun q _ m => LimiterHolds.of_log ?_⟩
      · exact hholding.count hinv.counts hinv.answers (hvalue _ _ _)
      · exact fun _ _ _ _ hother => hother.others_count _
  | pass hpasses =>
      exact ⟨hinv, ⟨hmover.1, hmover.2.pass hpasses⟩, fun _ _ _ hother => hother⟩
  | reject hexceeds =>
      refine ⟨hinv.answer (.reject hmover.1 hexceeds), trivial, fun q hne m => LimiterHolds.of_log ?_⟩
      exact fun _ _ _ _ => Holding.others_answer hinv.counts hmover.1.counted hne
  | allow =>
      refine ⟨hinv.answer (.allow hmover.1 hmover.2), trivial, fun q hne m => LimiterHolds.of_log ?_⟩
      exact fun _ _ _ _ => Holding.others_answer hinv.counts hmover.1.counted hne

end

/-! ### Runs -/

/-- Nothing is being checked, and no counter of a key is left from before. -/
structure LimiterStarts (c : Interleaving.Config LimiterWorld LimiterLocal) : Prop where
  idle : ∀ p, c.locals p = .idle
  log : c.shared.log = []
  counters : ∀ id period t, c.shared.counters.lookup (RedisRateLimiter.key id period t) = none

theorem LimiterStarts.inv {c : Interleaving.Config LimiterWorld LimiterLocal} (hstarts : LimiterStarts c) :
    Interleaving.Asserted LimiterInv LimiterHolds c where
  shared := by
    refine ⟨fun id period t => .inl ⟨hstarts.counters id period t, ?_⟩, ?_, ?_⟩
    · rw [hstarts.log]
      rfl
    · rw [hstarts.log]
      exact trivial
    · rw [hstarts.log]
      exact trivial
  locals p := by
    rw [hstarts.idle p]
    exact trivial

theorem limiter_run {c₀ c : Interleaving.Config LimiterWorld LimiterLocal}
    {schedule : List (Nat × LimiterAction)} (hstarts : LimiterStarts c₀)
    (hrun : limiter.run c₀ schedule = some c) : LimiterInv c.shared := by
  refine (Interleaving.System.run_keeps (fun c move c' hinv hnext => ?_) hstarts.inv hrun).shared
  refine Interleaving.Asserted.next hnext fun l' hstep => ?_
  obtain ⟨hshared, hmover, hothers⟩ :=
    limiter_step hinv.shared (hinv.locals move.1) (limiterStep_sound hstep)
  exact ⟨hshared, hmover, fun q hne => hothers q hne _ (hinv.locals q)⟩

/-! ### Windows -/

section

variable {log : List LimiterEvent} {id : Uuid} {period : Period} {window : List Nat} {limit : Nat}

/-- The value an allowed request came to in a window. -/
def LimiterEvent.valueIn (period : Period) (window : List Nat) (limit : Nat) : LimiterEvent → Nat
  | .counted _ _ _ => 0
  | .answered _ _ _ _ counts =>
      let inWindow := counts.find? fun count =>
        count.period = period ∧ count.window = window ∧ count.limit ≤ limit
      (inWindow.map Count.value).getD 0

theorem allowsIn_valueIn {e : LimiterEvent} (hallows : e.allowsIn id period window limit = true) :
    ∃ p limits result counts count, e = .answered p id limits result counts ∧ result.allowed = true ∧
      count ∈ counts ∧ count.period = period ∧ count.window = window ∧ count.limit ≤ limit ∧
      e.valueIn period window limit = count.value := by
  cases e with
  | counted => cases hallows
  | answered p id' limits result counts =>
      simp only [LimiterEvent.allowsIn, decide_eq_true_eq] at hallows
      obtain ⟨hid, hallowed, hsome⟩ := hallows
      subst hid
      have hfound : (counts.find? fun count =>
          count.period = period ∧ count.window = window ∧ count.limit ≤ limit).isSome := by
        rw [List.find?_isSome]
        simpa using hsome
      obtain ⟨count, hfind⟩ := Option.isSome_iff_exists.1 hfound
      obtain ⟨hperiod, hwindow, hlimit⟩ :
          count.period = period ∧ count.window = window ∧ count.limit ≤ limit := by
        simpa using List.find?_some hfind
      refine ⟨p, limits, result, counts, count, rfl, hallowed, List.mem_of_find?_eq_some hfind, hperiod,
        hwindow, hlimit, ?_⟩
      rw [LimiterEvent.valueIn, hfind]
      rfl

theorem allowed_values_distinct (hanswers : AnswersRight log) :
    log.Pairwise fun e e' => e.allowsIn id period window limit = true →
      e'.allowsIn id period window limit = true →
      e.valueIn period window limit ≠ e'.valueIn period window limit := by
  induction log with
  | nil => exact .nil
  | cons e older ih =>
      refine .cons (fun e' holder hallows hallows' heq => ?_) (ih hanswers.2)
      obtain ⟨p, limits, result, counts, count, rfl, -, hcount, hperiod, hwindow, -, hvalue⟩ :=
        allowsIn_valueIn hallows
      obtain ⟨p', limits', result', counts', count', rfl, -, hcount', hperiod', hwindow', -, hvalue'⟩ :=
        allowsIn_valueIn hallows'
      have hfacts : AnswerFacts p id limits result counts older := hanswers.1
      refine hfacts.unanswered p' limits' result' counts' holder count hcount count' hcount' ?_
      exact ⟨hperiod.trans hperiod'.symm, hwindow.trans hwindow'.symm, hvalue ▸ hvalue' ▸ heq⟩

theorem AnswersRight.facts (hanswers : AnswersRight log) {p : Nat} {limits : List (Period × Nat)}
    {result : RateLimitResult} {counts : List Count}
    (hanswered : .answered p id limits result counts ∈ log) :
    ∃ older, AnswerFacts p id limits result counts older := by
  obtain ⟨newer, older, hlog⟩ := List.append_of_mem hanswered
  exact ⟨older, Throughout.of_append (hlog ▸ hanswers)⟩

theorem allowed_value_range (hcounts : CountsExactly log) (hanswers : AnswersRight log)
    {e : LimiterEvent} (he : e ∈ log) (hallows : e.allowsIn id period window limit = true) :
    e.valueIn period window limit ∈ List.range' 1 limit := by
  obtain ⟨p, limits, result, counts, count, rfl, hallowed, hcount, -, -, hlimit, hvalue⟩ :=
    allowsIn_valueIn hallows
  obtain ⟨older, hfacts⟩ := hanswers.facts he
  have hpositive := (value_range hcounts (hanswers.counted he count hcount)).1
  have hle := (hfacts.allowed hallowed).2 count hcount
  rw [hvalue, List.mem_range'_1]
  omega

/-- The allowed requests of a window came to different values between one and the limit. -/
theorem allowed_within (hcounts : CountsExactly log) (hanswers : AnswersRight log) : AllowedWithin log := by
  intro id period window limit
  let allowed := log.filter (·.allowsIn id period window limit)
  let values := allowed.map (·.valueIn period window limit)
  have hdistinct : values.Nodup := by
    refine List.pairwise_map.2 (List.pairwise_filter.2 ?_)
    exact allowed_values_distinct hanswers
  have hrange : values ⊆ List.range' 1 limit := by
    intro value hvalue
    obtain ⟨e, he, rfl⟩ := List.mem_map.1 hvalue
    obtain ⟨hlog, hallows⟩ := List.mem_filter.1 he
    exact allowed_value_range hcounts hanswers hlog hallows
  have hlength := (List.subperm_of_subset hdistinct hrange).length_le
  rwa [List.length_map, List.length_range', ← List.countP_eq_length_filter] at hlength

theorem Throughout.imp {holds holds' : LimiterEvent → List LimiterEvent → Prop}
    (himp : ∀ e older, holds e older → holds' e older) (hall : Throughout holds log) :
    Throughout holds' log := by
  induction log with
  | nil => trivial
  | cons e older ih => exact ⟨himp e older hall.1, ih hall.2⟩

theorem counts_each (hanswers : AnswersRight log) : CountsEach log := by
  refine hanswers.imp fun e older hfacts => ?_
  cases e with
  | counted => trivial
  | answered => exact fun hallowed => ⟨(hfacts.allowed hallowed).1, hfacts.counted⟩

theorem rejects_full (hcounts : CountsExactly log) (hanswers : AnswersRight log) : RejectsFull log := by
  induction log with
  | nil => trivial
  | cons e older ih =>
      refine ⟨?_, ih hcounts.2 hanswers.2⟩
      cases e with
      | counted => trivial
      | answered p id limits result counts =>
          intro hrejected
          have hfacts : AnswerFacts p id limits result counts older := hanswers.1
          obtain ⟨count, hcount, hentry, hperiod, hexceeds⟩ := hfacts.rejected hrejected
          obtain ⟨newer, before, hsplit⟩ := List.append_of_mem (hfacts.counted count hcount)
          have hvalue : count.value = countedIn before id count.period count.window + 1 :=
            Throughout.of_append (hsplit ▸ hcounts.2)
          exact ⟨count, hentry, hperiod, newer, before, hsplit, by omega⟩

end

/-- Each check reads the exact count of its window; so no window allows more requests than its limit, and a
request is rejected only for a window that was full. -/
theorem rate_limits_exact {c₀ c : Interleaving.Config LimiterWorld LimiterLocal}
    {schedule : List (Nat × LimiterAction)} (hstarts : LimiterStarts c₀)
    (hrun : limiter.run c₀ schedule = some c) :
    CountsExactly c.shared.log ∧ CountsEach c.shared.log ∧ AllowedWithin c.shared.log ∧
      RejectsFull c.shared.log := by
  have hinv := limiter_run hstarts hrun
  exact ⟨hinv.counts, counts_each hinv.answers, allowed_within hinv.counts hinv.answers,
    rejects_full hinv.counts hinv.answers⟩

/-- Half a minute before the end of January. -/
def lateJanuary : Datetime := { year := 2026, month := 1, day := 31, hour := 23, minute := 59, second := 30 }

def firstOfFebruary : Datetime := { year := 2026, month := 2, day := 1 }

def oneKey : Uuid where
  value := 7

def monthly : List (Period × Nat) := [(.minute, 2), (.month, 1)]

def noChecks : Interleaving.Config LimiterWorld LimiterLocal where
  shared := { clock := lateJanuary }
  locals _ := .idle

theorem noChecks_starts : LimiterStarts noChecks where
  idle _ := rfl
  log := rfl
  counters _ _ _ := rfl

/-- Two checks of one key interleave over the end of the month. -/
def acrossMonths : List (Nat × LimiterAction) :=
  [(0, .begin oneKey monthly), (1, .begin oneKey monthly), (0, .proceed), (1, .proceed), (0, .proceed),
    (0, .proceed), (2, .tick firstOfFebruary), (1, .proceed), (1, .proceed), (0, .proceed), (0, .proceed),
    (1, .proceed), (1, .proceed), (0, .begin oneKey monthly), (0, .proceed), (0, .proceed), (0, .proceed),
    (0, .proceed)]

/-- The month of January sees one check and February two, of which one is rejected. -/
theorem rate_limits_exact_acrossMonths :
    ∃ c, limiter.run noChecks acrossMonths = some c ∧
      c.shared.log.countP (·.allowsIn oneKey .month [2026, 1] 1) = 1 ∧
      c.shared.log.countP (·.allowsIn oneKey .month [2026, 2] 1) = 1 ∧
      countedIn c.shared.log oneKey .month [2026, 2] = 2 ∧
      CountsExactly c.shared.log ∧ CountsEach c.shared.log ∧ AllowedWithin c.shared.log ∧
      RejectsFull c.shared.log := by
  have hruns : (limiter.run noChecks acrossMonths).map (fun c =>
      (c.shared.log.countP (·.allowsIn oneKey .month [2026, 1] 1),
        c.shared.log.countP (·.allowsIn oneKey .month [2026, 2] 1),
        countedIn c.shared.log oneKey .month [2026, 2])) = some (1, 1, 2) := by
    decide +kernel
  obtain ⟨c, hrun, hresult⟩ := Option.map_eq_some_iff.1 hruns
  obtain ⟨hjanuary, hrest⟩ := Prod.mk.inj hresult
  obtain ⟨hfebruary, hcounted⟩ := Prod.mk.inj hrest
  exact ⟨c, hrun, hjanuary, hfebruary, hcounted, rate_limits_exact noChecks_starts hrun⟩

end FaAuthM8

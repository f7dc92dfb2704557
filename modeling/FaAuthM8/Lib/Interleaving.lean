import Mathlib.Logic.Function.Basic

/-!
# Interleaved processes over one shared state

A system gives, for each process, what one atomic step does to the shared state and to the process's own
local state; `none` means the step is not enabled there. A run picks one process and one choice at a time,
so every order of steps of any number of processes is a run.

The rules are the two a proof about such a system needs. An assertion is a property of the shared state
together with one property of each process's local state, and it holds along a run once every step keeps
it, for the process that moves and for all the others. A guard is a property of single steps; it may be
assumed of every step of the run, which is how a condition on runs is stated.
-/

namespace Interleaving

/-- What one step of process `p` does, in shared state `s` and local state `l`, on choice `a`. -/
structure System (σ ℓ α : Type) where
  step : Nat → σ → ℓ → α → Option (σ × ℓ)

structure Config (σ ℓ : Type) where
  shared : σ
  locals : Nat → ℓ

variable {σ ℓ α : Type}

namespace System

variable (S : System σ ℓ α)

def next (c : Config σ ℓ) (a : Nat × α) : Option (Config σ ℓ) :=
  (S.step a.1 c.shared (c.locals a.1) a.2).map fun after =>
    ⟨after.1, Function.update c.locals a.1 after.2⟩

def run : Config σ ℓ → List (Nat × α) → Option (Config σ ℓ)
  | c, [] => some c
  | c, a :: rest => (S.next c a).bind fun c' => run c' rest

/-- Every step taken from `c` along the schedule satisfies `ok`. -/
def Along (ok : Config σ ℓ → Nat × α → Config σ ℓ → Prop) : Config σ ℓ → List (Nat × α) → Prop
  | _, [] => True
  | c, a :: rest => ∀ c', S.next c a = some c' → ok c a c' ∧ Along ok c' rest

/-- Some step taken from `c` along the schedule satisfies `starts`, and no later one satisfies `ends`. -/
def Since (starts ends : Config σ ℓ → Nat × α → Config σ ℓ → Prop) :
    Config σ ℓ → List (Nat × α) → Prop
  | _, [] => False
  | c, a :: rest => ∃ c', S.next c a = some c' ∧
      ((starts c a c' ∧ S.Along (fun c a c' => ¬ ends c a c') c' rest) ∨ Since starts ends c' rest)

variable {S}

theorem next_eq_some {c c' : Config σ ℓ} {p : Nat} {a : α} :
    S.next c (p, a) = some c' ↔
      ∃ s' l', S.step p c.shared (c.locals p) a = some (s', l') ∧
        c' = ⟨s', Function.update c.locals p l'⟩ := by
  simp only [next, Option.map_eq_some_iff, Prod.exists]
  constructor
  · rintro ⟨s', l', hstep, rfl⟩
    exact ⟨s', l', hstep, rfl⟩
  · rintro ⟨s', l', hstep, rfl⟩
    exact ⟨s', l', hstep, rfl⟩

theorem step_of_next {c c' : Config σ ℓ} {move : Nat × α} (hnext : S.next c move = some c') :
    S.step move.1 c.shared (c.locals move.1) move.2 = some (c'.shared, c'.locals move.1) := by
  obtain ⟨s', l', hstep, rfl⟩ := next_eq_some.1 hnext
  show _ = some (s', Function.update c.locals move.1 l' move.1)
  rw [Function.update_self]
  exact hstep

@[simp] theorem run_nil (c : Config σ ℓ) : S.run c [] = some c := rfl

theorem run_cons {c c'' : Config σ ℓ} {a : Nat × α} {rest : List (Nat × α)} :
    S.run c (a :: rest) = some c'' ↔ ∃ c', S.next c a = some c' ∧ S.run c' rest = some c'' := by
  simp [run, Option.bind_eq_some_iff]

theorem run_append {c c'' : Config σ ℓ} {first second : List (Nat × α)} :
    S.run c (first ++ second) = some c'' ↔
      ∃ c', S.run c first = some c' ∧ S.run c' second = some c'' := by
  induction first generalizing c with
  | nil => simp
  | cons a rest ih =>
      rw [List.cons_append, run_cons]
      constructor
      · rintro ⟨c₁, hnext, hrun⟩
        obtain ⟨c', hfirst, hsecond⟩ := ih.1 hrun
        exact ⟨c', run_cons.2 ⟨c₁, hnext, hfirst⟩, hsecond⟩
      · rintro ⟨c', hfirst, hsecond⟩
        obtain ⟨c₁, hnext, hrest⟩ := run_cons.1 hfirst
        exact ⟨c₁, hnext, ih.2 ⟨c', hrest, hsecond⟩⟩

theorem run_locals_of_ne {c c' : Config σ ℓ} {q : Nat} {schedule : List (Nat × α)}
    (hother : ∀ move ∈ schedule, move.1 ≠ q) (hrun : S.run c schedule = some c') :
    c'.locals q = c.locals q := by
  induction schedule generalizing c with
  | nil =>
      rw [run_nil, Option.some.injEq] at hrun
      rw [hrun]
  | cons move rest ih =>
      obtain ⟨c₁, hnext, hrest⟩ := run_cons.1 hrun
      obtain ⟨s', l', -, rfl⟩ := next_eq_some.1 hnext
      rw [ih (fun move hmem => hother move (List.mem_cons_of_mem _ hmem)) hrest]
      exact Function.update_of_ne (hother move List.mem_cons_self).symm _ _

/-- The processes that never move are as they were before every step. -/
theorem along_unmoved {moves : Nat → Prop} {c : Config σ ℓ} {schedule : List (Nat × α)}
    (hmoves : ∀ move ∈ schedule, moves move.1) :
    S.Along (fun c' _ _ => ∀ q, ¬ moves q → c'.locals q = c.locals q) c schedule := by
  suffices hall : ∀ c', (∀ q, ¬ moves q → c'.locals q = c.locals q) →
      S.Along (fun c' _ _ => ∀ q, ¬ moves q → c'.locals q = c.locals q) c' schedule from hall c fun _ _ => rfl
  induction schedule with
  | nil => exact fun _ _ => trivial
  | cons move rest ih =>
      intro c' hsame c'' hnext
      refine ⟨hsame, ih (fun move hmem => hmoves move (List.mem_cons_of_mem _ hmem)) c'' fun q hq => ?_⟩
      obtain ⟨s', l', -, rfl⟩ := next_eq_some.1 hnext
      have hne : q ≠ move.1 := fun heq => hq (heq ▸ hmoves move List.mem_cons_self)
      exact (Function.update_of_ne hne _ _).trans (hsame q hq)

/-- A property that every guarded step keeps holds in every state reached by guarded steps. -/
theorem run_invariant {ok : Config σ ℓ → Nat × α → Config σ ℓ → Prop} {Inv : Config σ ℓ → Prop}
    (hstep : ∀ c a c', Inv c → S.next c a = some c' → ok c a c' → Inv c')
    {c c' : Config σ ℓ} {schedule : List (Nat × α)} (hinv : Inv c)
    (hok : S.Along ok c schedule) (hrun : S.run c schedule = some c') : Inv c' := by
  induction schedule generalizing c with
  | nil =>
      rw [run_nil, Option.some.injEq] at hrun
      exact hrun ▸ hinv
  | cons a rest ih =>
      obtain ⟨c₁, hnext, hrest⟩ := run_cons.1 hrun
      obtain ⟨hfirst, htail⟩ := hok c₁ hnext
      exact ih (hstep c a c₁ hinv hnext hfirst) htail hrest

instance along_decidable {ok : Config σ ℓ → Nat × α → Config σ ℓ → Prop}
    [∀ c a c', Decidable (ok c a c')] :
    (c : Config σ ℓ) → (schedule : List (Nat × α)) → Decidable (S.Along ok c schedule)
  | _, [] => .isTrue trivial
  | c, a :: rest =>
      match hnext : S.next c a with
      | none => .isTrue fun _ h => absurd (hnext.symm.trans h) nofun
      | some c' =>
          have : Decidable (S.Along ok c' rest) := along_decidable c' rest
          decidable_of_iff (ok c a c' ∧ S.Along ok c' rest)
            ⟨fun hok _ h => Option.some.inj (hnext.symm.trans h) ▸ hok, fun hok => hok c' hnext⟩

/-- What an invariant gives of every guarded step it survives. -/
theorem along_of_guarded {ok want : Config σ ℓ → Nat × α → Config σ ℓ → Prop} {Inv : Config σ ℓ → Prop}
    (hstep : ∀ c a c', Inv c → S.next c a = some c' → ok c a c' → want c a c' ∧ Inv c')
    {c : Config σ ℓ} {schedule : List (Nat × α)} (hinv : Inv c) (hok : S.Along ok c schedule) :
    S.Along want c schedule := by
  induction schedule generalizing c with
  | nil => exact trivial
  | cons a rest ih =>
      intro c' hnext
      obtain ⟨hfirst, htail⟩ := hok c' hnext
      obtain ⟨hwant, hinv'⟩ := hstep c a c' hinv hnext hfirst
      exact ⟨hwant, ih hinv' htail⟩

/-- Where an invariant makes each step satisfy `want` exactly when it satisfies `ok`, a whole run satisfies
one exactly when it satisfies the other. The invariant need only survive the steps that satisfy `ok`. -/
theorem along_iff {ok want : Config σ ℓ → Nat × α → Config σ ℓ → Prop} {Inv : Config σ ℓ → Prop}
    (hiff : ∀ c a c', Inv c → S.next c a = some c' → (ok c a c' ↔ want c a c'))
    (hstep : ∀ c a c', Inv c → S.next c a = some c' → ok c a c' → Inv c')
    {c : Config σ ℓ} (schedule : List (Nat × α)) (hinv : Inv c) :
    S.Along ok c schedule ↔ S.Along want c schedule := by
  constructor
  · intro hok
    refine along_of_guarded (fun c a c' hinv hnext hok => ?_) hinv hok
    exact ⟨(hiff c a c' hinv hnext).1 hok, hstep c a c' hinv hnext hok⟩
  · intro hwant
    refine along_of_guarded (fun c a c' hinv hnext hwant => ?_) hinv hwant
    have hok := (hiff c a c' hinv hnext).2 hwant
    exact ⟨hok, hstep c a c' hinv hnext hok⟩

theorem along_of_invariant {want : Config σ ℓ → Nat × α → Config σ ℓ → Prop} {Inv : Config σ ℓ → Prop}
    (hstep : ∀ c a c', Inv c → S.next c a = some c' → want c a c' ∧ Inv c') {c : Config σ ℓ}
    (schedule : List (Nat × α)) (hinv : Inv c) : S.Along want c schedule := by
  induction schedule generalizing c with
  | nil => exact trivial
  | cons a rest ih =>
      intro c' hnext
      obtain ⟨hwant, hinv'⟩ := hstep c a c' hinv hnext
      exact ⟨hwant, ih hinv'⟩

theorem run_keeps {Inv : Config σ ℓ → Prop}
    (hstep : ∀ c a c', Inv c → S.next c a = some c' → Inv c')
    {c c' : Config σ ℓ} {schedule : List (Nat × α)} (hinv : Inv c)
    (hrun : S.run c schedule = some c') : Inv c' := by
  have hall : S.Along (fun _ _ _ => True) c schedule :=
    along_of_invariant (fun _ _ _ _ _ => ⟨trivial, trivial⟩) schedule trivial
  exact run_invariant (fun c a c' hinv hnext _ => hstep c a c' hinv hnext) hinv hall hrun

theorem along_mono {ok want : Config σ ℓ → Nat × α → Config σ ℓ → Prop}
    (himp : ∀ c a c', ok c a c' → want c a c') {c : Config σ ℓ} {schedule : List (Nat × α)}
    (hok : S.Along ok c schedule) : S.Along want c schedule := by
  have hstep : ∀ c a c', True → S.next c a = some c' → ok c a c' → want c a c' ∧ True :=
    fun c a c' _ _ hok => ⟨himp c a c' hok, trivial⟩
  exact along_of_guarded hstep trivial hok

theorem along_of_mem {ok : Config σ ℓ → Nat × α → Config σ ℓ → Prop} {c : Config σ ℓ}
    {schedule : List (Nat × α)} (hall : ∀ move ∈ schedule, ∀ c c', ok c move c') : S.Along ok c schedule := by
  induction schedule generalizing c with
  | nil => exact trivial
  | cons move rest ih =>
      intro c' _
      exact ⟨hall move List.mem_cons_self c c', ih fun move hmem => hall move (List.mem_cons_of_mem _ hmem)⟩

/-- What the steps of a run cost together. -/
def total (S : System σ ℓ α) (cost : Config σ ℓ → Nat × α → Config σ ℓ → Nat) :
    Config σ ℓ → List (Nat × α) → Nat
  | _, [] => 0
  | c, a :: rest =>
      match S.next c a with
      | none => 0
      | some c' => cost c a c' + total S cost c' rest

/-- Where every guarded step pays what it costs out of a potential, a run costs no more than the potential it
starts with. -/
theorem total_le {ok : Config σ ℓ → Nat × α → Config σ ℓ → Prop} {Inv : Config σ ℓ → Prop}
    {cost : Config σ ℓ → Nat × α → Config σ ℓ → Nat} {price : Nat} {potential : Config σ ℓ → Nat}
    (hstep : ∀ c a c', Inv c → S.next c a = some c' → ok c a c' →
      cost c a c' * price + potential c' ≤ potential c ∧ Inv c')
    {c : Config σ ℓ} {schedule : List (Nat × α)} (hinv : Inv c) (hok : S.Along ok c schedule) :
    S.total cost c schedule * price ≤ potential c := by
  induction schedule generalizing c with
  | nil =>
      show 0 * price ≤ potential c
      omega
  | cons a rest ih =>
      rw [total]
      split
      · omega
      · next c' hnext =>
          obtain ⟨hfirst, htail⟩ := hok c' hnext
          obtain ⟨hpaid, hinv'⟩ := hstep c a c' hinv hnext hfirst
          have hrest := ih hinv' htail
          rw [Nat.add_mul]
          omega

theorem along_and {ok ok' : Config σ ℓ → Nat × α → Config σ ℓ → Prop} {c : Config σ ℓ}
    {schedule : List (Nat × α)} (hok : S.Along ok c schedule) (hok' : S.Along ok' c schedule) :
    S.Along (fun c a c' => ok c a c' ∧ ok' c a c') c schedule := by
  induction schedule generalizing c with
  | nil => exact trivial
  | cons a rest ih =>
      intro c' hnext
      obtain ⟨hfirst, htail⟩ := hok c' hnext
      obtain ⟨hfirst', htail'⟩ := hok' c' hnext
      exact ⟨⟨hfirst, hfirst'⟩, ih htail htail'⟩

theorem along_append {ok : Config σ ℓ → Nat × α → Config σ ℓ → Prop} {c : Config σ ℓ}
    {first second : List (Nat × α)} : S.Along ok c (first ++ second) ↔
      S.Along ok c first ∧ ∀ c', S.run c first = some c' → S.Along ok c' second := by
  induction first generalizing c with
  | nil => simp [Along]
  | cons a rest ih =>
      simp only [List.cons_append, Along, run_cons, ih]
      constructor
      · intro hall
        refine ⟨fun c' hnext => ⟨(hall c' hnext).1, (hall c' hnext).2.1⟩, ?_⟩
        rintro c'' ⟨c', hnext, hrun⟩
        exact (hall c' hnext).2.2 c'' hrun
      · intro ⟨hfirst, hsecond⟩ c' hnext
        obtain ⟨hok, hrest⟩ := hfirst c' hnext
        exact ⟨hok, hrest, fun c'' hrun => hsecond c'' ⟨c', hnext, hrun⟩⟩

/-- The run from `c` along the schedule takes the step `move` from `c₁` to `c₂`, and `rest` is left then. -/
def Passes (S : System σ ℓ α) (c : Config σ ℓ) (schedule : List (Nat × α)) (c₁ : Config σ ℓ) (move : Nat × α)
    (c₂ : Config σ ℓ) (rest : List (Nat × α)) : Prop :=
  ∃ earlier, schedule = earlier ++ move :: rest ∧ S.run c earlier = some c₁ ∧ S.next c₁ move = some c₂

/-- What an invariant of the guarded steps gives of a step that a guarded run takes. -/
theorem Passes.guarded {ok : Config σ ℓ → Nat × α → Config σ ℓ → Prop} {Inv : Config σ ℓ → Prop}
    (hkeeps : ∀ c a c', Inv c → S.next c a = some c' → ok c a c' → Inv c')
    {c c₁ c₂ : Config σ ℓ} {schedule rest : List (Nat × α)} {move : Nat × α} (hinv : Inv c)
    (hok : S.Along ok c schedule) (hpasses : S.Passes c schedule c₁ move c₂ rest) :
    Inv c₁ ∧ S.next c₁ move = some c₂ ∧ ok c₁ move c₂ ∧ S.Along ok c₂ rest := by
  obtain ⟨earlier, rfl, hrun, hnext⟩ := hpasses
  obtain ⟨hearlier, hrest⟩ := along_append.1 hok
  obtain ⟨hmove, hlater⟩ := hrest c₁ hrun c₂ hnext
  exact ⟨run_invariant hkeeps hinv hearlier hrun, hnext, hmove, hlater⟩

/-- A property that a step brings about exactly when it satisfies `starts`, or finds and does not satisfy
`ends`, holds after a run exactly when it was brought about in it, or was there before, and has not ended
since. -/
theorem since_iff {ok starts ends : Config σ ℓ → Nat × α → Config σ ℓ → Prop}
    {Inv P : Config σ ℓ → Prop}
    (hstep : ∀ c a c', Inv c → S.next c a = some c' → ok c a c' →
      Inv c' ∧ (P c' ↔ starts c a c' ∨ (P c ∧ ¬ ends c a c')))
    {c c' : Config σ ℓ} {schedule : List (Nat × α)} (hinv : Inv c) (hok : S.Along ok c schedule)
    (hrun : S.run c schedule = some c') :
    P c' ↔ S.Since starts ends c schedule ∨ (P c ∧ S.Along (fun c a c' => ¬ ends c a c') c schedule) := by
  induction schedule generalizing c with
  | nil =>
      obtain rfl := Option.some.inj hrun
      simp [Since, Along]
  | cons a rest ih =>
      obtain ⟨c₁, hnext, hrest⟩ := run_cons.1 hrun
      obtain ⟨hfirst, htail⟩ := hok c₁ hnext
      obtain ⟨hinv₁, hafter⟩ := hstep c a c₁ hinv hnext hfirst
      have honly {Q : Config σ ℓ → Prop} : (∃ c', S.next c a = some c' ∧ Q c') ↔ Q c₁ := by
        simp [hnext]
      have hall {Q : Config σ ℓ → Prop} : (∀ c', S.next c a = some c' → Q c') ↔ Q c₁ := by
        simp [hnext]
      rw [ih hinv₁ htail hrest, hafter, Since, Along, honly, hall]
      rw [or_and_right, and_assoc, ← or_assoc, or_comm (a := S.Since starts ends c₁ rest)]

end System

/-- The configuration without what the processes remember. -/
def Config.forget {γ : Type} (c : Config σ (ℓ × γ)) : Config σ ℓ where
  shared := c.shared
  locals p := (c.locals p).1

namespace System

variable {γ : Type} {S : System σ ℓ α} {note : ℓ → ℓ → γ → γ}

/-- The system whose processes also remember something of the steps they have taken. -/
def remembering (S : System σ ℓ α) (note : ℓ → ℓ → γ → γ) : System σ (ℓ × γ) α where
  step p s m a := (S.step p s m.1 a).map fun after => (after.1, after.2, note m.1 after.2 m.2)

theorem remembering_step {p : Nat} {s s' : σ} {m m' : ℓ × γ} {a : α} :
    (S.remembering note).step p s m a = some (s', m') ↔
      S.step p s m.1 a = some (s', m'.1) ∧ m'.2 = note m.1 m'.1 m.2 := by
  simp only [remembering, Option.map_eq_some_iff, Prod.exists]
  constructor
  · rintro ⟨s₁, l₁, hstep, heq⟩
    cases heq
    exact ⟨hstep, rfl⟩
  · rintro ⟨hstep, hnote⟩
    exact ⟨s', m'.1, hstep, by rw [← hnote]⟩

theorem remembering_next (c : Config σ (ℓ × γ)) (move : Nat × α) :
    ((S.remembering note).next c move).map Config.forget = S.next c.forget move := by
  obtain ⟨p, a⟩ := move
  simp only [next, remembering, Option.map_map]
  congr 1
  funext after
  refine congrArg (Config.mk after.1) ?_
  funext q
  by_cases hq : q = p
  · subst hq
    simp
  · simp [Config.forget, Function.update_of_ne hq]

/-- What processes remember does not change what they do. -/
theorem remembering_run (c : Config σ (ℓ × γ)) (schedule : List (Nat × α)) :
    ((S.remembering note).run c schedule).map Config.forget = S.run c.forget schedule := by
  induction schedule generalizing c with
  | nil => rfl
  | cons move rest ih =>
      have hnext : ((S.remembering note).next c move).map Config.forget = S.next c.forget move :=
        remembering_next c move
      rw [run, run, ← hnext, Option.map_bind, Option.bind_map]
      congr 1
      funext c'
      exact ih c'

end System

/-- A property of the shared state together with one property of every process's local state. -/
structure Asserted (I : σ → Prop) (A : Nat → σ → ℓ → Prop) (c : Config σ ℓ) : Prop where
  shared : I c.shared
  locals : ∀ p, A p c.shared (c.locals p)

theorem Asserted.next {S : System σ ℓ α} {I : σ → Prop} {A : Nat → σ → ℓ → Prop}
    {c c' : Config σ ℓ} {move : Nat × α} (hnext : S.next c move = some c')
    (hstep : ∀ l', S.step move.1 c.shared (c.locals move.1) move.2 = some (c'.shared, l') →
      I c'.shared ∧ A move.1 c'.shared l' ∧ ∀ q, q ≠ move.1 → A q c'.shared (c.locals q)) :
    Asserted I A c' := by
  obtain ⟨s', l', heq, rfl⟩ := System.next_eq_some.1 hnext
  obtain ⟨hshared, hmover, hothers⟩ := hstep l' heq
  refine ⟨hshared, fun q => ?_⟩
  by_cases hq : q = move.1
  · subst hq
    simpa using hmover
  · simpa [Function.update_of_ne hq] using hothers q hq

theorem Asserted.moved {S : System σ ℓ α} {I : σ → Prop} {A : Nat → σ → ℓ → Prop}
    {c c' : Config σ ℓ} {move : Nat × α} (hnext : S.next c move = some c') (hshared : I c'.shared)
    (hmover : A move.1 c'.shared (c'.locals move.1))
    (hothers : ∀ q, q ≠ move.1 → A q c'.shared (c.locals q)) : Asserted I A c' := by
  obtain ⟨s', l', -, rfl⟩ := System.next_eq_some.1 hnext
  refine ⟨hshared, fun q => ?_⟩
  by_cases hq : q = move.1
  · exact hq ▸ hmover
  · show A q s' (Function.update c.locals move.1 l' q)
    rw [Function.update_of_ne hq]
    exact hothers q hq

/-- No two processes hold the same thing. -/
def Exclusive {ι : Type} (held : ℓ → List ι) (locals : Nat → ℓ) : Prop :=
  ∀ p q, p ≠ q → ∀ x ∈ held (locals p), x ∉ held (locals q)

theorem Exclusive.moved {S : System σ ℓ α} {ι : Type} {held : ℓ → List ι} {c c' : Config σ ℓ}
    {move : Nat × α} (hexclusive : Exclusive held c.locals) (hnext : S.next c move = some c')
    (htaken : ∀ x ∈ held (c'.locals move.1),
      x ∈ held (c.locals move.1) ∨ ∀ q, q ≠ move.1 → x ∉ held (c.locals q)) :
    Exclusive held c'.locals := by
  obtain ⟨s', l', -, rfl⟩ := System.next_eq_some.1 hnext
  have hmover : Function.update c.locals move.1 l' move.1 = l' := Function.update_self ..
  have hothers {q : Nat} (hq : q ≠ move.1) : Function.update c.locals move.1 l' q = c.locals q :=
    Function.update_of_ne hq ..
  dsimp only at htaken
  rw [hmover] at htaken
  have hapart {q : Nat} (hq : q ≠ move.1) {x : ι} (hx : x ∈ held l') : x ∉ held (c.locals q) := by
    rcases htaken x hx with hold | hfree
    · exact hexclusive move.1 q hq.symm x hold
    · exact hfree q hq
  intro p q hpq x hx hx'
  dsimp only at hx hx'
  by_cases hp : p = move.1
  · have hq : q ≠ move.1 := fun heq => hpq (hp.trans heq.symm)
    rw [hp, hmover] at hx
    rw [hothers hq] at hx'
    exact hapart hq hx hx'
  · rw [hothers hp] at hx
    by_cases hq : q = move.1
    · rw [hq, hmover] at hx'
      exact hapart hp hx' hx
    · rw [hothers hq] at hx'
      exact hexclusive p q hpq x hx hx'

end Interleaving

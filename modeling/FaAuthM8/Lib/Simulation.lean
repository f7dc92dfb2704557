import FaAuthM8.Lib.Interleaving

/-!
# Simulation between two systems of processes

Two systems over the same shared state, whose processes differ in how much of their own state they keep. Where
each step of the lower system is either a step of the upper one on the same choice, or one that only the mover
notices, every run of the lower system is a run of the upper one with such steps left out.
-/

namespace Interleaving

variable {σ ℓ κ α : Type}

/-- The shared states agree and satisfy the invariant, and so do the local states of each process. -/
structure Simulated (I : σ → Prop) (A : ℓ → κ → Prop) (c : Config σ ℓ) (d : Config σ κ) : Prop where
  shared : d.shared = c.shared
  inv : I c.shared
  locals : ∀ p, A (c.locals p) (d.locals p)

/-- The schedule without some of the moves that need not be kept. -/
structure LeavesOut (keep : α → Bool) (kept schedule : List (Nat × α)) : Prop where
  sublist : kept.Sublist schedule
  filter : kept.filter (fun move => keep move.2) = schedule.filter fun move => keep move.2

theorem LeavesOut.nil (keep : α → Bool) : LeavesOut keep [] [] :=
  ⟨List.Sublist.refl [], rfl⟩

theorem LeavesOut.cons {keep : α → Bool} {kept schedule : List (Nat × α)}
    (hleaves : LeavesOut keep kept schedule) (move : Nat × α) :
    LeavesOut keep (move :: kept) (move :: schedule) where
  sublist := hleaves.sublist.cons_cons move
  filter := by rw [List.filter_cons, List.filter_cons, hleaves.filter]

theorem LeavesOut.skip {keep : α → Bool} {kept schedule : List (Nat × α)}
    (hleaves : LeavesOut keep kept schedule) {move : Nat × α} (hskip : keep move.2 = false) :
    LeavesOut keep kept (move :: schedule) where
  sublist := hleaves.sublist.cons move
  filter := by rw [hleaves.filter, List.filter_cons_of_neg (by simp [hskip])]

/-- A step of the lower system is one of the upper system, or one that can be left out. -/
def StepSimulated (S : System σ ℓ α) (T : System σ κ α) (I : σ → Prop) (A : ℓ → κ → Prop) (keep : α → Bool)
    (ok : α → Prop) : Prop :=
  ∀ p s l k a s' l', I s → A l k → ok a → S.step p s l a = some (s', l') →
    I s' ∧ ((∃ k', T.step p s k a = some (s', k') ∧ A l' k') ∨ (keep a = false ∧ s' = s ∧ A l' k))

theorem Simulated.next {S : System σ ℓ α} {T : System σ κ α} {I : σ → Prop} {A : ℓ → κ → Prop}
    {keep : α → Bool} {ok : α → Prop} (hsteps : StepSimulated S T I A keep ok) {c c' : Config σ ℓ}
    {d : Config σ κ} {move : Nat × α} (hsim : Simulated I A c d) (hok : ok move.2)
    (hnext : S.next c move = some c') :
    (∃ d', T.next d move = some d' ∧ Simulated I A c' d') ∨ (keep move.2 = false ∧ Simulated I A c' d) := by
  obtain ⟨p, a⟩ := move
  obtain ⟨s', l', hstep, rfl⟩ := System.next_eq_some.1 hnext
  obtain ⟨hinv, hmatched | ⟨hskip, rfl, hlocal⟩⟩ := hsteps p _ _ _ a s' l' hsim.inv (hsim.locals p) hok hstep
  · obtain ⟨k', hstep', hlocal⟩ := hmatched
    rw [← hsim.shared] at hstep'
    refine .inl ⟨_, System.next_eq_some.2 ⟨s', k', hstep', rfl⟩, rfl, hinv, fun q => ?_⟩
    by_cases hq : q = p
    · subst hq
      simpa using hlocal
    · simpa [Function.update_of_ne hq] using hsim.locals q
  · refine .inr ⟨hskip, hsim.shared, hinv, fun q => ?_⟩
    by_cases hq : q = p
    · subst hq
      simpa using hlocal
    · simpa [Function.update_of_ne hq] using hsim.locals q

/-- Every run of the lower system is one of the upper system. -/
theorem Simulated.run {S : System σ ℓ α} {T : System σ κ α} {I : σ → Prop} {A : ℓ → κ → Prop}
    {keep : α → Bool} {ok : α → Prop} (hsteps : StepSimulated S T I A keep ok) {c c' : Config σ ℓ}
    {d : Config σ κ} {schedule : List (Nat × α)} (hsim : Simulated I A c d)
    (hok : ∀ move ∈ schedule, ok move.2) (hrun : S.run c schedule = some c') :
    ∃ kept d', LeavesOut keep kept schedule ∧ T.run d kept = some d' ∧ Simulated I A c' d' := by
  induction schedule generalizing c d with
  | nil =>
      obtain rfl := Option.some.inj hrun
      exact ⟨[], d, .nil keep, rfl, hsim⟩
  | cons move rest ih =>
      obtain ⟨c₁, hnext, hrest⟩ := System.run_cons.1 hrun
      have hokRest : ∀ move' ∈ rest, ok move'.2 := fun move' hmem => hok move' (List.mem_cons_of_mem _ hmem)
      rcases hsim.next hsteps (hok move List.mem_cons_self) hnext with ⟨d₁, hnext', hsim₁⟩ | ⟨hskip, hsim₁⟩
      · obtain ⟨kept, d', hleaves, hrun', hsim'⟩ := ih hsim₁ hokRest hrest
        exact ⟨move :: kept, d', hleaves.cons move, System.run_cons.2 ⟨d₁, hnext', hrun'⟩, hsim'⟩
      · obtain ⟨kept, d', hleaves, hrun', hsim'⟩ := ih hsim₁ hokRest hrest
        exact ⟨kept, d', hleaves.skip hskip, hrun', hsim'⟩

end Interleaving

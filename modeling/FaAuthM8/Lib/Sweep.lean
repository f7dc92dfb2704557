import FaAuthM8.Lib.Table
import Mathlib.Data.Finset.Card
import Mathlib.Data.Finset.Max
import Mathlib.Data.List.Sort

/-!
# Sweeps in batches

A sweep empties a finite set in batches. Each turn claims the first elements that are left, in the order of a
key, and removes them; the sweep ends with a batch that is not full, and gives up on a batch that is the one
before. Elements with the same key come in any order, which may be another one each time, and some elements
stay although they are removed.
-/

namespace BatchSweep

inductive Outcome
  | finished (removed : Nat)
  | stalled (count : Nat)
deriving DecidableEq, Repr

variable {σ ι κ : Type} [DecidableEq ι]

/-- The loop from its query `n` on; `none` when the fuel has run out. -/
def loop (claim : Nat → σ → List ι) (delete : σ → List ι → σ) (batch : Nat) :
    Nat → Nat → σ → Nat → Option (Finset ι) → Option (Outcome × σ)
  | 0, _, _, _, _ => none
  | fuel + 1, n, s, removed, previous =>
      let rows := claim n s
      if rows = [] then some (.finished removed, s)
      else if previous = some rows.toFinset then some (.stalled rows.length, s)
      else if rows.length < batch then some (.finished (removed + rows.length), delete s rows)
      else loop claim delete batch fuel (n + 1) (delete s rows) (removed + rows.length) (some rows.toFinset)

/-- The list holds the first elements of the set, as many as make a batch. -/
structure FirstBy (le : ι → ι → Prop) (rows : Finset ι) (batch : Nat) (reply : List ι) : Prop where
  nodup : reply.Nodup
  length : reply.length = min batch rows.card
  subset : reply.toFinset ⊆ rows
  first : ∀ a ∈ reply, ∀ b ∈ rows, b ∉ reply → le a b

/-- The order of a key, where a rank decides between equal keys. -/
def ByKey [LinearOrder κ] (key : ι → κ) (rank : ι → Nat) (a b : ι) : Prop :=
  key a < key b ∨ key a = key b ∧ rank a ≤ rank b

/-- A sweep over the elements that remain in a state; those that are kept never go away. -/
structure Sweeping (claim : Nat → σ → List ι) (delete : σ → List ι → σ) (batch : Nat)
    (le : Nat → ι → ι → Prop) (kept : Finset ι) (remaining : σ → Finset ι) (Inv : σ → Prop) : Prop where
  batch_pos : 0 < batch
  stays : ∀ s, Inv s → kept ⊆ remaining s
  claims : ∀ n s, Inv s → FirstBy (le n) (remaining s) batch (claim n s)
  deletes : ∀ n s, Inv s → remaining (delete s (claim n s)) = remaining s \ ((claim n s).toFinset \ kept)
  next : ∀ n s, Inv s → Inv (delete s (claim n s))

/-- The sweep ends, and counts what it has removed whenever it does not give up. -/
def Truthful (claim : Nat → σ → List ι) (delete : σ → List ι → σ) (batch : Nat) (remaining : σ → Finset ι)
    (s : σ) : Prop :=
  (∃ fuel result, loop claim delete batch fuel 0 s 0 none = some result) ∧
    ∀ fuel removed s', loop claim delete batch fuel 0 s 0 none = some (.finished removed, s') →
      removed = (remaining s \ remaining s').card

/-- Sorting and taking a batch gives its first elements. -/
theorem firstBy_take {α : Type} {le : ι → ι → Prop} {key : α → ι} {by' : α → α → Prop} [DecidableRel by']
    [Std.Total by'] [IsTrans α by'] {rows : List α}
    (hle : ∀ a ∈ rows, ∀ b ∈ rows, by' a b → le (key a) (key b)) (hnodup : (rows.map key).Nodup) (batch : Nat) :
    FirstBy le (rows.map key).toFinset batch (((rows.insertionSort by').take batch).map key) := by
  have hperm : ((rows.insertionSort by').map key).Perm (rows.map key) :=
    (List.perm_insertionSort by' rows).map key
  have hsplit : ((rows.insertionSort by').take batch).map key ++ ((rows.insertionSort by').drop batch).map key =
      (rows.insertionSort by').map key := by
    rw [← List.map_append, List.take_append_drop]
  have hsorted : (((rows.insertionSort by').take batch).map key ++
      ((rows.insertionSort by').drop batch).map key).Pairwise le := by
    rw [hsplit]
    rw [List.pairwise_map]
    refine (List.pairwise_insertionSort by' rows).imp_of_mem fun ha hb hab => ?_
    rw [List.mem_insertionSort] at ha hb
    exact hle _ ha _ hb hab
  refine ⟨?_, ?_, fun a ha => ?_, fun a ha b hb hnot => ?_⟩
  · exact ((hperm.nodup_iff).2 hnodup).sublist ((List.take_sublist _ _).map key)
  · rw [List.toFinset_card_of_nodup hnodup, List.length_map, List.length_map, List.length_take,
      List.length_insertionSort]
  · rw [List.mem_toFinset] at ha ⊢
    exact hperm.mem_iff.1 (hsplit ▸ List.mem_append_left _ ha)
  · have hmem := hperm.mem_iff.2 (List.mem_toFinset.1 hb)
    rw [← hsplit, List.mem_append] at hmem
    exact (List.pairwise_append.1 hsorted).2.2 a ha b (hmem.resolve_left hnot)

namespace FirstBy

variable {le : ι → ι → Prop} {rows : Finset ι} {batch : Nat} {reply : List ι}

theorem card (hfirst : FirstBy le rows batch reply) : reply.toFinset.card = min batch rows.card := by
  rw [List.toFinset_card_of_nodup hfirst.nodup, hfirst.length]

theorem eq_nil (hfirst : FirstBy le rows batch reply) (hbatch : 0 < batch) : reply = [] ↔ rows = ∅ := by
  rw [← List.length_eq_zero_iff, hfirst.length, ← Finset.card_eq_zero]
  omega

theorem eq_of_lt (hfirst : FirstBy le rows batch reply) (hlt : reply.length < batch) :
    reply.toFinset = rows := by
  apply Finset.eq_of_subset_of_card_le hfirst.subset
  have hlength := hfirst.length
  rw [hfirst.card]
  omega

end FirstBy

namespace Sweeping

variable {claim : Nat → σ → List ι} {delete : σ → List ι → σ} {batch : Nat} {le : Nat → ι → ι → Prop}
  {kept : Finset ι} {remaining : σ → Finset ι} {Inv : σ → Prop} {s s' : σ}

/-- One turn removes the batch, apart from what is kept. -/
theorem card_delete (hs : Sweeping claim delete batch le kept remaining Inv) (hinv : Inv s) (n : Nat) :
    (remaining (delete s (claim n s))).card + ((claim n s).toFinset \ kept).card = (remaining s).card := by
  rw [hs.deletes n s hinv, Finset.card_sdiff_add_card_eq_card]
  exact Finset.sdiff_subset.trans (hs.claims n s hinv).subset

/-- A sweep that does not give up ends with what is kept, which is less than a batch, and has counted every
element at least once. -/
theorem loop_finished (hs : Sweeping claim delete batch le kept remaining Inv) {fuel n removed count : Nat}
    {previous : Option (Finset ι)} (hinv : Inv s)
    (hloop : loop claim delete batch fuel n s removed previous = some (.finished count, s')) :
    remaining s' = kept ∧ kept.card < batch ∧ removed + (remaining s).card ≤ count ∧
      (kept = ∅ → count = removed + (remaining s).card) := by
  induction fuel generalizing n s removed previous with
  | zero => simp [loop] at hloop
  | succ fuel ih =>
      have hclaims := hs.claims n s hinv
      have hstays := hs.stays s hinv
      have hcard := hs.card_delete hinv n
      have hbatch := hs.batch_pos
      have hclaimed : (claim n s).toFinset.card = (claim n s).length :=
        List.toFinset_card_of_nodup hclaims.nodup
      simp only [loop] at hloop
      split at hloop
      · next hnil =>
          obtain ⟨hcount, rfl⟩ := Prod.mk.inj (Option.some.inj hloop)
          have hcount : removed = count := by simpa using hcount
          have hempty : remaining s = ∅ := (hclaims.eq_nil hbatch).1 hnil
          have hkept : kept = ∅ := Finset.subset_empty.1 (hempty ▸ hstays)
          simp [hempty, hkept, hcount, hbatch]
      · split at hloop
        · simp at hloop
        · split at hloop
          · next hlt =>
              obtain ⟨hcount, rfl⟩ := Prod.mk.inj (Option.some.inj hloop)
              have hcount : removed + (claim n s).length = count := by simpa using hcount
              have hall := hclaims.eq_of_lt hlt
              have hle := Finset.card_le_card hstays
              rw [hall] at hclaimed
              refine ⟨?_, by omega, by omega, fun _ => by omega⟩
              rw [hs.deletes n s hinv, hall, Finset.sdiff_sdiff_eq_self hstays]
          · obtain ⟨hend, hfew, hcounted, hexact⟩ := ih (hs.next n s hinv) hloop
            have hle : ((claim n s).toFinset \ kept).card ≤ (claim n s).toFinset.card :=
              Finset.card_le_card Finset.sdiff_subset
            refine ⟨hend, hfew, by omega, fun hnone => ?_⟩
            have hgone := hexact hnone
            rw [hnone, Finset.sdiff_empty] at hcard
            omega

theorem loop_inv (hs : Sweeping claim delete batch le kept remaining Inv) {fuel n removed : Nat}
    {previous : Option (Finset ι)} {outcome : Outcome} (hinv : Inv s)
    (hloop : loop claim delete batch fuel n s removed previous = some (outcome, s')) : Inv s' := by
  induction fuel generalizing n s removed previous with
  | zero => simp [loop] at hloop
  | succ fuel ih =>
      simp only [loop] at hloop
      split at hloop
      · exact (Prod.mk.inj (Option.some.inj hloop)).2 ▸ hinv
      · split at hloop
        · exact (Prod.mk.inj (Option.some.inj hloop)).2 ▸ hinv
        · split at hloop
          · exact (Prod.mk.inj (Option.some.inj hloop)).2 ▸ hs.next n s hinv
          · exact ih (hs.next n s hinv) hloop

/-- A property that every turn keeps may be assumed of the states of a sweep. -/
theorem strengthen (hs : Sweeping claim delete batch le kept remaining Inv) {P : σ → Prop}
    (hnext : ∀ n s, Inv s → P s → P (delete s (claim n s))) :
    Sweeping claim delete batch le kept remaining fun s => Inv s ∧ P s where
  batch_pos := hs.batch_pos
  stays s hinv := hs.stays s hinv.1
  claims n s hinv := hs.claims n s hinv.1
  deletes n s hinv := hs.deletes n s hinv.1
  next n s hinv := ⟨hs.next n s hinv.1, hnext n s hinv.1 hinv.2⟩

/-- A sweep gives up only when a whole batch is kept. -/
theorem loop_stalled (hs : Sweeping claim delete batch le kept remaining Inv) {fuel n removed count : Nat}
    {previous : Option (Finset ι)} (hinv : Inv s)
    (hprevious : ∀ p, previous = some p → p.card = batch ∧ p ∩ remaining s ⊆ kept)
    (hloop : loop claim delete batch fuel n s removed previous = some (.stalled count, s')) :
    batch ≤ kept.card := by
  induction fuel generalizing n s removed previous with
  | zero => simp [loop] at hloop
  | succ fuel ih =>
      have hclaims := hs.claims n s hinv
      simp only [loop] at hloop
      split at hloop
      · simp at hloop
      · split at hloop
        · next hsame =>
            obtain ⟨hcard, hsubset⟩ := hprevious _ hsame
            rw [Finset.inter_eq_left.2 hclaims.subset] at hsubset
            exact hcard ▸ Finset.card_le_card hsubset
        · split at hloop
          · simp at hloop
          · next hfull =>
              refine ih (hs.next n s hinv) (fun p hp => ?_) hloop
              rw [Option.some.injEq] at hp
              subst hp
              have hlength := hclaims.length
              refine ⟨by rw [hclaims.card]; omega, ?_⟩
              rw [hs.deletes n s hinv]
              intro a ha
              simp only [Finset.mem_inter, Finset.mem_sdiff, not_and, not_not] at ha
              exact ha.2.2 ha.1

theorem gone (hs : Sweeping claim delete batch le kept remaining Inv) (hinv : Inv s) {n : Nat} {a : ι}
    (ha : a ∈ (claim n s).toFinset) (hkept : a ∉ kept) : a ∉ remaining (delete s (claim n s)) := by
  rw [hs.deletes n s hinv]
  simp [Finset.mem_sdiff, ha, hkept]

/-- Where every whole batch of kept elements is the same one, a sweep ends. -/
theorem loop_ends (hs : Sweeping claim delete batch le kept remaining Inv) {same : Finset ι}
    (hsame : ∀ n s, Inv s → (claim n s).toFinset ⊆ kept → (claim n s).length = batch →
      (claim n s).toFinset = same) (hinv : Inv s) (n removed : Nat) (previous : Option (Finset ι)) :
    ∃ fuel result, loop claim delete batch fuel n s removed previous = some result := by
  -- A turn removes an element, or claims the batch that the next turn recognises.
  generalize hmeasure : 2 * (remaining s \ kept).card + (if previous = some same then 0 else 1) = m
  induction m using Nat.strong_induction_on generalizing s n removed previous with
  | h m ih =>
      by_cases hnil : claim n s = []
      · exact ⟨1, _, by rw [loop, if_pos hnil]⟩
      by_cases hprevious : previous = some (claim n s).toFinset
      · exact ⟨1, _, by rw [loop, if_neg hnil, if_pos hprevious]⟩
      by_cases hlt : (claim n s).length < batch
      · exact ⟨1, _, by rw [loop, if_neg hnil, if_neg hprevious, if_pos hlt]⟩
      have hrest : 2 * (remaining (delete s (claim n s)) \ kept).card +
          (if some (claim n s).toFinset = some same then 0 else 1) < m := by
        rw [← hmeasure]
        by_cases hsubset : (claim n s).toFinset ⊆ kept
        · have hlength := (hs.claims n s hinv).length
          have hbatch := hsame n s hinv hsubset (by omega)
          have hremaining : remaining (delete s (claim n s)) = remaining s := by
            rw [hs.deletes n s hinv, Finset.sdiff_eq_empty_iff_subset.2 hsubset, Finset.sdiff_empty]
          rw [hbatch] at hprevious
          rw [hremaining, hbatch, if_pos rfl, if_neg hprevious]
          omega
        · obtain ⟨a, ha, hkept⟩ := Finset.not_subset.1 hsubset
          have hlost : (remaining (delete s (claim n s)) \ kept).card < (remaining s \ kept).card := by
            apply Finset.card_lt_card
            refine ⟨Finset.sdiff_subset_sdiff ?_ le_rfl, fun hback => ?_⟩
            · rw [hs.deletes n s hinv]
              exact Finset.sdiff_subset
            · have hstill := hback (Finset.mem_sdiff.2 ⟨(hs.claims n s hinv).subset ha, hkept⟩)
              exact hs.gone hinv ha hkept (Finset.mem_sdiff.1 hstill).1
          split <;> split <;> omega
      obtain ⟨fuel, result, hloop⟩ := ih _ hrest (hs.next n s hinv) (n + 1)
        (removed + (claim n s).length) (some (claim n s).toFinset) rfl
      exact ⟨fuel + 1, result, by rw [loop, if_neg hnil, if_neg hprevious, if_neg hlt, hloop]⟩

/-- Where no whole batch of kept elements is claimed twice in a row, and one is always left, a sweep never
ends. -/
theorem loop_never (hs : Sweeping claim delete batch le kept remaining Inv) (hmany : batch ≤ kept.card)
    (hdiffers : ∀ n s, Inv s → (claim n s).toFinset ⊆ kept → (claim n s).length = batch →
      (claim (n + 1) (delete s (claim n s))).toFinset ≠ (claim n s).toFinset) (hinv : Inv s)
    (fuel n removed : Nat) {previous : Option (Finset ι)} (hprevious : previous ≠ some (claim n s).toFinset) :
    loop claim delete batch fuel n s removed previous = none := by
  induction fuel generalizing n s removed previous with
  | zero => rfl
  | succ fuel ih =>
      have hclaims := hs.claims n s hinv
      have hbatch := hs.batch_pos
      have hleft := Finset.card_le_card (hs.stays s hinv)
      have hlength : (claim n s).length = batch := by
        rw [hclaims.length]
        omega
      have hnil : claim n s ≠ [] := by
        intro hnil
        rw [hnil, List.length_nil] at hlength
        omega
      rw [loop, if_neg hnil, if_neg hprevious, if_neg (by omega)]
      apply ih (hs.next n s hinv)
      intro hagain
      rw [Option.some.injEq] at hagain
      by_cases hsubset : (claim n s).toFinset ⊆ kept
      · exact hdiffers n s hinv hsubset hlength hagain.symm
      · obtain ⟨a, ha, hkept⟩ := Finset.not_subset.1 hsubset
        have hclaims' := hs.claims (n + 1) _ (hs.next n s hinv)
        exact hs.gone hinv ha hkept (hclaims'.subset (hagain ▸ ha))

theorem truthful_of_none (hs : Sweeping claim delete batch le kept remaining Inv) (hinv : Inv s)
    (hnone : kept = ∅) : Truthful claim delete batch remaining s := by
  have hsame (n : Nat) (s : σ) (_ : Inv s) (hsubset : (claim n s).toFinset ⊆ kept)
      (_ : (claim n s).length = batch) : (claim n s).toFinset = ∅ := Finset.subset_empty.1 (hnone ▸ hsubset)
  refine ⟨hs.loop_ends hsame hinv 0 0 none, fun fuel removed s' hloop => ?_⟩
  · obtain ⟨hend, -, -, hexact⟩ := hs.loop_finished hinv hloop
    rw [hend, hnone, Finset.sdiff_empty, hexact hnone, Nat.zero_add]

/-- A sweep of which something is kept, but less than a batch, counts what is kept too. -/
theorem not_truthful_of_few (hs : Sweeping claim delete batch le kept remaining Inv) (hinv : Inv s)
    (hsome : kept.Nonempty) (hfew : kept.card < batch) : ¬ Truthful claim delete batch remaining s := by
  rintro ⟨⟨fuel, ⟨outcome, s'⟩, hloop⟩, htruthful⟩
  cases outcome with
  | stalled count =>
      have hfirst (p : Finset ι) (hp : none = some p) : p.card = batch ∧ p ∩ remaining s ⊆ kept := by
        simp at hp
      have hmany := hs.loop_stalled hinv hfirst hloop
      omega
  | finished count =>
      obtain ⟨hend, -, hcount, -⟩ := hs.loop_finished hinv hloop
      have htruth := htruthful fuel count s' hloop
      have hkept := hs.stays s hinv
      have hgone := Finset.card_sdiff_add_card_eq_card hkept
      have hpos := Finset.card_pos.2 hsome
      rw [hend] at htruth
      omega

end Sweeping

/-! ### Sweeps in the order of a key -/

section

variable [LinearOrder κ] {key : ι → κ} {rows kept : Finset ι} {batch : Nat} {reply reply' : List ι}

/-- A whole batch of kept elements is what is kept up to a key, where that makes a batch. -/
theorem FirstBy.eq_upTo {rank : ι → Nat} (hfirst : FirstBy (ByKey key rank) rows batch reply)
    (hkept : kept ⊆ rows) (hsubset : reply.toFinset ⊆ kept) (hlength : reply.length = batch) {t : κ}
    (ht : (kept.filter (key · ≤ t)).card = batch) : reply.toFinset = kept.filter (key · ≤ t) := by
  symm
  apply Finset.eq_of_subset_of_card_le
  · intro a ha
    obtain ⟨hmem, hle⟩ := Finset.mem_filter.1 ha
    by_contra hnot
    -- The batch has as many elements as there are up to `t`, so it holds one above `t`, which comes after `a`.
    have hbeyond : ∃ b ∈ reply.toFinset, t < key b := by
      by_contra! hwithin
      have hproper : reply.toFinset ⊂ kept.filter (key · ≤ t) := by
        refine ⟨fun b hb => Finset.mem_filter.2 ⟨hsubset hb, hwithin b hb⟩, fun hback => ?_⟩
        exact hnot (hback ha)
      have hcard := Finset.card_lt_card hproper
      rw [List.toFinset_card_of_nodup hfirst.nodup] at hcard
      omega
    obtain ⟨b, hb, hbt⟩ := hbeyond
    rcases hfirst.first b (List.mem_toFinset.1 hb) a (hkept hmem) (by simpa using hnot) with hlt | ⟨heq, -⟩
    · exact absurd (hlt.trans_le hle) (not_lt.2 hbt.le)
    · exact absurd hle (not_le.2 (heq ▸ hbt))
  · rw [ht, List.toFinset_card_of_nodup hfirst.nodup, hlength]

theorem exists_upTo_of_lt {first : Finset ι} (hsubset : first ⊆ kept) (hcard : first.card = batch)
    (hbatch : 0 < batch) (hlt : ∀ a ∈ first, ∀ b ∈ kept, b ∉ first → key a < key b) :
    ∃ t, (kept.filter (key · ≤ t)).card = batch := by
  obtain ⟨last, hlast, hmax⟩ := first.exists_max_image key (Finset.card_pos.1 (by omega))
  refine ⟨key last, ?_⟩
  have hall : kept.filter (key · ≤ key last) = first := by
    ext a
    rw [Finset.mem_filter]
    constructor
    · rintro ⟨ha, hle⟩
      by_contra hnot
      exact absurd hle (not_le.2 (hlt last hlast a ha hnot))
    · intro ha
      exact ⟨hsubset ha, hmax a ha⟩
  rw [hall, hcard]

/-- A whole batch of kept elements that comes first under a rank and under the opposite one is what is kept up
to a key. -/
theorem FirstBy.exists_upTo {rank rank' : ι → Nat} (hfirst : FirstBy (ByKey key rank) rows batch reply)
    (hfirst' : FirstBy (ByKey key rank') rows batch reply') (hsame : reply'.toFinset = reply.toFinset)
    (hopposite : ∀ a b, rank' a ≤ rank' b → rank b ≤ rank a) (hinjective : Function.Injective rank)
    (hkept : kept ⊆ rows) (hsubset : reply.toFinset ⊆ kept) (hlength : reply.length = batch)
    (hbatch : 0 < batch) : ∃ t, (kept.filter (key · ≤ t)).card = batch := by
  have hcard : reply.toFinset.card = batch := by rw [List.toFinset_card_of_nodup hfirst.nodup, hlength]
  refine exists_upTo_of_lt hsubset hcard hbatch fun a ha b hb hnot => ?_
  rcases hfirst.first a (List.mem_toFinset.1 ha) b (hkept hb) (by simpa using hnot) with hlt | ⟨heq, hrank⟩
  · exact hlt
  rw [← hsame] at ha hnot
  rcases hfirst'.first a (List.mem_toFinset.1 ha) b (hkept hb) (by simpa using hnot) with hlt | ⟨-, hrank'⟩
  · exact hlt
  · have hab : a = b := hinjective (le_antisymm hrank (hopposite a b hrank'))
    exact absurd (hab ▸ ha) hnot

theorem exists_upTo (hinjective : Function.Injective key) (hbatch : 0 < batch) (hmany : batch ≤ kept.card) :
    ∃ t, (kept.filter (key · ≤ t)).card = batch := by
  have htotal : Std.Total fun a b => key a ≤ key b := ⟨fun a b => le_total (key a) (key b)⟩
  have htrans : IsTrans ι fun a b => key a ≤ key b := ⟨fun _ _ _ => le_trans⟩
  have hnodup : (kept.toList.map id).Nodup := by simpa using kept.nodup_toList
  obtain ⟨reply, hfirst⟩ : ∃ reply, FirstBy (fun a b => key a ≤ key b) (kept.toList.map id).toFinset batch reply :=
    ⟨_, firstBy_take (fun a _ b _ hab => hab) hnodup batch⟩
  rw [List.map_id, Finset.toList_toFinset] at hfirst
  have hcard : reply.toFinset.card = batch := by
    rw [hfirst.card]
    omega
  refine exists_upTo_of_lt hfirst.subset hcard hbatch fun a ha b hb hnot => ?_
  have hle := hfirst.first a (List.mem_toFinset.1 ha) b hb (by simpa using hnot)
  refine lt_of_le_of_ne hle fun heq => ?_
  exact hnot (hinjective heq ▸ ha)

variable {claim : Nat → σ → List ι} {delete : σ → List ι → σ} {rank : Nat → ι → Nat}
  {remaining : σ → Finset ι} {Inv : σ → Prop} {s : σ}

theorem Sweeping.truthful_of_upTo
    (hs : Sweeping claim delete batch (fun n => ByKey key (rank n)) kept remaining Inv) (hinv : Inv s) {t : κ}
    (ht : (kept.filter (key · ≤ t)).card = batch) : Truthful claim delete batch remaining s := by
  have hsame (n : Nat) (s : σ) (hinv : Inv s) (hsubset : (claim n s).toFinset ⊆ kept)
      (hlength : (claim n s).length = batch) : (claim n s).toFinset = kept.filter (key · ≤ t) :=
    (hs.claims n s hinv).eq_upTo (hs.stays s hinv) hsubset hlength ht
  refine ⟨hs.loop_ends hsame hinv 0 0 none, fun fuel removed s' hloop => ?_⟩
  obtain ⟨-, hfew, -⟩ := hs.loop_finished hinv hloop
  have hle := Finset.card_filter_le kept (key · ≤ t)
  omega

/-- A sweep of which a batch or more is kept, but just a batch up to no key, may never end: ties in one order
and in the opposite one by turns make it claim other rows each time. -/
theorem Sweeping.never_of_gap
    (hs : Sweeping claim delete batch (fun n => ByKey key (rank n)) kept remaining Inv) (hinv : Inv s)
    (hmany : batch ≤ kept.card) (hgap : ∀ t, (kept.filter (key · ≤ t)).card ≠ batch)
    (hopposite : ∀ n a b, rank (n + 1) a ≤ rank (n + 1) b → rank n b ≤ rank n a)
    (hinjective : ∀ n, Function.Injective (rank n)) (fuel : Nat) :
    loop claim delete batch fuel 0 s 0 none = none := by
  refine hs.loop_never hmany (fun n s hinv hsubset hlength hsame => ?_) hinv fuel 0 0 (by simp)
  have hnext := hs.claims (n + 1) _ (hs.next n s hinv)
  rw [hs.deletes n s hinv, Finset.sdiff_eq_empty_iff_subset.2 hsubset, Finset.sdiff_empty] at hnext
  obtain ⟨t, ht⟩ := (hs.claims n s hinv).exists_upTo hnext hsame (hopposite n) (hinjective n)
    (hs.stays s hinv) hsubset hlength hs.batch_pos
  exact hgap t ht

end

/-! ### Sweeps of a table -/

section

variable {α : Type} {p : ι → α → Bool} {suppressed : ι → Bool} {t t₀ : Table ι α}

/-- The keys of the rows that satisfy the predicate. -/
def ids (p : ι → α → Bool) (t : Table ι α) : Finset ι := ((Table.rows p t).map Prod.fst).toFinset

theorem mem_ids {id : ι} : id ∈ ids p t ↔ ∃ a, t.lookup id = some a ∧ p id a = true := by
  simp only [ids, List.mem_toFinset, List.mem_map, Prod.exists, exists_and_right, exists_eq_right, Table.mem_rows]

theorem mem_keys_toFinset {id : ι} : id ∈ t.keys.toFinset ↔ ∃ a, t.lookup id = some a := by
  rw [List.mem_toFinset, ← AList.mem_keys, ← AList.lookup_isSome, Option.isSome_iff_exists]

theorem keys_sdiff_filter (p : ι → α → Bool) (t : Table ι α) :
    t.keys.toFinset \ (t.filter fun id a => !p id a).keys.toFinset = ids p t := by
  ext id
  simp only [Finset.mem_sdiff, mem_keys_toFinset, mem_ids, Table.lookup_filter, Option.filter_eq_some_iff]
  constructor
  · intro hgone
    obtain ⟨⟨a, hrow⟩, hnone⟩ := hgone
    refine ⟨a, hrow, ?_⟩
    by_contra hp
    exact hnone ⟨a, hrow, by simpa using hp⟩
  · intro hid
    obtain ⟨a, hrow, hp⟩ := hid
    refine ⟨⟨a, hrow⟩, fun hstill => ?_⟩
    obtain ⟨a', hrow', hp'⟩ := hstill
    obtain rfl : a = a' := Option.some.inj (hrow.symm.trans hrow')
    simp [hp] at hp'

omit [DecidableEq ι] in
theorem nodup_rows (p : ι → α → Bool) (t : Table ι α) : ((Table.rows p t).map Prod.fst).Nodup := by
  have hkeys : ((Table.rows p t).map Prod.fst) = (t.entries.filter fun e => p e.1 e.2).keys := by
    rw [Table.rows, List.map_map]
    rfl
  rw [hkeys]
  exact List.Nodup.sublist (List.filter_sublist.map _) t.nodupKeys

theorem card_ids (p : ι → α → Bool) (t : Table ι α) : (ids p t).card = (Table.rows p t).length := by
  rw [ids, List.toFinset_card_of_nodup (nodup_rows p t), List.length_map]

/-- A table of which some rows that satisfy the predicate have been removed, none of them suppressed. -/
structure Swept (p : ι → α → Bool) (suppressed : ι → Bool) (t₀ t : Table ι α) : Prop where
  old : ∀ id a, t.lookup id = some a → t₀.lookup id = some a
  stays : ∀ id a, t₀.lookup id = some a → (p id a = true → suppressed id = true) → t.lookup id = some a

theorem Swept.refl (p : ι → α → Bool) (suppressed : ι → Bool) (t : Table ι α) :
    Swept p suppressed t t :=
  ⟨fun _ _ hrow => hrow, fun _ _ hrow _ => hrow⟩

/-- Once nothing is left to sweep, the rows that are gone are those that satisfied the predicate. -/
theorem Swept.removed_iff {id : ι} {a : α} (hswept : Swept p (fun _ => false) t₀ t) (hnone : ids p t = ∅)
    (hrow : t₀.lookup id = some a) : t.lookup id = none ↔ p id a = true := by
  constructor
  · intro hgone
    by_contra hother
    have hstays := hswept.stays id a hrow fun hp => absurd hp hother
    rw [hgone] at hstays
    simp at hstays
  · intro hp
    cases hleft : t.lookup id with
    | none => rfl
    | some b =>
        have hsame := (hswept.old id b hleft).symm.trans hrow
        have hmem : id ∈ ids p t := mem_ids.2 ⟨b, hleft, by rwa [Option.some.inj hsame]⟩
        simp [hnone] at hmem

/-- A loop that claims the first rows that satisfy a predicate, and deletes them, is a sweep. -/
theorem sweeping_table {table : σ → Table ι α} {claim : Nat → σ → List ι} {delete : σ → List ι → σ}
    {batch : Nat} {le : Nat → ι → ι → Prop} (hbatch : 0 < batch)
    (hclaim : ∀ n s, Swept p suppressed t₀ (table s) →
      FirstBy (le n) (ids p (table s)) batch (claim n s))
    (hdelete : ∀ s rows, table (delete s rows) =
      (table s).filter fun id _ => !(rows.contains id && !suppressed id)) :
    Sweeping claim delete batch le (ids (fun id a => p id a && suppressed id) t₀)
      (fun s => ids p (table s)) (fun s => Swept p suppressed t₀ (table s)) where
  batch_pos := hbatch
  stays s hswept := by
    intro id hid
    obtain ⟨a, hrow, hp⟩ := mem_ids.1 hid
    rw [Bool.and_eq_true] at hp
    exact mem_ids.2 ⟨a, hswept.stays id a hrow fun _ => hp.2, hp.1⟩
  claims := hclaim
  deletes n s hswept := by
    ext id
    simp only [mem_ids, Finset.mem_sdiff, hdelete, Table.lookup_filter, Option.filter_eq_some_iff,
      List.mem_toFinset]
    constructor
    · intro hrow
      obtain ⟨a, ⟨hrow, hkept⟩, hp⟩ := hrow
      refine ⟨⟨a, hrow, hp⟩, fun hgone => hgone.2 ⟨a, hswept.old id a hrow, ?_⟩⟩
      simpa [hp, hgone.1] using hkept
    · intro hrow
      obtain ⟨⟨a, hrow, hp⟩, hkept⟩ := hrow
      refine ⟨a, ⟨hrow, ?_⟩, hp⟩
      by_cases hclaimed : id ∈ claim n s
      · by_contra hdoomed
        refine hkept ⟨hclaimed, fun hstays => hdoomed ?_⟩
        obtain ⟨a', -, hsuppressed⟩ := hstays
        rw [Bool.and_eq_true] at hsuppressed
        simp [hsuppressed.2]
      · simp [hclaimed]
  next n s hswept := by
    constructor
    · intro id a hrow
      rw [hdelete, Table.lookup_filter, Option.filter_eq_some_iff] at hrow
      exact hswept.old id a hrow.1
    · intro id a hrow hstays
      rw [hdelete, Table.lookup_filter, Option.filter_eq_some_iff]
      refine ⟨hswept.stays id a hrow hstays, ?_⟩
      by_cases hclaimed : id ∈ claim n s
      · obtain ⟨a', hrow', hp⟩ := mem_ids.1
          ((hclaim n s hswept).subset (List.mem_toFinset.2 hclaimed))
        obtain rfl : a' = a := Option.some.inj ((hswept.old id a' hrow').symm.trans hrow)
        simp [hstays hp]
      · simp [hclaimed]

end

end BatchSweep

import FaAuthM8.System.LastUsed

/-!
# What the flushes keep of the uses

A flush compares an entry with the row when it loads the row, and writes the entry when it commits. So a flush
that commits in between is overtaken, and a flush that ends in between leaves nothing of what it has taken away.
Where neither happens, a recorded time is always held somewhere, by the hash, by a flush or by the row, until a
later one is.
-/

namespace FaAuthM8

open Interleaving

/-- The key has a later last use. -/
def isOlder (lastUsed : Table Uuid (Option Int)) (id : Uuid) (time : Int) : Bool :=
  (lastUsed.lookup id).any fun current => current.any (time < ·)

/-- What the process has taken from the hash. -/
def UsageLocal.taken : UsageLocal → Table Uuid Int
  | .flushing taken _ => taken
  | _ => ∅

section

variable (w : UsageWorld) (l : UsageLocal)

/-- A row is written that has a later time by now. -/
def Overtakes (action : UsageAction) : Prop :=
  action = .commit ∧ ∃ entry ∈ l.taken.entries, isOlder w.lastUsed entry.1 entry.2 = true

/-- A time that is later than that of the row is overwritten in the hash, or is taken from it and not kept. -/
def DropsUse (action : UsageAction) : Prop :=
  match action, l with
  | .hset, .stamped id time =>
      (w.hash.lookup id).any (fun held => time < held && isNewer w.lastUsed id held) = true
  | .loseReply, _ => ∃ entry ∈ w.hash.entries, isNewer w.lastUsed entry.1 entry.2 = true
  | .rowError id, l => (l.taken.lookup id).any (isNewer w.lastUsed id) = true
  | .fail, l => ∃ entry ∈ l.taken.entries, isNewer w.lastUsed entry.1 entry.2 = true
  | _, _ => False

instance (action : UsageAction) : Decidable (Overtakes w l action) :=
  inferInstanceAs (Decidable (_ ∧ _))

instance (action : UsageAction) : Decidable (DropsUse w l action) := by
  unfold DropsUse
  split <;> infer_instance

end

/-- The last use of no key becomes earlier or unknown. -/
def Advances (c c' : UsageConfig) : Prop :=
  ∀ id time, c.shared.lastUsed.lookup id = some (some time) →
    ∃ later, c'.shared.lastUsed.lookup id = some (some later) ∧ time ≤ later

def greatest (recorded : List (Uuid × Int)) (id : Uuid) : Option Int :=
  ((recorded.filter (·.1 = id)).map Prod.snd).max?

/-- No key has been used. -/
structure Unused (c : UsageConfig) : Prop where
  hash : c.shared.hash = ∅
  lastUsed : ∀ id current, c.shared.lastUsed.lookup id = some current → current = none
  recorded : c.shared.recorded = []
  idle : ∀ p, c.locals p = .idle

/-- A flush of one process, from its first command on, while no use or other flush is in progress. -/
structure QuietFlush (c : UsageConfig) (p : Nat) (moves : List (Nat × UsageAction)) : Prop where
  idle : ∀ q, c.locals q = .idle
  starts : moves.head? = some (p, .flush)
  alone : ∀ move ∈ moves.tail, move.1 = p ∧ (move.2 = .commit ∨ ∃ id, move.2 = .load id ∨ move.2 = .rowError id)

/-- The time, or a later one of the same key, is still in the hash, in a flush or in the row. -/
def Held (c : UsageConfig) (id : Uuid) (time : Int) : Prop :=
  ∃ later, time ≤ later ∧ (c.shared.hash.lookup id = some later ∨
    c.shared.lastUsed.lookup id = some (some later) ∨ ∃ p, (c.locals p).taken.lookup id = some later)

/-- Every recorded use of a stored key is held. -/
def AllHeld (c : UsageConfig) : Prop :=
  ∀ id time, (id, time) ∈ c.shared.recorded → (c.shared.lastUsed.lookup id).isSome → Held c id time

/-- Nothing is held but what was recorded. -/
structure Genuine (w : UsageWorld) : Prop where
  hash : ∀ id time, w.hash.lookup id = some time → (id, time) ∈ w.recorded
  lastUsed : ∀ id time, w.lastUsed.lookup id = some (some time) → (id, time) ∈ w.recorded

def GenuineTaken (w : UsageWorld) (l : UsageLocal) : Prop :=
  ∀ id time, l.taken.lookup id = some time → (id, time) ∈ w.recorded

/-- A step of a use or of a flush, with what it has found. -/
inductive UsageStep (w : UsageWorld) : UsageLocal → UsageAction → UsageWorld → UsageLocal → Prop
  | use (id : Uuid) (time : Int) : UsageStep w .idle (.use id time) w (.stamped id time)
  | hset (id : Uuid) (time : Int) : UsageStep w (.stamped id time) .hset
      { w with hash := w.hash.insert id time, recorded := (id, time) :: w.recorded } .idle
  | flushNothing (hempty : w.hash = ∅) : UsageStep w .idle .flush { w with hash := ∅ } .idle
  | flush : UsageStep w .idle .flush { w with hash := ∅ } (.flushing w.hash [])
  | loseReply : UsageStep w .idle .loseReply { w with hash := ∅ } .idle
  | change {taken : Table Uuid Int} {changed : List Uuid} (id : Uuid) :
      UsageStep w (.flushing taken changed) (.load id) w (.flushing taken (id :: changed))
  | skip {taken : Table Uuid Int} {changed : List Uuid} {id : Uuid} {time : Int}
      (hentry : taken.lookup id = some time) (hnewer : isNewer w.lastUsed id time = false) :
      UsageStep w (.flushing taken changed) (.load id) w (.flushing (taken.erase id) changed)
  | rowError {taken : Table Uuid Int} {changed : List Uuid} (id : Uuid) :
      UsageStep w (.flushing taken changed) (.rowError id) w (.flushing (taken.erase id) changed)
  | commit {taken : Table Uuid Int} {changed : List Uuid} : UsageStep w (.flushing taken changed) .commit
      { w with lastUsed := saveUses taken w.lastUsed } .idle
  | fail {l : UsageLocal} : UsageStep w l .fail w .idle

section

variable {c c' : UsageConfig} {w w' : UsageWorld} {l l' : UsageLocal} {action : UsageAction}
  {move : Nat × UsageAction} {id : Uuid} {time : Int}

theorem usageStep_cases (hstep : usageStep w l action = some (w', l')) : UsageStep w l action w' l' := by
  unfold usageStep at hstep
  split at hstep
  · cases hstep
    exact .use _ _
  · cases hstep
    exact .hset _ _
  · split at hstep
    · next hempty =>
        cases hstep
        have hnothing : w.hash = ∅ := by
          apply AList.ext
          simpa [AList.keys, List.keys] using hempty
        exact .flushNothing hnothing
    · cases hstep
      exact .flush
  · cases hstep
    exact .loseReply
  · obtain ⟨time, hentry, hstep⟩ := Option.bind_eq_some_iff.1 hstep
    split at hstep
    · cases hstep
    · split at hstep
      · cases hstep
        exact .change _
      · next hnewer =>
          cases hstep
          exact .skip hentry (by simpa using hnewer)
  · split at hstep
    · cases hstep
      exact .rowError _
    · cases hstep
  · split at hstep
    · cases hstep
      exact .commit
    · cases hstep
  · cases hstep
    exact .fail
  · cases hstep
    exact .fail
  · cases hstep

theorem isNewer_eq_false (hrow : (w.lastUsed.lookup id).isSome) (hnewer : isNewer w.lastUsed id time = false) :
    ∃ later, w.lastUsed.lookup id = some (some later) ∧ time ≤ later := by
  obtain ⟨current, hlookup⟩ := Option.isSome_iff_exists.1 hrow
  rw [isNewer, hlookup, Option.any_some] at hnewer
  cases current with
  | none => simp at hnewer
  | some later => exact ⟨later, hlookup, by simpa using hnewer⟩

theorem lookup_saveUses (taken : Table Uuid Int) (lastUsed : Table Uuid (Option Int)) (id : Uuid) :
    (saveUses taken lastUsed).lookup id = (lastUsed.lookup id).map ((taken.lookup id).or ·) := by
  rw [saveUses, Table.lookup_map]

theorem lookup_saveUses_entry {taken : Table Uuid Int} {lastUsed : Table Uuid (Option Int)}
    (hrow : (lastUsed.lookup id).isSome) (hentry : taken.lookup id = some time) :
    (saveUses taken lastUsed).lookup id = some (some time) := by
  obtain ⟨current, hcurrent⟩ := Option.isSome_iff_exists.1 hrow
  rw [lookup_saveUses, hcurrent, hentry]
  rfl

theorem UsageStep.lastUsed_isSome (hstep : UsageStep w l action w' l') :
    (w'.lastUsed.lookup id).isSome = (w.lastUsed.lookup id).isSome := by
  cases hstep with
  | commit =>
      show ((saveUses _ w.lastUsed).lookup id).isSome = _
      rw [lookup_saveUses, Option.isSome_map]
  | _ => rfl

theorem UsageStep.recorded_subset (hstep : UsageStep w l action w' l') : w.recorded ⊆ w'.recorded := by
  cases hstep with
  | hset id time => exact List.subset_cons_self _ _
  | _ => exact List.Subset.refl _

theorem saveUses_advances_iff (taken : Table Uuid Int) (lastUsed : Table Uuid (Option Int)) :
    (∀ id time, lastUsed.lookup id = some (some time) →
      ∃ later, (saveUses taken lastUsed).lookup id = some (some later) ∧ time ≤ later) ↔
      ¬ ∃ entry ∈ taken.entries, isOlder lastUsed entry.1 entry.2 = true := by
  constructor
  · rintro hadvances ⟨⟨id, time⟩, hmem, holder⟩
    have hentry : taken.lookup id = some time := Table.lookup_eq_some_iff.2 hmem
    simp only [isOlder, Option.any_eq_true, decide_eq_true_eq] at holder
    obtain ⟨_, hrow, current, rfl, hlt⟩ := holder
    obtain ⟨later, hlater, hle⟩ := hadvances id current hrow
    rw [lookup_saveUses, hrow, hentry] at hlater
    obtain rfl : time = later := by
      simpa using hlater
    omega
  · intro hnone id current hrow
    rw [lookup_saveUses, hrow]
    cases hentry : taken.lookup id with
    | none => exact ⟨current, rfl, Int.le_refl _⟩
    | some time =>
        refine ⟨time, rfl, Int.not_lt.1 fun hlt => hnone ⟨⟨id, time⟩, ?_, ?_⟩⟩
        · exact Table.lookup_eq_some_iff.1 hentry
        · simpa [isOlder, hrow] using hlt

/-- The rows advance in a step exactly when it does not overtake a later time; only a commit writes them. -/
theorem UsageStep.advances_iff (hstep : UsageStep w l action w' l') :
    (∀ id time, w.lastUsed.lookup id = some (some time) →
      ∃ later, w'.lastUsed.lookup id = some (some later) ∧ time ≤ later) ↔ ¬ Overtakes w l action := by
  cases hstep with
  | commit =>
      rw [Overtakes, and_iff_right rfl]
      exact saveUses_advances_iff _ w.lastUsed
  | _ =>
      apply iff_of_true
      · exact fun id time hrow => ⟨time, hrow, Int.le_refl _⟩
      · rintro ⟨haction, -⟩
        cases haction

theorem advances_iff (hnext : usage.next c move = some c') :
    Advances c c' ↔ ¬ Overtakes c.shared (c.locals move.1) move.2 :=
  (usageStep_cases (System.step_of_next hnext)).advances_iff

theorem Genuine.step (hgenuine : Genuine w) (htaken : GenuineTaken w l) (hstep : UsageStep w l action w' l') :
    Genuine w' ∧ GenuineTaken w' l' := by
  have hnone (w : UsageWorld) {l : UsageLocal} (hl : l.taken = ∅) : GenuineTaken w l := by
    intro id time hentry
    simp [hl] at hentry
  have hemptied : Genuine { w with hash := ∅ } := ⟨fun id time hentry => by simp at hentry, hgenuine.lastUsed⟩
  have herase {taken : Table Uuid Int} {changed : List Uuid} (id : Uuid)
      (htaken : GenuineTaken w (.flushing taken changed)) :
      GenuineTaken w (.flushing (taken.erase id) changed) := by
    intro id' time hentry
    have hentry : (AList.erase id taken).lookup id' = some time := hentry
    rw [Table.lookup_erase_eq] at hentry
    split at hentry
    · cases hentry
    · exact htaken id' time hentry
  cases hstep with
  | use id time => exact ⟨hgenuine, hnone w rfl⟩
  | hset id time =>
      refine ⟨⟨fun id' time' hentry => ?_, fun id' time' hrow => ?_⟩, hnone _ rfl⟩
      · have hentry : (AList.insert id time w.hash).lookup id' = some time' := hentry
        rw [Table.lookup_insert_eq] at hentry
        split at hentry
        · next hid =>
            cases hentry
            exact hid ▸ List.mem_cons_self
        · exact List.mem_cons_of_mem _ (hgenuine.hash id' time' hentry)
      · exact List.mem_cons_of_mem _ (hgenuine.lastUsed id' time' hrow)
  | flushNothing hempty => exact ⟨hemptied, hnone _ rfl⟩
  | flush => exact ⟨hemptied, hgenuine.hash⟩
  | loseReply => exact ⟨hemptied, hnone _ rfl⟩
  | change id => exact ⟨hgenuine, htaken⟩
  | skip hentry hnewer => exact ⟨hgenuine, herase _ htaken⟩
  | rowError id => exact ⟨hgenuine, herase _ htaken⟩
  | commit =>
      refine ⟨⟨hgenuine.hash, fun id time hrow => ?_⟩, hnone _ rfl⟩
      rw [lookup_saveUses, Option.map_eq_some_iff] at hrow
      obtain ⟨current, hcurrent, hrow⟩ := hrow
      rw [Option.or_eq_some_iff] at hrow
      obtain hentry | ⟨-, rfl⟩ := hrow
      · exact htaken id time hentry
      · exact hgenuine.lastUsed id time hcurrent
  | fail => exact ⟨hgenuine, hnone w rfl⟩

theorem genuine_next (hgenuine : Asserted Genuine (fun _ => GenuineTaken) c)
    (hnext : usage.next c move = some c') : Asserted Genuine (fun _ => GenuineTaken) c' := by
  have hstep := usageStep_cases (System.step_of_next hnext)
  obtain ⟨hshared, hmover⟩ := hgenuine.shared.step (hgenuine.locals move.1) hstep
  refine Asserted.moved hnext hshared hmover fun q _ id time hentry => ?_
  exact hstep.recorded_subset (hgenuine.locals q id time hentry)

/-- Held by the hash, by the row or by the one process. -/
def HeldBy (w : UsageWorld) (l : UsageLocal) (id : Uuid) (time : Int) : Prop :=
  ∃ later, time ≤ later ∧ (w.hash.lookup id = some later ∨ w.lastUsed.lookup id = some (some later) ∨
    l.taken.lookup id = some later)

theorem held_iff : Held c id time ↔ ∃ p, HeldBy c.shared (c.locals p) id time := by
  constructor
  · rintro ⟨later, hle, hentry | hrow | ⟨p, hentry⟩⟩
    · exact ⟨0, later, hle, .inl hentry⟩
    · exact ⟨0, later, hle, .inr (.inl hrow)⟩
    · exact ⟨p, later, hle, .inr (.inr hentry)⟩
  · rintro ⟨p, later, hle, hentry | hrow | hentry⟩
    · exact ⟨later, hle, .inl hentry⟩
    · exact ⟨later, hle, .inr (.inl hrow)⟩
    · exact ⟨later, hle, .inr (.inr ⟨p, hentry⟩)⟩

theorem HeldBy.of_row {later : Int} (hrow : w.lastUsed.lookup id = some (some later)) (hle : time ≤ later) :
    HeldBy w l id time :=
  ⟨later, hle, .inr (.inl hrow)⟩

theorem HeldBy.of_not_newer {held : Int} (hrow : (w.lastUsed.lookup id).isSome)
    (hnewer : isNewer w.lastUsed id held = false) (hle : time ≤ held) : HeldBy w l id time := by
  obtain ⟨later, hlater, hheld⟩ := isNewer_eq_false hrow hnewer
  exact .of_row hlater (Int.le_trans hle hheld)

theorem UsageStep.holds_hash (hstep : UsageStep w l action w' l') (hrow : (w.lastUsed.lookup id).isSome)
    (hkeeps : ¬ DropsUse w l action) (hhash : w.hash.lookup id = some time) : HeldBy w' l' id time := by
  have hsame {w' : UsageWorld} {l' : UsageLocal} (hhash : w'.hash.lookup id = some time) : HeldBy w' l' id time :=
    ⟨time, Int.le_refl _, .inl hhash⟩
  cases hstep with
  | hset id' time' =>
      by_cases hid : id = id'
      · subst hid
        have hwritten : (AList.insert id time' w.hash).lookup id = some time' := AList.lookup_insert _
        by_cases hlt : time' < time
        · have hnewer : isNewer w.lastUsed id time = false := by
            simpa [DropsUse, hhash, hlt] using hkeeps
          exact .of_not_newer hrow hnewer (Int.le_refl _)
        · exact ⟨time', Int.not_lt.1 hlt, .inl hwritten⟩
      · have hkept : (AList.insert id' time' w.hash).lookup id = some time := by
          rw [Table.lookup_insert_eq, if_neg hid]
          exact hhash
        exact hsame hkept
  | flushNothing hempty => simp [hempty] at hhash
  | flush => exact ⟨time, Int.le_refl _, .inr (.inr hhash)⟩
  | loseReply =>
      have hnewer : isNewer w.lastUsed id time = false := by
        rw [← Bool.not_eq_true]
        exact fun hnewer => hkeeps ⟨⟨id, time⟩, Table.lookup_eq_some_iff.1 hhash, hnewer⟩
      exact .of_not_newer hrow hnewer (Int.le_refl _)
  | use id' time' => exact hsame hhash
  | change id' => exact hsame hhash
  | skip hentry hnewer => exact hsame hhash
  | rowError id' => exact hsame hhash
  | commit => exact hsame hhash
  | fail => exact hsame hhash

theorem HeldBy.of_erased {taken : Table Uuid Int} {changed : List Uuid} {id' : Uuid}
    (hrow : (w.lastUsed.lookup id).isSome) (hentry : taken.lookup id = some time)
    (herased : ∀ time, taken.lookup id' = some time → isNewer w.lastUsed id' time = false) :
    HeldBy w (.flushing (taken.erase id') changed) id time := by
  by_cases hid : id = id'
  · subst hid
    exact .of_not_newer hrow (herased time hentry) (Int.le_refl _)
  · have hkept : (AList.erase id' taken).lookup id = some time := by
      rw [Table.lookup_erase_eq, if_neg hid]
      exact hentry
    exact ⟨time, Int.le_refl _, .inr (.inr hkept)⟩

theorem UsageStep.holds_taken (hstep : UsageStep w l action w' l') (hrow : (w.lastUsed.lookup id).isSome)
    (hkeeps : ¬ DropsUse w l action) (hentry : l.taken.lookup id = some time) : HeldBy w' l' id time := by
  cases hstep with
  | change id' => exact ⟨time, Int.le_refl _, .inr (.inr hentry)⟩
  | skip hskipped hnewer =>
      refine HeldBy.of_erased hrow hentry fun time hskipped' => ?_
      obtain rfl := Option.some.inj (hskipped.symm.trans hskipped')
      exact hnewer
  | rowError id' =>
      refine HeldBy.of_erased hrow hentry fun time herror => ?_
      simpa [DropsUse, UsageLocal.taken, herror] using hkeeps
  | commit => exact .of_row (lookup_saveUses_entry hrow hentry) (Int.le_refl _)
  | fail =>
      have hnewer : isNewer w.lastUsed id time = false := by
        rw [← Bool.not_eq_true]
        exact fun hnewer => hkeeps ⟨⟨id, time⟩, Table.lookup_eq_some_iff.1 hentry, hnewer⟩
      exact .of_not_newer hrow hnewer (Int.le_refl _)
  | _ => cases hentry

theorem HeldBy.mono {later : Int} (hheld : HeldBy w l id later) (hle : time ≤ later) : HeldBy w l id time := by
  obtain ⟨latest, hlatest, hby⟩ := hheld
  exact ⟨latest, Int.le_trans hle hlatest, hby⟩

/-- A time that is held stays held, unless the step drops or overtakes it. -/
theorem HeldBy.step (hheld : HeldBy w l id time) (hstep : UsageStep w l action w' l')
    (hrow : (w.lastUsed.lookup id).isSome) (hkeeps : ¬ DropsUse w l action)
    (hovertakes : ¬ Overtakes w l action) : HeldBy w' l' id time := by
  obtain ⟨later, hle, hhash | hlater | hentry⟩ := hheld
  · exact (hstep.holds_hash hrow hkeeps hhash).mono hle
  · obtain ⟨latest, hlatest, hle'⟩ := hstep.advances_iff.2 hovertakes id later hlater
    exact .of_row hlatest (Int.le_trans hle hle')
  · exact (hstep.holds_taken hrow hkeeps hentry).mono hle

theorem UsageStep.mem_recorded (hstep : UsageStep w l action w' l') (hmem : (id, time) ∈ w'.recorded) :
    (id, time) ∈ w.recorded ∨ w'.hash.lookup id = some time := by
  cases hstep with
  | hset id' time' =>
      obtain heq | hmem := List.mem_cons.1 hmem
      · cases heq
        exact .inr (AList.lookup_insert _)
      · exact .inl hmem
  | _ => exact .inl hmem

theorem allHeld_next (hheld : AllHeld c) (hnext : usage.next c move = some c')
    (hkeeps : ¬ DropsUse c.shared (c.locals move.1) move.2)
    (hovertakes : ¬ Overtakes c.shared (c.locals move.1) move.2) : AllHeld c' := by
  have hstep := usageStep_cases (System.step_of_next hnext)
  intro id time hmem hrow
  rw [hstep.lastUsed_isSome] at hrow
  obtain hmem | hhash := hstep.mem_recorded hmem
  · by_cases hmover : HeldBy c.shared (c.locals move.1) id time
    · exact held_iff.2 ⟨move.1, hmover.step hstep hrow hkeeps hovertakes⟩
    · obtain ⟨q, later, hle, hhash | hlater | hentry⟩ := held_iff.1 (hheld id time hmem hrow)
      · exact absurd ⟨later, hle, .inl hhash⟩ hmover
      · exact absurd (.of_row hlater hle) hmover
      · have hq : q ≠ move.1 := fun hq => hmover ⟨later, hle, .inr (.inr (hq ▸ hentry))⟩
        obtain ⟨s', l', -, rfl⟩ := System.next_eq_some.1 hnext
        refine ⟨later, hle, .inr (.inr ⟨q, ?_⟩)⟩
        show (Function.update c.locals move.1 l' q).taken.lookup id = some later
        rw [Function.update_of_ne hq]
        exact hentry
  · exact ⟨time, Int.le_refl _, .inl hhash⟩

theorem Unused.genuine (hunused : Unused c) : Asserted Genuine (fun _ => GenuineTaken) c := by
  refine ⟨⟨fun id time hentry => ?_, fun id time hrow => ?_⟩, fun p id time hentry => ?_⟩
  · simp [hunused.hash] at hentry
  · simpa using hunused.lastUsed id _ hrow
  · simp [hunused.idle, UsageLocal.taken] at hentry

theorem Unused.allHeld (hunused : Unused c) : AllHeld c := by
  intro id time hmem
  simp [hunused.recorded] at hmem

theorem greatest_eq_some_iff {recorded : List (Uuid × Int)} :
    greatest recorded id = some time ↔
      (id, time) ∈ recorded ∧ ∀ earlier, (id, earlier) ∈ recorded → earlier ≤ time := by
  rw [greatest, List.max?_eq_some_iff]
  have hmem (time : Int) : time ∈ (recorded.filter (·.1 = id)).map Prod.snd ↔ (id, time) ∈ recorded := by
    simp only [List.mem_map, List.mem_filter, decide_eq_true_eq, Prod.exists]
    constructor
    · rintro ⟨id', time', ⟨hmem, rfl⟩, rfl⟩
      exact hmem
    · intro hmem
      exact ⟨id, time, ⟨hmem, rfl⟩, rfl⟩
  simp only [hmem]

theorem greatest_eq_none {recorded : List (Uuid × Int)} (hnone : ∀ time, (id, time) ∉ recorded) :
    greatest recorded id = none := by
  cases hgreatest : greatest recorded id with
  | none => rfl
  | some time => exact absurd (greatest_eq_some_iff.1 hgreatest).1 (hnone time)

/-- While nothing is in the hash and nothing is in progress, only the rows hold the uses. -/
theorem lastUsed_eq_greatest (hgenuine : Asserted Genuine (fun _ => GenuineTaken) c) (hheld : AllHeld c)
    (hhash : c.shared.hash = ∅) (hidle : ∀ p, c.locals p = .idle) {current : Option Int}
    (hrow : c.shared.lastUsed.lookup id = some current) : current = greatest c.shared.recorded id := by
  have hrows {time : Int} (hmem : (id, time) ∈ c.shared.recorded) :
      ∃ later, current = some later ∧ time ≤ later := by
    obtain ⟨later, hle, hentry | hlater | ⟨p, hentry⟩⟩ := hheld id time hmem (by simp [hrow])
    · simp [hhash] at hentry
    · exact ⟨later, Option.some.inj (hrow.symm.trans hlater), hle⟩
    · simp [hidle, UsageLocal.taken] at hentry
  symm
  cases current with
  | none =>
      apply greatest_eq_none
      intro time hmem
      obtain ⟨later, hnone, -⟩ := hrows hmem
      cases hnone
  | some time =>
      refine greatest_eq_some_iff.2 ⟨hgenuine.shared.lastUsed id time hrow, fun earlier hmem => ?_⟩
      obtain ⟨later, heq, hle⟩ := hrows hmem
      cases heq
      exact hle

theorem UsageStep.hash_eq (hstep : UsageStep w l action w' l')
    (hflush : action = .commit ∨ ∃ id, action = .load id ∨ action = .rowError id) : w'.hash = w.hash := by
  cases hstep with
  | hset id time => simp at hflush
  | flushNothing hempty => simp at hflush
  | flush => simp at hflush
  | loseReply => simp at hflush
  | _ => rfl

theorem idle_of_run {moves : List (Nat × UsageAction)} (hidle : ∀ q, c.locals q = .idle)
    (hrun : usage.run c moves = some c') (hdone : ∀ move ∈ moves, c'.locals move.1 = .idle) (q : Nat) :
    c'.locals q = .idle := by
  by_cases hmoves : ∀ move ∈ moves, move.1 ≠ q
  · rw [System.run_locals_of_ne hmoves hrun, hidle]
  · obtain ⟨move, hmem, hq⟩ : ∃ move ∈ moves, move.1 = q := by
      simpa using hmoves
    rw [← hq]
    exact hdone move hmem

theorem QuietFlush.settles {p : Nat} {moves : List (Nat × UsageAction)} (hquiet : QuietFlush c p moves)
    (hrun : usage.run c moves = some c') (hdone : c'.locals p = .idle) :
    c'.shared.hash = ∅ ∧ ∀ q, c'.locals q = .idle := by
  obtain ⟨rest, rfl⟩ := List.head?_eq_some_iff.1 hquiet.starts
  have hmoves : ∀ move ∈ rest, move.1 = p ∧
      (move.2 = .commit ∨ ∃ id, move.2 = .load id ∨ move.2 = .rowError id) := hquiet.alone
  constructor
  · obtain ⟨c₁, hnext, hrest⟩ := System.run_cons.1 hrun
    have hemptied : c₁.shared.hash = ∅ := by
      have hstep := usageStep_cases (System.step_of_next hnext)
      generalize c.locals (p, UsageAction.flush).1 = l, c₁.locals (p, UsageAction.flush).1 = l',
        c₁.shared = w' at hstep ⊢
      cases hstep with
      | flushNothing => rfl
      | flush => rfl
    clear hrun hquiet hnext hdone
    induction rest generalizing c₁ with
    | nil =>
        obtain rfl := Option.some.inj hrest
        exact hemptied
    | cons move rest ih =>
        obtain ⟨c₂, hnext, hrest⟩ := System.run_cons.1 hrest
        have hstep := usageStep_cases (System.step_of_next hnext)
        have hkept := hstep.hash_eq (hmoves move List.mem_cons_self).2
        exact ih (fun move hmem => hmoves move (List.mem_cons_of_mem _ hmem)) c₂ hrest (hkept.trans hemptied)
  · refine idle_of_run hquiet.idle hrun fun move hmem => ?_
    obtain rfl | hmem := List.mem_cons.1 hmem
    · exact hdone
    · rw [(hmoves move hmem).1]
      exact hdone

theorem advances_along_iff (c : UsageConfig) (schedule : List (Nat × UsageAction)) :
    usage.Along (fun c _ c' => Advances c c') c schedule ↔
      usage.Along (fun c move _ => ¬ Overtakes c.shared (c.locals move.1) move.2) c schedule := by
  have hiff (c : UsageConfig) (move : Nat × UsageAction) (c' : UsageConfig) :
      True → usage.next c move = some c' → (Advances c c' ↔ ¬ Overtakes c.shared (c.locals move.1) move.2) :=
    fun _ hnext => advances_iff hnext
  exact System.along_iff hiff (fun _ _ _ _ _ _ => trivial) schedule trivial

/-- The last uses advance exactly as far as no commit overtakes a later one; where nothing is dropped either,
a flush that is alone brings them to the greatest time that was recorded. -/
theorem last_used_kept (hunused : Unused c) (schedule : List (Nat × UsageAction)) :
    (usage.Along (fun c _ c' => Advances c c') c schedule ↔
      usage.Along (fun c move _ => ¬ Overtakes c.shared (c.locals move.1) move.2) c schedule) ∧
    (usage.Along (fun c move _ => ¬ DropsUse c.shared (c.locals move.1) move.2 ∧
        ¬ Overtakes c.shared (c.locals move.1) move.2) c schedule →
      ∀ before moves c₁ c' p, schedule = before ++ moves → usage.run c before = some c₁ →
        QuietFlush c₁ p moves → usage.run c₁ moves = some c' → c'.locals p = .idle →
          ∀ id current, c'.shared.lastUsed.lookup id = some current →
            current = greatest c'.shared.recorded id) := by
  refine ⟨advances_along_iff c schedule, ?_⟩
  rintro hkeeps before moves c₁ c' p rfl hbefore hquiet hrun hdone id current hrow
  have hrun' : usage.run c (before ++ moves) = some c' := System.run_append.2 ⟨c₁, hbefore, hrun⟩
  have hgenuine := System.run_keeps (fun c move c' hgenuine hnext => genuine_next hgenuine hnext)
    hunused.genuine hrun'
  have hheld : AllHeld c' := by
    refine System.run_invariant (fun c move c' hheld hnext hok => ?_) hunused.allHeld hkeeps hrun'
    exact allHeld_next hheld hnext hok.1 hok.2
  obtain ⟨hhash, hidle⟩ := hquiet.settles hrun hdone
  exact lastUsed_eq_greatest hgenuine hheld hhash hidle hrow

end

def firstKey : Uuid := ⟨41, by decide⟩

def secondKey : Uuid := ⟨42, by decide⟩

/-- Two keys that have not been used. -/
def unusedKeys : UsageConfig where
  shared := { lastUsed := (AList.insert firstKey none ∅).insert secondKey none }
  locals _ := .idle

theorem unusedKeys_unused : Unused unusedKeys := by
  refine ⟨rfl, fun id current hrow => ?_, rfl, fun _ => rfl⟩
  simp only [unusedKeys, Table.lookup_insert_eq] at hrow
  split at hrow
  · exact (Option.some.inj hrow).symm
  · split at hrow
    · exact (Option.some.inj hrow).symm
    · simp at hrow

def twoUses : List (Nat × UsageAction) :=
  [(0, .use firstKey 1), (1, .use firstKey 5), (0, .hset), (1, .hset)]

def lastFlush : List (Nat × UsageAction) :=
  [(2, .flush), (2, .load firstKey), (2, .commit)]

theorem last_used_kept_twoUses :
    usage.Along (fun c _ c' => Advances c c') unusedKeys (twoUses ++ lastFlush) ∧
      ∃ c', usage.run unusedKeys (twoUses ++ lastFlush) = some c' ∧
        greatest c'.shared.recorded firstKey = some 5 ∧
        c'.shared.lastUsed.lookup firstKey = some (some 5) := by
  obtain ⟨hadvances, hgreatest⟩ := last_used_kept unusedKeys_unused (twoUses ++ lastFlush)
  refine ⟨hadvances.2 (by decide +kernel), ?_⟩
  have huses : ((usage.run unusedKeys twoUses).map fun c => (c.locals 0, c.locals 1)) = some (.idle, .idle) := by
    decide +kernel
  obtain ⟨c₁, hbefore, hstate⟩ := Option.map_eq_some_iff.1 huses
  obtain ⟨hfirst, hsecond⟩ := Prod.mk.inj hstate
  have hquiet : QuietFlush c₁ 2 lastFlush := by
    refine ⟨idle_of_run (fun _ => rfl) hbefore ?_, rfl, ?_⟩
    · simp [twoUses, hfirst, hsecond]
    · simp [lastFlush]
  have hflush : ((usage.run unusedKeys (twoUses ++ lastFlush)).map fun c =>
      (c.locals 2, c.shared.recorded, (c.shared.lastUsed.lookup firstKey).isSome)) =
        some (.idle, [(firstKey, 5), (firstKey, 1)], true) := by
    decide +kernel
  obtain ⟨c', hrun, hstate⟩ := Option.map_eq_some_iff.1 hflush
  obtain ⟨hdone, hstate⟩ := Prod.mk.inj hstate
  obtain ⟨hrecorded, hstored⟩ := Prod.mk.inj hstate
  obtain ⟨current, hrow⟩ := Option.isSome_iff_exists.1 hstored
  have hfive : greatest c'.shared.recorded firstKey = some 5 := by
    rw [hrecorded]
    decide +kernel
  have hlast : usage.run c₁ lastFlush = some c' := by
    obtain ⟨c₂, hbefore', hlast⟩ := System.run_append.1 hrun
    obtain rfl := Option.some.inj (hbefore.symm.trans hbefore')
    exact hlast
  have hcurrent := hgreatest (by decide +kernel) twoUses lastFlush c₁ c' 2 rfl hbefore hquiet hlast hdone _ _ hrow
  exact ⟨c', hrun, hfive, by rw [hrow, hcurrent, hfive]⟩

/-- The flush that has taken the earlier use commits it over the later one. -/
def overtakenFlush : List (Nat × UsageAction) :=
  [(0, .use firstKey 1), (0, .hset), (1, .flush), (0, .use firstKey 2), (0, .hset), (2, .flush),
    (1, .load firstKey), (2, .load firstKey), (2, .commit), (1, .commit)]

/-- A use that is lost with the flush that has taken it, and the use of another key. -/
def failedFlush : List (Nat × UsageAction) :=
  [(0, .use firstKey 1), (0, .hset), (1, .flush), (1, .load firstKey), (1, .fail), (0, .use secondKey 2), (0, .hset)]

def flushAfterwards : List (Nat × UsageAction) :=
  [(1, .flush), (1, .load secondKey), (1, .commit)]

theorem last_uses_lost :
    (Unused unusedKeys ∧ ¬ usage.Along (fun c _ c' => Advances c c') unusedKeys overtakenFlush) ∧
      ∃ c₁ c', usage.run unusedKeys failedFlush = some c₁ ∧ QuietFlush c₁ 1 flushAfterwards ∧
        usage.run c₁ flushAfterwards = some c' ∧ c'.locals 1 = .idle ∧
        c'.shared.lastUsed.lookup firstKey = some none ∧ greatest c'.shared.recorded firstKey = some 1 := by
  refine ⟨⟨unusedKeys_unused, ?_⟩, ?_⟩
  · rw [advances_along_iff]
    decide +kernel
  · have hlost : ((usage.run unusedKeys failedFlush).map fun c => (c.locals 0, c.locals 1)) =
        some (.idle, .idle) := by
      decide +kernel
    obtain ⟨c₁, hbefore, hstate⟩ := Option.map_eq_some_iff.1 hlost
    obtain ⟨hfirst, hsecond⟩ := Prod.mk.inj hstate
    have hafter : (((usage.run unusedKeys failedFlush).bind fun c => usage.run c flushAfterwards).map fun c =>
        (c.locals 1, c.shared.lastUsed.lookup firstKey, greatest c.shared.recorded firstKey)) =
          some (.idle, some none, some 1) := by
      decide +kernel
    rw [hbefore, Option.bind_some, Option.map_eq_some_iff] at hafter
    obtain ⟨c', hrun, hstate⟩ := hafter
    obtain ⟨hdone, hstate⟩ := Prod.mk.inj hstate
    obtain ⟨hrow, hgreatest⟩ := Prod.mk.inj hstate
    refine ⟨c₁, c', hbefore, ⟨idle_of_run (fun _ => rfl) hbefore ?_, rfl, ?_⟩, hrun, hdone, hrow, hgreatest⟩
    · simp [failedFlush, hfirst, hsecond]
    · simp [flushAfterwards]

end FaAuthM8

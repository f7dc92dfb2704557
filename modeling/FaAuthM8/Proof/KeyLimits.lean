import FaAuthM8.Services.ApiKeys

/-!
# The limits of a key

For each period the limit of the first row of the key is taken, or else of the first row found. The rows found
are those of the key and those of its owner, and a row may name both a user and a key: one that binds another
key of the owner is found too, and governs this key wherever it has no row of its own.
-/

namespace FaAuthM8

/-- No two rows agree on the period and on a column that is not null. -/
def UniquePerPeriod {γ : Type} (column : RateLimit → Option γ) (rows : List RateLimit) : Prop :=
  rows.Pairwise fun a b => column a ≠ none → column a = column b → a.period ≠ b.period

/-- The rows of the table, under its constraints. -/
structure RateLimitRows where
  rows : List RateLimit
  hasOwner : ∀ row ∈ rows, row.apiKeyId ≠ none ∨ row.userId ≠ none
  apiKeyPeriod : UniquePerPeriod RateLimit.apiKeyId rows
  userPeriod : UniquePerPeriod RateLimit.userId rows

theorem UniquePerPeriod.eq_of_eq {γ : Type} {column : RateLimit → Option γ} {rows : List RateLimit}
    (hunique : UniquePerPeriod column rows) {a b : RateLimit} (ha : a ∈ rows) (hb : b ∈ rows) {value : γ}
    (hvalue : column a = some value) (hvalue' : column b = some value) (hperiod : a.period = b.period) :
    a = b := by
  by_contra hne
  have hsymm : Std.Symm fun a b : RateLimit => column a ≠ none → column a = column b → a.period ≠ b.period :=
    ⟨fun a b hab hnone heq => (hab (heq ▸ hnone) heq.symm).symm⟩
  have hdistinct := List.Pairwise.forall hunique ha hb hne
  exact hdistinct (by simp [hvalue]) (by rw [hvalue, hvalue']) hperiod

/-- The row governs the key in the period: it is bound to the key, or no row is and it is the default of the
owner. -/
def Governs (rows : List RateLimit) (apiKeyId : Uuid) (userId : UserId) (period : Period)
    (row : RateLimit) : Prop :=
  row ∈ rows ∧ row.period = period ∧
    (row.apiKeyId = some apiKeyId ∨
      (∀ other ∈ rows, other.period = period → other.apiKeyId ≠ some apiKeyId) ∧
        row.apiKeyId = none ∧ row.userId = some userId)

/-- The limits are, in the order of the periods, those of the rows that govern the key. -/
structure ResolvesLimits (rows : List RateLimit) (apiKeyId : Uuid) (userId : UserId)
    (limits : List (Period × Nat)) : Prop where
  ordered : (limits.map Prod.fst).Sublist ApiKeyService.PERIOD_ORDER
  governed : ∀ period limit, (period, limit) ∈ limits ↔
    ∃ row, Governs rows apiKeyId userId period row ∧ row.limit = limit

/-- The row is the owner's and bound to another key, and this key has no row for its period. -/
def BoundElsewhere (rows : List RateLimit) (apiKeyId : Uuid) (userId : UserId) (row : RateLimit) : Prop :=
  row.userId = some userId ∧ row.apiKeyId ≠ none ∧
    ∀ other ∈ rows, other.period = row.period → other.apiKeyId ≠ some apiKeyId

namespace ApiKeyService

variable {apiKeyId : Uuid} {userId : UserId} {rows : List RateLimit} {period : Period} {limit : Nat}

theorem resolveRow_apply (resolved : Resolved) (row : RateLimit) (period : Period) :
    resolveRow apiKeyId resolved row period =
      if row.period = period ∧
          (resolved period = none ∨
            row.apiKeyId = some apiKeyId ∧ ∃ found, resolved period = some found ∧ found.2 = false) then
        some (row.limit, row.apiKeyId == some apiKeyId)
      else resolved period := by
  simp only [resolveRow]
  by_cases hperiod : row.period = period
  · subst hperiod
    cases hfound : resolved row.period with
    | none => simp
    | some found => cases hown : found.2 <;> by_cases hkey : row.apiKeyId = some apiKeyId <;> simp [hkey, hown, hfound]
  · cases hfound : resolved row.period with
    | none => simp [hperiod, Function.update_of_ne (Ne.symm hperiod)]
    | some found =>
        simp only [hperiod, false_and, if_false]
        split
        · exact Function.update_of_ne (Ne.symm hperiod) _ _
        · rfl

/-- What the loop finds for a period: the first row of the key, or else the first row. -/
theorem resolve_eq (rows : List RateLimit) (period : Period) :
    rows.foldl (resolveRow apiKeyId) (fun _ => none) period =
      ((rows.find? fun row => row.period = period ∧ row.apiKeyId = some apiKeyId).or
        (rows.find? fun row => row.period = period)).map
          fun row => (row.limit, row.apiKeyId == some apiKeyId) := by
  induction rows using List.reverseRecOn with
  | nil => rfl
  | append_singleton rows row ih =>
      rw [List.foldl_concat, resolveRow_apply, ih, List.find?_append, List.find?_append]
      by_cases hperiod : row.period = period
      · cases hkeyRow : rows.find? fun row => row.period = period ∧ row.apiKeyId = some apiKeyId with
        | some found =>
            have hfound := List.find?_some hkeyRow
            simp only [decide_eq_true_eq] at hfound
            simp [hperiod, hfound.2]
        | none =>
            cases hrow : rows.find? fun row => row.period = period with
            | none => by_cases hkey : row.apiKeyId = some apiKeyId <;> simp [hperiod, hkey]
            | some found =>
                have hother : found.apiKeyId ≠ some apiKeyId := by
                  intro hkey
                  have hnone := List.find?_eq_none.1 hkeyRow found (List.mem_of_find?_eq_some hrow)
                  have hfound := List.find?_some hrow
                  simp_all
                by_cases hkey : row.apiKeyId = some apiKeyId <;> simp [hperiod, hkey, hother]
      · simp [hperiod]

def limitRow (rows : List RateLimit) (apiKeyId : Uuid) (userId : UserId) (period : Period) :
    Option RateLimit :=
  let found := rows.filter fun row => row.apiKeyId == some apiKeyId || row.userId == some userId
  (found.find? fun row => row.period = period ∧ row.apiKeyId = some apiKeyId).or
    (found.find? fun row => row.period = period)

theorem getLimits_eq (db : ApiKeyDb) (apiKeyId : Uuid) (userId : UserId) :
    getLimits db apiKeyId userId = PERIOD_ORDER.filterMap fun period =>
      (limitRow db.rateLimits apiKeyId userId period).map fun row => (period, row.limit) := by
  rw [getLimits]
  apply List.filterMap_congr
  intro period _
  rw [resolve_eq, Option.map_map]
  rfl

theorem mem_getLimits {db : ApiKeyDb} : (period, limit) ∈ getLimits db apiKeyId userId ↔
    ∃ row, limitRow db.rateLimits apiKeyId userId period = some row ∧ row.limit = limit := by
  have hmem : period ∈ PERIOD_ORDER := by cases period <;> decide
  simp only [getLimits_eq, List.mem_filterMap, Option.map_eq_some_iff, Prod.mk.injEq]
  constructor
  · rintro ⟨_, -, row, hrow, rfl, hlimit⟩
    exact ⟨row, hrow, hlimit⟩
  · rintro ⟨row, hrow, hlimit⟩
    exact ⟨period, hmem, row, hrow, rfl, hlimit⟩

theorem getLimits_ordered (db : ApiKeyDb) (apiKeyId : Uuid) (userId : UserId) :
    ((getLimits db apiKeyId userId).map Prod.fst).Sublist PERIOD_ORDER := by
  rw [getLimits_eq, List.map_filterMap]
  have hkept : (fun period => ((limitRow db.rateLimits apiKeyId userId period).map
      fun row => (period, row.limit)).map Prod.fst) =
        Option.guard fun period => (limitRow db.rateLimits apiKeyId userId period).isSome := by
    funext period
    cases hrow : limitRow db.rateLimits apiKeyId userId period <;> simp [Option.guard, hrow]
  rw [hkept, List.filterMap_eq_filter]
  exact List.filter_sublist

theorem find_key_none : (rows.filter fun row => row.apiKeyId == some apiKeyId || row.userId == some userId).find?
      (fun row => row.period = period ∧ row.apiKeyId = some apiKeyId) = none ↔
    ∀ other ∈ rows, other.period = period → other.apiKeyId ≠ some apiKeyId := by
  simp only [List.find?_eq_none, List.mem_filter, Bool.or_eq_true, beq_iff_eq, decide_eq_true_eq]
  constructor
  · intro hnone other hother hperiod hkey
    exact hnone other ⟨hother, .inl hkey⟩ ⟨hperiod, hkey⟩
  · rintro hnone other ⟨hother, -⟩ ⟨hperiod, hkey⟩
    exact hnone other hother hperiod hkey

theorem find_key_some {row : RateLimit}
    (hrow : (rows.filter fun row => row.apiKeyId == some apiKeyId || row.userId == some userId).find?
      (fun row => row.period = period ∧ row.apiKeyId = some apiKeyId) = some row) :
    row ∈ rows ∧ row.period = period ∧ row.apiKeyId = some apiKeyId := by
  have hmem := (List.mem_filter.1 (List.mem_of_find?_eq_some hrow)).1
  have hfound := List.find?_some hrow
  simp only [decide_eq_true_eq] at hfound
  exact ⟨hmem, hfound⟩

theorem limitRow_eq_some (table : RateLimitRows) {row : RateLimit} :
    limitRow table.rows apiKeyId userId period = some row ↔
      row ∈ table.rows ∧ row.period = period ∧ (row.apiKeyId = some apiKeyId ∨
        row.userId = some userId ∧
          ∀ other ∈ table.rows, other.period = period → other.apiKeyId ≠ some apiKeyId) := by
  simp only [limitRow]
  cases hkeyRow : (table.rows.filter fun row => row.apiKeyId == some apiKeyId || row.userId == some userId).find?
      (fun row => row.period = period ∧ row.apiKeyId = some apiKeyId) with
  | some found =>
      obtain ⟨hfound, hfoundPeriod, hfoundKey⟩ := find_key_some hkeyRow
      rw [Option.some_or, Option.some.injEq]
      constructor
      · rintro rfl
        exact ⟨hfound, hfoundPeriod, .inl hfoundKey⟩
      · rintro ⟨hrow, hperiod, hkey | ⟨-, hnone⟩⟩
        · exact table.apiKeyPeriod.eq_of_eq hfound hrow hfoundKey hkey (hfoundPeriod.trans hperiod.symm)
        · exact absurd hfoundKey (hnone found hfound hfoundPeriod)
  | none =>
      have hnone := find_key_none.1 hkeyRow
      rw [Option.none_or]
      constructor
      · intro hrow
        obtain ⟨hmem, hmatch⟩ := List.mem_filter.1 (List.mem_of_find?_eq_some hrow)
        have hperiod : row.period = period := by simpa using List.find?_some hrow
        have hother := hnone row hmem hperiod
        exact ⟨hmem, hperiod, .inr ⟨by simpa [hother] using hmatch, hnone⟩⟩
      · rintro ⟨hrow, hperiod, hkey | ⟨huser, -⟩⟩
        · exact absurd hkey (hnone row hrow hperiod)
        · have hmatch : row ∈ table.rows.filter fun row =>
              row.apiKeyId == some apiKeyId || row.userId == some userId :=
            List.mem_filter.2 ⟨hrow, by simp [huser]⟩
          cases hfirst : (table.rows.filter fun row =>
              row.apiKeyId == some apiKeyId || row.userId == some userId).find? (fun row => row.period = period) with
          | none => exact absurd (by simpa using hperiod) (List.find?_eq_none.1 hfirst row hmatch)
          | some found =>
              obtain ⟨hfound, hfoundMatch⟩ := List.mem_filter.1 (List.mem_of_find?_eq_some hfirst)
              have hfoundPeriod : found.period = period := by simpa using List.find?_some hfirst
              have hother := hnone found hfound hfoundPeriod
              have hfoundUser : found.userId = some userId := by simpa [hother] using hfoundMatch
              rw [table.userPeriod.eq_of_eq hfound hrow hfoundUser huser (hfoundPeriod.trans hperiod.symm)]

end ApiKeyService

/-- The table read in another order. -/
def RateLimitRows.reorder (table : RateLimitRows) {rows : List RateLimit} (hperm : rows.Perm table.rows) :
    RateLimitRows where
  rows := rows
  hasOwner row hrow := table.hasOwner row (hperm.mem_iff.1 hrow)
  apiKeyPeriod := table.apiKeyPeriod.perm hperm.symm fun hab hnone heq => (hab (heq ▸ hnone) heq.symm).symm
  userPeriod := table.userPeriod.perm hperm.symm fun hab hnone heq => (hab (heq ▸ hnone) heq.symm).symm

theorem limitRow_perm (table : RateLimitRows) {rows : List RateLimit} (hperm : rows.Perm table.rows)
    (apiKeyId : Uuid) (userId : UserId) (period : Period) :
    ApiKeyService.limitRow rows apiKeyId userId period =
      ApiKeyService.limitRow table.rows apiKeyId userId period := by
  ext row
  have hreordered : ApiKeyService.limitRow rows apiKeyId userId period = some row ↔ _ :=
    ApiKeyService.limitRow_eq_some (table.reorder hperm)
  have hmem (row : RateLimit) : row ∈ (table.reorder hperm).rows ↔ row ∈ table.rows := hperm.mem_iff
  simp only [hmem] at hreordered
  exact hreordered.trans (ApiKeyService.limitRow_eq_some table).symm

/-- In whatever order the rows are read, the limits are the same; and they are those of the rows that govern
the key exactly when no row of its owner binds another key for a period in which this key has none. -/
theorem getLimits_resolves_iff (table : RateLimitRows) (db : ApiKeyDb) (apiKeyId : Uuid) (userId : UserId) :
    (∀ rows, rows.Perm table.rows →
      ApiKeyService.getLimits { db with rateLimits := rows } apiKeyId userId =
        ApiKeyService.getLimits { db with rateLimits := table.rows } apiKeyId userId) ∧
      (ResolvesLimits table.rows apiKeyId userId
          (ApiKeyService.getLimits { db with rateLimits := table.rows } apiKeyId userId) ↔
        ∀ row ∈ table.rows, ¬ BoundElsewhere table.rows apiKeyId userId row) := by
  refine ⟨fun rows hperm => ?_, ?_⟩
  · simp only [ApiKeyService.getLimits_eq, limitRow_perm table hperm]
  · constructor
    · rintro hresolves row hrow ⟨huser, hbound, hnone⟩
      have hpicked : ApiKeyService.limitRow table.rows apiKeyId userId row.period = some row :=
        (ApiKeyService.limitRow_eq_some table).2 ⟨hrow, rfl, .inr ⟨huser, hnone⟩⟩
      obtain ⟨governor, ⟨hgovernor, hperiod, hkey | ⟨-, hunbound, huser'⟩⟩, -⟩ :=
        (hresolves.governed row.period row.limit).1 (ApiKeyService.mem_getLimits.2 ⟨row, hpicked, rfl⟩)
      · exact hnone governor hgovernor hperiod hkey
      · rw [table.userPeriod.eq_of_eq hrow hgovernor huser huser' hperiod.symm] at hbound
        exact hbound hunbound
    · intro hnowhere
      refine ⟨ApiKeyService.getLimits_ordered _ _ _, fun period limit => ?_⟩
      rw [ApiKeyService.mem_getLimits]
      refine exists_congr fun row => and_congr_left fun _ => ?_
      rw [ApiKeyService.limitRow_eq_some table, Governs]
      refine and_congr_right fun hrow => and_congr_right fun hperiod => or_congr_right ?_
      constructor
      · rintro ⟨huser, hnone⟩
        refine ⟨hnone, ?_, huser⟩
        by_contra hbound
        exact hnowhere row hrow ⟨huser, hbound, fun other hother heq => hnone other hother (heq.trans hperiod)⟩
      · rintro ⟨hnone, -, huser⟩
        exact ⟨huser, hnone⟩

/-- A row that sets the limit of another key of the same owner. -/
def otherKeyLimit : RateLimit where
  apiKeyId := some ⟨2, by decide⟩
  userId := some 7
  period := .minute
  limit := 1

/-- A key without limits of its own gets those of another key of its owner. -/
theorem other_key_governs :
    ∃ table : RateLimitRows, table.rows = [otherKeyLimit] ∧
      ApiKeyService.getLimits { rateLimits := table.rows } ⟨1, by decide⟩ 7 = [(.minute, 1)] ∧
      (∀ row ∈ table.rows, ¬ Governs table.rows ⟨1, by decide⟩ 7 .minute row) ∧
      ¬ ResolvesLimits table.rows ⟨1, by decide⟩ 7
        (ApiKeyService.getLimits { rateLimits := table.rows } ⟨1, by decide⟩ 7) := by
  have hungoverned : ∀ row ∈ [otherKeyLimit], ¬ Governs [otherKeyLimit] ⟨1, by decide⟩ 7 .minute row := by
    rintro row hrow ⟨-, -, hgoverns⟩
    rw [List.mem_singleton.1 hrow] at hgoverns
    simp [otherKeyLimit] at hgoverns
  have hlimits : ApiKeyService.getLimits { rateLimits := [otherKeyLimit] } ⟨1, by decide⟩ 7 = [(.minute, 1)] := by
    decide
  refine ⟨⟨[otherKeyLimit], by simp [otherKeyLimit], List.pairwise_singleton _ _,
    List.pairwise_singleton _ _⟩, rfl, hlimits, hungoverned, fun hresolves => ?_⟩
  obtain ⟨row, hgoverns, -⟩ := (hresolves.governed .minute 1).1 (by simp [hlimits])
  exact hungoverned row hgoverns.1 hgoverns

end FaAuthM8

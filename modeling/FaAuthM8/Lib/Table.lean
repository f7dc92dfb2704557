import Mathlib.Data.List.AList

/-!
# Keyed tables

A table maps each primary key to at most one row. It is Mathlib's association list with the operations a
database statement needs beyond lookup, insertion and erasure: a row-wise update, a deletion by predicate,
the first row satisfying a predicate, and the rows satisfying one. Every operation is described by what
`lookup` returns afterwards, and proofs use a table only through these equations.
-/

/-- A finite table from primary keys to rows. -/
abbrev Table (κ : Type) (α : Type) : Type := AList (fun _ : κ => α)

namespace Table

variable {κ α : Type} [DecidableEq κ]

/-- Rewrites every row in place. -/
def map (f : κ → α → α) (t : Table κ α) : Table κ α where
  entries := t.entries.map fun e => ⟨e.1, f e.1 e.2⟩
  nodupKeys := by
    have hkeys : (t.entries.map fun e => (⟨e.1, f e.1 e.2⟩ : Sigma fun _ : κ => α)).keys
        = t.entries.keys := by
      simp [List.keys, Function.comp_def]
    rw [List.NodupKeys, hkeys]
    exact t.nodupKeys

/-- Keeps the rows that satisfy `p`. -/
def filter (p : κ → α → Bool) (t : Table κ α) : Table κ α where
  entries := t.entries.filter fun e => p e.1 e.2
  nodupKeys := List.Pairwise.sublist (List.filter_sublist.map _) t.nodupKeys

/-- The rows that satisfy `p`, with their keys. -/
def rows (p : κ → α → Bool) (t : Table κ α) : List (κ × α) :=
  (t.entries.filter fun e => p e.1 e.2).map fun e => (e.1, e.2)

/-- The first row that satisfies `p`, with its key. -/
def first (p : κ → α → Bool) (t : Table κ α) : Option (κ × α) :=
  (rows p t).head?

theorem lookup_eq_some_iff {t : Table κ α} {k : κ} {a : α} :
    t.lookup k = some a ↔ (⟨k, a⟩ : Sigma fun _ : κ => α) ∈ t.entries :=
  AList.mem_lookup_iff

theorem mem_keys {t : Table κ α} {k : κ} {a : α} (hrow : t.lookup k = some a) : k ∈ t.keys := by
  rw [← AList.mem_keys, ← AList.lookup_isSome, hrow]
  rfl

theorem lookup_insert_eq (t : Table κ α) (k k' : κ) (a : α) :
    (AList.insert k a t).lookup k' = if k' = k then some a else t.lookup k' := by
  by_cases hkey : k' = k
  · subst hkey
    simp
  · rw [AList.lookup_insert_ne hkey, if_neg hkey]

theorem lookup_erase_eq (t : Table κ α) (k k' : κ) :
    (AList.erase k t).lookup k' = if k' = k then none else t.lookup k' := by
  by_cases hkey : k' = k
  · subst hkey
    simp
  · rw [AList.lookup_erase_ne hkey, if_neg hkey]

@[simp] theorem lookup_map (f : κ → α → α) (t : Table κ α) (k : κ) :
    (t.map f).lookup k = (t.lookup k).map (f k) := by
  ext b
  simp only [Option.map_eq_some_iff, lookup_eq_some_iff]
  simp only [map, List.mem_map, Sigma.mk.injEq]
  constructor
  · rintro ⟨e, he, hk, hb⟩
    subst hk
    exact ⟨e.2, he, eq_of_heq hb⟩
  · rintro ⟨a, ha, rfl⟩
    exact ⟨⟨k, a⟩, ha, rfl, HEq.rfl⟩

@[simp] theorem lookup_filter (p : κ → α → Bool) (t : Table κ α) (k : κ) :
    (t.filter p).lookup k = (t.lookup k).filter (p k) := by
  ext b
  simp only [Option.filter_eq_some_iff, lookup_eq_some_iff]
  simp [filter]

theorem mem_rows {p : κ → α → Bool} {t : Table κ α} {k : κ} {a : α} :
    (k, a) ∈ t.rows p ↔ t.lookup k = some a ∧ p k a = true := by
  rw [lookup_eq_some_iff]
  simp only [rows, List.mem_map, List.mem_filter, Prod.mk.injEq]
  constructor
  · rintro ⟨⟨k', a'⟩, ⟨hmem, hp⟩, rfl, rfl⟩
    exact ⟨hmem, hp⟩
  · rintro ⟨hmem, hp⟩
    exact ⟨⟨k, a⟩, ⟨hmem, hp⟩, rfl, rfl⟩

theorem rows_eq_nil_iff {p : κ → α → Bool} {t : Table κ α} :
    t.rows p = [] ↔ ∀ k a, t.lookup k = some a → p k a = false := by
  rw [List.eq_nil_iff_forall_not_mem]
  constructor
  · intro hnone k a hrow
    by_contra hp
    exact hnone (k, a) (mem_rows.2 ⟨hrow, by simpa using hp⟩)
  · rintro hfalse ⟨k, a⟩ hmem
    obtain ⟨hrow, hp⟩ := mem_rows.1 hmem
    simp [hfalse k a hrow] at hp

theorem first_eq_some {p : κ → α → Bool} {t : Table κ α} {k : κ} {a : α}
    (hfirst : t.first p = some (k, a)) : t.lookup k = some a ∧ p k a = true :=
  mem_rows.1 (List.mem_of_mem_head? hfirst)

theorem first_eq_none_iff {p : κ → α → Bool} {t : Table κ α} :
    t.first p = none ↔ ∀ k a, t.lookup k = some a → p k a = false := by
  rw [first, List.head?_eq_none_iff, rows_eq_nil_iff]

theorem rows_insert (p : κ → α → Bool) (t : Table κ α) (k : κ) (a : α) :
    Table.rows p (AList.insert k a t) =
      (if p k a then [(k, a)] else []) ++ Table.rows p (AList.erase k t) := by
  have hentries : (AList.insert k a t).entries = ⟨k, a⟩ :: (AList.erase k t).entries := rfl
  rw [rows, rows, hentries, List.filter_cons]
  split
  · rfl
  · rfl

theorem length_rows_insert_new (p : κ → α → Bool) {t : Table κ α} {k : κ} (a : α)
    (hnew : t.lookup k = none) :
    (Table.rows p (AList.insert k a t)).length =
      (Table.rows p t).length + (if p k a then 1 else 0) := by
  have hentries : (AList.erase k t).entries = t.entries :=
    List.kerase_of_notMem_keys (AList.lookup_eq_none.1 hnew)
  have hrows : Table.rows p (AList.erase k t) = Table.rows p t := by
    rw [rows, rows, hentries]
  rw [rows_insert, hrows, List.length_append]
  split <;> simp only [List.length_cons, List.length_nil] <;> omega

omit [DecidableEq κ] in
theorem length_rows_mono {p q : κ → α → Bool} (himp : ∀ k a, p k a = true → q k a = true)
    (t : Table κ α) : (Table.rows p t).length ≤ (Table.rows q t).length := by
  rw [rows, rows, List.length_map, List.length_map]
  have hkept (e : Sigma fun _ : κ => α) : p e.1 e.2 = true → q e.1 e.2 = true := himp e.1 e.2
  exact (List.monotone_filter_right t.entries hkept).length_le

theorem length_rows_erase (p : κ → α → Bool) {t : Table κ α} {k : κ} {a : α}
    (hrow : t.lookup k = some a) :
    (Table.rows p t).length =
      (if p k a then 1 else 0) + (Table.rows p (AList.erase k t)).length := by
  obtain ⟨b, first, last, -, hsplit, herase⟩ := List.exists_of_kerase (mem_keys hrow)
  obtain rfl : a = b := by
    have hmem : (⟨k, b⟩ : Sigma fun _ : κ => α) ∈ t.entries := by
      rw [hsplit]
      exact List.mem_append_right _ List.mem_cons_self
    exact Option.some.inj (hrow.symm.trans (lookup_eq_some_iff.2 hmem))
  have herased : (AList.erase k t).entries = first ++ last := herase
  rw [rows, rows, hsplit, herased, List.filter_append, List.filter_append, List.filter_cons]
  simp only [List.length_map, List.length_append]
  split
  · rw [List.length_cons]
    omega
  · omega

theorem length_rows_insert (p : κ → α → Bool) {t : Table κ α} {k : κ} {a : α} (b : α)
    (hrow : t.lookup k = some a) :
    (Table.rows p (AList.insert k b t)).length + (if p k a then 1 else 0) =
      (Table.rows p t).length + (if p k b then 1 else 0) := by
  rw [rows_insert, length_rows_erase p hrow, List.length_append]
  split <;> simp only [List.length_cons, List.length_nil] <;> omega

theorem insert_lt {t : Table Nat α} {k next next' : Nat} {a : α}
    (hfresh : ∀ k' a', t.lookup k' = some a' → k' < next) (hnext : next ≤ next') (hk : k < next') :
    ∀ k' a', (AList.insert k a t).lookup k' = some a' → k' < next' := by
  intro k' a' hrow
  rw [lookup_insert_eq] at hrow
  split at hrow
  · next heq => exact heq ▸ hk
  · exact Nat.lt_of_lt_of_le (hfresh k' a' hrow) hnext

theorem filter_lt {t : Table Nat α} {next : Nat} (p : Nat → α → Bool)
    (hfresh : ∀ k a, t.lookup k = some a → k < next) :
    ∀ k a, (t.filter p).lookup k = some a → k < next := by
  intro k a hrow
  rw [lookup_filter, Option.filter_eq_some_iff] at hrow
  exact hfresh k a hrow.1

end Table

namespace Column

variable {α : Type} [DecidableEq α]

/-- The value a saved column holds afterwards: an object whose attribute was not changed since it was loaded
does not write it, so what another transaction stored there in between stays. -/
def writeBack (loaded new current : α) : α :=
  if new = loaded then current else new

@[simp] theorem writeBack_same (loaded current : α) : writeBack loaded loaded current = current := by
  simp [writeBack]

@[simp] theorem writeBack_current (loaded new : α) : writeBack loaded new loaded = new := by
  rw [writeBack]
  split
  · next hnew => exact hnew.symm
  · rfl

theorem writeBack_of_ne {loaded new : α} (hne : new ≠ loaded) (current : α) :
    writeBack loaded new current = new := by
  rw [writeBack, if_neg hne]

theorem writeBack_eq_or (loaded new current : α) :
    writeBack loaded new current = new ∨ writeBack loaded new current = current := by
  rw [writeBack]
  split
  · exact .inr rfl
  · exact .inl rfl

end Column

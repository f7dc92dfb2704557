import Mathlib

/-!
# Walking a tree

A walk in breadth-first order keeps a queue of nodes, yields its first and appends the children of that one.
It yields exactly the nodes below those it starts with. A report takes each of them in turn and passes over
those that are exempt or known by their key, so it mentions each of the others once.
-/

namespace Walk

variable {α κ : Type}

/-- The node is the root, or below it. -/
def Within (children : α → List α) : α → α → Prop := Relation.ReflTransGen fun x y => y ∈ children x

theorem within_iff {children : α → List α} {x y : α} :
    Within children x y ↔ y = x ∨ ∃ z ∈ children x, Within children z y := by
  rw [Within, Relation.ReflTransGen.cases_head_iff, eq_comm]

theorem Within.refl {children : α → List α} (x : α) : Within children x x := Relation.ReflTransGen.refl

theorem Within.child {children : α → List α} {x y z : α} (hchild : z ∈ children x)
    (hwithin : Within children z y) : Within children x y :=
  Relation.ReflTransGen.head hchild hwithin

theorem Within.trans {children : α → List α} {x y z : α} (hxy : Within children x y)
    (hyz : Within children y z) : Within children x z :=
  Relation.ReflTransGen.trans hxy hyz

/-- What holds of a node when it holds of its children holds of every node. -/
theorem induct {children : α → List α} {size : α → Nat}
    (hsize : ∀ x, size x = ((children x).map size).sum + 1) {P : α → Prop}
    (hstep : ∀ x, (∀ y ∈ children x, P y) → P x) (x : α) : P x := by
  induction hn : size x using Nat.strong_induction_on generalizing x with
  | _ n ih =>
      refine hstep x fun y hy => ih (size y) ?_ y rfl
      have hle := List.single_le_sum (fun _ _ => Nat.zero_le _) _ (List.mem_map_of_mem (f := size) hy)
      have heq := hsize x
      omega

/-- At most `fuel` nodes, from those in the queue. -/
def walkFrom (children : α → List α) : Nat → List α → List α
  | 0, _ => []
  | _ + 1, [] => []
  | fuel + 1, x :: todo => x :: walkFrom children fuel (todo ++ children x)

theorem mem_walkFrom {children : α → List α} {size : α → Nat}
    (hsize : ∀ x, size x = ((children x).map size).sum + 1) {fuel : Nat} {todo : List α}
    (hfuel : (todo.map size).sum ≤ fuel) {y : α} :
    y ∈ walkFrom children fuel todo ↔ ∃ x ∈ todo, Within children x y := by
  induction fuel generalizing todo with
  | zero =>
      cases todo with
      | nil => simp [walkFrom]
      | cons x rest =>
          have hpos := hsize x
          rw [List.map_cons, List.sum_cons] at hfuel
          omega
  | succ fuel ih =>
      cases todo with
      | nil => simp [walkFrom]
      | cons x rest =>
          have hrest : ((rest ++ children x).map size).sum ≤ fuel := by
            have hx := hsize x
            rw [List.map_cons, List.sum_cons] at hfuel
            rw [List.map_append, List.sum_append]
            omega
          rw [walkFrom, List.mem_cons, ih hrest]
          constructor
          · rintro (rfl | ⟨z, hz, hwithin⟩)
            · exact ⟨y, List.mem_cons_self, .refl y⟩
            · rcases List.mem_append.1 hz with hmem | hchild
              · exact ⟨z, List.mem_cons_of_mem _ hmem, hwithin⟩
              · exact ⟨x, List.mem_cons_self, hwithin.child hchild⟩
          · rintro ⟨z, hz, hwithin⟩
            rcases List.mem_cons.1 hz with rfl | hmem
            · rcases within_iff.1 hwithin with hself | ⟨c, hchild, hbelow⟩
              · exact .inl hself
              · exact .inr ⟨c, List.mem_append_right _ hchild, hbelow⟩
            · exact .inr ⟨z, List.mem_append_left _ hmem, hwithin⟩

section

variable [DecidableEq κ]

/-- The items whose key is neither exempt nor that of an item before, after those in `found`. -/
def reportOnce (key : α → κ) (exempt : List κ) (found : List α) (items : List α) : List α :=
  items.foldl (fun found x => if key x ∈ exempt ∨ key x ∈ found.map key then found else found ++ [x]) found

@[simp] theorem reportOnce_nil (key : α → κ) (exempt : List κ) (found : List α) :
    reportOnce key exempt found [] = found := rfl

theorem reportOnce_cons (key : α → κ) (exempt : List κ) (found : List α) (x : α) (rest : List α) :
    reportOnce key exempt found (x :: rest) =
      reportOnce key exempt (if key x ∈ exempt ∨ key x ∈ found.map key then found else found ++ [x]) rest :=
  rfl

/-- Where keys tell the items apart, the report holds each item that is not exempt once. -/
theorem reportOnce_spec {key : α → κ} {exempt : List κ} {found items : List α}
    (hkey : ∀ x ∈ found ++ items, ∀ y ∈ found ++ items, key x = key y → x = y) (hnodup : found.Nodup) :
    (reportOnce key exempt found items).Nodup ∧ ∀ x, x ∈ reportOnce key exempt found items ↔
      x ∈ found ∨ (x ∈ items ∧ key x ∉ exempt) := by
  induction items generalizing found with
  | nil => exact ⟨hnodup, fun x => by simp⟩
  | cons x rest ih =>
      rw [reportOnce_cons]
      split
      · next hskip =>
          have hkey' : ∀ y ∈ found ++ rest, ∀ z ∈ found ++ rest, key y = key z → y = z := by
            have hless : found ++ rest ⊆ found ++ x :: rest :=
              List.Sublist.subset ((List.sublist_cons_self x rest).append_left found)
            intro y hy z hz
            exact hkey y (hless hy) z (hless hz)
          obtain ⟨hunique, hmem⟩ := ih hkey' hnodup
          refine ⟨hunique, fun y => ?_⟩
          rw [hmem]
          constructor
          · rintro (hfound | ⟨hrest, hexempt⟩)
            · exact .inl hfound
            · exact .inr ⟨List.mem_cons_of_mem _ hrest, hexempt⟩
          · rintro (hfound | ⟨hitem, hexempt⟩)
            · exact .inl hfound
            · rcases List.mem_cons.1 hitem with rfl | hrest
              · left
                obtain ⟨z, hz, heq⟩ := List.mem_map.1 (hskip.resolve_left hexempt)
                have hsame : z = y := hkey z (List.mem_append_left _ hz) y
                  (List.mem_append_right _ List.mem_cons_self) heq
                exact hsame ▸ hz
              · exact .inr ⟨hrest, hexempt⟩
      · next hnew =>
          rw [not_or] at hnew
          have hkey' : ∀ y ∈ found ++ [x] ++ rest, ∀ z ∈ found ++ [x] ++ rest, key y = key z → y = z := by
            rw [List.append_assoc, List.singleton_append]
            exact hkey
          have hnodup' : (found ++ [x]).Nodup := by
            rw [List.nodup_append]
            refine ⟨hnodup, List.nodup_singleton x, fun y hy z hz heq => ?_⟩
            rw [List.mem_singleton.1 hz] at heq
            exact hnew.2 (List.mem_map.2 ⟨y, hy, congrArg key heq⟩)
          obtain ⟨hunique, hmem⟩ := ih hkey' hnodup'
          refine ⟨hunique, fun y => ?_⟩
          rw [hmem, List.mem_append, List.mem_singleton, List.mem_cons]
          constructor
          · rintro ((hfound | rfl) | ⟨hrest, hexempt⟩)
            · exact .inl hfound
            · exact .inr ⟨.inl rfl, hnew.1⟩
            · exact .inr ⟨.inr hrest, hexempt⟩
          · rintro (hfound | ⟨rfl | hrest, hexempt⟩)
            · exact .inl (.inl hfound)
            · exact .inl (.inr rfl)
            · exact .inr ⟨hrest, hexempt⟩

end

end Walk

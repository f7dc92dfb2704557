import Mathlib.Data.Char
import Mathlib.Data.List.Lex
import Mathlib.Data.List.Sort
import Mathlib.Data.Nat.Digits.Defs
import FaAuthM8.Lib.Table

/-!
# JSON texts

The compact text of a value made of strings, arrays and objects. A text says where it ends, so values that are
written one after another are read back apart, and two values have the same text only when they are the same.
Sorting the members of objects by their names before they are written loses their order and nothing else.
-/

namespace Json

inductive Value
  | string (text : String)
  | array (items : List Value)
  | object (members : List (String × Value))

def mark : Char := Char.ofNat 34

def backslash : Char := Char.ofNat 92

/-- How a character is written in a string; only the mark, the backslash and the control characters need more
than themselves. -/
def escape (c : Char) : List Char :=
  if c = mark ∨ c = backslash then [backslash, c]
  else if c.toNat = 8 then [backslash, 'b']
  else if c.toNat = 9 then [backslash, 't']
  else if c.toNat = 10 then [backslash, 'n']
  else if c.toNat = 12 then [backslash, 'f']
  else if c.toNat = 13 then [backslash, 'r']
  else if c.toNat < 32 then
    [backslash, 'u', '0', '0', Nat.digitChar (c.toNat / 16), Nat.digitChar (c.toNat % 16)]
  else [c]

def quote (text : String) : List Char := mark :: text.toList.flatMap escape ++ [mark]

mutual

def render : Value → List Char
  | .string text => quote text
  | .array items => '[' :: renderItems items
  | .object members => '{' :: renderMembers members

def renderItems : List Value → List Char
  | [] => [']']
  | item :: rest => render item ++ renderMoreItems rest

def renderMoreItems : List Value → List Char
  | [] => [']']
  | item :: rest => ',' :: render item ++ renderMoreItems rest

def renderMembers : List (String × Value) → List Char
  | [] => ['}']
  | (name, value) :: rest => quote name ++ ':' :: render value ++ renderMoreMembers rest

def renderMoreMembers : List (String × Value) → List Char
  | [] => ['}']
  | (name, value) :: rest => ',' :: quote name ++ ':' :: render value ++ renderMoreMembers rest

end

/-! ### Strings are read back -/

def hexValue (c : Char) : Nat :=
  if c.toNat < 58 then c.toNat - 48 else c.toNat - 87

theorem hexValue_digitChar {n : Nat} (hn : n < 16) : hexValue (Nat.digitChar n) = n := by
  have hall : ∀ n < 16, hexValue (Nat.digitChar n) = n := by decide
  exact hall n hn

/-- The character an escape stands for, with the text after it. -/
def unescape : List Char → Option (Char × List Char)
  | [] => none
  | c :: rest =>
      if c ≠ backslash then some (c, rest)
      else
        match rest with
        | 'b' :: rest => some (Char.ofNat 8, rest)
        | 't' :: rest => some (Char.ofNat 9, rest)
        | 'n' :: rest => some (Char.ofNat 10, rest)
        | 'f' :: rest => some (Char.ofNat 12, rest)
        | 'r' :: rest => some (Char.ofNat 13, rest)
        | 'u' :: _ :: _ :: high :: low :: rest => some (Char.ofNat (16 * hexValue high + hexValue low), rest)
        | c :: rest => some (c, rest)
        | [] => none

theorem unescape_escape (c : Char) (rest : List Char) : unescape (escape c ++ rest) = some (c, rest) := by
  have hnamed {n : Nat} (hc : c.toNat = n) : Char.ofNat n = c := by
    rw [← hc, Char.ofNat_toNat]
  rw [escape]
  split
  · next hself =>
      rcases hself with rfl | rfl
      · rfl
      · rfl
  split
  · next hc => exact congrArg (fun c => some (c, rest)) (hnamed hc)
  split
  · next hc => exact congrArg (fun c => some (c, rest)) (hnamed hc)
  split
  · next hc => exact congrArg (fun c => some (c, rest)) (hnamed hc)
  split
  · next hc => exact congrArg (fun c => some (c, rest)) (hnamed hc)
  split
  · next hc => exact congrArg (fun c => some (c, rest)) (hnamed hc)
  split
  · next hcontrol =>
      show some (Char.ofNat (16 * hexValue (Nat.digitChar (c.toNat / 16)) +
        hexValue (Nat.digitChar (c.toNat % 16))), rest) = some (c, rest)
      rw [hexValue_digitChar (by omega), hexValue_digitChar (by omega), Nat.div_add_mod, Char.ofNat_toNat]
  · next hself _ _ _ _ _ _ =>
      rw [not_or] at hself
      exact if_pos hself.2

/-- What is written of two characters tells them apart, and where the text after them begins. -/
theorem escape_append_inj {c d : Char} {s t : List Char} (heq : escape c ++ s = escape d ++ t) :
    c = d ∧ s = t := by
  have hread := congrArg unescape heq
  rw [unescape_escape, unescape_escape, Option.some.injEq, Prod.mk.injEq] at hread
  exact hread

theorem escape_ne_mark (c : Char) (s t : List Char) : escape c ++ s ≠ mark :: t := by
  intro heq
  have hread := congrArg unescape heq
  rw [unescape_escape] at hread
  obtain ⟨rfl, rfl⟩ := Prod.mk.inj (Option.some.inj hread)
  exact absurd (List.cons.inj heq).1 (by decide)

theorem flatMap_escape_inj {xs ys s t : List Char}
    (heq : xs.flatMap escape ++ mark :: s = ys.flatMap escape ++ mark :: t) : xs = ys ∧ s = t := by
  induction xs generalizing ys with
  | nil =>
      cases ys with
      | nil => exact ⟨rfl, (List.cons.inj heq).2⟩
      | cons y ys =>
          rw [List.flatMap_cons, List.append_assoc] at heq
          exact absurd heq.symm (escape_ne_mark y _ _)
  | cons x xs ih =>
      cases ys with
      | nil =>
          rw [List.flatMap_cons, List.append_assoc] at heq
          exact absurd heq (escape_ne_mark x _ _)
      | cons y ys =>
          rw [List.flatMap_cons, List.flatMap_cons, List.append_assoc, List.append_assoc] at heq
          obtain ⟨rfl, hrest⟩ := escape_append_inj heq
          obtain ⟨rfl, hafter⟩ := ih hrest
          exact ⟨rfl, hafter⟩

theorem quote_append_inj {x y : String} {s t : List Char} (heq : quote x ++ s = quote y ++ t) :
    x = y ∧ s = t := by
  simp only [quote, List.cons_append, List.append_assoc, List.cons.injEq, true_and, List.nil_append] at heq
  obtain ⟨htext, hafter⟩ := flatMap_escape_inj heq
  exact ⟨String.toList_inj.1 htext, hafter⟩

/-! ### Values are read back -/

/-- A value does not begin as what ends a list of values does. -/
theorem render_append_ne (v : Value) (s t : List Char) {c : Char} (hc : c ∉ [mark, '[', '{']) :
    render v ++ s ≠ c :: t := by
  intro heq
  apply hc
  cases v with
  | string text =>
      obtain ⟨rfl, -⟩ := List.cons.inj heq
      exact List.mem_cons_self
  | array items =>
      obtain ⟨rfl, -⟩ := List.cons.inj heq
      exact List.mem_cons_of_mem _ List.mem_cons_self
  | object members =>
      obtain ⟨rfl, -⟩ := List.cons.inj heq
      exact List.mem_cons_of_mem _ (List.mem_cons_of_mem _ List.mem_cons_self)

mutual

/-- The text of a value tells the value, and where the text after it begins. -/
theorem render_append_inj : ∀ (v v' : Value) {s s' : List Char},
    render v ++ s = render v' ++ s' → v = v' ∧ s = s'
  | .string x, .string y, _, _, heq => by
      obtain ⟨rfl, hafter⟩ := quote_append_inj heq
      exact ⟨rfl, hafter⟩
  | .array xs, .array ys, _, _, heq => by
      obtain ⟨rfl, hafter⟩ := renderItems_append_inj xs ys (List.cons.inj heq).2
      exact ⟨rfl, hafter⟩
  | .object xs, .object ys, _, _, heq => by
      obtain ⟨rfl, hafter⟩ := renderMembers_append_inj xs ys (List.cons.inj heq).2
      exact ⟨rfl, hafter⟩
  | .string _, .array _, _, _, heq => absurd (List.cons.inj heq).1 (by decide)
  | .string _, .object _, _, _, heq => absurd (List.cons.inj heq).1 (by decide)
  | .array _, .string _, _, _, heq => absurd (List.cons.inj heq).1 (by decide)
  | .array _, .object _, _, _, heq => absurd (List.cons.inj heq).1 (by decide)
  | .object _, .string _, _, _, heq => absurd (List.cons.inj heq).1 (by decide)
  | .object _, .array _, _, _, heq => absurd (List.cons.inj heq).1 (by decide)

theorem renderItems_append_inj : ∀ (xs ys : List Value) {s s' : List Char},
    renderItems xs ++ s = renderItems ys ++ s' → xs = ys ∧ s = s'
  | [], [], _, _, heq => ⟨rfl, (List.cons.inj heq).2⟩
  | [], y :: ys, _, _, heq => by
      rw [renderItems, renderItems, List.append_assoc] at heq
      exact absurd heq.symm (render_append_ne y _ _ (by decide))
  | x :: xs, [], _, _, heq => by
      rw [renderItems, renderItems, List.append_assoc] at heq
      exact absurd heq (render_append_ne x _ _ (by decide))
  | x :: xs, y :: ys, _, _, heq => by
      rw [renderItems, renderItems, List.append_assoc, List.append_assoc] at heq
      obtain ⟨rfl, hrest⟩ := render_append_inj x y heq
      obtain ⟨rfl, hafter⟩ := renderMoreItems_append_inj xs ys hrest
      exact ⟨rfl, hafter⟩

theorem renderMoreItems_append_inj : ∀ (xs ys : List Value) {s s' : List Char},
    renderMoreItems xs ++ s = renderMoreItems ys ++ s' → xs = ys ∧ s = s'
  | [], [], _, _, heq => ⟨rfl, (List.cons.inj heq).2⟩
  | [], _ :: _, _, _, heq => absurd (List.cons.inj heq).1 (by decide)
  | _ :: _, [], _, _, heq => absurd (List.cons.inj heq).1 (by decide)
  | x :: xs, y :: ys, _, _, heq => by
      simp only [renderMoreItems, List.append_assoc, List.cons_append, List.cons.injEq, true_and] at heq
      obtain ⟨rfl, hrest⟩ := render_append_inj x y heq
      obtain ⟨rfl, hafter⟩ := renderMoreItems_append_inj xs ys hrest
      exact ⟨rfl, hafter⟩

theorem renderMembers_append_inj : ∀ (xs ys : List (String × Value)) {s s' : List Char},
    renderMembers xs ++ s = renderMembers ys ++ s' → xs = ys ∧ s = s'
  | [], [], _, _, heq => ⟨rfl, (List.cons.inj heq).2⟩
  | [], _ :: _, _, _, heq => absurd (List.cons.inj heq).1 (by decide)
  | _ :: _, [], _, _, heq => absurd (List.cons.inj heq).1 (by decide)
  | (x, v) :: xs, (y, v') :: ys, _, _, heq => by
      simp only [renderMembers, List.append_assoc, List.cons_append] at heq
      obtain ⟨rfl, hvalue⟩ := quote_append_inj heq
      obtain ⟨rfl, hrest⟩ := render_append_inj v v' (List.cons.inj hvalue).2
      obtain ⟨rfl, hafter⟩ := renderMoreMembers_append_inj xs ys hrest
      exact ⟨rfl, hafter⟩

theorem renderMoreMembers_append_inj : ∀ (xs ys : List (String × Value)) {s s' : List Char},
    renderMoreMembers xs ++ s = renderMoreMembers ys ++ s' → xs = ys ∧ s = s'
  | [], [], _, _, heq => ⟨rfl, (List.cons.inj heq).2⟩
  | [], _ :: _, _, _, heq => absurd (List.cons.inj heq).1 (by decide)
  | _ :: _, [], _, _, heq => absurd (List.cons.inj heq).1 (by decide)
  | (x, v) :: xs, (y, v') :: ys, _, _, heq => by
      simp only [renderMoreMembers, List.append_assoc, List.cons_append, List.cons.injEq, true_and] at heq
      obtain ⟨rfl, hvalue⟩ := quote_append_inj heq
      obtain ⟨rfl, hrest⟩ := render_append_inj v v' (List.cons.inj hvalue).2
      obtain ⟨rfl, hafter⟩ := renderMoreMembers_append_inj xs ys hrest
      exact ⟨rfl, hafter⟩

end

theorem render_injective {v v' : Value} (heq : render v = render v') : v = v' :=
  (render_append_inj v v' (congrArg (· ++ []) heq)).1

/-! ### Sorted members -/

mutual

/-- `sort_keys=True` -/
def sortKeys : Value → Value
  | .string text => .string text
  | .array items => .array (sortItems items)
  | .object members => .object ((sortMembers members).insertionSort fun x y => x.1.toList ≤ y.1.toList)

def sortItems : List Value → List Value
  | [] => []
  | item :: rest => sortKeys item :: sortItems rest

def sortMembers : List (String × Value) → List (String × Value)
  | [] => []
  | (name, value) :: rest => (name, sortKeys value) :: sortMembers rest

end

/-- `json.dumps` with compact separators, `sort_keys=True` and `ensure_ascii=False`. -/
def dumps (v : Value) : List Char := render (sortKeys v)

/-- The object with the members of a dictionary, in their order. -/
def Value.dict (t : Table String Value) : Value := .object (t.entries.map fun e => (e.1, e.2))

theorem sortItems_eq_map (items : List Value) : sortItems items = items.map sortKeys := by
  induction items with
  | nil => rfl
  | cons item rest ih => rw [sortItems, ih, List.map_cons]

theorem mem_sortMembers {members : List (String × Value)} {name : String} {value : Value} :
    (name, value) ∈ sortMembers members ↔ ∃ v, (name, v) ∈ members ∧ sortKeys v = value := by
  induction members with
  | nil => simp [sortMembers]
  | cons member rest ih =>
      obtain ⟨name', v'⟩ := member
      rw [sortMembers, List.mem_cons, ih]
      constructor
      · rintro (heq | ⟨v, hmem, hsorted⟩)
        · obtain ⟨rfl, rfl⟩ := Prod.mk.inj heq
          exact ⟨v', List.mem_cons_self, rfl⟩
        · exact ⟨v, List.mem_cons_of_mem _ hmem, hsorted⟩
      · rintro ⟨v, hmem, rfl⟩
        obtain heq | hmem := List.mem_cons.1 hmem
        · obtain ⟨rfl, rfl⟩ := Prod.mk.inj heq
          exact .inl rfl
        · exact .inr ⟨v, hmem, rfl⟩

theorem mem_sortMembers_dict {t : Table String Value} {name : String} {value : Value} :
    (name, value) ∈ sortMembers (t.entries.map fun e => (e.1, e.2)) ↔
      (t.lookup name).map sortKeys = some value := by
  rw [mem_sortMembers, Option.map_eq_some_iff]
  refine exists_congr fun v => and_congr_left fun _ => ?_
  rw [Table.lookup_eq_some_iff, List.mem_map]
  constructor
  · rintro ⟨e, hmem, heq⟩
    obtain ⟨rfl, rfl⟩ := Prod.mk.inj heq
    exact hmem
  · intro hmem
    exact ⟨_, hmem, rfl⟩

theorem lookup_of_sortKeys {t t' : Table String Value} (heq : sortKeys (.dict t) = sortKeys (.dict t'))
    (name : String) : (t.lookup name).map sortKeys = (t'.lookup name).map sortKeys := by
  rw [Value.dict, Value.dict, sortKeys, sortKeys, Value.object.injEq] at heq
  ext value
  rw [← mem_sortMembers_dict, ← mem_sortMembers_dict]
  rw [← List.mem_insertionSort (fun x y : String × Value => x.1.toList ≤ y.1.toList), heq, List.mem_insertionSort]

end Json

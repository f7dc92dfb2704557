import FaAuthM8.Lib.Words
import Mathlib.Data.List.DropRight

/-!
# Reading numbers back

Splitting a text at its last separator, trimming it, and reading a decimal number as `int` does: whitespace
around it, a sign and single underscores between digits are allowed. A number that was written is read back.
-/

namespace Parsing

/-- `str.rpartition`, with nothing when the separator does not occur. -/
def rpartition (sep : Char) (text : List Char) : Option (List Char × List Char) :=
  match text.reverse.dropWhile (· != sep) with
  | [] => none
  | _ :: before => some (before.reverse, text.rtakeWhile (· != sep))

theorem rpartition_append (sep : Char) (before : List Char) {after : List Char} (hafter : sep ∉ after) :
    rpartition sep (before ++ sep :: after) = some (before, after) := by
  have hother : ∀ c ∈ after.reverse, (c != sep) = true := by
    intro c hc
    rw [List.mem_reverse] at hc
    exact bne_iff_ne.2 fun heq => hafter (heq ▸ hc)
  have htake : (after.reverse ++ sep :: before.reverse).takeWhile (· != sep) = after.reverse := by
    rw [List.takeWhile_append_of_pos hother]
    simp
  have hdrop : (after.reverse ++ sep :: before.reverse).dropWhile (· != sep) = sep :: before.reverse := by
    rw [List.dropWhile_append_of_pos hother]
    simp
  have hreverse : (before ++ sep :: after).reverse = after.reverse ++ sep :: before.reverse := by
    simp
  rw [rpartition, List.rtakeWhile, hreverse, hdrop, htake]
  simp

def strip (text : List Char) : List Char :=
  (text.dropWhile Words.isSpace).rdropWhile Words.isSpace

/-- Digits, with single underscores between them. -/
def digits (text : List Char) : Option Nat :=
  if (text.splitOn '_').all fun group => !group.isEmpty && group.all Char.isDigit then
    some (Nat.ofDigitChars 10 (text.filter (· != '_')) 0)
  else
    none

def int (text : List Char) : Option Int :=
  match strip text with
  | '-' :: rest => (digits rest).map fun n => -(n : Int)
  | '+' :: rest => (digits rest).map Int.ofNat
  | text => (digits text).map Int.ofNat

theorem strip_strip (text : List Char) : strip (strip text) = strip text := by
  have hfirst : (strip text).dropWhile Words.isSpace = strip text := by
    rw [List.dropWhile_eq_self_iff]
    intro hne
    have hbegins : strip text <+: text.dropWhile Words.isSpace := List.rdropWhile_prefix _ _
    have hlonger := hbegins.length_le
    rw [hbegins.getElem hne]
    exact List.dropWhile_get_zero_not _ _ (Nat.lt_of_lt_of_le hne hlonger)
  have hlast : (strip text).rdropWhile Words.isSpace = strip text := by
    rw [strip, List.rdropWhile_idempotent]
  rw [strip, hfirst, hlast]

theorem strip_append {spaces : List Char} (hspaces : ∀ c ∈ spaces, Words.isSpace c = true)
    (text : List Char) : strip (spaces ++ text) = strip text := by
  rw [strip, List.dropWhile_append_of_pos hspaces, strip]

theorem intercalate_comma (first : List Char) (rest : List (List Char)) :
    [',', ' '].intercalate (first :: rest) = [','].intercalate (first :: rest.map (' ' :: ·)) := by
  induction rest generalizing first with
  | nil => rfl
  | cons next rest ih =>
      rw [List.map_cons, List.intercalate_cons_cons, List.intercalate_cons_cons, ih]
      cases rest with
      | nil => simp
      | cons last rest => simp [List.intercalate_cons_cons]

theorem isSpace_eq_false {c : Char} (hlow : 33 ≤ c.val.toNat) (hhigh : c.val.toNat < 133) :
    Words.isSpace c = false := by
  simp only [Words.isSpace, Bool.or_eq_false_iff, Bool.and_eq_false_iff, decide_eq_false_iff_not,
    beq_eq_false_iff_ne, ne_eq, UInt32.le_iff_toNat_le, ← UInt32.toNat_inj, UInt32.reduceToNat]
  omega

theorem toLower_val (c : Char) :
    c.toLower = c ∨ (65 ≤ c.val.toNat ∧ c.val.toNat ≤ 90 ∧ c.toLower.val.toNat = c.val.toNat + 32) := by
  delta Char.toLower
  split
  · next hupper =>
      right
      obtain ⟨hlow, hhigh⟩ := hupper
      have hrange : 65 ≤ c.val.toNat ∧ c.val.toNat ≤ 90 := by
        simpa [UInt32.le_iff_toNat_le] using And.intro hlow hhigh
      refine ⟨hrange.1, hrange.2, ?_⟩
      show (c.val + 32).toNat = _
      simp only [UInt32.toNat_add, UInt32.reduceToNat]
      omega
  · exact .inl rfl

theorem isSpace_toLower (c : Char) : Words.isSpace c.toLower = Words.isSpace c := by
  obtain hsame | ⟨hlow, hhigh, hlower⟩ := toLower_val c
  · rw [hsame]
  · rw [isSpace_eq_false (by omega) (by omega), isSpace_eq_false (by omega) (by omega)]

theorem toLower_toLower (c : Char) : c.toLower.toLower = c.toLower := by
  obtain hsame | ⟨hlow, hhigh, hlower⟩ := toLower_val c
  · rw [hsame, hsame]
  · obtain hdone | ⟨hlow', hhigh', hlower'⟩ := toLower_val c.toLower
    · exact hdone
    · omega

theorem strip_map {f : Char → Char} (hspace : ∀ c, Words.isSpace (f c) = Words.isSpace c)
    (text : List Char) : strip (text.map f) = (strip text).map f := by
  have hsame : Words.isSpace ∘ f = Words.isSpace := by
    funext c
    exact hspace c
  simp only [strip, List.rdropWhile, List.dropWhile_map, ← List.map_reverse, hsame]

section

variable {text : List Char}

theorem isSpace_of_isDigit {c : Char} (hdigit : c.isDigit = true) : Words.isSpace c = false := by
  have hrange : 48 ≤ c.val.toNat ∧ c.val.toNat ≤ 57 := by
    simpa [Char.isDigit, UInt32.le_iff_toNat_le] using hdigit
  exact isSpace_eq_false (by omega) (by omega)

theorem ne_of_isDigit {c d : Char} (hdigit : c.isDigit = true) (hother : d.isDigit = false) : c ≠ d := by
  intro heq
  rw [heq, hother] at hdigit
  cases hdigit

theorem strip_eq_self (htext : ∀ c ∈ text, Words.isSpace c = false) : strip text = text := by
  have hfirst : text.dropWhile Words.isSpace = text := by
    cases text with
    | nil => rfl
    | cons c rest => simp [htext c List.mem_cons_self]
  rw [strip, hfirst, List.rdropWhile_eq_self_iff]
  intro hne hspace
  rw [htext _ (List.getLast_mem hne)] at hspace
  cases hspace

/-- The parts of a list that is written with commas are read back. -/
theorem split_comma {texts : List String} (hne : texts ≠ [])
    (htexts : ∀ text ∈ texts, ∀ c ∈ text.toList, c ≠ ',' ∧ Words.isSpace c = false) :
    ((", ".intercalate texts).toList.splitOn ',').map strip = texts.map String.toList := by
  have hjoin : (", ".intercalate texts).toList = [',', ' '].intercalate (texts.map String.toList) :=
    String.toList_intercalate
  have hstrip : ∀ text ∈ texts, strip text.toList = text.toList :=
    fun text hmem => strip_eq_self fun c hc => (htexts text hmem c hc).2
  obtain ⟨first, rest, rfl⟩ := List.exists_cons_of_ne_nil hne
  rw [hjoin, List.map_cons, intercalate_comma, List.splitOn_intercalate]
  · simp only [List.map_cons, List.map_map, hstrip first List.mem_cons_self, List.cons.injEq, true_and]
    apply List.map_congr_left
    intro text hmem
    have hblank : ∀ c ∈ [' '], Words.isSpace c = true := by
      intro c hc
      rw [List.mem_singleton.1 hc]
      rfl
    exact (strip_append hblank text.toList).trans (hstrip text (List.mem_cons_of_mem _ hmem))
  · intro piece hpiece hcomma
    rw [List.mem_cons, List.map_map, List.mem_map] at hpiece
    rcases hpiece with rfl | ⟨text, hmem, rfl⟩
    · exact (htexts first List.mem_cons_self ',' hcomma).1 rfl
    · rw [Function.comp_apply, List.mem_cons] at hcomma
      rcases hcomma with hspace | hcomma
      · cases hspace
      · exact (htexts text (List.mem_cons_of_mem _ hmem) ',' hcomma).1 rfl
  · exact List.cons_ne_nil _ _

theorem strip_digits (htext : ∀ c ∈ text, c.isDigit = true) : strip text = text := by
  apply strip_eq_self
  intro c hc
  exact isSpace_of_isDigit (htext c hc)

theorem digits_of_isDigit (hne : text ≠ []) (htext : ∀ c ∈ text, c.isDigit = true) :
    digits text = some (Nat.ofDigitChars 10 text 0) := by
  have hother : ∀ c ∈ text, c ≠ '_' := fun c hc => ne_of_isDigit (htext c hc) (by decide)
  have hsplit : text.splitOn '_' = [text] := by
    rw [List.splitOn_eq_splitOnP]
    exact List.splitOnP_eq_singleton fun c hc => beq_eq_false_iff_ne.2 (hother c hc)
  have hfilter : text.filter (· != '_') = text :=
    List.filter_eq_self.2 fun c hc => bne_iff_ne.2 (hother c hc)
  have hall : (text.splitOn '_').all (fun group => !group.isEmpty && group.all Char.isDigit) = true := by
    rw [hsplit]
    simpa using ⟨hne, htext⟩
  rw [digits, if_pos hall, hfilter]

theorem int_toDigits (n : Nat) : int (Nat.toDigits 10 n) = some (n : Int) := by
  have htext : ∀ c ∈ Nat.toDigits 10 n, c.isDigit = true := fun c hc =>
    Nat.isDigit_of_mem_toDigits (by decide) (by decide) hc
  have hdigits := digits_of_isDigit Nat.toDigits_ne_nil htext
  rw [Nat.ofDigitChars_ten_toDigits] at hdigits
  rw [int, strip_digits htext]
  split
  · next rest hminus => exact absurd rfl (ne_of_isDigit (htext '-' (hminus ▸ List.mem_cons_self)) (by decide))
  · next rest hplus => exact absurd rfl (ne_of_isDigit (htext '+' (hplus ▸ List.mem_cons_self)) (by decide))
  · rw [hdigits]
    rfl

end

end Parsing

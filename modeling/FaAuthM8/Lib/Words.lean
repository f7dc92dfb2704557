import Mathlib.Data.List.Basic

/-!
# Words

A text falls into words at its separators. Texts that are joined by a separator and split again give the
words of each of them, so a list of texts comes back as it was only when every one of them is a word.
-/

namespace Words

variable {α : Type} {sep : α → Bool}

/-- The pieces between separators, without the empty ones. -/
def words (sep : α → Bool) (text : List α) : List (List α) :=
  (text.splitOnP sep).filter (!·.isEmpty)

@[simp] theorem words_nil : words sep [] = [] := by
  simp [words]

theorem words_append_cons (text rest : List α) {a : α} (ha : sep a = true) :
    words sep (text ++ a :: rest) = words sep text ++ words sep rest := by
  rw [words, List.splitOnP_append_cons text rest ha, List.filter_append]
  rfl

theorem words_eq_singleton {text : List α} (hne : text ≠ []) (hword : ∀ a ∈ text, sep a = false) :
    words sep text = [text] := by
  rw [words, List.splitOnP_eq_singleton hword]
  simp [hne]

theorem words_intercalate {a : α} (ha : sep a = true) (texts : List (List α)) :
    words sep ([a].intercalate texts) = texts.flatMap (words sep) := by
  induction texts with
  | nil => simp
  | cons text rest ih =>
      cases rest with
      | nil => simp
      | cons next rest =>
          rw [List.intercalate_cons_cons, List.append_assoc, List.singleton_append,
            words_append_cons _ _ ha, ih]
          rfl

/-- The whitespace of `str.split`. -/
def isSpace (c : Char) : Bool :=
  (9 ≤ c.val && c.val ≤ 13) || (28 ≤ c.val && c.val ≤ 32) || c.val == 0x85 || c.val == 0xA0 ||
    c.val == 0x1680 || (0x2000 ≤ c.val && c.val ≤ 0x200A) || c.val == 0x2028 || c.val == 0x2029 ||
    c.val == 0x202F || c.val == 0x205F || c.val == 0x3000

/-- `str.split` without a separator. -/
def splitWhitespace (text : String) : List String :=
  (words isSpace text.toList).map String.ofList

theorem splitWhitespace_word {text : String} (hne : text ≠ "")
    (hword : ∀ c ∈ text.toList, isSpace c = false) : splitWhitespace text = [text] := by
  have hlist : text.toList ≠ [] := fun hnil => hne (String.toList_inj.1 hnil)
  rw [splitWhitespace, words_eq_singleton hlist hword]
  simp

theorem splitWhitespace_join (texts : List String) :
    splitWhitespace (" ".intercalate texts) = texts.flatMap splitWhitespace := by
  have hspace : isSpace ' ' = true := by decide
  have hjoin : (" ".intercalate texts).toList = [' '].intercalate (texts.map String.toList) :=
    String.toList_intercalate
  rw [splitWhitespace, hjoin, words_intercalate hspace, List.map_flatMap, List.flatMap_map]
  rfl

end Words

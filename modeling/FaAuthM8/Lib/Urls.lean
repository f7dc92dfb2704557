import FaAuthM8.Lib.DotSegments
import FaAuthM8.Lib.Parsing
import Mathlib.Data.List.ModifyLast

/-!
# Parts of a URL

`urlsplit` and `urlparse` with the parts that are read of their result, the segments of a path, and the path
without its dot segments. Which authorities are refused for what stands in their brackets, or for characters
that decompose into delimiters, is a parameter.
-/

namespace Urls

/-- Without the query and the fragment. -/
structure SplitResult where
  scheme : List Char := []
  netloc : List Char := []
  path : List Char
deriving DecidableEq, Repr

def isC0ControlOrSpace (c : Char) : Bool :=
  c.toNat ≤ 32

def isUnsafe (c : Char) : Bool :=
  c == '\t' || c == '\r' || c == '\n'

def isSchemeChar (c : Char) : Bool :=
  c.isAlphanum || c == '+' || c == '-' || c == '.'

/-- The scheme, in lower case, and the rest. -/
def splitScheme (url : List Char) : List Char × List Char :=
  let name := url.takeWhile (· != ':')
  if url.contains ':' && name.head?.any Char.isAlpha && name.all isSchemeChar then
    (name.map Char.toLower, url.drop (name.length + 1))
  else
    ([], url)

/-- The authority and the rest. -/
def splitNetloc : List Char → List Char × List Char
  | '/' :: '/' :: rest =>
      let isDelimiter c := c == '/' || c == '?' || c == '#'
      (rest.takeWhile (!isDelimiter ·), rest.dropWhile (!isDelimiter ·))
  | url => ([], url)

/-- What precedes the first `#`, and the fragment after it. -/
def splitFragment (url : List Char) : List Char × List Char :=
  (url.takeWhile (· != '#'), (url.dropWhile (· != '#')).drop 1)

/-- `urlsplit`, with nothing where it raises. -/
def urlsplit (checkNetloc : List Char → Bool) (url : List Char) : Option SplitResult :=
  let (scheme, rest) := splitScheme ((url.dropWhile isC0ControlOrSpace).filter (!isUnsafe ·))
  let (netloc, rest) := splitNetloc rest
  if netloc.contains '[' == netloc.contains ']' && checkNetloc netloc then
    some { scheme, netloc, path := (splitFragment rest).1.takeWhile (· != '?') }
  else
    none

def usesParams : List String :=
  ["", "ftp", "hdl", "prospero", "http", "imap", "https", "shttp", "rtsp", "rtsps", "rtspu", "sip", "sips",
    "mms", "sftp", "tel"]

def segments (path : List Char) : List (List Char) :=
  path.splitOn '/'

def joined (segments : List (List Char)) : List Char :=
  ['/'].intercalate segments

def cutParams (segments : List (List Char)) : List (List Char) :=
  segments.modifyLast (·.takeWhile (· != ';'))

namespace SplitResult

/-- The parameters of the last segment are no part of the path. -/
def withoutParams (split : SplitResult) : SplitResult :=
  if usesParams.contains (String.ofList split.scheme) then
    { split with path := joined (cutParams (segments split.path)) }
  else
    split

def removeDotSegments (kind : List Char → DotSegments.Kind) (split : SplitResult) : SplitResult :=
  match segments split.path with
  | [] => split
  | root :: rest => { split with path := joined (root :: DotSegments.resolve kind [] rest) }

def hostname (split : SplitResult) : Option (List Char) :=
  let hostinfo := split.netloc.rtakeWhile (· != '@')
  let name :=
    if hostinfo.contains '[' then ((hostinfo.dropWhile (· != '[')).drop 1).takeWhile (· != ']')
    else hostinfo.takeWhile (· != ':')
  if name.isEmpty then none
  else some ((name.takeWhile (· != '%')).map Char.toLower ++ name.dropWhile (· != '%'))

end SplitResult

def urlparse (checkNetloc : List Char → Bool) (url : List Char) : Option SplitResult :=
  (urlsplit checkNetloc url).map (·.withoutParams)

/-- The dot segments of RFC 3986. -/
def dotSegment (segment : List Char) : DotSegments.Kind :=
  if segment = ['.'] then .here else if segment = ['.', '.'] then .up else .down

section

variable {path : List Char} {paths : List (List Char)}

theorem not_mem_segments : ∀ segment ∈ segments path, '/' ∉ segment := by
  induction path with
  | nil => simp [segments]
  | cons c rest ih =>
      intro segment hmem
      rw [segments, List.splitOn_cons_eq_if_modifyHead] at hmem
      split at hmem
      · obtain rfl | hmem := List.mem_cons.1 hmem
        · exact List.not_mem_nil
        · exact ih segment hmem
      · next hc =>
          obtain ⟨first, others, hrest⟩ := List.exists_cons_of_ne_nil (List.splitOn_ne_nil '/' rest)
          rw [segments, hrest] at ih
          rw [hrest, List.modifyHead_cons, List.mem_cons] at hmem
          obtain rfl | hmem := hmem
          · intro hslash
            obtain rfl | hslash := List.mem_cons.1 hslash
            · exact hc (beq_self_eq_true _)
            · exact ih first List.mem_cons_self hslash
          · exact ih segment (List.mem_cons_of_mem _ hmem)

theorem segments_ne_nil (path : List Char) : segments path ≠ [] :=
  List.splitOn_ne_nil '/' path

theorem joined_segments (path : List Char) : joined (segments path) = path :=
  List.intercalate_splitOn '/'

theorem segments_joined (hne : paths ≠ []) (hpaths : ∀ segment ∈ paths, '/' ∉ segment) :
    segments (joined paths) = paths :=
  List.splitOn_intercalate '/' hpaths hne

theorem joined_append {first second : List (List Char)} (hfirst : first ≠ []) (hsecond : second ≠ []) :
    joined (first ++ second) = joined first ++ '/' :: joined second := by
  induction first with
  | nil => exact absurd rfl hfirst
  | cons segment rest ih =>
      cases rest with
      | nil =>
          rw [List.singleton_append, joined, List.intercalate_cons_of_ne_nil hsecond]
          simp [joined]
      | cons next rest =>
          have hrest := ih (by simp)
          rw [joined, List.cons_append, List.intercalate_cons_of_ne_nil (by simp)]
          rw [joined, List.intercalate_cons_of_ne_nil (by simp)]
          show segment ++ ['/'] ++ joined (next :: rest ++ second) = _
          rw [hrest]
          simp [joined]

/-- A text with a slash after it begins a path that ends in a slash exactly when its segments begin the
segments of the path. -/
theorem isPrefix_closed_iff {allowed : List Char} (hallowed : allowed.getLast? ≠ some '/') (path : List Char) :
    allowed ++ ['/'] <+: (if path.getLast? = some '/' then path else path ++ ['/']) ↔
      segments allowed <+: segments path := by
  have hlonger {rest : List Char} (hpath : path = allowed ++ '/' :: rest) : segments allowed <+: segments path := by
    rw [hpath, segments, segments, List.splitOn_append_cons_self]
    exact List.prefix_append _ _
  constructor
  · rintro ⟨rest, hrest⟩
    split at hrest
    · have hpath : path = allowed ++ '/' :: rest := by
        simp [← hrest]
      exact hlonger hpath
    · obtain rfl | ⟨rest, last, rfl⟩ := List.eq_nil_or_concat' rest
      · rw [List.append_nil, List.append_cancel_right_eq] at hrest
        exact hrest ▸ List.prefix_rfl
      · rw [← List.append_assoc] at hrest
        obtain ⟨hbegins, -⟩ := List.append_inj' hrest rfl
        have hpath : path = allowed ++ '/' :: rest := by
          simp [← hbegins]
        exact hlonger hpath
  · rintro ⟨others, hothers⟩
    by_cases hnil : others = []
    · have hpath : path = allowed := by
        rw [← joined_segments path, ← hothers, hnil, List.append_nil, joined_segments]
      have hclosed : (if path.getLast? = some '/' then path else path ++ ['/']) = allowed ++ ['/'] := by
        rw [hpath, if_neg hallowed]
      exact hclosed.symm ▸ List.prefix_rfl
    · have hpath : path = allowed ++ '/' :: joined others := by
        rw [← joined_segments path, ← hothers, joined_append (segments_ne_nil _) hnil, joined_segments]
      have hbegins : allowed ++ ['/'] <+: path := ⟨joined others, by simp [hpath]⟩
      split
      · exact hbegins
      · exact hbegins.trans (List.prefix_append _ _)

theorem getLast?_rdropWhile_ne (path : List Char) :
    (path.rdropWhile (· == '/')).getLast? ≠ some '/' := by
  intro hlast
  have hne : path.rdropWhile (· == '/') ≠ [] := fun hnil => by simp [hnil] at hlast
  apply List.rdropWhile_last_not (· == '/') path hne
  rw [List.getLast?_eq_some_getLast hne] at hlast
  simpa using hlast

theorem cutParams_append (first : List (List Char)) {second : List (List Char)} (hne : second ≠ []) :
    cutParams (first ++ second) = first ++ cutParams second :=
  List.modifyLast_append_of_right_ne_nil _ first second hne

def readSegments (scheme : List Char) (segments : List (List Char)) : List (List Char) :=
  if usesParams.contains (String.ofList scheme) then cutParams segments else segments

theorem readSegments_append (scheme : List Char) (first : List (List Char)) {second : List (List Char)}
    (hne : second ≠ []) : readSegments scheme (first ++ second) = first ++ readSegments scheme second := by
  unfold readSegments
  split
  · exact cutParams_append first hne
  · rfl

theorem not_mem_cutParams (hpaths : ∀ segment ∈ paths, '/' ∉ segment) :
    ∀ segment ∈ cutParams paths, '/' ∉ segment := by
  obtain rfl | ⟨rest, last, rfl⟩ := List.eq_nil_or_concat' paths
  · simp [cutParams, List.modifyLast, List.modifyLast.go]
  · rw [cutParams, List.modifyLast_concat]
    intro segment hmem
    obtain hmem | hmem := List.mem_append.1 hmem
    · exact hpaths segment (List.mem_append_left _ hmem)
    · obtain rfl := List.mem_singleton.1 hmem
      exact fun hslash => hpaths last (by simp) ((List.takeWhile_sublist _).subset hslash)

theorem cutParams_ne_nil (hne : paths ≠ []) : cutParams paths ≠ [] := by
  obtain ⟨rest, last, rfl⟩ := (List.eq_nil_or_concat' paths).resolve_left hne
  rw [cutParams, List.modifyLast_concat]
  simp

theorem segments_withoutParams (split : SplitResult) :
    segments split.withoutParams.path = readSegments split.scheme (segments split.path) := by
  rw [SplitResult.withoutParams, readSegments]
  split
  · exact segments_joined (cutParams_ne_nil (segments_ne_nil _)) (not_mem_cutParams not_mem_segments)
  · rfl

end

end Urls

import FaAuthM8.Routes.RedirectTargets

/-!
# Where a redirect leads

The check compares the path of a target as it is written, and a browser follows it without its dot segments: from
below the prefix that was matched it may climb above the prefix and come down somewhere else. The code is the
fragment that the browser hands on, unless the target has one of its own.
-/

namespace FaAuthM8

open Urls DotSegments

section

variable (kind : List Char → DotSegments.Kind) (settings : RedirectSettings)

/-- The segments of a prefix, without the slashes at its end. -/
def prefixSegments (p : SplitResult) : List (List Char) :=
  segments (p.path.rdropWhile (· == '/'))

/-- The scheme and the authority are those of the prefix, and the path lies under its path. -/
structure LiesUnder (p t : SplitResult) : Prop where
  scheme : t.scheme = p.scheme
  netloc : t.netloc = p.netloc
  path : prefixSegments p <+: segments t.path

/-- One of the allowed prefixes, as it is parsed. -/
def IsAllowed (p : SplitResult) : Prop :=
  ∃ allowed ∈ settings.oauthAllowedRedirectPrefixes, settings.parse allowed = some p

/-- Without its dot segments the target lies under an allowed prefix, and the code is the whole fragment of the
URL that the browser is sent to. -/
structure LeadsInside (quoting : RedirectQuoting) (redirectTarget : String) (authCode : Uuid) : Prop where
  inside : ∃ split, urlsplit settings.checkNetloc redirectTarget.toList = some split ∧
    ∃ p, IsAllowed settings p ∧ LiesUnder p (split.removeDotSegments kind).withoutParams
  fragment : (splitFragment (redirectUrl quoting redirectTarget authCode)).2 =
    "auth_code=".toList ++ authCode.str

/-- The target, as it is written, lies under an allowed prefix that is written without dot segments, and its
segments below that never lead above it. -/
def StaysBelow (redirectTarget : String) : Prop :=
  ∀ split root rest, urlsplit settings.checkNetloc redirectTarget.toList = some split →
    segments split.path = root :: rest → ∃ p, IsAllowed settings p ∧ LiesUnder p split.withoutParams ∧
      (∀ segment ∈ rest.take ((prefixSegments p).length - 1), kind segment = .down) ∧
      Descends kind (rest.drop ((prefixSegments p).length - 1))

end

section

variable {kind : List Char → DotSegments.Kind} {settings : RedirectSettings} {quoting : RedirectQuoting}
  {redirectTarget : String} {authCode : Uuid} {split t p : SplitResult} {root : List Char}
  {rest : List (List Char)}

@[simp] theorem withoutParams_scheme (split : SplitResult) : split.withoutParams.scheme = split.scheme := by
  unfold SplitResult.withoutParams
  split <;> rfl

@[simp] theorem withoutParams_netloc (split : SplitResult) : split.withoutParams.netloc = split.netloc := by
  unfold SplitResult.withoutParams
  split <;> rfl

theorem liesUnder_withoutParams_iff : LiesUnder p split.withoutParams ↔
    split.scheme = p.scheme ∧ split.netloc = p.netloc ∧
      prefixSegments p <+: readSegments split.scheme (segments split.path) := by
  rw [← segments_withoutParams]
  constructor
  · rintro ⟨hscheme, hnetloc, hpath⟩
    exact ⟨by simpa using hscheme, by simpa using hnetloc, hpath⟩
  · rintro ⟨hscheme, hnetloc, hpath⟩
    exact ⟨by simpa using hscheme, by simpa using hnetloc, hpath⟩

/-! ### What the check accepts -/

/-- What the check compares is where the target lies as it is written. -/
theorem uriPrefixMatches_iff : uriPrefixMatches t p = true ↔ LiesUnder p t := by
  have hpath := isPrefix_closed_iff (getLast?_rdropWhile_ne p.path) t.path
  simp only [uriPrefixMatches, Bool.and_eq_true, beq_iff_eq, List.isPrefixOf_iff_prefix, hpath]
  constructor
  · rintro ⟨⟨hscheme, hnetloc⟩, hpath⟩
    exact ⟨hscheme, hnetloc, hpath⟩
  · rintro ⟨hscheme, hnetloc, hpath⟩
    exact ⟨⟨hscheme, hnetloc⟩, hpath⟩

theorem exists_of_matchesAnyOf {allowed : List String} (hmatches : settings.matchesAnyOf t allowed = some true) :
    ∃ url ∈ allowed, ∃ p, settings.parse url = some p ∧ LiesUnder p t := by
  induction allowed with
  | nil => cases hmatches
  | cons url others ih =>
      rw [RedirectSettings.matchesAnyOf, Option.bind_eq_some_iff] at hmatches
      obtain ⟨p, hparse, hmatches⟩ := hmatches
      split at hmatches
      · next hunder => exact ⟨url, List.mem_cons_self, p, hparse, uriPrefixMatches_iff.1 hunder⟩
      · obtain ⟨url', hmem, hother⟩ := ih hmatches
        exact ⟨url', List.mem_cons_of_mem _ hmem, hother⟩

theorem refuse_or_ok_iff {c : Prop} [Decidable c] {detail : String} {otherwise : Except RedirectRefusal Unit} :
    (if c then refuseTarget detail else otherwise) = .ok () ↔ ¬ c ∧ otherwise = .ok () := by
  by_cases hc : c
  · simp [hc, refuseTarget]
  · simp [hc]

theorem uriPrefixMatchAny_of_accepts (hpinned : settings.oauthAllowedRedirectPrefixes ≠ [])
    (haccepts : settings.validateRedirectTarget redirectTarget = .ok ()) :
    settings.uriPrefixMatchAny redirectTarget settings.oauthAllowedRedirectPrefixes = some true := by
  have hunpinned : settings.oauthAllowedRedirectPrefixes.isEmpty = false := by
    simpa using hpinned
  simp only [RedirectSettings.validateRedirectTarget, refuse_or_ok_iff] at haccepts
  obtain ⟨-, -, haccepts⟩ := haccepts
  split at haccepts
  · cases haccepts
  · simp only [refuse_or_ok_iff, hunpinned] at haccepts
    obtain ⟨-, -, -, -, -, -, haccepts⟩ := haccepts
    rw [if_neg Bool.false_ne_true] at haccepts
    split at haccepts
    · cases haccepts
    · cases haccepts
    · assumption

theorem liesUnder_of_accepts (hpinned : settings.oauthAllowedRedirectPrefixes ≠ [])
    (haccepts : settings.validateRedirectTarget redirectTarget = .ok ()) :
    ∃ split, urlsplit settings.checkNetloc redirectTarget.toList = some split ∧
      ∃ p, IsAllowed settings p ∧ LiesUnder p split.withoutParams := by
  have hmatches := uriPrefixMatchAny_of_accepts hpinned haccepts
  rw [RedirectSettings.uriPrefixMatchAny, Option.bind_eq_some_iff] at hmatches
  obtain ⟨t, hparse, hmatches⟩ := hmatches
  obtain ⟨split, hsplit, rfl⟩ := Option.map_eq_some_iff.1 hparse
  obtain ⟨url, hmem, p, hallowed, hunder⟩ := exists_of_matchesAnyOf hmatches
  exact ⟨split, hsplit, p, ⟨url, hmem, hallowed⟩, hunder⟩

/-! ### Where it leads -/

theorem segments_removeDotSegments (hsegments : segments split.path = root :: rest) :
    segments (split.removeDotSegments kind).path = root :: resolve kind [] rest := by
  have hslash : ∀ segment ∈ root :: rest, '/' ∉ segment := hsegments ▸ not_mem_segments
  have hremoved : split.removeDotSegments kind = { split with path := joined (root :: resolve kind [] rest) } := by
    rw [SplitResult.removeDotSegments, hsegments]
  rw [hremoved]
  refine segments_joined (List.cons_ne_nil _ _) fun segment hmem => ?_
  obtain rfl | hmem := List.mem_cons.1 hmem
  · exact hslash _ List.mem_cons_self
  · obtain hrest | rfl := mem_resolve hmem
    · exact hslash segment (List.mem_cons_of_mem _ hrest)
    · exact List.not_mem_nil

theorem liesUnder_removed_iff (hsegments : segments split.path = root :: rest) :
    LiesUnder p (split.removeDotSegments kind).withoutParams ↔
      split.scheme = p.scheme ∧ split.netloc = p.netloc ∧
        prefixSegments p <+: readSegments split.scheme (root :: resolve kind [] rest) := by
  have hscheme : (split.removeDotSegments kind).scheme = split.scheme := by
    rw [SplitResult.removeDotSegments, hsegments]
  have hnetloc : (split.removeDotSegments kind).netloc = split.netloc := by
    rw [SplitResult.removeDotSegments, hsegments]
  rw [liesUnder_withoutParams_iff, segments_removeDotSegments hsegments, hscheme, hnetloc]

/-- Below a prefix without dot segments, a path that never leads above it keeps it. -/
theorem liesUnder_removed_of_descends (hsegments : segments split.path = root :: rest)
    (hunder : LiesUnder p split.withoutParams)
    (hdown : ∀ segment ∈ rest.take ((prefixSegments p).length - 1), kind segment = .down)
    (hdescends : Descends kind (rest.drop ((prefixSegments p).length - 1))) :
    LiesUnder p (split.removeDotSegments kind).withoutParams := by
  obtain ⟨hscheme, hnetloc, hpath⟩ := liesUnder_withoutParams_iff.1 hunder
  refine (liesUnder_removed_iff hsegments).2 ⟨hscheme, hnetloc, ?_⟩
  generalize hdepth : (prefixSegments p).length - 1 = depth at hdown hdescends
  have hresolved : resolve kind [] rest =
      rest.take depth ++ ((route kind (rest.drop depth)).descent ++ trailing kind [] rest) := by
    have happend : resolve kind [] (rest.take depth ++ rest.drop depth) = _ := resolve_append [] _ _
    rw [List.take_append_drop, Route.follow, hdescends.route.1, walk_of_down hdown, Nat.sub_zero, List.take_length,
      List.nil_append, List.append_assoc] at happend
    exact happend
  by_cases hbelow : rest.drop depth = []
  · have hrest : rest.take depth = rest := List.take_of_length_le (List.drop_eq_nil_iff.1 hbelow)
    rw [hrest] at hdown hresolved
    have hsame : resolve kind [] rest = rest := by
      rw [hresolved, hbelow, trailing_of_down hdown]
      exact List.append_nil rest
    rw [hsame, ← hsegments]
    exact hpath
  · have hne : (route kind (rest.drop depth)).descent ++
        trailing kind [] (rest.take depth ++ rest.drop depth) ≠ [] :=
      descent_append_trailing_ne_nil [] _ hbelow
    have hbegins : prefixSegments p <+: root :: rest.take depth := by
      rw [hsegments, ← List.take_append_drop depth rest, ← List.cons_append,
        readSegments_append _ _ hbelow] at hpath
      refine List.prefix_of_prefix_length_le hpath (List.prefix_append _ _) ?_
      have hdepth' : depth < rest.length := by
        simpa using hbelow
      rw [List.length_cons, List.length_take]
      omega
    rw [List.take_append_drop] at hne
    rw [hresolved, ← List.cons_append, readSegments_append _ _ hne]
    exact hbegins.trans (List.prefix_append _ _)

/-! ### The fragment -/

/-- The fragment begins after the first mark, however the text before it is quoted. -/
theorem splitFragment_quoted {before : List Char} (hbefore : '#' ∉ before) (after : List Char) :
    (splitFragment ((before ++ '#' :: after).flatMap quoting.quote)).2 = after.flatMap quoting.quote := by
  have hquoted : ∀ c ∈ before.flatMap quoting.quote, (c != '#') = true := by
    intro c hc
    obtain ⟨d, hd, hc⟩ := List.mem_flatMap.1 hc
    rw [bne_iff_ne]
    rintro rfl
    exact hbefore (quoting.eq_mark d hc ▸ hd)
  rw [splitFragment, List.flatMap_append, List.flatMap_cons, quoting.quote_mark]
  rw [List.dropWhile_append_of_pos hquoted]
  rfl

theorem isSafe_code : ∀ c ∈ "auth_code=".toList ++ authCode.str, c.isAlphanum = true ∨ c ∈ ['=', '-', '_'] := by
  have hkey : ("auth_code=".toList.all fun c => c.isAlphanum || ['=', '-', '_'].contains c) = true := by
    decide +kernel
  intro c hc
  obtain hc | hc := List.mem_append.1 hc
  · simpa using List.all_eq_true.1 hkey c hc
  · exact (Uuid.mem_str c hc).imp_right fun hdash => by simp [hdash]

theorem flatMap_quote_code :
    ("auth_code=".toList ++ authCode.str).flatMap quoting.quote = "auth_code=".toList ++ authCode.str := by
  rw [List.flatMap_congr fun c hc => quoting.quote_safe c (isSafe_code c hc), List.flatMap_singleton']

/-- The code is the whole fragment exactly when the target has none. -/
theorem fragment_eq_iff : (splitFragment (redirectUrl quoting redirectTarget authCode)).2 =
    "auth_code=".toList ++ authCode.str ↔ '#' ∉ redirectTarget.toList := by
  have hmark : "#auth_code=".toList = '#' :: "auth_code=".toList := rfl
  rw [redirectUrl, hmark, List.append_assoc, List.cons_append]
  constructor
  · intro hfragment hmem
    obtain ⟨before, after, htarget, hbefore⟩ := List.eq_append_cons_of_mem hmem
    rw [htarget, List.append_assoc, List.cons_append, splitFragment_quoted hbefore] at hfragment
    have hsecond : '#' ∈ "auth_code=".toList ++ authCode.str := by
      rw [← hfragment, List.flatMap_append, List.flatMap_cons, quoting.quote_mark]
      simp
    obtain hsafe | hsafe := isSafe_code '#' hsecond
    · exact absurd hsafe (by decide)
    · exact absurd hsafe (by decide)
  · intro hnone
    rw [splitFragment_quoted hnone, flatMap_quote_code]

/-- An accepted target that never leads above the prefix it is written under leads inside, exactly when it has
no fragment of its own. -/
theorem leads_inside_iff (kind : List Char → DotSegments.Kind) (settings : RedirectSettings)
    (quoting : RedirectQuoting) (authCode : Uuid) (hpinned : settings.oauthAllowedRedirectPrefixes ≠ [])
    (haccepts : settings.validateRedirectTarget redirectTarget = .ok ())
    (hbelow : StaysBelow kind settings redirectTarget) :
    LeadsInside kind settings quoting redirectTarget authCode ↔ '#' ∉ redirectTarget.toList := by
  obtain ⟨split, hsplit, -⟩ := liesUnder_of_accepts hpinned haccepts
  obtain ⟨root, rest, hsegments⟩ := List.exists_cons_of_ne_nil (segments_ne_nil split.path)
  obtain ⟨p, hallowed, hunder, hdown, hdescends⟩ := hbelow split root rest hsplit hsegments
  constructor
  · intro hinside
    exact fragment_eq_iff.1 hinside.fragment
  · intro hnone
    have hremoved := liesUnder_removed_of_descends hsegments hunder hdown hdescends
    exact ⟨⟨split, hsplit, p, hallowed, hremoved⟩, fragment_eq_iff.2 hnone⟩

end

def quotedByte (byte : UInt8) : List Char :=
  '%' :: Digits.digits 16 2 byte.toNat

def isQuoteSafe (c : Char) : Bool :=
  c.isAlphanum || "-_.~:/%#?=@[]!$&'()*+,;".toList.contains c

/-- The quoting of the bytes of the other characters. -/
def percentQuoting : RedirectQuoting where
  quote c := if isQuoteSafe c then [c] else (String.utf8EncodeChar c).flatMap quotedByte
  quote_mark := by decide +kernel
  eq_mark c hmark := by
    split at hmark
    · exact (List.mem_singleton.1 hmark).symm
    · obtain ⟨byte, -, hbyte⟩ := List.mem_flatMap.1 hmark
      obtain hpercent | hdigit := List.mem_cons.1 hbyte
      · exact absurd hpercent (by decide)
      · exact absurd (Digits.isAlphanum_digits (by decide) (by decide) _ hdigit) (by decide)
  quote_safe c hsafe := by
    have hquote : isQuoteSafe c = true := by
      obtain hletter | hother := hsafe
      · simp [isQuoteSafe, hletter]
      · have hall : (['=', '-', '_'].all isQuoteSafe) = true := by
          decide +kernel
        exact List.all_eq_true.1 hall c hother
    rw [if_pos hquote]

/-- A web client whose callback is pinned. -/
def pinnedCallback : RedirectSettings where
  oauthAllowedRedirectSchemes := ["https://"]
  oauthAllowedRedirectPrefixes := ["https://app.example/cb"]
  environment := "production"

def sentCode : Uuid := ⟨43, by decide⟩

def callbackUrl (path : String) : SplitResult where
  scheme := "https".toList
  netloc := "app.example".toList
  path := path.toList

theorem parse_pinnedCallback : pinnedCallback.parse "https://app.example/cb" = some (callbackUrl "/cb") := by
  decide +kernel

theorem leads_inside_iff_pinnedCallback :
    LeadsInside dotSegment pinnedCallback percentQuoting "https://app.example/cb/x/../y" sentCode := by
  have haccepts : pinnedCallback.validateRedirectTarget "https://app.example/cb/x/../y" = .ok () := by
    decide +kernel
  have hsplit : urlsplit pinnedCallback.checkNetloc "https://app.example/cb/x/../y".toList =
      some (callbackUrl "/cb/x/../y") := by
    decide +kernel
  have hsegments : segments (callbackUrl "/cb/x/../y").path = [] :: ["cb".toList, ['x'], ['.', '.'], ['y']] := by
    decide +kernel
  have hallowed : IsAllowed pinnedCallback (callbackUrl "/cb") := ⟨_, List.mem_cons_self, parse_pinnedCallback⟩
  have hbelow : StaysBelow dotSegment pinnedCallback "https://app.example/cb/x/../y" := by
    intro split root rest hsplit' hrest
    obtain rfl := Option.some.inj (hsplit.symm.trans hsplit')
    obtain ⟨rfl, rfl⟩ := List.cons.inj (hsegments.symm.trans hrest)
    refine ⟨callbackUrl "/cb", hallowed, ⟨by decide +kernel, by decide +kernel, by decide +kernel⟩, ?_, ?_⟩
    · decide +kernel
    · decide +kernel
  exact (leads_inside_iff dotSegment pinnedCallback percentQuoting sentCode (by decide +kernel) haccepts
    hbelow).2 (by decide +kernel)

/-- A target that climbs above its prefix, and one with a fragment of its own. -/
theorem accepted_targets_lead_outside :
    (pinnedCallback.validateRedirectTarget "https://app.example/cb/../evil" = .ok () ∧
      ¬ LeadsInside dotSegment pinnedCallback percentQuoting "https://app.example/cb/../evil" sentCode) ∧
      pinnedCallback.validateRedirectTarget "https://app.example/cb#x" = .ok () ∧
      ¬ LeadsInside dotSegment pinnedCallback percentQuoting "https://app.example/cb#x" sentCode := by
  refine ⟨⟨by decide +kernel, ?_⟩, by decide +kernel, ?_⟩
  · rintro ⟨⟨split, hsplit, p, ⟨allowed, hmem, hparse⟩, hunder⟩, -⟩
    have hsplit' : urlsplit pinnedCallback.checkNetloc "https://app.example/cb/../evil".toList =
        some (callbackUrl "/cb/../evil") := by
      decide +kernel
    obtain rfl := Option.some.inj (hsplit.symm.trans hsplit')
    obtain rfl := List.mem_singleton.1 hmem
    obtain rfl := Option.some.inj (hparse.symm.trans parse_pinnedCallback)
    exact absurd hunder.path (by decide +kernel)
  · rintro ⟨-, hfragment⟩
    exact absurd hfragment (by decide +kernel)

end FaAuthM8

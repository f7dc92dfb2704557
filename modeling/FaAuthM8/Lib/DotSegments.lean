import Mathlib.Data.List.Induction
import Mathlib.Data.List.Infix

/-!
# Dot segments

A path is walked one segment at a time. A segment leads down, or stays where it is, or leads up to the parent
of the directory, and at the root it stays there. Whatever directory a walk starts from, it climbs out of the
same number of its levels and comes down by the same segments: these two are the route of the walk, and a path
that begins with another one ends where the route of the rest leads from there.
-/

namespace DotSegments

inductive Kind
  | here
  | up
  | down
deriving DecidableEq, Repr

/-- The levels a walk climbs above the directory it starts from, and the segments it then comes down by. -/
structure Route (σ : Type) where
  climbed : Nat := 0
  descent : List σ := []

variable {σ : Type} (kind : σ → Kind)

def enter (directory : List σ) (segment : σ) : List σ :=
  match kind segment with
  | .here => directory
  | .up => directory.dropLast
  | .down => directory ++ [segment]

def walk (directory segments : List σ) : List σ :=
  segments.foldl (enter kind) directory

/-- After a last dot segment, the empty segment that makes the path end in a slash. -/
def trailing (empty : σ) (segments : List σ) : List σ :=
  if segments.getLast?.any (kind · ≠ .down) then [empty] else []

/-- The segments of a path without its dot segments. -/
def resolve (empty : σ) (segments : List σ) : List σ :=
  walk kind [] segments ++ trailing kind empty segments

namespace Route

def enter (route : Route σ) (segment : σ) : Route σ :=
  match kind segment with
  | .here => route
  | .up =>
      if route.descent.isEmpty then { route with climbed := route.climbed + 1 }
      else { route with descent := route.descent.dropLast }
  | .down => { route with descent := route.descent ++ [segment] }

def follow (route : Route σ) (directory : List σ) : List σ :=
  directory.take (directory.length - route.climbed) ++ route.descent

end Route

def route (segments : List σ) : Route σ :=
  segments.foldl (Route.enter kind) {}

variable {kind}

theorem Route.follow_enter (r : Route σ) (directory : List σ) (segment : σ) :
    (r.enter kind segment).follow directory = DotSegments.enter kind (r.follow directory) segment := by
  unfold Route.enter DotSegments.enter
  split
  · rfl
  · split
    · next hempty =>
        rw [List.isEmpty_iff] at hempty
        simp only [follow, hempty, List.append_nil]
        rw [List.dropLast_eq_take, List.take_take, List.length_take]
        congr 1
        omega
    · next hne =>
        rw [List.isEmpty_iff] at hne
        rw [follow, follow, List.dropLast_append_of_ne_nil hne]
  · simp [follow]

theorem walk_append (directory above below : List σ) :
    walk kind directory (above ++ below) = walk kind (walk kind directory above) below :=
  List.foldl_append

/-- A walk is its route, followed from where it starts. -/
theorem walk_eq_follow (directory segments : List σ) :
    walk kind directory segments = (route kind segments).follow directory := by
  have hstart : ({} : Route σ).follow directory = directory := by
    simp [Route.follow]
  have hfold (r : Route σ) : segments.foldl (enter kind) (r.follow directory) =
      (segments.foldl (Route.enter kind) r).follow directory := by
    induction segments generalizing r with
    | nil => rfl
    | cons segment rest ih =>
        rw [List.foldl_cons, List.foldl_cons, ← ih, Route.follow_enter]
  rw [walk, route, ← hfold, hstart]

theorem resolve_append (empty : σ) (above below : List σ) :
    resolve kind empty (above ++ below) =
      (route kind below).follow (walk kind [] above) ++ trailing kind empty (above ++ below) := by
  rw [resolve, walk_append, walk_eq_follow _ below]

theorem walk_of_down {segments : List σ} (hdown : ∀ segment ∈ segments, kind segment = .down)
    (directory : List σ) : walk kind directory segments = directory ++ segments := by
  induction segments generalizing directory with
  | nil => simp [walk]
  | cons segment rest ih =>
      have hfirst : enter kind directory segment = directory ++ [segment] := by
        rw [enter, hdown segment List.mem_cons_self]
      rw [walk, List.foldl_cons, hfirst]
      show walk kind _ rest = _
      rw [ih fun segment hmem => hdown segment (List.mem_cons_of_mem _ hmem)]
      simp

/-- The segments never lead above where they start: at no point have more of them led up than down. -/
def Descends (kind : σ → Kind) (segments : List σ) : Prop :=
  ∀ initial, initial <+: segments → initial.countP (kind · = .up) ≤ initial.countP (kind · = .down)

theorem route_concat (segments : List σ) (segment : σ) :
    route kind (segments ++ [segment]) = (route kind segments).enter kind segment := by
  rw [route, List.foldl_append]
  rfl

/-- Such a walk climbs out of no level, and each segment that leads up takes back one that led down. -/
theorem Descends.route {segments : List σ} (hdescends : Descends kind segments) :
    (route kind segments).climbed = 0 ∧
      (route kind segments).descent.length + segments.countP (kind · = .up) =
        segments.countP (kind · = .down) := by
  induction segments using List.reverseRecOn with
  | nil => exact ⟨rfl, rfl⟩
  | append_singleton before segment ih =>
      obtain ⟨hclimbed, hlength⟩ := ih fun initial hinitial =>
        hdescends initial (hinitial.trans (List.prefix_append _ _))
      have hwhole := hdescends _ (List.prefix_refl _)
      rw [List.countP_append, List.countP_append, List.countP_singleton, List.countP_singleton] at hwhole ⊢
      rw [route_concat, Route.enter]
      cases hkind : kind segment with
      | here => simpa [hkind] using ⟨hclimbed, hlength⟩
      | down =>
          refine ⟨hclimbed, ?_⟩
          simp
          omega
      | up =>
          rw [hkind] at hwhole
          have hpos : 0 < (DotSegments.route kind before).descent.length := by
            simp at hwhole
            omega
          have hne : (DotSegments.route kind before).descent.isEmpty = false := by
            rw [List.isEmpty_eq_false_iff]
            exact List.ne_nil_of_length_pos hpos
          simp only [hne, Bool.false_eq_true, if_false]
          refine ⟨hclimbed, ?_⟩
          simp
          omega

instance (segments : List σ) : Decidable (Descends kind segments) :=
  decidable_of_iff (∀ initial ∈ segments.inits,
    initial.countP (kind · = .up) ≤ initial.countP (kind · = .down)) (by simp [Descends, List.mem_inits])

theorem trailing_of_down {segments : List σ} (hdown : ∀ segment ∈ segments, kind segment = .down)
    (empty : σ) : trailing kind empty segments = [] := by
  have hlast : segments.getLast?.any (kind · ≠ .down) = false := by
    rw [Option.any_eq_false]
    intro segment hsegment
    simpa using hdown segment (List.mem_of_getLast? hsegment)
  rw [trailing, hlast]
  rfl

/-- What follows the directory that a path comes back to: a last segment, or an empty one. -/
theorem descent_append_trailing_ne_nil (empty : σ) (above : List σ) {below : List σ} (hne : below ≠ []) :
    (route kind below).descent ++ trailing kind empty (above ++ below) ≠ [] := by
  obtain ⟨rest, last, rfl⟩ := (List.eq_nil_or_concat' below).resolve_left hne
  by_cases hlast : kind last = .down
  · have hdescent : (route kind (rest ++ [last])).descent = (route kind rest).descent ++ [last] := by
      rw [route, List.foldl_append, List.foldl_cons, List.foldl_nil, Route.enter, hlast]
      rfl
    simp [hdescent]
  · have htrailing : trailing kind empty (above ++ (rest ++ [last])) = [empty] := by
      simp [trailing, ← List.append_assoc, hlast]
    simp [htrailing]

theorem mem_walk {directory segments : List σ} {segment : σ} (hmem : segment ∈ walk kind directory segments) :
    segment ∈ directory ∨ segment ∈ segments := by
  induction segments generalizing directory with
  | nil => exact .inl hmem
  | cons next rest ih =>
      obtain hentered | hrest := ih hmem
      · unfold enter at hentered
        split at hentered
        · exact .inl hentered
        · exact .inl ((List.dropLast_sublist _).subset hentered)
        · obtain hdirectory | hnext := List.mem_append.1 hentered
          · exact .inl hdirectory
          · exact .inr (List.mem_cons.2 (.inl (List.mem_singleton.1 hnext)))
      · exact .inr (List.mem_cons_of_mem _ hrest)

theorem mem_resolve {empty segment : σ} {segments : List σ} (hmem : segment ∈ resolve kind empty segments) :
    segment ∈ segments ∨ segment = empty := by
  obtain hwalk | htrailing := List.mem_append.1 hmem
  · exact .inl ((mem_walk hwalk).resolve_left List.not_mem_nil)
  · unfold trailing at htrailing
    split at htrailing
    · exact .inr (List.mem_singleton.1 htrailing)
    · cases htrailing

end DotSegments

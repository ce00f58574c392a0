import Hydration.Proofs.Paths.Absolute
import Mathlib.Data.List.DropRight
import Mathlib.Data.List.Infix

/-!
# What absolute paths look like

A URL has a front, its scheme and its authority, which resolving leaves alone; a
path without `://` has none.  Behind the front an absolute path is resolved: it
is empty or rooted, and none of its segments is empty or a dot segment.

A path that is relative to a URL keeps the front of the URL, unless nothing but
slashes follows the `://` there: then the slashes of the `://` itself are taken
off with the others, and the result is a rooted path.
-/

namespace Hydration

namespace Path

variable {base path front rest scheme : List Char}

/-- What stands between the scheme and the authority of a URL. -/
def mark : List Char :=
  [':', '/', '/']

/--
A path consists of its front and the rest.  The front of a URL ends before the
first slash behind its first mark.
-/
inductive Divides : List Char → List Char → List Char → Prop where
  | plain
      {path : List Char}
      (unmarked : ¬ mark <:+: path) :
      Divides path [] path
  | url
      {scheme authority rest : List Char}
      (first : ¬ mark <:+: scheme ++ [':', '/'])
      (whole : '/' ∉ authority)
      (stops : ∀ next ∈ rest.head?, next = '/') :
      Divides (scheme ++ mark ++ authority ++ rest) (scheme ++ mark ++ authority) rest

/-- A text that is empty, or a slash and segments without dot segments and empty ones. -/
inductive IsResolved : List Char → Prop where
  | nothing :
      IsResolved []
  | rooted
      {pieces : List (List Char)}
      (plain : ∀ piece ∈ pieces, IsPlain piece) :
      IsResolved ('/' :: Text.joined '/' pieces)

theorem isResolved_normalise (path : List Char) : IsResolved (normalise path) :=
  .rooted fun _ => plain_of_mem_segments

/-- A scheme is found where there is a mark. -/
theorem splitScheme?_eq_none_iff : splitScheme? path = none ↔ ¬ mark <:+: path := by
  constructor
  · intro absent
    induction path with
    | nil => simp [mark]
    | cons character others inductionHypothesis =>
        unfold splitScheme? at absent
        split at absent
        · cases absent
        · next unmarked =>
            rw [List.infix_cons_iff, not_or]
            refine ⟨?_, inductionHypothesis (Option.map_eq_none_iff.mp absent)⟩
            rintro ⟨after, shape⟩
            obtain ⟨colon, slashes⟩ := List.cons.inj shape
            exact unmarked after colon.symm slashes.symm
  · intro unmarked
    refine Option.eq_none_iff_forall_not_mem.mpr fun parts found => unmarked ?_
    obtain ⟨before, same, shape⟩ := append_of_splitScheme? found
    rw [shape, same]
    exact ⟨before, parts.2, rfl⟩

/-- A path is cut at its first mark. -/
theorem splitScheme?_append_mark
    (first : ¬ mark <:+: scheme ++ [':', '/'])
    (rest : List Char) :
    splitScheme? (scheme ++ mark ++ rest) = some (scheme ++ mark, rest) := by
  induction scheme with
  | nil => rfl
  | cons character others inductionHypothesis =>
      obtain ⟨here, later⟩ := not_or.mp (mt List.infix_cons_iff.mpr first)
      rw [List.cons_append, List.cons_append, splitScheme?, inductionHypothesis later,
        Option.map_some]
      -- A mark at the front would lie before the first one, or overlap it.
      rintro after rfl slashes
      rcases others with _ | ⟨second, _ | ⟨third, others⟩⟩
      · simp [mark] at slashes
      · simp [mark] at slashes
      · obtain ⟨rfl, rfl, _⟩ : second = '/' ∧ third = '/' ∧ _ := by simpa using slashes
        exact here ⟨others ++ [':', '/'], rfl⟩

/-- No mark ends before the one at which a path is cut. -/
theorem not_mark_of_splitScheme?
    (found : splitScheme? path = some (scheme ++ mark, rest)) :
    ¬ mark <:+: scheme ++ [':', '/'] := by
  intro marked
  cases earlier : splitScheme? (scheme ++ [':', '/']) with
  | none => exact splitScheme?_eq_none_iff.mp earlier marked
  | some parts =>
      obtain ⟨head, later⟩ := parts
      obtain ⟨_, _, shape⟩ := append_of_splitScheme? earlier
      have here : splitScheme? (scheme ++ mark) = some (scheme ++ mark, []) := by
        simpa using splitScheme?_append found []
      have there : splitScheme? (scheme ++ mark) = some (head, later ++ ['/']) := by
        have longer := splitScheme?_append earlier (later ++ ['/'])
        rwa [← List.append_assoc, ← shape, List.append_assoc] at longer
      simp [here] at there

/-- A path is divided behind the authority that follows its first mark. -/
theorem divides_iff :
    Divides path front rest ↔
      match splitScheme? path with
      | none => front = [] ∧ rest = path
      | some (scheme, later) =>
          front = scheme ++ later.takeWhile (· ≠ '/') ∧ rest = later.dropWhile (· ≠ '/') := by
  constructor
  · rintro (unmarked | ⟨first, whole, stops⟩)
    · rw [splitScheme?_eq_none_iff.mpr unmarked]
      exact ⟨rfl, rfl⟩
    · next scheme authority =>
      have inside : ∀ character ∈ authority, decide (character ≠ '/') = true :=
        fun character member => decide_eq_true fun slash => whole (slash ▸ member)
      rw [List.append_assoc, splitScheme?_append_mark first]
      dsimp only
      rw [List.takeWhile_append_of_pos inside, List.dropWhile_append_of_pos inside]
      cases rest with
      | nil => simp
      | cons next others => simp [stops next rfl]
  · intro same
    cases found : splitScheme? path with
    | none =>
        obtain ⟨rfl, rfl⟩ : front = [] ∧ rest = path := by simpa only [found] using same
        exact .plain (splitScheme?_eq_none_iff.mp found)
    | some parts =>
        obtain ⟨head, later⟩ := parts
        obtain ⟨rfl, rfl⟩ : front = head ++ later.takeWhile (· ≠ '/') ∧
            rest = later.dropWhile (· ≠ '/') := by simpa only [found] using same
        obtain ⟨scheme, rfl, shape⟩ := append_of_splitScheme? found
        have whole : '/' ∉ later.takeWhile (· ≠ '/') := fun member => by
          simpa using List.mem_takeWhile_imp member
        have stops : ∀ next ∈ (later.dropWhile (· ≠ '/')).head?, next = '/' := by
          intro next head
          have slash := List.head?_dropWhile_not (· ≠ '/') later
          rw [Option.mem_def.mp head] at slash
          simpa using slash
        have divided := Divides.url (not_mark_of_splitScheme? found) whole stops
        rw [List.append_assoc _ (later.takeWhile _), List.takeWhile_append_dropWhile] at divided
        exact shape ▸ divided

/-- The first mark of a path lies in its front. -/
theorem Divides.mark_infix
    (divides : Divides path front rest)
    (marked : mark <:+: path) :
    mark <:+: front := by
  cases divides with
  | plain unmarked => exact absurd marked unmarked
  | url => exact ⟨_, _, rfl⟩

/-- The rest of an absolute path is resolved. -/
theorem exists_divides_absolute (base path : String) :
    ∃ front rest, Divides (absolute base path).toList front rest ∧ IsResolved rest := by
  rw [absolute, String.toList_ofList]
  rcases resolve_cases base.toList path.toList with isUrl | ⟨other, rooted⟩
  · generalize resolve base.toList path.toList = url at isUrl
    obtain ⟨⟨scheme, later⟩, found, same⟩ := Option.map_eq_some_iff.mp isUrl
    refine ⟨_, _, divides_iff.mpr (by rw [found]; exact ⟨rfl, rfl⟩), ?_⟩
    obtain ⟨_, _, shape⟩ := append_of_splitScheme? found
    have spelled :
        scheme ++ later.takeWhile (· ≠ '/') ++
            (if later.dropWhile (· ≠ '/') = [] then []
              else normalise (later.dropWhile (· ≠ '/'))) =
          scheme ++ later.takeWhile (· ≠ '/') ++ later.dropWhile (· ≠ '/') := by
      rw [List.append_assoc _ _ (later.dropWhile _), List.takeWhile_append_dropWhile, ← shape]
      exact same
    rw [← List.append_cancel_left spelled]
    split
    · exact .nothing
    · exact isResolved_normalise _
  · rw [rooted]
    exact ⟨[], _, .plain (splitScheme?_eq_none_iff.mp (splitScheme?_normalise other)),
      isResolved_normalise other⟩

/--
An absolute path is a fixed point, whatever base it is resolved against.  It is
rooted or a URL, and behind its front it is resolved.
-/
theorem absolute_resolved (base other path : String) :
    absolute other (absolute base path) = absolute base path ∧
      ((absolute base path).toList.head? = some '/' ∨ mark <:+: (absolute base path).toList) ∧
      ∃ front rest, Divides (absolute base path).toList front rest ∧ IsResolved rest := by
  refine ⟨absolute_absolute base other path, ?_, exists_divides_absolute base path⟩
  rw [absolute, String.toList_ofList]
  rcases resolve_cases base.toList path.toList with isUrl | ⟨other, rooted⟩
  · refine .inr (not_not.mp fun unmarked => ?_)
    rw [ofUrl?, splitScheme?_eq_none_iff.mpr unmarked] at isUrl
    cases isUrl
  · rw [rooted]
    exact .inl rfl

/-- Between a text that does not end in a slash and one that does not begin with one, a slash
makes no mark. -/
theorem not_mark_append_slash
    (firm : ∀ last ∈ base.getLast?, last ≠ '/')
    (unmarked : ¬ mark <:+: base)
    (unrooted : path.head? ≠ some '/')
    (relative : ¬ mark <:+: path) :
    ¬ mark <:+: base ++ '/' :: path := by
  induction base with
  | nil =>
      rw [List.nil_append, List.infix_cons_iff, not_or]
      exact ⟨by simp [mark], relative⟩
  | cons character others inductionHypothesis =>
      obtain ⟨here, later⟩ := not_or.mp (mt List.infix_cons_iff.mpr unmarked)
      rw [List.cons_append, List.infix_cons_iff, not_or]
      refine ⟨?_, inductionHypothesis (fun last member => firm last ?_) later⟩
      · rintro ⟨after, shape⟩
        obtain ⟨rfl, slashes⟩ := List.cons.inj shape
        rcases others with _ | ⟨second, _ | ⟨third, others⟩⟩
        · simp [← (List.cons.inj slashes).2] at unrooted
        · exact firm second rfl (List.cons.inj slashes).1.symm
        · obtain ⟨rfl, rfl, _⟩ : second = '/' ∧ third = '/' ∧ _ := by simpa [eq_comm] using slashes
          exact here ⟨others, rfl⟩
      · simp [List.getLast?_cons, Option.mem_def.mp member]

/-- What is taken off the end of a base are slashes, and none is left there. -/
theorem exists_trimSlashes (base : List Char) :
    ∃ slashes, base = trimSlashes base ++ slashes ∧ (∀ slash ∈ slashes, slash = '/') ∧
      ∀ last ∈ (trimSlashes base).getLast?, last ≠ '/' := by
  refine ⟨base.rtakeWhile (· = '/'), List.rdropWhile_append_rtakeWhile.symm, ?_, ?_⟩
  · intro slash member
    simpa using List.mem_rtakeWhile_imp member
  · intro last member slash
    have nonempty : trimSlashes base ≠ [] := by
      rintro empty
      simp [empty] at member
    have differs := List.rdropWhile_last_not (· = '/') base nonempty
    rw [List.getLast?_eq_some_getLast nonempty] at member
    cases member
    exact differs (decide_eq_true slash)

/-- Where a slash follows a text, what it has in front of its first slash stays. -/
theorem takeWhile_append_slash
    {text rest : List Char}
    (stops : ∀ next ∈ rest.head?, next = '/') :
    (text ++ rest).takeWhile (· ≠ '/') = text.takeWhile (· ≠ '/') := by
  have nothing : rest.takeWhile (· ≠ '/') = [] := by
    cases rest with
    | nil => rfl
    | cons next others => simp [stops next rfl]
  rw [List.takeWhile_append]
  split
  · next whole =>
      rw [nothing, List.append_nil]
      exact ((List.takeWhile_prefix _).eq_of_length whole).symm
  · rfl

/-- The front of a URL stays when slashes at its end are replaced by a path. -/
theorem exists_ofUrl?_append
    {slashes : List Char}
    (marked : mark <:+: base)
    (allSlashes : ∀ slash ∈ slashes, slash = '/')
    (divides : Divides (base ++ slashes) front rest)
    (path : List Char) :
    ∃ url, ofUrl? (base ++ '/' :: path) = some url ∧ front <+: url := by
  cases found : splitScheme? base with
  | none => exact absurd marked (splitScheme?_eq_none_iff.mp found)
  | some parts =>
      obtain ⟨scheme, later⟩ := parts
      obtain ⟨_, _, rfl⟩ := append_of_splitScheme? found
      have cut (after : List Char) :
          splitScheme? (scheme ++ later ++ after) = some (scheme, later ++ after) := by
        rw [List.append_assoc]
        exact splitScheme?_append found (later ++ after)
      have divided := divides_iff.mp divides
      rw [cut] at divided
      dsimp only at divided
      rw [takeWhile_append_slash fun next head => allSlashes next (List.mem_of_mem_head? head)]
        at divided
      rw [ofUrl?, cut, Option.map_some]
      dsimp only
      rw [takeWhile_append_slash fun next head => by simpa using head.symm, divided.1]
      exact ⟨_, rfl, List.prefix_append _ _⟩

/--
A path that is relative to a URL keeps the front of the URL if and only if there
is still a mark when the slashes at the end of the URL are taken off.
-/
theorem front_prefix_absolute_iff
    {base path : String}
    {front rest : List Char}
    (isUrl : mark <:+: base.toList)
    (divides : Divides base.toList front rest)
    (unrooted : path.toList.head? ≠ some '/')
    (relative : ¬ mark <:+: path.toList) :
    front <+: (absolute base path).toList ↔ mark <:+: trimSlashes base.toList := by
  obtain ⟨slashes, shape, allSlashes, firm⟩ := exists_trimSlashes base.toList
  have hasScheme : (splitScheme? base.toList).isSome := by
    rw [Option.isSome_iff_ne_none]
    exact fun absent => splitScheme?_eq_none_iff.mp absent isUrl
  rw [absolute, String.toList_ofList, resolve, ofUrl?, splitScheme?_eq_none_iff.mpr relative,
    Option.map_none]
  dsimp only
  rw [if_neg unrooted, if_pos hasScheme]
  constructor
  · intro kept
    by_contra unmarked
    have plain := splitScheme?_eq_none_iff.mpr
      (not_mark_append_slash firm unmarked unrooted relative)
    rw [ofUrl?, plain, Option.map_none, Option.getD_none] at kept
    exact splitScheme?_eq_none_iff.mp (splitScheme?_normalise _)
      ((divides.mark_infix isUrl).trans kept.isInfix)
  · intro marked
    rw [shape] at divides
    obtain ⟨url, found, kept⟩ := exists_ofUrl?_append marked allSlashes divides path.toList
    rw [found, Option.getD_some]
    exact kept

/-- Neither dots nor slashes at the end of the base lead out of it. -/
theorem front_prefix_absolute_of_dots :
    let base := "https://cdn.example.com/js/../.."
    let path := "../../ui/./map"
    let front := "https://cdn.example.com".toList
    mark <:+: base.toList ∧ Divides base.toList front "/js/../..".toList ∧
      path.toList.head? ≠ some '/' ∧ ¬ mark <:+: path.toList ∧
      mark <:+: trimSlashes base.toList ∧ front <+: (absolute base path).toList := by
  intro base path front
  have isUrl : mark <:+: base.toList := by decide
  have divides : Divides base.toList front "/js/../..".toList := by
    have cut : base.toList =
        "https".toList ++ mark ++ "cdn.example.com".toList ++ "/js/../..".toList := by decide
    rw [cut]
    exact .url (by decide) (by decide) (by simp)
  have unrooted : path.toList.head? ≠ some '/' := by decide
  have relative : ¬ mark <:+: path.toList := by decide
  have marked : mark <:+: trimSlashes base.toList := by decide
  exact ⟨isUrl, divides, unrooted, relative, marked,
    (front_prefix_absolute_iff isUrl divides unrooted relative).mpr marked⟩

/--
The slashes of a base that has nothing behind its mark are taken off with those of
the mark, and the path is continued as if the scheme were a segment.
-/
theorem absolute_leaves_front :
    Divides "file:///".toList "file://".toList ['/'] ∧
      absolute "file:///" "x" = "/file:/x" ∧
      ¬ "file://".toList <+: (absolute "file:///" "x").toList := by
  refine ⟨?_, by decide, by decide⟩
  have cut : "file:///".toList = "file".toList ++ mark ++ [] ++ ['/'] := by decide
  rw [cut]
  exact .url (by decide) (by decide) (by simp)

end Path

end Hydration

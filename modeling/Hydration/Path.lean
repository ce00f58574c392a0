import Hydration.Text.Fields

/-!
# Module paths

Modules are named by slash-separated paths, by URLs, or by names relative to a
base.  `Path.absolute` gives each of them one canonical spelling: dots are
resolved, empty segments vanish, and the scheme and authority of a URL are left
alone.
-/

namespace Hydration

namespace Path

/--
The text up to and including its first `://`, and the rest; none if the text
has no such mark.
-/
def splitScheme? : List Char → Option (List Char × List Char)
  | [] => none
  | character :: rest =>
      match character, rest with
      | ':', '/' :: '/' :: after => some ([':', '/', '/'], after)
      | _, _ =>
          (splitScheme? rest).map fun parts => (character :: parts.1, parts.2)

/-- One more segment below the segments walked so far, deepest first. -/
def descend (walked : List (List Char)) (segment : List Char) : List (List Char) :=
  if segment = [] ∨ segment = ['.'] then walked
  else if segment = ['.', '.'] then walked.tail
  else segment :: walked

/-- The segments of a path without `.`, `..` and empty ones; `..` stops at the root. -/
def segments (path : List Char) : List (List Char) :=
  ((Text.fields '/' path).foldl descend []).reverse

/-- The rooted path with the resolved segments of `path`. -/
def normalise (path : List Char) : List Char :=
  '/' :: Text.joined '/' (segments path)

/-- The canonical spelling of a URL; none for a text without a scheme. -/
def ofUrl? (path : List Char) : Option (List Char) :=
  (splitScheme? path).map fun parts =>
    let authority := parts.2.takeWhile (· ≠ '/')
    let tail := parts.2.dropWhile (· ≠ '/')
    parts.1 ++ authority ++ (if tail = [] then [] else normalise tail)

/-- A text without the slashes at its end. -/
def trimSlashes (base : List Char) : List Char :=
  (base.reverse.dropWhile (· = '/')).reverse

/--
The canonical spelling of `path`.  A URL or a rooted path does not look at the
base; any other path continues the base, which may be a URL itself.
-/
def resolve (base path : List Char) : List Char :=
  match ofUrl? path with
  | some url => url
  | none =>
      if path.head? = some '/' then
        normalise path
      else if (splitScheme? base).isSome then
        let continued := trimSlashes base ++ '/' :: path
        (ofUrl? continued).getD (normalise continued)
      else
        normalise (base ++ '/' :: path)

/-- The absolute form of `path` against `base`. -/
def absolute (base path : String) : String :=
  String.ofList (resolve base.toList path.toList)

end Path

end Hydration

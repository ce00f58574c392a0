import Hydration.Context.Basic
import Hydration.Fault
import Hydration.Text.Blank

/-!
# Reading contexts

The text of a context is a list of terms `@name query`.  A separator is `and`
with a blank before it and, after at least one blank, an `@` behind it, so that
a query may itself contain `and`.  The terms are cut first and read afterwards;
the first term that does not start with a monitor name spoils the context.
-/

namespace Hydration

namespace Context

/-- The kind of monitor asked by a text that does not name one. -/
def standardMonitor : String := "media"

/-- The first character of a monitor name. -/
def isNameStart (character : Char) : Bool :=
  character.isLower

/-- A later character of a monitor name. -/
def isNameRest (character : Char) : Bool :=
  character.isLower || character.isDigit || character == '-' || character == '_'

/--
The text behind a separator that starts here.  `before` is the text already
passed, last character first: it must end in a blank of the markup class.
-/
def afterSeparator? (before text : List Char) : Option (List Char) :=
  match before, text with
  | last :: _, 'a' :: 'n' :: 'd' :: gap :: rest =>
      if Text.isAsciiBlank last && Text.isBlank gap then
        match Text.trimStart rest with
        | '@' :: after => some after
        | _ => none
      else
        none
  | _, _ => none

/-- What follows a separator is shorter than what the separator started. -/
theorem afterSeparator?_length
    {before text after : List Char}
    (found : afterSeparator? before text = some after) :
    after.length < text.length := by
  unfold afterSeparator? at found
  split at found
  · next last earlier gap rest =>
      split at found
      · split at found
        · next shape =>
            injection found with same
            subst same
            have shorter := (List.dropWhile_suffix Text.isBlank (l := rest)).length_le
            rw [← Text.trimStart, shape] at shorter
            simp only [List.length_cons] at shorter ⊢
            omega
        · simp at found
      · simp at found
  · simp at found

/--
The terms of a text, each without the blanks of the separator behind it.
`before` is the part of the current term already passed, last character first.
-/
def terms (before : List Char) : List Char → List (List Char)
  | [] => [before.reverse]
  | character :: rest =>
      match _found : afterSeparator? before (character :: rest) with
      | some after => Text.trimEnd before.reverse :: terms [] after
      | none => terms (character :: before) rest
termination_by text => text.length
decreasing_by
  · exact afterSeparator?_length _found
  · simp

/-- The monitor name at the start of a term and what follows it. -/
def splitName (term : List Char) : List Char × List Char :=
  match term with
  | [] => ([], [])
  | character :: rest =>
      if isNameStart character then
        (character :: rest.takeWhile isNameRest, rest.dropWhile isNameRest)
      else
        ([], term)

/-- Reads one term, without its `@`. -/
def readTerm (term : List Char) : Except ContextFault Condition :=
  let body := Text.trim term
  let parts := splitName body
  let name := parts.1
  let query := parts.2
  if name = [] then
    .error (.malformedTerm (String.ofList ('@' :: body)) "expected a monitor name after '@'")
  else
    match query with
    | [] => .ok ⟨String.ofList name, ""⟩
    | next :: _ =>
        if Text.isBlank next then
          .ok ⟨String.ofList name, String.ofList (Text.trim query)⟩
        else
          .error (.malformedTerm (String.ofList ('@' :: body))
            "monitor name must be followed by whitespace")

/-- Reads the terms in order; the first fault wins. -/
def readTerms : List (List Char) → Except ContextFault (List Condition)
  | [] => .ok []
  | term :: rest =>
      match readTerm term with
      | .error fault => .error fault
      | .ok condition =>
          match readTerms rest with
          | .error fault => .error fault
          | .ok conditions => .ok (condition :: conditions)

/-- The text of the terms, without the `@` of the first one; `none` for a blank text. -/
def body? (source : String) (defaultMonitor : String) : Option (List Char) :=
  match Text.trim source.toList with
  | [] => none
  | '@' :: rest => some rest
  | text => some (defaultMonitor.toList ++ ' ' :: text)

/--
Reads a context.  A text that does not start with `@` is put to the default
monitor; a blank text is the context that always holds.
-/
def parseWith (source : String) (defaultMonitor : String) : Except ContextFault Context :=
  match body? source defaultMonitor with
  | none => .ok always
  | some body =>
      match readTerms (terms [] body) with
      | .error fault => .error fault
      | .ok conditions => .ok ⟨conditions⟩

/-- Reads a context against the standard monitor. -/
def parse (source : String) : Except ContextFault Context :=
  parseWith source standardMonitor

end Context

end Hydration

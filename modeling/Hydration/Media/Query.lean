import Hydration.Media.Viewport

/-!
# Media queries

A media query is a list of branches of which one must match.  A branch has a
media type, features that must all hold, and may be negated as a whole.  A
simulated viewport is a screen.
-/

namespace Hydration

namespace Media

/-- The kind of device a branch is for. -/
inductive Kind where
  | all
  | screen
  | print
  deriving DecidableEq, Repr

/-- A length; relative units are measured in the root font size. -/
inductive Length where
  | px (value : Float)
  | em (value : Float)
  | rem (value : Float)
  deriving Repr

def Length.toPixels (length : Length) (fontSize : Float) : Float :=
  match length with
  | px value => value
  | em value => value * fontSize
  | rem value => value * fontSize

/-- The side of the viewport that a feature measures. -/
inductive Side where
  | width
  | height
  deriving DecidableEq, Repr

/-- How a measured side compares to a length. -/
inductive Bound where
  | atLeast
  | atMost
  | exactly
  deriving DecidableEq, Repr

/-- How the viewport lies. -/
inductive Orientation where
  | portrait
  | landscape
  deriving DecidableEq, Repr

/-- One parenthesised test of a branch. -/
inductive Feature where
  | extent (side : Side) (bound : Bound) (length : Length)
  | orientation (orientation : Orientation)
  deriving Repr

/-- The distance from one to the next larger double. -/
def tolerance : Float := Float.ofBits 0x3CB0000000000000

/-- Compares a side with a length; equality is up to the tolerance. -/
def Bound.holds (bound : Bound) (actual limit : Float) : Bool :=
  match bound with
  | atLeast => decide (limit ≤ actual)
  | atMost => decide (actual ≤ limit)
  | exactly => decide ((actual - limit).abs < tolerance)

/-- The measure of one side of a viewport. -/
def Side.of (side : Side) (viewport : Viewport) : Float :=
  match side with
  | width => viewport.width
  | height => viewport.height

/-- Whether a feature holds; a square viewport is upright. -/
def Feature.holds (feature : Feature) (viewport : Viewport) : Bool :=
  match feature with
  | extent side bound length =>
      bound.holds (side.of viewport) (length.toPixels viewport.fontSize)
  | orientation .portrait => decide (viewport.width ≤ viewport.height)
  | orientation .landscape => decide (viewport.height < viewport.width)

/-- One alternative of a media query. -/
structure Branch where
  negated : Bool
  kind : Kind
  features : List Feature
  deriving Repr

/-- Whether a branch holds of a screen. -/
def Branch.holds (branch : Branch) (viewport : Viewport) : Bool :=
  (decide (branch.kind ≠ .print) && branch.features.all (·.holds viewport)) != branch.negated

end Media

/-- A media query: its trimmed text and what it asks. -/
structure MediaQuery where
  source : String
  branches : List Media.Branch
  deriving Repr

/-- Whether a media query holds; one without branches always does. -/
def MediaQuery.holds (query : MediaQuery) (viewport : Viewport) : Bool :=
  query.branches.isEmpty || query.branches.any (·.holds viewport)

end Hydration

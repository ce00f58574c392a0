/-!
# Viewports

The visible area of a page, in pixels, with the font size that relative lengths
are measured in.
-/

namespace Hydration

/-- The dimensions media queries are judged against. -/
structure Viewport where
  width : Float
  height : Float
  /-- The font size of the root, in pixels. -/
  fontSize : Float
  deriving Repr

namespace Viewport

/-- The root font size where none is given. -/
def standardFontSize : Float := 16.0

def ofPixels (width height : Float) : Viewport :=
  ⟨width, height, standardFontSize⟩

/-- A viewport in multiples of the standard font size. -/
def ofFontSizes (width height : Float) : Viewport :=
  ofPixels (width * standardFontSize) (height * standardFontSize)

/-- The viewport of a page that says nothing about it. -/
def standard : Viewport :=
  ofPixels 1024.0 768.0

end Viewport

end Hydration

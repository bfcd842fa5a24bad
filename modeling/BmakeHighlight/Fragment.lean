/-
Fragments: the stretches of a document that are classified one at a time.
-/
import BmakeHighlight.Text
import BmakeHighlight.CharClass.WhiteSpace

namespace BmakeHighlight

/-- A stretch of a document together with the offset at which it starts. -/
structure Fragment where
  text : Text
  start : Nat
deriving DecidableEq, Repr

/-- A whole text as one fragment. -/
def Fragment.whole (t : Text) : Fragment :=
  ⟨t, 0⟩

/-- The offset just past the fragment. -/
def Fragment.stop (f : Fragment) : Nat :=
  f.start + f.text.byteSize

/-- Is there nothing but white space? -/
def Fragment.isBlank (f : Fragment) : Bool :=
  f.text.all isWhiteSpace

end BmakeHighlight

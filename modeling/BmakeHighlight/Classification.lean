/-
Classification of a fragment: the spans of every pass, unless the fragment is
blank or begins with a comment.
-/
import BmakeHighlight.Pass

namespace BmakeHighlight

/-- Does a comment begin at the first byte of the fragment? -/
def Fragment.opensWithComment (f : Fragment) : Bool :=
  (Pass.comment.spans f).any (·.start == f.start)

/-- The spans of a fragment, pass by pass.  They may overlap.  A comment at the very
beginning stands alone. -/
def Fragment.classify (f : Fragment) : List Span :=
  if f.isBlank then []
  else if f.opensWithComment then Pass.comment.spans f
  else Pass.all.flatMap (·.spans f)

end BmakeHighlight

/-
The seven passes over a fragment.  Each searches the fragment for one kind of
thing, on its own; what they find may overlap.
-/
import BmakeHighlight.Fragment
import BmakeHighlight.Pattern.Comment
import BmakeHighlight.Pattern.Keyword
import BmakeHighlight.Pattern.Reference
import BmakeHighlight.Pattern.Marker
import BmakeHighlight.Pattern.Operator
import BmakeHighlight.Pattern.StringLiteral
import BmakeHighlight.Pattern.Number

namespace BmakeHighlight

/-- What one search over a fragment looks for. -/
inductive Pass where
  | comment
  | keyword
  | reference
  | marker
  | operator
  | stringLiteral
  | number
deriving DecidableEq, Repr

/-- The passes in the order in which their spans are listed. -/
def Pass.all : List Pass :=
  [.comment, .keyword, .reference, .marker, .operator, .stringLiteral, .number]

/-- The pattern of a pass. -/
def Pass.matcher : Pass → Matcher
  | .comment => commentHere
  | .keyword => keywordHere
  | .reference => referenceHere
  | .marker => markerHere
  | .operator => operatorHere
  | .stringLiteral => stringLiteralHere
  | .number => numberHere

/-- Does the pass keep the first match only? -/
def Pass.onlyFirst : Pass → Bool
  | .comment | .marker => true
  | _ => false

/-- The spans that a pass finds in a fragment, at their offsets in the document. -/
def Pass.spans (p : Pass) (f : Fragment) : List Span :=
  let found := p.matcher.scan f.start none 0 f.text
  if p.onlyFirst then found.take 1 else found

end BmakeHighlight

/-
The ranges that are windows of a document: those that a part of the text can be sliced
by.  Any other range has an error, which names the first check that the range fails.  The
error of an end inside a character always points into the text, and the one of a range
that leaves the text does so when the range starts in front of the end.
-/
import BmakeHighlight.Proofs.Excerpt

namespace BmakeHighlight

end BmakeHighlight

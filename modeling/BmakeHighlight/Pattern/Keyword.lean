/-
Keywords: the directives that begin with a percent sign, and the word `always`.
-/
import BmakeHighlight.Scan
import BmakeHighlight.CharClass.Word

namespace BmakeHighlight

/-- A keyword as it is spelled.  A closed one is not the front of a longer word. -/
structure Keyword where
  spelling : Text
  closed : Bool
deriving DecidableEq, Repr

/-- The keywords.  Where several begin at one place, the first of them counts. -/
def Keyword.all : List Keyword :=
  [⟨"%include".toList, true⟩,
   ⟨"%undef".toList, true⟩,
   ⟨"%if defined".toList, true⟩,
   ⟨"%if".toList, true⟩,
   ⟨"%elif".toList, true⟩,
   ⟨"%else".toList, true⟩,
   ⟨"%endif".toList, true⟩,
   ⟨"%warn".toList, false⟩,
   ⟨"%error".toList, false⟩,
   ⟨"always".toList, false⟩]

/-- Does the text begin with this keyword? -/
def Keyword.begins (k : Keyword) (t : Text) : Bool :=
  match Text.after? k.spelling t with
  | some rest => !(k.closed && startsWithWordChar rest)
  | none => false

/-- A keyword that begins here. -/
def keywordHere : Matcher := fun _ t =>
  (Keyword.all.find? (·.begins t)).map fun k => [⟨.keyword, k.spelling⟩]

end BmakeHighlight

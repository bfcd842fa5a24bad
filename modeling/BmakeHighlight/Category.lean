/-
The eight categories that the parts of a makefile are shown in.
-/
import BmakeHighlight.Text

namespace BmakeHighlight

/-- How a stretch of source is presented.  A reference such as `$(NAME)` has two
delimiters around its value. -/
inductive Category where
  | comment
  | keyword
  | referenceDelimiter
  | referenceValue
  | preprocessorMarker
  | operator
  | stringLiteral
  | number
deriving DecidableEq, Repr

/-- Every category, in order. -/
def Category.all : List Category :=
  [.comment, .keyword, .referenceDelimiter, .referenceValue, .preprocessorMarker, .operator,
   .stringLiteral, .number]

theorem Category.mem_all (k : Category) : k ∈ Category.all := by
  cases k <;> simp [Category.all]

/-- The place of a category in the order. -/
def Category.rank : Category → Nat
  | .comment => 0
  | .keyword => 1
  | .referenceDelimiter => 2
  | .referenceValue => 3
  | .preprocessorMarker => 4
  | .operator => 5
  | .stringLiteral => 6
  | .number => 7

theorem Category.all_getElem?_rank (k : Category) : Category.all[k.rank]? = some k := by
  cases k <;> rfl

instance : Ord Category :=
  ⟨fun a b => compare a.rank b.rank⟩

/-- The name a category is listed under. -/
def Category.name : Category → Text
  | .comment => "Comment".toList
  | .keyword => "Keyword".toList
  | .referenceDelimiter => "ReferenceDelimiter".toList
  | .referenceValue => "ReferenceValue".toList
  | .preprocessorMarker => "PreprocessorMarker".toList
  | .operator => "Operator".toList
  | .stringLiteral => "StringLiteral".toList
  | .number => "Number".toList

/-- The editor's classification type that a category is drawn as. -/
def Category.classificationName : Category → Text
  | .comment => "comment".toList
  | .keyword => "keyword".toList
  | .referenceDelimiter => "markup attribute".toList
  | .referenceValue => "markup attribute value".toList
  | .preprocessorMarker => "preprocessor keyword".toList
  | .operator => "operator".toList
  | .stringLiteral => "string".toList
  | .number => "number".toList

end BmakeHighlight

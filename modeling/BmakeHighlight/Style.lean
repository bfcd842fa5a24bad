/-
Styles for drawing categories.  They have no bearing on classification.
-/
import BmakeHighlight.Category

namespace BmakeHighlight

/-- A colour by its red, green and blue parts. -/
structure Color where
  red : UInt8
  green : UInt8
  blue : UInt8
deriving DecidableEq, Repr

/-- A violet that editors offer for marking. -/
def Color.blueViolet : Color := ⟨138, 43, 226⟩

/-- How a category is drawn. -/
structure Style where
  displayName : Text
  foreground? : Option Color
  background? : Option Color
  bold : Bool
  underline : Bool
deriving DecidableEq, Repr

/-- The style with a name and nothing else. -/
def Style.named (displayName : Text) : Style :=
  ⟨displayName, none, none, false, false⟩

/-- Does the style leave the text as it is? -/
def Style.isPlain (s : Style) : Bool :=
  s.foreground?.isNone && s.background?.isNone && !s.bold && !s.underline

/-- The style that a category has at first.  A preprocessor marker keeps the colour of the
text around it. -/
def Style.standard : Category → Style
  | .comment => { Style.named "Comment".toList with foreground? := some ⟨87, 166, 74⟩ }
  | .keyword =>
      { Style.named "Keyword".toList with foreground? := some ⟨86, 156, 214⟩, bold := true }
  | .referenceDelimiter =>
      { Style.named "Reference".toList with foreground? := some ⟨112, 128, 144⟩, bold := true }
  | .referenceValue =>
      { Style.named "Reference Value".toList with foreground? := some ⟨156, 220, 254⟩ }
  | .preprocessorMarker => Style.named "Quiet".toList
  | .operator => { Style.named "Operator".toList with foreground? := some ⟨180, 180, 180⟩ }
  | .stringLiteral => { Style.named "String".toList with foreground? := some ⟨214, 157, 133⟩ }
  | .number => { Style.named "Number".toList with foreground? := some ⟨181, 206, 168⟩ }

/-- A style for every category. -/
structure StyleTable where
  get : Category → Style

/-- The table that a host starts with. -/
def StyleTable.standard : StyleTable :=
  ⟨Style.standard⟩

/-- The table with another style for one category. -/
def StyleTable.set (table : StyleTable) (k : Category) (s : Style) : StyleTable :=
  ⟨fun j => if j = k then s else table.get j⟩

@[simp] theorem StyleTable.get_set (table : StyleTable) (k j : Category) (s : Style) :
    (table.set k s).get j = if j = k then s else table.get j := rfl

/-- The styles of all categories, in order. -/
def StyleTable.toList (table : StyleTable) : List (Category × Style) :=
  Category.all.map fun k => (k, table.get k)

end BmakeHighlight

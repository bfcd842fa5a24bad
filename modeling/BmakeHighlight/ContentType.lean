/-
The content type of a file, which its extension decides.
-/
import BmakeHighlight.Path
import BmakeHighlight.Error

namespace BmakeHighlight

/-- The content type of every bmake file. -/
def makeContentType : Text :=
  "Make".toList

/-- The extensions of bmake files, dot included. -/
def fileExtensions : List Text :=
  [".mke".toList, ".mki".toList]

/-- Is this, without its dot and up to the case of ASCII letters, an extension of bmake
files? -/
def isBmakeExtension (extension : Text) : Bool :=
  fileExtensions.any fun known => (known.drop 1).map Char.toLower == extension.map Char.toLower

/-- The content type of the file that a path names. -/
def Path.contentType (p : Path) : Except Error Text :=
  match p.extension? with
  | none => .error (.ofCause (.missingExtension p.display))
  | some extension =>
      let shown := decodeUtf8Lossy extension
      if isBmakeExtension shown then .ok makeContentType
      else .error (.ofCause (.unsupportedExtension shown))

/-- Does the path name a bmake file? -/
def Path.isBmakeFile (p : Path) : Bool :=
  p.contentType.isOk

end BmakeHighlight

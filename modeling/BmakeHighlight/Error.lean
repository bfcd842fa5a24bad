/-
What can go wrong, how it is worded, and which hint goes with it.
-/
import BmakeHighlight.Text.Quoted

namespace BmakeHighlight

/-- A reason for failure. -/
inductive Cause where
  | unsupportedExtension (extension : Text)
  | missingExtension (path : Text)
  | fileRead (path message : Text)
  | windowOutOfBounds (start stop len : Nat)
  | windowNotOnCharBoundary (offset : Nat)
  | invalidWorkerCount
deriving DecidableEq, Repr

/-- The name that a cause is reported under. -/
def Cause.name : Cause → Text
  | .unsupportedExtension _ => "UnsupportedExtension".toList
  | .missingExtension _ => "MissingExtension".toList
  | .fileRead _ _ => "FileRead".toList
  | .windowOutOfBounds _ _ _ => "WindowOutOfBounds".toList
  | .windowNotOnCharBoundary _ => "WindowNotOnCharBoundary".toList
  | .invalidWorkerCount => "InvalidWorkerCount".toList

/-- The wording of a cause. -/
def Cause.message : Cause → Text
  | .unsupportedExtension extension =>
      "unsupported file extension: ".toList ++ extension.quoted
  | .missingExtension path => "file has no extension: ".toList ++ path.quoted
  | .fileRead path message =>
      "failed to read ".toList ++ path.quoted ++ ": ".toList ++ message
  | .windowOutOfBounds start stop len =>
      "window ".toList ++ decimal start ++ "..".toList ++ decimal stop ++
        " is outside a document of ".toList ++ decimal len ++ " bytes".toList
  | .windowNotOnCharBoundary offset =>
      "window boundary ".toList ++ decimal offset ++ " is not on a character boundary".toList
  | .invalidWorkerCount => "worker count must be at least one".toList

/-- A hint on what to do about it. -/
def Cause.tip? : Cause → Option Text
  | .unsupportedExtension extension =>
      some ("`.".toList ++ extension ++
        "` files are not bmake files, expected `.mke` or `.mki`".toList)
  | .missingExtension _ => some "bmake files end in `.mke` or `.mki`".toList
  | .fileRead _ _ => none
  | .windowOutOfBounds _ _ len =>
      some ("The document is ".toList ++ decimal len ++ " bytes long".toList)
  | .windowNotOnCharBoundary offset =>
      some ("Byte ".toList ++ decimal offset ++ " is inside a multi-byte character".toList)
  | .invalidWorkerCount => some "Use at least one worker".toList

/-- A failure.  The offset, if any, is the byte of the document that it is about. -/
structure Error where
  cause : Cause
  offset? : Option Nat
deriving DecidableEq, Repr

/-- A failure that is about no place in a document. -/
def Error.ofCause (cause : Cause) : Error :=
  ⟨cause, none⟩

/-- A failure at a byte of the document. -/
def Error.at (cause : Cause) (offset : Nat) : Error :=
  ⟨cause, some offset⟩

end BmakeHighlight

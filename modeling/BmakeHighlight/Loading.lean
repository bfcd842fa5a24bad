/-
Loading a document from a file.  How files are read is left to a reader, so that
a disk and a tree of files in memory serve alike.
-/
import BmakeHighlight.Document

namespace BmakeHighlight

/-- Why the bytes of a file, or the text in them, could not be had. -/
inductive ReadFailure where
  | notFound
  | notDirectory
  | isDirectory
  | nulInPath
  | notUtf8
  | system (message : Text)
deriving DecidableEq, Repr

/-- The wording of a read failure. -/
def ReadFailure.message : ReadFailure → Text
  | .notFound => "No such file or directory (os error 2)".toList
  | .notDirectory => "Not a directory (os error 20)".toList
  | .isDirectory => "Is a directory (os error 21)".toList
  | .nulInPath => "file name contained an unexpected NUL byte".toList
  | .notUtf8 => "stream did not contain valid UTF-8".toList
  | .system message => message

/-- Gives the bytes of the file that a path names. -/
abbrev FileReader := Path → Except ReadFailure (List UInt8)

/-- The text of the file that a path names.  A path with a zero byte in it is not passed
on to the reader. -/
def FileReader.text (read : FileReader) (p : Path) : Except ReadFailure Text :=
  if p.bytes.contains 0 then .error .nulInPath
  else
    match read p with
    | .error failure => .error failure
    | .ok bytes =>
        match decodeUtf8? bytes with
        | some t => .ok t
        | none => .error .notUtf8

/-- Loads a document.  The content type is decided before the file is looked at. -/
def Document.load (read : FileReader) (p : Path) : Except Error Document :=
  match p.contentType with
  | .error e => .error e
  | .ok _ =>
      match read.text p with
      | .error failure => .error (.ofCause (.fileRead p.display failure.message))
      | .ok t => .ok ⟨t, some p⟩

end BmakeHighlight

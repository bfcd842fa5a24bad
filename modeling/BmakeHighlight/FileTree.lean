/-
A tree of files in memory, with the current directory at its root, and the way a
relative path is followed through it.
-/
import BmakeHighlight.Loading

namespace BmakeHighlight

/-- Where a file or directory is: the names that lead to it from the root. -/
abbrev Location := List PathPart

/-- Files with their bytes, and directories.  Every directory that leads to one of them
exists as well. -/
structure FileTree where
  files : List (Location × List UInt8)
  directories : List Location
deriving Repr

/-- What is found at a location. -/
inductive FileTree.Entry where
  | file (bytes : List UInt8)
  | directory
deriving Repr

/-- The names that a path is made of. -/
def Path.location (p : Path) : Location :=
  p.parts.filter (!·.isIdle)

/-- The tree with nothing in it. -/
def FileTree.empty : FileTree :=
  ⟨[], []⟩

/-- The tree with one more file. -/
def FileTree.addFile (t : FileTree) (p : Path) (bytes : List UInt8) : FileTree :=
  { t with files := (p.location, bytes) :: t.files }

/-- The tree with one more directory. -/
def FileTree.addDirectory (t : FileTree) (p : Path) : FileTree :=
  { t with directories := p.location :: t.directories }

/-- Looks up a location. -/
def FileTree.entry? (t : FileTree) (place : Location) : Option FileTree.Entry :=
  match t.files.find? (·.1 == place) with
  | some (_, bytes) => some (.file bytes)
  | none =>
      if place.isEmpty || t.directories.any (place.isPrefixOf ·)
          || t.files.any (place.isPrefixOf ·.1) then some .directory
      else none

/-- Follows path parts from a location.  Each step, an idle one too, needs a directory to
start in; nothing is known of what lies above the root. -/
def FileTree.follow (t : FileTree) : Location → List PathPart → Except ReadFailure FileTree.Entry
  | place, [] =>
      match t.entry? place with
      | some entry => .ok entry
      | none => .error .notFound
  | place, part :: rest =>
      match t.entry? place with
      | none => .error .notFound
      | some (.file _) => .error .notDirectory
      | some .directory =>
          if part.isIdle then t.follow place rest
          else if part = PathPart.up then
            if place.isEmpty then .error .notFound else t.follow place.dropLast rest
          else t.follow (place ++ [part]) rest

/-- Reads a file of the tree.  A path from the file system's own root leads nowhere. -/
def FileTree.read (t : FileTree) : FileReader := fun p =>
  if p.bytes.head? = some 0x2F then .error .notFound
  else
    match t.follow [] p.parts with
    | .ok (.file bytes) => .ok bytes
    | .ok .directory => .error .isDirectory
    | .error failure => .error failure

end BmakeHighlight

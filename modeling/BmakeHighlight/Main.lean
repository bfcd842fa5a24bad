/-
The command line: reads the file that the arguments name, prints the answer and
exits with its code.
-/
import BmakeHighlight.CommandLine.Answer

namespace BmakeHighlight

/-- The number of a system error, which comes with either sign. -/
def systemErrorNumber (code : UInt32) : Nat :=
  min code.toNat (-code).toNat

/-- The read failure that an error of the system stands for. -/
def ReadFailure.ofSystem : IO.Error → ReadFailure
  | .noFileOrDirectory _ _ _ => .notFound
  | .inappropriateType _ code _ =>
      if systemErrorNumber code = 20 then .notDirectory else .isDirectory
  | .permissionDenied _ code details =>
      .system (details.toList ++ " (os error ".toList ++ decimal (systemErrorNumber code) ++ [')'])
  | e => .system (toString e).toList

/-- The bytes of a file on disk. -/
def readFromDisk (file : Path) : IO (Except ReadFailure (List UInt8)) := do
  try
    let bytes ← IO.FS.readBinFile (String.ofList file.display)
    return .ok bytes.toList
  catch e =>
    return .error (.ofSystem e)

end BmakeHighlight

open BmakeHighlight in
/-- Answers a command line.  The one line about a wrong command line is ended here. -/
def main (args : List String) : IO UInt32 := do
  let request := Request.ofArguments (args.map String.toList)
  let contents ← match request with
    | .classify options => readFromDisk options.file
    | _ => pure (.error .notFound)
  let answer := request.answer fun _ => contents
  IO.print (String.ofList answer.output)
  IO.eprint (String.ofList answer.errors)
  if answer.exitCode = 2 then IO.eprintln ""
  return answer.exitCode.toUInt32

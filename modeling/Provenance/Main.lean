import Provenance.CommandLine.Folder
import Provenance.CommandLine.Run

/-! The program on real files and streams. -/

namespace Provenance

def fileFault : IO.Error → FileFault
  | .noFileOrDirectory .. => .missing
  | .alreadyExists .. => .taken
  | .inappropriateType _ code detail
  | .permissionDenied _ code detail => .other s!"{detail} (os error {code})"
  | error => .other (toString error)

/-- Runs an access to files and returns what went wrong instead of throwing it. -/
def attempt {α : Type} (access : IO α) : IO (Except FileFault α) := do
  return (← access.toBaseIO).mapError fileFault

def systemFiles : CommandLine.Files IO where
  read path := do
    match ← attempt (IO.FS.readBinFile path) with
    | .error fault => return .error fault
    | .ok bytes => match String.fromUTF8? bytes with
      | some text => return .ok text
      | none => return .error (.other "stream did not contain valid UTF-8")
  write path text := attempt do
    let names := CommandLine.Folder.namesAbove path
    let root := if path.startsWith "/" then "/" else ""
    if !names.isEmpty then IO.FS.createDirAll (root ++ String.intercalate "/" names)
    IO.FS.writeFile path text

end Provenance

def main (arguments : List String) : IO UInt32 := do
  let outcome ← Provenance.CommandLine.run Provenance.systemFiles arguments
  IO.print outcome.output
  IO.eprint outcome.errors
  return UInt32.ofNat outcome.code

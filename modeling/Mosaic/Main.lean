import Mosaic.CommandLine

/-! The program: it reads the files that its arguments name, and prints what the command line makes
of them. -/
namespace Mosaic

/-- What stands at a path on this machine. What cannot be opened is as good as missing. -/
def readEntry (path : String) : IO Entry := do
  match ← (IO.FS.readBinFile path).toBaseIO with
  | .ok bytes => return .file bytes.toList
  | .error (.inappropriateType _ 21 _) => return .directory
  | .error (.inappropriateType _ _ _) => return .notDirectory
  | .error (.invalidArgument _ _ _) => return .nameTooLong
  | .error _ => return .missing

end Mosaic

def main (args : List String) : IO UInt32 := do
  let entries ← (Mosaic.CommandLine.paths args).mapM fun path =>
    return (path, ← Mosaic.readEntry path)
  let outcome := Mosaic.CommandLine.run (fun path => (entries.lookup path).getD .missing) args
  IO.print outcome.output
  IO.eprint outcome.errors
  return outcome.code.toUInt32

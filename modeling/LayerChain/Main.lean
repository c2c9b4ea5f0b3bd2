import LayerChain.CommandLine.Run

/-!
# The command line

Runs the program on the files of the system.
-/

namespace LayerChain

/-- The refusal with a number, which the system words itself. Some operations give the number
with a minus sign. -/
def FileFault.ofNumber (number : UInt32) (wording : String) : FileFault :=
  match number.toInt32.toInt.natAbs with
  | 2 => .notFound
  | 17 => .alreadyExists
  | 20 => .notDirectory
  | 21 => .isDirectory
  | 36 => .nameTooLong
  | n => .other (wording ++ " (os error " ++ toString n ++ ")")

/-- A system's refusal as an answer. -/
def FileFault.ofSystem : IO.Error → FileFault
  | .noFileOrDirectory _ n wording | .alreadyExists _ n wording | .inappropriateType _ n wording
  | .invalidArgument _ n wording | .permissionDenied _ n wording
  | .resourceExhausted _ n wording | .noSuchThing _ n wording | .interrupted _ n wording
  | .otherError n wording | .resourceBusy n wording | .unsupportedOperation n wording
  | .hardwareFault n wording | .illegalOperation n wording => .ofNumber n wording
  | e => .other (toString e)

/-- An operation of the system whose refusal is an answer. -/
def answered {α : Type} (action : IO α) : IO (Except FileFault α) := do
  match ← action.toBaseIO with
  | .ok a => return .ok a
  | .error e => return .error (FileFault.ofSystem e)

instance : FileSystem IO where
  read path := do
    let found ← answered (IO.FS.readBinFile path)
    return found.map fun bytes => Symbol.ofBytes bytes.toList
  write path text := answered (IO.FS.writeFile path text)
  pathExists path := do return ← ((← IO.currentDir) / path).pathExists
  isDirectory path := do return ← ((← IO.currentDir) / path).isDir
  makeDirectory path := answered (IO.FS.createDir path)

end LayerChain

/-- Runs the program: prints what it has to say and gives its exit code. -/
def main (arguments : List String) : IO UInt32 := do
  let environment ← IO.getEnv "LAYERCRAFT_CONFIG"
  let outcome ← LayerChain.runCommandLine arguments environment
  IO.print outcome.stdout
  IO.eprint outcome.stderr
  return UInt32.ofNat outcome.code

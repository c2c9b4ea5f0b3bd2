import LayerChain.Error
import LayerChain.Files.Path
import LayerChain.Text.Symbol

/-!
# File systems

What the program needs of a file system. A refusal is an answer, not an exception, so that the
program decides what it means.

A file system makes one directory at a time; `FileSystem.makeDirectories` makes a directory
together with those it stands in. It starts at the innermost one, so that nothing is made where a
path leads through a file, but what it has made stays if a later step is refused.
-/

namespace LayerChain

/-- A file system, whose operations happen in a monad. -/
class FileSystem (m : Type → Type) where
  /-- The content of the file at a path. -/
  read : String → m (Except FileFault Content)
  /-- Replaces the content of the file at a path, or makes the file. -/
  write : String → String → m (Except FileFault Unit)
  /-- Whether there is a file or a directory at a path. -/
  pathExists : String → m Bool
  /-- Whether there is a directory at a path. -/
  isDirectory : String → m Bool
  /-- Makes the directory at a path, where there must be nothing, in one that is there. -/
  makeDirectory : String → m (Except FileFault Unit)

namespace FileSystem

variable {m : Type → Type} [Monad m] [FileSystem m]

/-- Makes the directory at a path, unless there is one. -/
def ensureDirectory (path : String) : m (Except FileFault Unit) := do
  match ← makeDirectory path with
  | .error .alreadyExists =>
    if ← isDirectory path then return .ok () else return .error .alreadyExists
  | answer => return answer

/-- Makes the first of some directories, each of which stands in the next one. The others are
made only where the first one finds that one is missing. -/
def ensureAll : List String → m (Except FileFault Unit)
  | [] => return .ok ()
  | path :: above => do
    match ← ensureDirectory path with
    | .error .notFound =>
      match ← ensureAll above with
      | .ok () => ensureDirectory path
      | refusal => return refusal
    | answer => return answer

/-- Makes the directory at a path and those it stands in, as far as they are missing. -/
def makeDirectories (path : String) : m (Except FileFault Unit) := ensureAll (Path.ancestors path)

end FileSystem

end LayerChain

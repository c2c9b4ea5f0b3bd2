import LayerChain.Chain.Record
import LayerChain.Config
import LayerChain.Files.Basic
import LayerChain.Files.Path

/-!
# Projects and other files

A project file holds a whole chain, with ids, counter and placements, and the version of its own
form. `Project.load` and `Project.save` keep it in a file system; configurations and models are
loaded from files, too.
-/

namespace LayerChain

/-- An operation on a file system that may fail. -/
abbrev FileAction (m : Type → Type) : Type → Type := ExceptT Error m

/-- A file's content as a text. -/
def textOf (path : String) (content : Except FileFault Content) : Except Error String :=
  match content with
  | .error fault => .error (.unreadableFile path fault)
  | .ok content =>
    match content.text? with
    | some text => .ok text
    | none => .error (.unreadableFile path .notText)

/-- Gives a refusal to write as an error about a path. -/
def writeFault (path : String) (result : Except FileFault Unit) : Except Error Unit :=
  result.mapError (.unwritableFile path)

/-! ## Configurations and models -/

/-- Loads a configuration from a file. -/
def Config.load {m : Type → Type} [Monad m] [FileSystem m] (path : String) :
    FileAction m Config := do
  Config.ofText (← textOf path (← (FileSystem.read path : m _)))

/-- The file that a configuration comes from: one that is named explicitly, or else one that the
environment names. -/
def Config.source? (explicit environment : Option String) : Option String :=
  explicit.or environment

/-- The effective configuration: that of the chosen file, or the defaults if no file is chosen. -/
def Config.resolve {m : Type → Type} [Monad m] [FileSystem m]
    (explicit environment : Option String) : FileAction m Config :=
  match Config.source? explicit environment with
  | some path => Config.load path
  | none => return {}

/-- What finding the effective configuration reports. -/
def Config.resolveNotes (explicit environment : Option String) : List Note :=
  match Config.source? explicit environment with
  | some path => [.debug ("Loading config from " ++ path)]
  | none => []

/-- Loads a model from a file. -/
def Model.load {m : Type → Type} [Monad m] [FileSystem m] (path : String) :
    FileAction m Model := do
  Model.ofText (← textOf path (← (FileSystem.read path : m _)))

/-! ## Projects -/

/-- What a project file holds. -/
structure Project where
  version : Nat
  chain : Chain

namespace Project

/-- The version of the form of project files. -/
def currentVersion : Nat := 1

/-- The project of a chain. -/
def ofChain (chain : Chain) : Project := ⟨currentVersion, chain⟩

/-- Equality of projects, with values compared numerically. -/
def equal (p q : Project) : Bool := p.version == q.version && p.chain.equal q.chain

/-- The form of a project in documents. -/
def toJson (project : Project) : Json :=
  .object [("version", .whole project.version), ("graph", project.chain.toJson)]

/-- The text of a project file. -/
def text (project : Project) : String := project.toJson.pretty

/-- A project while it is read. -/
structure Draft where
  version : Option Nat := none
  chain : Option Chain := none

/-- Reads a project of any version from a document. -/
def decoder : Json.Decoder Project :=
  .record "ProjectFile" [
      .slot "version" Draft.version (fun d v => { d with version := some v })
        (.nat UInt32.size "u32"),
      .slot "graph" Draft.chain (fun d c => { d with chain := some c }) Chain.decoder]
    {} fun missing (draft : Draft) => do
      let version ← Json.required missing "version" draft.version
      let chain ← Json.required missing "graph" draft.chain
      return ⟨version, chain⟩

/-- The project in a content, which must be of the current version. -/
def ofContent (content : Content) : Except Error Project := do
  let project ← Json.Fault.lift (Json.decode decoder content)
  if project.version = currentVersion then return project
  else throw (.unsupportedVersion project.version)

/-- The project in what a file system answers for a path. A directory is opened like a file, and
only reading from it fails. -/
def ofAnswer (path : String) : Except FileFault Content → Except Error Project
  | .ok content => ofContent content
  | .error .isDirectory => .error (.interrupted .isDirectory)
  | .error fault => .error (.unreadableFile path fault)

/-- Loads a project from a file. -/
def load {m : Type → Type} [Monad m] [FileSystem m] (path : String) : FileAction m Project := do
  ofAnswer path (← (FileSystem.read path : m _))

/-- Makes the directory that a path stands in. -/
def makeParent {m : Type → Type} [Monad m] [FileSystem m] (path : String) :
    FileAction m Unit :=
  match Path.parent? path with
  | some parent => do writeFault parent (← (FileSystem.makeDirectories parent : m _))
  | none => return ()

/-- Saves a project to a file, and makes the directory for it. -/
def save {m : Type → Type} [Monad m] [FileSystem m] (path : String) (project : Project) :
    FileAction m Unit := do
  makeParent path
  writeFault path (← (FileSystem.write path project.text : m _))

end Project

end LayerChain

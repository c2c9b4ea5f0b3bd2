import LayerChain.Chain.Edit
import LayerChain.CommandLine.Command
import LayerChain.Project
import LayerChain.Session.Basic

/-!
# Running the program

What each command does. A command that edits loads the project, has a session carry out one edit,
and saves the chain after it; a command that fails writes nothing. `run` is the whole program on a
file system: what it prints, and its exit code.
-/

namespace LayerChain

/-- What running the program comes to. -/
structure Outcome where
  code : Nat
  stdout : String
  stderr : String
deriving DecidableEq, Repr

namespace Command

/-- The name and version of the program. -/
def versionNumber : String := "0.1.0"

/-- A text with a line break after it. -/
def line (text : String) : String := text ++ "\n"

/-! ## Listings -/

/-- A text with blanks after it, up to a width. -/
def padRight (width : Nat) (text : String) : String :=
  text ++ String.ofList (List.replicate (width - text.length) ' ')

/-- A text with blanks before it, up to a width. -/
def padLeft (width : Nat) (text : String) : String :=
  String.ofList (List.replicate (width - text.length) ' ') ++ text

/-- The line of a layer kind in the catalog's listing. -/
def kindLine (descriptor : Descriptor) : String :=
  descriptor.kind.name ++ " " ++ padRight 8 descriptor.stem ++ " " ++ descriptor.defaults.display

/-- The catalog's listing. -/
def kindsListing : String := String.join (Catalog.all.map fun d => line (kindLine d))

/-- The line above and below a listing of layers. -/
def rule : String := String.ofList (List.replicate 72 '-')

/-- The lines of a layer at a position. -/
def layerLines (position : Nat) (layer : Layer) (shape : Shape) : String :=
  line (padLeft 3 (toString position) ++ "  id " ++ toString layer.id ++ " " ++ layer.kind.name ++
    " -> " ++ shape.display ++
    (if layer.descriptor.isUnmodeled then " (placeholder)" else "")) ++
  line ("     " ++ layer.settings.display)

/-- The listing of a chain. -/
def chainListing (chain : Chain) : String :=
  line ("Input dimension: " ++ toString chain.inputDimension.toNat) ++
    if chain.isEmpty then line "No layers."
    else
      line rule ++
      String.join ((chain.layers.zip chain.shapes).mapIdx fun position entry =>
        layerLines position entry.1 entry.2) ++
      line rule

/-! ## Commands -/

section

variable {m : Type → Type} [Monad m] [FileSystem m]

/-- Has a session on the project at a path carry out a call, and saves the chain after it. The
answer is what the session replies, and the session after. -/
def editProject (path : String) (config : Config) (call : Session.Call) :
    FileAction m (Session.Reply × Session) := do
  let project ← Project.load path
  let (reply, session) ← (Session.ofChain project.chain config).run call
  Project.save path (Project.ofChain session.chain)
  return (reply, session)

/-- Writes a text to a file, or else prints it and ends its last line. -/
def deliver (text : String) (output : Option String) : FileAction m String := do
  match output with
  | some path =>
    writeFault path (← (FileSystem.write path text : m _))
    return ""
  | none => return if text.endsWith "\n" then text else line text

/-- Makes a new project. -/
def initialise (path : String) (features : UInt64) (force : Bool) :
    FileAction m String := do
  if (← (FileSystem.pathExists path : m _)) && !force then
    throw (.unwritableFile path .projectExists)
  Project.save path (Project.ofChain (Chain.new features))
  return line ("Project created: " ++ path)

/-- Carries out a command: what it prints. -/
def run (config : Config) : Command → FileAction m String
  | .kinds => return kindsListing
  | .init path features force =>
    initialise path (features.getD config.inputDimension) force
  | .add path kind => do
    let (reply, session) ← editProject path config (.appendNamed kind)
    match reply with
    | .appended id => return line ("Added " ++ kind ++ " as layer " ++ toString id ++
        " at position " ++ toString ((session.chain.position? id).getD 0))
    | _ => return ""
  | .set path id assignments strict => do
    let entries ← (assignments.mapM SettingValue.ofAssignment : Except Error _)
    let config := { config with strictSettings := config.strictSettings || strict }
    let _ ← editProject path config (.update id (Settings.ofList entries))
    return line ("Updated layer " ++ toString id)
  | .remove path id => do
    let _ ← editProject path config (.remove id)
    return line ("Removed layer " ++ toString id) ++
      line ("Note: later layers keep their inferred input sizes; " ++
        "run 'repropagate' to refresh them")
  | .inputDimension path value => do
    let _ ← editProject path config (.setInputDimension value)
    return line ("Input dimension set to " ++ toString value.toNat)
  | .repropagate path => do
    let _ ← editProject path config .repropagate
    return line "Dimensions repropagated"
  | .show path => do return chainListing (← Project.load path).chain
  | .model path output => do
    let project ← Project.load path
    deliver (Model.ofChain project.chain).prettyText output
  | .source path output => do
    let project ← Project.load path
    match ← (Session.ofChain project.chain config).run .source with
    | (.source text, _) => deliver text output
    | _ => return ""
  | .generate path output => do
    deliver (← (Generator.mk config.className).generate (← Model.load path)) output

end

end Command

/-! ## The program -/

namespace Outcome

/-- Success, with what is printed. -/
def success (stdout : String) : Outcome := ⟨0, stdout, ""⟩

/-- The failure of a command: a hint for each suggestion, and the error with its code. -/
def failure (error : Error) : Outcome where
  code := 1
  stdout := ""
  stderr := String.join (error.suggestions.map fun s => Command.line ("hint: " ++ s)) ++
    Command.line ("Error: [" ++ error.code ++ "] " ++ error.message)

/-- A text whose further lines are indented as far as its first one will be. -/
def hangLines (text : String) : String :=
  String.ofList (text.toList.flatMap fun c =>
    if c = '\n' then '\n' :: List.replicate 7 ' ' else [c])

/-- The failure to find the effective configuration: the error, and what caused it. -/
def configFailure (error : Error) : Outcome where
  code := 1
  stdout := ""
  stderr := Command.line "Error: failed to load config" ++ "\n" ++
    Command.line "Caused by:" ++
    Command.line ("    0: " ++ hangLines error.message) ++
    Command.line ("    1: " ++ hangLines (error.source?.getD ""))

/-- A short account of the command line. -/
def usageText : String :=
  Command.line "Usage: layercraft [OPTIONS] [COMMAND]" ++
    "\nCommands:\n" ++
    String.join (Command.usages.map fun u => Command.line ("  " ++ u.1))

/-- The outcome of a command line that is not carried out. -/
def ofStop : UsageStop → Outcome
  | .wrong => ⟨2, "", Command.line "error: invalid arguments" ++ usageText⟩
  | .help => .success usageText
  | .version => .success (Command.line ("layercraft " ++ Command.versionNumber))

/-- What the program prints when it is given no command. -/
def banner : Outcome :=
  .success (Command.line ("Layercraft v" ++ Command.versionNumber) ++
    Command.line "Use --help for available commands")

end Outcome

/-- Carries out a command line that has been read. -/
def Invocation.run {m : Type → Type} [Monad m] [FileSystem m] (invocation : Invocation)
    (environment : Option String) : m Outcome := do
  match ← (Config.resolve invocation.config environment : FileAction m Config).run with
  | .error error => return .configFailure error
  | .ok config =>
    match invocation.command with
    | none => return .banner
    | some command =>
      match ← (command.run config : FileAction m String).run with
      | .error error => return .failure error
      | .ok stdout => return .success stdout

/-- Runs the program on a command line; the environment may name a configuration file. -/
def runCommandLine {m : Type → Type} [Monad m] [FileSystem m] (arguments : List String)
    (environment : Option String) : m Outcome :=
  match Invocation.ofArguments arguments with
  | .error stop => return .ofStop stop
  | .ok invocation => invocation.run environment

end LayerChain

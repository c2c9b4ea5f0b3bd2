import LayerChain.CommandLine.Arguments
import LayerChain.Error

/-!
# Commands

The commands of the program, and how a command line says them. `Invocation.ofArguments` reads a
whole command line.
-/

namespace LayerChain

/-- What the program is asked to do. -/
inductive Command where
  /-- Lists the layer kinds and their default settings. -/
  | kinds
  /-- Makes a new project without layers. -/
  | init (path : String) (inputDimension : Option UInt64) (force : Bool)
  /-- Appends a layer. -/
  | add (path kind : String)
  /-- Updates settings of a layer. -/
  | set (path : String) (id : Nat) (assignments : List String) (strict : Bool)
  /-- Removes a layer. -/
  | remove (path : String) (id : Nat)
  /-- Changes the feature count that enters the network. -/
  | inputDimension (path : String) (value : UInt64)
  /-- Infers all automatic settings anew. -/
  | repropagate (path : String)
  /-- Prints the chain with ids and shapes. -/
  | show (path : String)
  /-- Prints or writes the model of a project. -/
  | model (path : String) (output : Option String)
  /-- Prints or writes the source of a project. -/
  | source (path : String) (output : Option String)
  /-- Prints or writes the source of a model. -/
  | generate (path : String) (output : Option String)
deriving DecidableEq, Repr

/-- A command line. -/
structure Invocation where
  verbose : Bool
  /-- The file that the configuration comes from. -/
  config : Option String
  /-- Without a command the program names itself. -/
  command : Option Command
deriving DecidableEq, Repr

namespace Command

/-! ## Forms -/

/-- The options that stand before or after any command's name. -/
def globalOptions : List OptionForm := [
  ⟨"verbose", some 'v', none⟩,
  ⟨"config", none, some .path⟩,
  ⟨"help", some 'h', none⟩]

/-- The options before a command's name. -/
def leadingOptions : List OptionForm := globalOptions ++ [⟨"version", some 'V', none⟩]

/-- The option for a file to write to. -/
def outputOption : OptionForm := ⟨"output", some 'o', some .path⟩

/-- The names of the commands and what their arguments may be. -/
def usages : List (String × Usage) := [
  ("kinds", ⟨[], false, globalOptions⟩),
  ("init", ⟨[.path], false,
    ⟨"input-dim", none, some .number⟩ :: ⟨"force", none, none⟩ :: globalOptions⟩),
  ("add", ⟨[.path, .text], false, globalOptions⟩),
  ("set", ⟨[.path, .number, .text], true, ⟨"strict", none, none⟩ :: globalOptions⟩),
  ("remove", ⟨[.path, .number], false, globalOptions⟩),
  ("input-dim", ⟨[.path, .number], false, globalOptions⟩),
  ("repropagate", ⟨[.path], false, globalOptions⟩),
  ("show", ⟨[.path], false, globalOptions⟩),
  ("ir", ⟨[.path], false, outputOption :: globalOptions⟩),
  ("source", ⟨[.path], false, outputOption :: globalOptions⟩),
  ("generate", ⟨[.path], false, outputOption :: globalOptions⟩)]

/-- What the arguments of a command may be. -/
def usage? (name : String) : Option Usage := (usages.find? fun u => u.1 == name).map Prod.snd

/-! ## Reading -/

/-- The command of a name with its arguments. -/
def ofArguments? (name : String) (arguments : Arguments) : Option Command :=
  let number (text : String) : Nat := (ArgumentForm.number? text).getD 0
  let output := arguments.value? "output"
  match name, arguments.operands with
  | "kinds", [] => some .kinds
  | "init", [path] => some (.init path
      ((arguments.value? "input-dim").map fun n => UInt64.ofNat (number n))
      (arguments.has "force"))
  | "add", [path, kind] => some (.add path kind)
  | "set", path :: id :: assignments =>
    some (.set path (number id) assignments (arguments.has "strict"))
  | "remove", [path, id] => some (.remove path (number id))
  | "input-dim", [path, value] => some (.inputDimension path (UInt64.ofNat (number value)))
  | "repropagate", [path] => some (.repropagate path)
  | "show", [path] => some (.show path)
  | "ir", [path] => some (.model path output)
  | "source", [path] => some (.source path output)
  | "generate", [path] => some (.generate path output)
  | _, _ => none

/-- Whether a list of names asks for help in a way that there is help for. -/
def hasHelp : List String → Bool
  | [] => true
  | [name] => name == "help" || (usage? name).isSome
  | _ => false

end Command

/-- Reads a command line. An option that stands both before and after the command's name counts as
it stands after. -/
def Invocation.ofArguments (texts : List String) : Except UsageStop Invocation := do
  let leading : Usage := ⟨[], false, Command.leadingOptions⟩
  let (before, rest) ← leading.readOptions texts.length .empty texts
  match rest with
  | [] => return ⟨before.has "verbose", before.value? "config", none⟩
  | name :: rest =>
    if name = "help" then throw (if Command.hasHelp rest then .help else .wrong)
    match Command.usage? name with
    | none => throw .wrong
    | some usage =>
      let arguments ← usage.read rest
      match Command.ofArguments? name arguments with
      | none => throw .wrong
      | some command => return {
          verbose := before.has "verbose" || arguments.has "verbose"
          config := (arguments.value? "config").or (before.value? "config")
          command := some command }

end LayerChain

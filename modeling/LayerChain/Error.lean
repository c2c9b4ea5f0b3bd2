import LayerChain.Json.Fault

/-!
# Errors

An operation either gives a complete new state or one of these errors, and then the state before
it stands. Each error is a cause; its code, its wording, whether it can be mended by trying again,
and the hints for mending it are functions of the cause.
-/

namespace LayerChain

/-- Why the file system refuses an operation. -/
inductive FileFault where
  | notFound
  | notDirectory
  | isDirectory
  | alreadyExists
  /-- A path or a name in it is longer than the system allows. -/
  | nameTooLong
  /-- A path has a character that no path can have. -/
  | nulInPath
  /-- The content of a file is no text. -/
  | notText
  /-- A new project would replace a file. -/
  | projectExists
  /-- Any other cause, as the system words it. -/
  | other (text : String)
deriving DecidableEq

/-- The wording of a file system's refusal. -/
def FileFault.message : FileFault → String
  | notFound => "No such file or directory (os error 2)"
  | notDirectory => "Not a directory (os error 20)"
  | isDirectory => "Is a directory (os error 21)"
  | alreadyExists => "File exists (os error 17)"
  | nameTooLong => "File name too long (os error 36)"
  | nulInPath => "file name contained an unexpected NUL byte"
  | notText => "stream did not contain valid UTF-8"
  | projectExists => "project already exists"
  | other text => text

/-- Why an operation fails. -/
inductive Error where
  /-- No layer kind has this name. -/
  | unknownKind (name : String)
  /-- No layer has this id. -/
  | layerNotFound (id : Nat)
  /-- A layer kind does not declare a setting. -/
  | unknownSetting (key kind : String)
  /-- A literal is no setting value, or an assignment has no key. -/
  | invalidLiteral (literal : String)
  /-- A model names a layer kind for which no source can be generated. -/
  | unsupportedKind (name : String)
  /-- The activation of the layer at a position is no identifier. -/
  | invalidActivation (name : String) (position : Nat)
  | nothingToUndo
  | nothingToRedo
  | unreadableFile (path : String) (fault : FileFault)
  | unwritableFile (path : String) (fault : FileFault)
  /-- A project file is of another version. -/
  | unsupportedVersion (version : Nat)
  /-- A text cannot be read as JSON of the wanted form. -/
  | malformed (fault : Json.Fault)
  /-- A file that was opened as JSON cannot be read from. -/
  | interrupted (fault : FileFault)
deriving DecidableEq

namespace Error

/-- The code by which programs tell errors apart. -/
def code : Error → String
  | unknownKind _ => "UNKNOWN_LAYER_KIND"
  | layerNotFound _ => "LAYER_NOT_FOUND"
  | unknownSetting _ _ => "UNKNOWN_SETTING"
  | invalidLiteral _ => "INVALID_SETTING_LITERAL"
  | unsupportedKind _ => "UNSUPPORTED_LAYER_KIND"
  | invalidActivation _ _ => "INVALID_ACTIVATION"
  | nothingToUndo => "NOTHING_TO_UNDO"
  | nothingToRedo => "NOTHING_TO_REDO"
  | unreadableFile _ _ => "FILE_READ_ERROR"
  | unwritableFile _ _ => "FILE_WRITE_ERROR"
  | unsupportedVersion _ => "UNSUPPORTED_PROJECT_VERSION"
  | malformed _ => "SERIALIZATION_ERROR"
  | interrupted _ => "SERIALIZATION_ERROR"

/-- The underlying cause, for errors that pass one on. -/
def source? : Error → Option String
  | unreadableFile _ fault => some fault.message
  | unwritableFile _ fault => some fault.message
  | malformed fault => some fault.message
  | interrupted fault => some fault.message
  | _ => none

/-- The wording of an error. -/
def message : Error → String
  | unknownKind name => "Unknown layer kind: " ++ name
  | layerNotFound id => "Layer not found: " ++ toString id
  | unknownSetting key kind => "Unknown setting '" ++ key ++ "' for layer kind " ++ kind
  | invalidLiteral literal => "Invalid setting literal: " ++ literal
  | unsupportedKind name => "Unsupported layer kind in IR: " ++ name
  | invalidActivation name position =>
    "Invalid activation name '" ++ name ++ "' on layer " ++ toString position
  | nothingToUndo => "Nothing to undo"
  | nothingToRedo => "Nothing to redo"
  | unreadableFile path fault => "Failed to read file: " ++ path ++ ": " ++ fault.message
  | unwritableFile path fault => "Failed to write file: " ++ path ++ ": " ++ fault.message
  | unsupportedVersion version => "Unsupported project file version: " ++ toString version
  | malformed fault => "Serialization error: " ++ fault.message
  | interrupted fault => "Serialization error: " ++ fault.message

/-- Whether reading the current state again and trying anew can mend the error. -/
def isRecoverable : Error → Bool
  | layerNotFound _ | unknownSetting _ _ | invalidLiteral _ | nothingToUndo | nothingToRedo => true
  | _ => false

/-- Hints for mending the error. -/
def suggestions : Error → List String
  | unknownKind _ => [
      "Run 'layercraft kinds' to list supported layer kinds",
      "Kind names are case-sensitive (e.g. Dense, SpatialConv)"]
  | layerNotFound _ => [
      "The layer may have been removed",
      "Run 'layercraft show <project>' to list current layer ids"]
  | unknownSetting _ _ => [
      "Check the setting name against the layer kind's fields",
      "Drop --strict to store the setting verbatim"]
  | invalidLiteral _ => ["Settings are written as key=value (e.g. outFeatures=256)"]
  | unsupportedKind _ => [
      "The IR was produced by a newer tool or edited by hand",
      "Remove the layer or replace its kind with a supported one"]
  | invalidActivation _ _ => [
      "Activations name a torch.nn class (e.g. ReLU, Tanh, Softmax)",
      "Set activation=None to drop the activation"]
  | _ => []

end Error

/-- Gives a JSON fault as an error. -/
def Json.Fault.lift {α : Type} (result : Except Json.Fault α) : Except Error α :=
  result.mapError .malformed

end LayerChain

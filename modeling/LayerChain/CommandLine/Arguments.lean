/-!
# Command-line arguments

How the arguments of a command line are read. A command has operands, which are told apart by
their order, and options, which begin with dashes, may stand among the operands, and may take a
value. After `--` all arguments are operands.

`Usage` describes a command line and `Usage.read` reads one. Arguments are judged from left to
right, so that a request for help counts only if everything before it is right.
-/

namespace LayerChain

/-- What an operand or the value of an option must be. -/
inductive ArgumentForm where
  | text
  /-- A path, which is not empty. -/
  | path
  /-- A whole number of at most 64 bits, which may have a plus sign. -/
  | number
deriving DecidableEq, Repr

/-- An option of a command. -/
structure OptionForm where
  name : String
  letter : Option Char
  /-- What its value must be, if it takes one. -/
  value : Option ArgumentForm
deriving DecidableEq, Repr

/-- What the arguments of a command may be. -/
structure Usage where
  operands : List ArgumentForm
  /-- Whether the last operand may be repeated. -/
  repeats : Bool
  options : List OptionForm
deriving DecidableEq, Repr

/-- The arguments of a command as they were given. -/
structure Arguments where
  operands : List String
  /-- The options that were given, with their values; an option without value has an empty one. -/
  options : List (String × String)
deriving DecidableEq, Repr

/-- Why a command line is not carried out. -/
inductive UsageStop where
  /-- Something is wrong with it. -/
  | wrong
  /-- It asks for help. -/
  | help
  /-- It asks for the version. -/
  | version
deriving DecidableEq, Repr

namespace ArgumentForm

/-- The whole number of at most 64 bits that a text spells. -/
def number? (text : String) : Option Nat :=
  let digits := match text.toList with
    | '+' :: rest => rest
    | cs => cs
  if digits ≠ [] ∧ digits.all Char.isDigit then
    let n := digits.foldl (fun n c => 10 * n + (c.toNat - '0'.toNat)) 0
    if n < UInt64.size then some n else none
  else none

/-- Whether a text has a form. -/
def accepts (form : ArgumentForm) (text : String) : Bool :=
  match form with
  | .text => true
  | .path => text != ""
  | .number => (number? text).isSome

end ArgumentForm

namespace Arguments

/-- No arguments. -/
def empty : Arguments := ⟨[], []⟩

/-- Whether an option was given. -/
def has (arguments : Arguments) (name : String) : Bool :=
  arguments.options.any fun o => o.1 == name

/-- The value of an option. -/
def value? (arguments : Arguments) (name : String) : Option String :=
  (arguments.options.find? fun o => o.1 == name).map Prod.snd

/-- The arguments with one more option. -/
def addOption (arguments : Arguments) (name value : String) : Arguments :=
  { arguments with options := arguments.options ++ [(name, value)] }

end Arguments

namespace Usage

/-- The form of the operand after some others. -/
def operandForm? (usage : Usage) (count : Nat) : Option ArgumentForm :=
  match usage.operands[count]? with
  | some form => some form
  | none => if usage.repeats then usage.operands.getLast? else none

/-- Takes up an operand. -/
def addOperand (usage : Usage) (arguments : Arguments) (text : String) :
    Except UsageStop Arguments :=
  match usage.operandForm? arguments.operands.length with
  | some form =>
    if form.accepts text then .ok { arguments with operands := arguments.operands ++ [text] }
    else .error .wrong
  | none => .error .wrong

/-- Takes up an option without value. Asking for help or for the version ends the reading. -/
def addFlag (arguments : Arguments) (option : OptionForm) : Except UsageStop Arguments :=
  if option.name = "help" then .error .help
  else if option.name = "version" then .error .version
  else if arguments.has option.name then .error .wrong
  else .ok (arguments.addOption option.name "")

/-- Takes up an option with its value. -/
def addValue (arguments : Arguments) (option : OptionForm) (form : ArgumentForm) (text : String) :
    Except UsageStop Arguments :=
  if form.accepts text && !arguments.has option.name then
    .ok (arguments.addOption option.name text)
  else .error .wrong

/-- Whether an argument is taken for options rather than for an operand. -/
def looksLikeOption (text : String) : Bool :=
  match text.toList with
  | '-' :: _ :: _ => true
  | _ => false

/-- Takes up an option whose value is in the same argument, if it is `some`, or else in the next
one: the arguments, and those that are left. -/
def takeOption (arguments : Arguments) (option : OptionForm) (attached : Option String)
    (rest : List String) : Except UsageStop (Arguments × List String) :=
  match option.value, attached, rest with
  | none, none, rest => (addFlag arguments option).map (·, rest)
  | none, some _, _ => .error .wrong
  | some form, some text, rest => (addValue arguments option form text).map (·, rest)
  | some _, none, [] => .error .wrong
  | some form, none, text :: rest =>
    -- a missing value is not made up for by the next option
    if looksLikeOption text then .error .wrong
    else (addValue arguments option form text).map (·, rest)

/-- Takes up a group of one-letter options. -/
def takeLetters (usage : Usage) (arguments : Arguments) (rest : List String) :
    List Char → Except UsageStop (Arguments × List String)
  | [] => .ok (arguments, rest)
  | letter :: letters =>
    match usage.options.find? fun o => o.letter == some letter with
    | none => .error .wrong
    | some option =>
      if option.value.isSome then
        match letters with
        | [] => takeOption arguments option none rest
        | '=' :: value => takeOption arguments option (some (String.ofList value)) rest
        | value => takeOption arguments option (some (String.ofList value)) rest
      else do
        let arguments ← addFlag arguments option
        takeLetters usage arguments rest letters

/-- Takes up one argument that looks like an option: the arguments, and those that are left. -/
def takeOne (usage : Usage) (arguments : Arguments) (text : String) (rest : List String) :
    Except UsageStop (Arguments × List String) :=
  match text.toList with
  | '-' :: '-' :: body =>
    let name := String.ofList (body.takeWhile (· != '='))
    let attached := match body.dropWhile (· != '=') with
      | '=' :: value => some (String.ofList value)
      | _ => none
    match usage.options.find? fun o => o.name == name with
    | some option => takeOption arguments option attached rest
    | none => .error .wrong
  | '-' :: letters => takeLetters usage arguments rest letters
  | _ => .error .wrong

/-- Takes up a list of operands. -/
def addOperands (usage : Usage) (arguments : Arguments) (texts : List String) :
    Except UsageStop Arguments :=
  texts.foldlM usage.addOperand arguments

/-- Reads arguments one after the other, as long as the fuel lasts; one unit for each argument is
enough. -/
def readFrom (usage : Usage) : Nat → Arguments → List String → Except UsageStop Arguments
  | 0, arguments, _ => .ok arguments
  | _, arguments, [] => .ok arguments
  | fuel + 1, arguments, text :: rest =>
    if text = "--" then usage.addOperands arguments rest
    else if looksLikeOption text then do
      let (arguments, rest) ← usage.takeOne arguments text rest
      usage.readFrom fuel arguments rest
    else do
      let arguments ← usage.addOperand arguments text
      usage.readFrom fuel arguments rest

/-- Reads the arguments of a command. Every operand must be there. -/
def read (usage : Usage) (texts : List String) : Except UsageStop Arguments := do
  let arguments ← usage.readFrom texts.length .empty texts
  if arguments.operands.length < usage.operands.length then throw .wrong
  else return arguments

/-- Reads options up to the first argument that is none: the arguments, and those that are left,
as long as the fuel lasts. After `--` there may be nothing. -/
def readOptions (usage : Usage) : Nat → Arguments → List String →
    Except UsageStop (Arguments × List String)
  | 0, arguments, rest => .ok (arguments, rest)
  | _, arguments, [] => .ok (arguments, [])
  | fuel + 1, arguments, text :: rest =>
    if text = "--" then if rest.isEmpty then .ok (arguments, []) else .error .wrong
    else if looksLikeOption text then do
      let (arguments, rest) ← usage.takeOne arguments text rest
      usage.readOptions fuel arguments rest
    else .ok (arguments, text :: rest)

end Usage

end LayerChain

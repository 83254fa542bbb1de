import MessageCatalog.Numeral

/-!
# Command-line arguments

The commands with their options, and how arguments are read. An option's value
is the next argument or follows an equals sign; an argument that starts with a
hyphen is never a value, a lone hyphen aside. Two hyphens end the options. The
options for all commands may stand before or behind the command's name.
-/

namespace MessageCatalog

/-- What an option takes. -/
inductive OptionKind where
  /-- Nothing; it may occur once. -/
  | flag
  /-- Any text. -/
  | text
  /-- A path, which is not empty. -/
  | path
  /-- A count of at most sixty-four bits. -/
  | count
  deriving DecidableEq

/-- The name of an option, without hyphens, and what it takes. -/
structure OptionRule where
  /-- The name. -/
  name : String
  /-- What the option takes. -/
  kind : OptionKind

/-- Where a command puts the catalog it has changed. -/
inductive Destination where
  /-- To standard output. -/
  | output
  /-- Into the file that was read. -/
  | inPlace
  /-- Into another file. -/
  | file (path : String)
  deriving DecidableEq

/-- What the program is asked to do. -/
inductive Command where
  /-- Count the messages of catalogs. -/
  | stats (inputs : List String) (json : Bool)
  /-- Read and check catalogs. -/
  | check (inputs : List String) (strict failOnIssues : Bool)
  /-- Look a message up. -/
  | lookup (input context source : String) (comment : Option String) (count : Option Nat)
  /-- Write a catalog in its one layout. -/
  | normalize (input : String) (destination : Destination)
  /-- Write a catalog without the messages that are history. -/
  | prune (input : String) (destination : Destination)
  /-- Write a catalog to start another language from. -/
  | init (input language output : String)
  deriving DecidableEq

/-- A command with the configuration file to be used for it, if one is named. -/
structure Invocation where
  /-- The configuration file. -/
  configuration : Option String
  /-- The command. -/
  command : Command
  deriving DecidableEq

/-- Why arguments give no command. -/
inductive ArgumentsError where
  /-- They are wrong. -/
  | usage
  /-- They ask for help. -/
  | help
  /-- They ask for the version. -/
  | version
  deriving DecidableEq

/-- Arguments that were read. -/
structure ArgumentValues where
  /-- The names of the flags that occurred. -/
  flags : List String
  /-- The options that occurred, with their values. -/
  values : List (String × String)
  /-- The arguments that belong to no option, in their order. -/
  positionals : List String

namespace ArgumentValues

/-- Nothing was read. -/
def empty : ArgumentValues := ⟨[], [], []⟩

/-- Whether a flag occurred. -/
def has (values : ArgumentValues) (name : String) : Bool := values.flags.contains name

/-- The value of an option. -/
def value? (values : ArgumentValues) (name : String) : Option String := values.values.lookup name

/-- The value of an option that must occur. -/
def required (values : ArgumentValues) (name : String) : Except ArgumentsError String :=
  match values.value? name with
  | some value => .ok value
  | none => .error .usage

/-- Add a positional argument, which is a path. Unless there may be several, only
the first is taken. -/
def addPositional (several : Bool) (values : ArgumentValues) (argument : String) :
    Except ArgumentsError ArgumentValues :=
  if argument.isEmpty || !(several || values.positionals.isEmpty) then .error .usage
  else .ok { values with positionals := values.positionals ++ [argument] }

/-- Add a flag. -/
def addFlag (values : ArgumentValues) (name : String) : Except ArgumentsError ArgumentValues :=
  if values.flags.contains name then .error .usage
  else .ok { values with flags := name :: values.flags }

/-- Add an option with its value. -/
def addValue (values : ArgumentValues) (rule : OptionRule) (value : String) :
    Except ArgumentsError ArgumentValues :=
  if (values.value? rule.name).isSome then .error .usage
  else
    let fits := match rule.kind with
      | .flag => false
      | .text => true
      | .path => !value.isEmpty
      | .count => (Radix.decimal.below? UInt64.size value.toList).isSome
    if fits then .ok { values with values := (rule.name, value) :: values.values }
    else .error .usage

end ArgumentValues

namespace Arguments

/-- The options of every command that take a value. -/
def commonRules : List OptionRule := [⟨"config", .path⟩]

/-- How an argument is meant. -/
inductive Form where
  /-- Two hyphens. -/
  | separator
  /-- An option, perhaps with a value behind an equals sign. -/
  | option (name : String) (value : Option String)
  /-- Letters behind one hyphen. -/
  | letters (letters : List Char)
  /-- Anything else. -/
  | positional

/-- How an argument is meant, by its hyphens. -/
def form (argument : String) : Form :=
  match argument.toList with
  | ['-', '-'] => .separator
  | '-' :: '-' :: rest =>
    let name := String.ofList (rest.takeWhile (· != '='))
    match rest.dropWhile (· != '=') with
    | [] => .option name none
    | _ :: value => .option name (some (String.ofList value))
  | ['-'] => .positional
  | '-' :: letters => .letters letters
  | _ => .positional

/-- Whether an argument may be the value of the option before it. -/
def isValue (argument : String) : Bool :=
  match form argument with
  | .positional => true
  | _ => false

/-- Check letters behind one hyphen. They raise the verbosity or ask for help;
the version is known before the command only. -/
def checkLetters (atTop : Bool) : List Char → Except ArgumentsError Unit
  | [] => .ok ()
  | 'v' :: rest => checkLetters atTop rest
  | 'h' :: _ => .error .help
  | 'V' :: _ => if atTop then .error .version else .error .usage
  | _ => .error .usage

/-- Check an option that takes no value and leaves no trace. -/
def checkPlain (atTop : Bool) (name : String) (value : Option String) :
    Except ArgumentsError Unit :=
  match name, value with
  | "verbose", none => .ok ()
  | "help", none => .error .help
  | "version", none => if atTop then .error .version else .error .usage
  | _, _ => .error .usage

/-- Read the arguments behind a command's name, of which several or only one may
be positional. The first that is wrong or asks for help decides. -/
def read (rules : List OptionRule) (several : Bool) (values : ArgumentValues) :
    List String → Except ArgumentsError ArgumentValues
  | [] => .ok values
  | argument :: rest =>
    match form argument with
    | .separator => rest.foldlM (ArgumentValues.addPositional several) values
    | .positional =>
      match values.addPositional several argument with
      | .ok values => read rules several values rest
      | .error fault => .error fault
    | .letters letters =>
      match checkLetters false letters with
      | .ok () => read rules several values rest
      | .error fault => .error fault
    | .option name value =>
      match rules.find? (·.name == name), value, rest with
      | none, value, rest =>
        match checkPlain false name value with
        | .ok () => read rules several values rest
        | .error fault => .error fault
      | some ⟨_, .flag⟩, none, rest =>
        match values.addFlag name with
        | .ok values => read rules several values rest
        | .error fault => .error fault
      | some rule, some value, rest =>
        match values.addValue rule value with
        | .ok values => read rules several values rest
        | .error fault => .error fault
      | some rule, none, value :: rest =>
        if isValue value then
          match values.addValue rule value with
          | .ok values => read rules several values rest
          | .error fault => .error fault
        else .error .usage
      | some _, none, [] => .error .usage

/-- The one positional argument. -/
def single (values : ArgumentValues) : Except ArgumentsError String :=
  match values.positionals with
  | [input] => .ok input
  | _ => .error .usage

/-- The positional arguments, of which there must be at least one. -/
def all (values : ArgumentValues) : Except ArgumentsError (List String) :=
  if values.positionals.isEmpty then .error .usage else .ok values.positionals

/-- Where the changed catalog goes. -/
def destination (values : ArgumentValues) : Except ArgumentsError Destination :=
  match values.value? "output", values.has "in-place" with
  | some _, true => .error .usage
  | some path, false => .ok (.file path)
  | none, true => .ok .inPlace
  | none, false => .ok .output

/-- A command's options, and how it is made of their values. -/
structure CommandRule where
  /-- The options of the command itself. -/
  rules : List OptionRule
  /-- Whether the command takes several positional arguments. -/
  several : Bool
  /-- The command that the values give. -/
  build : ArgumentValues → Except ArgumentsError Command

/-- The options of the commands that change a catalog. -/
def transformRules : List OptionRule := [⟨"output", .path⟩, ⟨"in-place", .flag⟩]

/-- The command of a name. -/
def commandRule? : String → Option CommandRule
  | "stats" => some ⟨[⟨"json", .flag⟩], true, fun values => do
      pure (.stats (← all values) (values.has "json"))⟩
  | "check" => some ⟨[⟨"strict", .flag⟩, ⟨"fail-on-issues", .flag⟩], true, fun values => do
      pure (.check (← all values) (values.has "strict") (values.has "fail-on-issues"))⟩
  | "lookup" => some ⟨
      [⟨"context", .text⟩, ⟨"source", .text⟩, ⟨"comment", .text⟩, ⟨"count", .count⟩],
      false, fun values => do
        pure (.lookup (← single values) (← values.required "context")
          (← values.required "source") (values.value? "comment")
          ((values.value? "count").bind fun count =>
            Radix.decimal.below? UInt64.size count.toList))⟩
  | "normalize" => some ⟨transformRules, false, fun values => do
      pure (.normalize (← single values) (← destination values))⟩
  | "prune" => some ⟨transformRules, false, fun values => do
      pure (.prune (← single values) (← destination values))⟩
  | "init" => some ⟨[⟨"language", .text⟩, ⟨"output", .path⟩], false, fun values => do
      pure (.init (← single values) (← values.required "language")
        (← values.required "output"))⟩
  | _ => none

/-- What to do about the arguments behind the command that gives help: it takes at
most the name of one command, which may be its own. -/
def readHelp : List String → ArgumentsError
  | [] => .help
  | [name] => if name = "help" ∨ (commandRule? name).isSome then .help else .usage
  | _ => .usage

/-- Read the arguments behind the name of a command. -/
def readCommand (configuration : Option String) (name : String) (arguments : List String) :
    Except ArgumentsError Invocation :=
  match commandRule? name with
  | none => .error (if name = "help" then readHelp arguments else .usage)
  | some rule => do
    let values ← read (commonRules ++ rule.rules) rule.several .empty arguments
    let command ← rule.build values
    pure ⟨(values.value? "config").or configuration, command⟩

/-- Read arguments from the program's name on, up to that of a command. -/
def readTop (configuration : Option String) :
    List String → Except ArgumentsError Invocation
  | [] => .error .usage
  | argument :: rest =>
    match form argument, rest with
    | .positional, rest => readCommand configuration argument rest
    | .separator, _ => .error .usage
    | .letters letters, rest =>
      match checkLetters true letters with
      | .ok () => readTop configuration rest
      | .error fault => .error fault
    | .option "config" (some path), rest =>
      if configuration.isSome || path.isEmpty then .error .usage else readTop (some path) rest
    | .option "config" none, path :: rest =>
      if configuration.isSome || path.isEmpty || !isValue path then .error .usage
      else readTop (some path) rest
    | .option name value, rest =>
      match checkPlain true name value with
      | .ok () => readTop configuration rest
      | .error fault => .error fault

end Arguments

/-- The invocation that arguments give. -/
def Invocation.ofArguments (arguments : List String) : Except ArgumentsError Invocation :=
  Arguments.readTop none arguments

end MessageCatalog

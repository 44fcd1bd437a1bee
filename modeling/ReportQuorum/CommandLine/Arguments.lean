import ReportQuorum.CommandLine.Help

/-!
# Reading the command line

Words are read from left to right, and the first fault or request for help decides. An option is
given at most once, as `--name value`, `--name=value`, `-n value`, `-nvalue` or `-n=value`; a value in
a word of its own does not begin with a dash, unless it is a dash alone.

## Main definitions

* `Command`: what the program is told to do
* `Request.parse`: what the words on the command line ask for
-/

namespace ReportQuorum.CommandLine

/-- What the program is told to do. -/
inductive Command where
  /-- Write a configuration with a new committee. -/
  | init (output : String) (members : Word)
  /-- Show the frame of a moment, or of the current one. -/
  | frame (config : String) (time : Option Word)
  /-- Play a scenario. -/
  | simulate (config scenario : String)
  /-- Show the digest of a payload. -/
  | hash (file : String)
  /-- Follow the frames, with this many milliseconds between two looks at the clock. -/
  | watch (config : String) (interval : Word) (ticks : Option Word)
deriving DecidableEq, Repr

/-- What the words on the command line ask for. -/
inductive Request where
  /-- A text about the program. -/
  | show (text : String)
  | run (command : Command)
deriving DecidableEq, Repr

/-- Why a command line is refused. -/
inductive UsageError where
  | noCommand
  | unknownCommand (word : String)
  | unexpectedArgument (word : String)
  /-- An option without a value. -/
  | missingValue (setting : Setting)
  /-- A value that does not fit its option. -/
  | invalidValue (setting : Setting) (word : String)
  | repeated (setting : Setting)
  /-- A required option that is not given. -/
  | missing (setting : Setting)
deriving DecidableEq, Repr

/-- The wording of a refusal. -/
def UsageError.message : UsageError → String
  | .noCommand => "a subcommand is required"
  | .unknownCommand word => "unrecognized subcommand '" ++ word ++ "'"
  | .unexpectedArgument word => "unexpected argument '" ++ word ++ "' found"
  | .missingValue k => "a value is required for '" ++ Help.usage k ++ "' but none was supplied"
  | .invalidValue k word => "invalid value '" ++ word ++ "' for '" ++ Help.usage k ++ "'"
  | .repeated k => "the argument '" ++ Help.usage k ++ "' cannot be used multiple times"
  | .missing k => "the required argument '" ++ Help.usage k ++ "' was not provided"

/-- A word on the command line, taken apart. -/
inductive Argument where
  /-- Two dashes and nothing else: what follows are no options. -/
  | escape
  /-- Two dashes and a name, perhaps with an equals sign and a value. -/
  | long (name : String) (value : Option String)
  /-- One dash and a letter, perhaps with more characters. -/
  | short (letter : Char) (rest : List Char)
  /-- Any other word, also a dash alone. -/
  | plain
deriving DecidableEq

/-- A word, taken apart. -/
def Argument.ofString (word : String) : Argument :=
  match word.toList with
  | ['-', '-'] => .escape
  | '-' :: '-' :: cs =>
    match cs.dropWhile (· ≠ '=') with
    | [] => .long (.ofList cs) none
    | _ :: value => .long (.ofList (cs.takeWhile (· ≠ '='))) (some (.ofList value))
  | '-' :: c :: cs => .short c cs
  | _ => .plain

/-- The values of options. -/
abbrev Values := List (Setting × Value)

namespace Values

/-- Adds the value of an option. -/
def insert (vs : Values) (k : Setting) (word : String) : Except UsageError Values :=
  match k.parse? word with
  | none => .error (.invalidValue k word)
  | some v => if (vs.lookup k).isSome then .error (.repeated k) else .ok ((k, v) :: vs)

/-- The value of an option, given or preset. -/
def value? (vs : Values) (k : Setting) : Option Value :=
  match vs.lookup k, k.presence with
  | some v, _ => some v
  | none, .preset word => k.parse? word
  | none, _ => none

/-- The path that an option gives. -/
def path (vs : Values) (k : Setting) : Except UsageError String :=
  match vs.value? k with
  | some (.path p) => .ok p
  | _ => .error (.missing k)

/-- The number that an option gives, if it is given. -/
def number? (vs : Values) (k : Setting) : Option Word :=
  match vs.value? k with
  | some (.number n) => some n
  | _ => none

/-- The number that an option gives. -/
def number (vs : Values) (k : Setting) : Except UsageError Word :=
  match vs.number? k with
  | some n => .ok n
  | none => .error (.missing k)

/-- The command of a subcommand with these options. -/
def command (vs : Values) : Verb → Except UsageError Command
  | .init => do return .init (← vs.path .output) (← vs.number .members)
  | .frame => do return .frame (← vs.path .config) (vs.number? .time)
  | .simulate => do return .simulate (← vs.path .config) (← vs.path .scenario)
  | .hash => do return .hash (← vs.path .file)
  | .watch => do
    return .watch (← vs.path .config) (← vs.number .interval) (vs.number? .ticks)

end Values

namespace Verb

/-- The options of a subcommand, from the words after it. -/
def read (v : Verb) (vs : Values) : List String → Except UsageError Request
  | [] => do return .run (← vs.command v)
  | word :: words =>
    match Argument.ofString word with
    | .plain => .error (.unexpectedArgument word)
    -- There are no arguments besides options, so nothing may follow.
    | .escape =>
      match words with
      | [] => do return .run (← vs.command v)
      | word :: _ => .error (.unexpectedArgument word)
    | .long "help" none => .ok (.show (Help.ofVerb v))
    | .short 'h' _ => .ok (.show (Help.ofVerb v))
    | .long name value =>
      match v.settings.find? (·.name = name), value with
      | none, _ => .error (.unexpectedArgument word)
      | some k, some value => do v.read (← vs.insert k value) words
      | some k, none => separate k words
    | .short letter rest =>
      match v.settings.find? (·.letter? = some letter), rest with
      | none, _ => .error (.unexpectedArgument word)
      | some k, [] => separate k words
      | some k, '=' :: value => do v.read (← vs.insert k (.ofList value)) words
      | some k, value => do v.read (← vs.insert k (.ofList value)) words
where
  /-- The same when the next word has to be the value of an option. -/
  separate (k : Setting) : List String → Except UsageError Request
  | [] => .error (.missingValue k)
  | value :: words =>
    -- A word that looks like an option is not taken for a value.
    if Argument.ofString value = .plain then do v.read (← vs.insert k value) words
    else .error (.missingValue k)

end Verb

namespace Request

/-- The help that the words after a request for help ask for. -/
def helpOn : List String → Except UsageError Request
  | [] => .ok (.show Help.overview)
  | ["help"] => .ok (.show Help.ofHelp)
  | "help" :: word :: _ => .error (.unknownCommand word)
  | word :: words =>
    match Verb.ofName? word, words with
    | none, _ => .error (.unknownCommand word)
    | some v, [] => .ok (.show (Help.ofVerb v))
    | some _, word :: _ => .error (.unknownCommand word)

/-- What the words on the command line ask for. -/
def parse : List String → Except UsageError Request
  | [] => .error .noCommand
  | word :: words =>
    match Argument.ofString word with
    | .escape => .error .noCommand
    | .long "help" none | .short 'h' _ => .ok (.show Help.overview)
    | .long "version" none | .short 'V' _ => .ok (.show versionLine)
    | .long .. | .short .. => .error (.unexpectedArgument word)
    | .plain =>
      if word = "help" then helpOn words
      else
        match Verb.ofName? word with
        | none => .error (.unknownCommand word)
        | some v => v.read [] words

end Request

end ReportQuorum.CommandLine

import ApiCatalog.CommandLine.Options

/-!
# Reading a command line

`Options.read` takes the words of a command line to the options they name. Words are read from left
to right: switches of the program first, then a command with its arguments.

A switch may take a value, attached to it or as the next word. A value that stands apart is only
looked at when the next switch is complete or the words end, so an error in it comes after the
errors of the words up to there. `Progress` is what is known between two words.
-/

namespace ApiCatalog

/-- What is wrong with a command line. -/
inductive UsageError where
  /-- A switch or a word that nothing takes. -/
  | unknownArgument
  /-- A value that is missing or is none of those that may be given. -/
  | invalidValue
  /-- A word that is not a command stands where one may be. -/
  | invalidSubcommand
  /-- A switch is repeated that may be given once. -/
  | argumentConflict
  /-- An argument of the command is missing, or a switch that another one needs. -/
  | missingRequiredArgument
  /-- A value is attached to a switch that takes none. -/
  | tooManyValues
deriving DecidableEq, Repr

/-- Why a command line names no options. -/
inductive Stop where
  /-- It asks for help. -/
  | help
  /-- It asks for the version of the program. -/
  | version
  | wrong (error : UsageError)
deriving DecidableEq, Repr

namespace CommandLine

/-- The switches that take a value. -/
inductive Setting where
  | context
  | group
  | apiVersion
  | hasField
  | output
deriving DecidableEq, Repr

/-- The switches that take none. -/
inductive Flag where
  | skipStatus
  | anyField
  | noHeaders
  | refresh
  | save
  | verbose
deriving DecidableEq, Repr

/-- The switches of the program. -/
inductive Switch where
  | setting (setting : Setting)
  | flag (flag : Flag)
  | help
  | version
deriving DecidableEq, Repr

/-- The switch of a long name. -/
def Switch.ofName? : String → Option Switch
  | "context" => some (.setting .context)
  | "group" => some (.setting .group)
  | "api-version" => some (.setting .apiVersion)
  | "has-field" => some (.setting .hasField)
  | "output" => some (.setting .output)
  | "skip-status" => some (.flag .skipStatus)
  | "any-field" => some (.flag .anyField)
  | "no-headers" => some (.flag .noHeaders)
  | "refresh" => some (.flag .refresh)
  | "save" => some (.flag .save)
  | "verbose" => some (.flag .verbose)
  | "help" => some .help
  | "version" => some .version
  | _ => none

/-- The switch of a letter. -/
def Switch.ofLetter? : Char → Option Switch
  | 'c' => some (.setting .context)
  | 'g' => some (.setting .group)
  | 'o' => some (.setting .output)
  | 'v' => some (.flag .verbose)
  | 'h' => some .help
  | 'V' => some .version
  | _ => none

/-- The options with a setting, unless the value is none that it may have. -/
def Setting.store? (value : String) (o : Options) : Setting → Option Options
  | .context => some { o with context := some value }
  | .group => some { o with group := some value }
  | .apiVersion => some { o with apiVersion := some value }
  | .hasField => some { o with fields := o.fields ++ [value] }
  | .output => (Format.ofName? value).map fun format => { o with format }

/-- The options with a flag. -/
def Flag.raise (o : Options) : Flag → Options
  | .skipStatus => { o with skipStatus := true }
  | .anyField => { o with anyField := true }
  | .noHeaders => { o with noHeaders := true }
  | .refresh => { o with refresh := true }
  | .save => { o with save := true }
  | .verbose => { o with verbose := true }

/-- What a word looks like. -/
inductive Word where
  /-- Two dashes: no switches follow. -/
  | terminator
  /-- A long name behind two dashes, perhaps with a value behind an equals sign. -/
  | long (name : String) (value : Option String)
  /-- Letters behind a dash. -/
  | letters (letters : List Char)
  /-- Anything else, a single dash included. -/
  | plain (text : String)
deriving DecidableEq, Repr

/-- The kind of a word. -/
def Word.ofText (text : String) : Word :=
  match text.toList with
  | ['-', '-'] => .terminator
  | '-' :: '-' :: name =>
    .long (String.ofList (name.takeWhile (· ≠ '='))) (Text.afterFirst '=' (String.ofList name))
  | '-' :: c :: rest => .letters (c :: rest)
  | _ => .plain text

/-- What is known of the options after some words. -/
structure Progress where
  /-- The options so far. -/
  options : Options := {}
  /-- The switches that were given. -/
  given : List Switch := []
  /-- A setting that waits for its value, or has one that stood apart from it. -/
  pending : Option (Setting × Option String) := none

namespace Progress

/-- The next word is a value, unless it looks like a switch. -/
def awaits? (p : Progress) : Option Setting :=
  match p.pending with
  | some (setting, none) => some setting
  | _ => none

/-- Note that a switch is given. Only fields may be repeated. -/
def note (p : Progress) (switch : Switch) : Except Stop Progress :=
  if switch ∈ p.given ∧ switch ≠ .setting .hasField then .error (.wrong .argumentConflict)
  else .ok { p with given := switch :: p.given }

/-- Take a setting with its value. -/
def store (p : Progress) (setting : Setting) (value : String) : Except Stop Progress := do
  let p ← p.note (.setting setting)
  match setting.store? value p.options with
  | some options => .ok { p with options }
  | none => .error (.wrong .invalidValue)

/-- Take the setting that is pending. -/
def settle (p : Progress) : Except Stop Progress :=
  match p.pending with
  | none => .ok p
  | some (setting, some value) => { p with pending := none }.store setting value
  | some (_, none) => .error (.wrong .invalidValue)

/-- Take a setting with an attached value. -/
def attach (p : Progress) (setting : Setting) (value : String) : Except Stop Progress := do
  (← p.settle).store setting value

/-- Take a setting whose value is the next word. -/
def await (p : Progress) (setting : Setting) : Except Stop Progress := do
  let p ← p.settle
  .ok { p with pending := some (setting, none) }

/-- Stop, unless something is wrong with the setting that is pending. -/
def stop (p : Progress) (reason : Stop) : Except Stop Progress := do
  let _ ← p.settle
  .error reason

/-- Take a flag. -/
def raise (p : Progress) (flag : Flag) : Except Stop Progress := do
  let p ← (← p.settle).note (.flag flag)
  .ok { p with options := flag.raise p.options }

/-- Take a switch without an attached value. -/
def take (p : Progress) : Switch → Except Stop Progress
  | .setting setting => p.await setting
  | .flag flag => p.raise flag
  | .help => p.stop .help
  | .version => p.stop .version

/-- Take a long name with the value attached to it, if there is one. -/
def takeLong (p : Progress) (name : String) (value : Option String) : Except Stop Progress :=
  match Switch.ofName? name, value with
  | none, _ => .error (.wrong .unknownArgument)
  | some switch, none => p.take switch
  | some (.setting setting), some value => p.attach setting value
  | some _, some _ => .error (.wrong .tooManyValues)

/-- The value attached to a letter, without the equals sign it may have in front. -/
def attachedValue? : List Char → Option String
  | [] => none
  | '=' :: rest => some (String.ofList rest)
  | rest => some (String.ofList rest)

/-- Take letters, one after the other until one of them takes the rest as its value. -/
def takeLetters (p : Progress) : List Char → Except Stop Progress
  | [] => .ok p
  | c :: rest =>
    match Switch.ofLetter? c, attachedValue? rest with
    | none, _ => .error (.wrong .unknownArgument)
    | some (.setting setting), some value => p.attach setting value
    | some switch, _ => do (← p.take switch).takeLetters rest

/-- The options at the end of the words, with the command if there is one. -/
def finish (p : Progress) (command : Option Command) : Except Stop Options := do
  let p ← p.settle
  if p.options.anyField ∧ p.options.fields = [] then .error (.wrong .missingRequiredArgument)
  else .ok { p.options with command }

end Progress

/-- The commands, and the one that shows help on them. -/
inductive Subcommand where
  | list
  | describe
  | hasField
  | help
deriving DecidableEq, Repr

namespace Subcommand

/-- The command of a name. -/
def ofName? : String → Option Subcommand
  | "list" => some .list
  | "describe" => some .describe
  | "has-field" => some .hasField
  | "help" => some .help
  | _ => none

/-- How many arguments a command takes. -/
def arity : Subcommand → Nat
  | .describe => 1
  | .hasField => 2
  | .list | .help => 0

/-- The command with its arguments, if they are all there. -/
def withArguments? : Subcommand → List String → Option Command
  | .list, [] => some .list
  | .describe, [name] => some (.describe name)
  | .hasField, [name, path] => some (.hasField name path)
  | _, _ => none

/-- Read the arguments of a command, for no more than there is room. The only switch that a command
knows is the one for help, and two dashes end the switches. -/
def readArguments : (room : Nat) → List String → Except Stop (List String)
  | _, [] => .ok []
  | room, word :: words =>
    match Word.ofText word with
    | .terminator =>
      if words.length ≤ room then .ok words else .error (.wrong .unknownArgument)
    | .long "help" none => .error .help
    | .long "help" (some _) => .error (.wrong .tooManyValues)
    | .letters ('h' :: _) => .error .help
    | .long _ _ | .letters _ => .error (.wrong .unknownArgument)
    | .plain text =>
      match room with
      | 0 => .error (.wrong .unknownArgument)
      | room + 1 => (readArguments room words).map (text :: ·)

/-- Read what follows the command for help: nothing, or the name of a command. -/
def readHelp : List String → Stop
  | [] => .help
  | [name] => if (ofName? name).isSome then .help else .wrong .invalidSubcommand
  | _ => .wrong .invalidSubcommand

/-- Read what follows the name of a command. -/
def read (s : Subcommand) (words : List String) : Except Stop Command :=
  if s = .help then .error (readHelp words)
  else do
    let arguments ← readArguments s.arity words
    match s.withArguments? arguments with
    | some command => .ok command
    | none => .error (.wrong .missingRequiredArgument)

end Subcommand

/-- Read what follows two dashes in front of any command. No word may stand there. -/
def readTerminated (p : Progress) : List String → Except Stop Options
  | [] => p.finish none
  | word :: _ =>
    .error (.wrong
      (if (Subcommand.ofName? word).isSome then .unknownArgument else .invalidSubcommand))

/-- Read the words of a command line. -/
def readWords (p : Progress) : List String → Except Stop Options
  | [] => p.finish none
  | word :: words =>
    match Word.ofText word with
    | .terminator => readTerminated p words
    | .long name value => do readWords (← p.takeLong name value) words
    | .letters letters => do readWords (← p.takeLetters letters) words
    | .plain text =>
      match p.awaits? with
      | some setting => readWords { p with pending := some (setting, some text) } words
      | none =>
        match Subcommand.ofName? text with
        | some subcommand => do
          let command ← subcommand.read words
          p.finish (some command)
        | none => .error (.wrong .invalidSubcommand)

end CommandLine

/-- The options that a command line names. -/
def Options.read (words : List String) : Except Stop Options := CommandLine.readWords {} words

end ApiCatalog

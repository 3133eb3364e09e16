import ChannelRouter.Program

/-!
# The command line

Options come in a long spelling and mostly in a short one.  Four take a value,
which is attached to the option or is the next argument, and three are switches.
There are no other arguments.

An option whose value was a separate argument is only accounted for when the
next option is, or at the end; that decides which of two faults is reported.  A
fault of an argument itself is reported at once, whatever is outstanding.
-/

namespace ChannelRouter

/-- The options that take a value. -/
inductive ValueOption where
  | config
  | bind
  | parent
  | logLevel
deriving DecidableEq, Repr

/-- The options that take none. -/
inductive Switch where
  | jsonLogs
  | help
  | version
deriving DecidableEq, Repr

/-- An option. -/
inductive Flag where
  | valued (option : ValueOption)
  | switch (switch : Switch)
deriving DecidableEq, Repr

namespace Flag

/-- The options by their long spellings. -/
def ofLong? : String → Option Flag
  | "config" => some (.valued .config)
  | "bind" => some (.valued .bind)
  | "upstream" => some (.valued .parent)
  | "log-level" => some (.valued .logLevel)
  | "json-logs" => some (.switch .jsonLogs)
  | "help" => some (.switch .help)
  | "version" => some (.switch .version)
  | _ => none

/-- The options by their short spellings. -/
def ofShort? : Char → Option Flag
  | 'c' => some (.valued .config)
  | 'b' => some (.valued .bind)
  | 'u' => some (.valued .parent)
  | 'l' => some (.valued .logLevel)
  | 'h' => some (.switch .help)
  | 'V' => some (.switch .version)
  | _ => none

end Flag

/-- What the command line asks for. -/
structure CommandLine where
  config : Option String
  bind : Option String
  parent : Option String
  logLevel : Option String
  jsonLogs : Bool
deriving DecidableEq, Repr

/-- What is wrong with a command line. -/
inductive CommandLineError where
  /-- An argument is neither an option nor the value of one. -/
  | unknown
  /-- An option stands without its value. -/
  | missingValue
  /-- An option is given twice. -/
  | repeated
  /-- A switch is given a value. -/
  | needlessValue
deriving DecidableEq, Repr

/-- Why the program is not run. -/
inductive CommandLineExit where
  | refused (error : CommandLineError)
  | help (programName : String)
  | version
deriving DecidableEq, Repr

namespace CommandLine

/-- Nothing asked for. -/
def empty : CommandLine := ⟨none, none, none, none, false⟩

/-- The value of an option. -/
def value? (line : CommandLine) : ValueOption → Option String
  | .config => line.config
  | .bind => line.bind
  | .parent => line.parent
  | .logLevel => line.logLevel

/-- Set the value of an option. -/
def setValue (line : CommandLine) (option : ValueOption) (value : String) :
    CommandLine :=
  match option with
  | .config => { line with config := some value }
  | .bind => { line with bind := some value }
  | .parent => { line with parent := some value }
  | .logLevel => { line with logLevel := some value }

/-- How far the reading of a command line has come. -/
structure Progress where
  line : CommandLine
  /-- The option not yet accounted for, and its value if that has come. -/
  outstanding : Option (ValueOption × Option String)
  programName : String
deriving DecidableEq, Repr

/-- A step of the reading. -/
abbrev Step := Except CommandLineExit Progress

/-- Account for an option and its value. -/
def Progress.account (progress : Progress) (option : ValueOption)
    (value : String) : Step :=
  if (progress.line.value? option).isSome then .error (.refused .repeated)
  else .ok { progress with line := progress.line.setValue option value }

/-- Account for the option that is outstanding. -/
def Progress.resolve (progress : Progress) : Step :=
  match progress.outstanding with
  | none => .ok progress
  | some (_, none) => .error (.refused .missingValue)
  | some (option, some value) =>
    { progress with outstanding := none }.account option value

/-- Account for a switch. -/
def Progress.switch (progress : Progress) (switch : Switch) : Step := do
  let progress ← progress.resolve
  match switch with
  | .help => .error (.help progress.programName)
  | .version => .error .version
  | .jsonLogs =>
    if progress.line.jsonLogs then .error (.refused .repeated)
    else .ok { progress with line := { progress.line with jsonLogs := true } }

/-- Account for an option with a value attached to it. -/
def Progress.attached (progress : Progress) (option : ValueOption)
    (value : String) : Step := do
  (← progress.resolve).account option value

/-- Begin an option whose value is the next argument. -/
def Progress.await (progress : Progress) (option : ValueOption) : Step := do
  let progress ← progress.resolve
  .ok { progress with outstanding := some (option, none) }

/-- A long option, without its dashes. -/
def Progress.long (progress : Progress) (text : List Char) : Step :=
  let name := text.takeWhile (· ≠ '=')
  match Flag.ofLong? (String.ofList name), text.drop name.length with
  | none, _ => .error (.refused .unknown)
  | some (.switch switch), [] => progress.switch switch
  | some (.switch _), _ => .error (.refused .needlessValue)
  | some (.valued option), [] => progress.await option
  | some (.valued option), _ :: value =>
    progress.attached option (String.ofList value)

/-- Short options in one argument, without the dash. -/
def Progress.short (progress : Progress) : List Char → Step
  | [] => .ok progress
  | c :: rest =>
    match Flag.ofShort? c with
    | none => .error (.refused .unknown)
    | some (.switch switch) => do (← progress.switch switch).short rest
    | some (.valued option) =>
      match rest with
      | [] => progress.await option
      | '=' :: value => progress.attached option (String.ofList value)
      | value => progress.attached option (String.ofList value)

/-- An argument that is no option: the value of the one that waits for it. -/
def Progress.plain (progress : Progress) (text : String) : Step :=
  match progress.outstanding with
  | some (option, none) =>
    .ok { progress with outstanding := some (option, some text) }
  | _ => .error (.refused .unknown)

/-- Read arguments; two dashes alone end the options. -/
def Progress.read (progress : Progress) : List String → Step
  | [] => progress.resolve
  | argument :: others =>
    match argument.toList with
    | ['-', '-'] =>
      if others.isEmpty then progress.resolve else .error (.refused .unknown)
    | '-' :: '-' :: text => do (← progress.long text).read others
    | '-' :: c :: text => do (← progress.short (c :: text)).read others
    | _ => do (← progress.plain argument).read others

/-- The name at the end of a path, if the path ends in one. -/
def fileName? (path : String) : Option String :=
  let parts := (path.splitOn "/").filter fun part => part ≠ "" && part ≠ "."
  parts.getLast?.filter (· ≠ "..")

/-- Read a command line, the first argument being the program's name. -/
def read : List String → Except CommandLineExit CommandLine
  | [] => .ok empty
  | program :: arguments =>
    Progress.line <$> Progress.read
      ⟨empty, none, (fileName? program).getD Program.name⟩ arguments

end CommandLine

namespace CommandLineExit

/-- The help on the command line. -/
def helpText (programName : String) : String :=
  "Astron message director\n\n" ++
    "Usage: " ++ programName ++ " [OPTIONS]\n\n" ++
    "Options:\n" ++
    "  -c, --config <FILE>       Configuration file path\n" ++
    "  -b, --bind <ADDRESS>      Participant listen address (e.g., 127.0.0.1:7199)\n" ++
    "  -u, --upstream <ADDRESS>  Parent message director to connect to\n" ++
    "  -l, --log-level <LEVEL>   Log level (trace, debug, info, warn, error)\n" ++
    "      --json-logs           Output logs in JSON format\n" ++
    "  -h, --help                Print help\n" ++
    "  -V, --version             Print version\n"

/-- The text the program prints instead of running. -/
def output? : CommandLineExit → Option String
  | refused _ => none
  | help programName => some (helpText programName)
  | version => some (Program.name ++ " " ++ Program.version ++ "\n")

end CommandLineExit

end ChannelRouter

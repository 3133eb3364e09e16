import ChannelRouter.LogRecord
import ChannelRouter.Startup

/-!
# A run of the program

A run begins with the command line and the settings.  It says so in the log,
connects to the parent if there is one, and starts the server.  The first thing
that fails ends the run, and so does the loss of the parent; otherwise the
program serves until it is stopped.
-/

namespace ChannelRouter

/-- How a run of the program ended, or that it goes on. -/
inductive Ending where
  /-- The command line asked for a text, or was refused. -/
  | exited (exit : CommandLineExit)
  /-- The program could not start. -/
  | failed (message : String)
  /-- The parent was lost. -/
  | orphaned
  /-- The program serves until it is stopped. -/
  | serving (settings : Settings)
deriving DecidableEq, Repr

namespace Ending

/-- The status that the program exits with, if it ends. -/
def status? : Ending → Option Nat
  | exited (.refused _) => some 2
  | exited _ => some 0
  | failed _ => some 1
  | orphaned => some 1
  | serving _ => none

/-- The end of a run that does not reach its parent. -/
def unreached (parent : String) : Ending :=
  failed ("Failed to connect to upstream message director at " ++ parent)

end Ending

/-- What a run does: how it ends, and what it logs. -/
structure Run where
  ending : Ending
  /-- Whether records are written for machines. -/
  jsonLogs : Bool
  records : List LogRecord
deriving DecidableEq, Repr

/-- What a run reads before it does anything. -/
structure Surroundings where
  environment : Environment
  /-- What the environment says about logging. -/
  logDirectives : Option String
  /-- The file at a path. -/
  file : String → Settings.File
  home : String

/-- What a run has made up its mind about before it does anything. -/
structure Prepared where
  settings : Settings
  jsonLogs : Bool
  filter : LogFilter
deriving DecidableEq, Repr

namespace Prepared

/--
Read the arguments, of which the first is the program's name, and the settings.
-/
def read (surroundings : Surroundings) (arguments : List String) :
    Except Ending Prepared :=
  match CommandLine.read arguments with
  | .error exit => .error (.exited exit)
  | .ok line =>
    match Settings.load surroundings.environment
        (line.config.map surroundings.file)
        ((Settings.usualPaths surroundings.home).map surroundings.file) with
    | .error error => .error (.failed error.message)
    | .ok settings =>
      let settings := settings.override line
      .ok
        { settings
          jsonLogs := line.jsonLogs
          filter :=
            LogFilter.choose surroundings.logDirectives settings.logLevel }

/-- Whether a record is shown. -/
def shows (prepared : Prepared) (record : LogRecord) : Bool :=
  prepared.filter.shows Program.name record.level

end Prepared

namespace Run

/-- The first record of a run. -/
def starting (settings : Settings) : LogRecord where
  level := .info
  message := "Starting " ++ Program.name
  fields :=
    [ ("version", Program.version), ("bind", settings.director.bind),
      ("upstream", settings.parent?.getD "none") ]

/-- The last record of a run whose parent was lost. -/
def unreachable (parent : String) : LogRecord where
  level := .error
  message := "Upstream message director unreachable; exiting"
  fields := [("parent", parent)]

/--
How a run with settings ends, and what it logs on the way, given the addresses
that others listen on and where a parent answers, which hangs up at once.
-/
def withSettings (settings : Settings) (taken parents : List SocketAddress) :
    Ending × List LogRecord :=
  let ending :=
    match (Startup.run settings taken).failure with
    | some failure => Ending.failed failure.message
    | none => .serving settings
  match settings.parent? with
  | none => (ending, [starting settings])
  | some parent =>
    if SocketAddress.reaches parents parent then
      match ending with
      | .serving _ => (.orphaned, [starting settings, unreachable parent])
      | ending => (ending, [starting settings])
    else (.unreached parent, [starting settings])

/-- Run the program with the given arguments, of which the first is its name. -/
def start (surroundings : Surroundings) (taken parents : List SocketAddress)
    (arguments : List String) : Run :=
  match Prepared.read surroundings arguments with
  | .error ending => ⟨ending, false, []⟩
  | .ok prepared =>
    let (ending, records) := withSettings prepared.settings taken parents
    ⟨ending, prepared.jsonLogs, records.filter prepared.shows⟩

end Run

end ChannelRouter

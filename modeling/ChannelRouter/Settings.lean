import ChannelRouter.CommandLine
import ChannelRouter.Service.Basic
import ChannelRouter.SocketAddress
import ChannelRouter.Toml.Document

/-!
# Settings

The settings come in four sections and one value of their own.  A configuration
text may set any of them, in tables or, within a section, by position in an
array; what it does not set keeps its default, and what it sets beside them is
ignored.  Two defaults can be given by the environment.  The command line
overrides what the text says.

The module also says which text is read: one named on the command line, or else
the first that exists at one of the usual places.
-/

namespace ChannelRouter

/-- What the environment says about defaults. -/
structure Environment where
  bind : Option String
  parent : Option String
deriving DecidableEq, Repr

/-- Where participants connect, and where the parent is. -/
structure DirectorSettings where
  bind : String
  /-- The address of the parent; blank for none. -/
  connect : String
  queueCapacity : Nat
deriving DecidableEq, Repr

/-- Limits on connections, in milliseconds and bytes. -/
structure NetworkSettings where
  writeTimeout : Nat
  /-- Zero for no limit. -/
  readTimeout : Nat
  maxDatagram : Nat
deriving DecidableEq, Repr

/-- Where metrics are published. -/
structure MetricsSettings where
  enabled : Bool
  port : Nat
deriving DecidableEq, Repr

/-- Where operators ask. -/
structure AdminSettings where
  enabled : Bool
  bind : String
deriving DecidableEq, Repr

/-- All settings. -/
structure Settings where
  director : DirectorSettings
  network : NetworkSettings
  metrics : MetricsSettings
  admin : AdminSettings
  logLevel : String
deriving DecidableEq, Repr

/-- Why there are no settings. -/
inductive SettingsError where
  | unreadable (path : String)
  | malformed (path : String)
deriving DecidableEq, Repr

namespace SettingsError

/-- The wording of an error. -/
def message : SettingsError → String
  | unreadable path => "Failed to read config file: " ++ path
  | malformed path => "Failed to parse config file: " ++ path

end SettingsError

namespace Toml.Value

/-- A value that is a text. -/
def text? : Value → Option String
  | text value => some value
  | _ => none

/-- A value that is a truth value. -/
def boolean? : Value → Option Bool
  | boolean value => some value
  | _ => none

/-- A value that is a natural number below a bound. -/
def natural? (bound : Nat) : Value → Option Nat
  | integer value =>
    if 0 ≤ value ∧ value.toNat < bound then some value.toNat else none
  | _ => none

/-- A field of a section, by name in a table and by position in an array. -/
def field? (section_ : Value) (position : Nat) (name : String) :
    Option (Option Value) :=
  match section_ with
  | table _ entries => some (Entries.find? entries name)
  | array items => some items[position]?
  | tables elements => some (elements[position]?.map (table .header))
  | _ => none

/--
A field of a section, or its default if it is not set; nothing if it is
ill-typed.
-/
def fieldOr {α : Type} (read : Value → Option α) (fallback : α)
    (section_ : Value) (position : Nat) (name : String) : Option α := do
  match ← section_.field? position name with
  | none => pure fallback
  | some value => read value

end Toml.Value

namespace Settings

open Toml (Value Entries)

/-- The bound of a 64-bit number. -/
def wordBound : Nat := UInt64.size

/-- The director's section if it is not set. -/
def defaultDirector (environment : Environment) : DirectorSettings where
  bind := environment.bind.getD "127.0.0.1:7199"
  connect := environment.parent.getD ""
  queueCapacity := Director.defaultCapacity

/-- The network section if it is not set. -/
def defaultNetwork : NetworkSettings where
  writeTimeout := FrameWriter.defaultPatience
  readTimeout := 0
  maxDatagram := FrameReader.defaultLimit

/-- The metrics section if it is not set. -/
def defaultMetrics : MetricsSettings := ⟨true, 9090⟩

/-- The admin section if it is not set. -/
def defaultAdmin : AdminSettings := ⟨true, "127.0.0.1:7198"⟩

/-- The settings if nothing is set. -/
def standard (environment : Environment) : Settings where
  director := defaultDirector environment
  network := defaultNetwork
  metrics := defaultMetrics
  admin := defaultAdmin
  logLevel := "info"

/-- Read the director's section. -/
def director? (environment : Environment) (value : Value) :
    Option DirectorSettings := do
  let fallback := defaultDirector environment
  let bind ← value.fieldOr Value.text? fallback.bind 0 "bind"
  let connect ← value.fieldOr Value.text? fallback.connect 1 "connect"
  let queueCapacity ←
    value.fieldOr (Value.natural? wordBound) fallback.queueCapacity 2
      "queue_capacity"
  pure { bind, connect, queueCapacity }

/-- Read the network section. -/
def network? (value : Value) : Option NetworkSettings := do
  let number := Value.natural? wordBound
  let writeTimeout ← value.fieldOr number defaultNetwork.writeTimeout 0
      "write_timeout_ms"
  let readTimeout ← value.fieldOr number defaultNetwork.readTimeout 1
      "read_timeout_ms"
  let maxDatagram ← value.fieldOr number defaultNetwork.maxDatagram 2
      "max_datagram_size"
  pure { writeTimeout, readTimeout, maxDatagram }

/-- Read the metrics section. -/
def metrics? (value : Value) : Option MetricsSettings := do
  let enabled ← value.fieldOr Value.boolean? defaultMetrics.enabled 0 "enabled"
  let port ← value.fieldOr (Value.natural? 65536) defaultMetrics.port 1 "port"
  pure { enabled, port }

/-- Read the admin section. -/
def admin? (value : Value) : Option AdminSettings := do
  let enabled ← value.fieldOr Value.boolean? defaultAdmin.enabled 0 "enabled"
  let bind ← value.fieldOr Value.text? defaultAdmin.bind 1 "bind"
  pure { enabled, bind }

/-- Read what stands under a key of the root table, or take its default. -/
def entryOr {α : Type} (read : Value → Option α) (fallback : α) (root : Entries)
    (key : String) : Option α :=
  match root.find? key with
  | none => some fallback
  | some value => read value

/-- The settings that a configuration text makes. -/
def ofText? (environment : Environment) (text : String) : Option Settings := do
  let root ← Toml.document? text
  let fallback := standard environment
  let director ← entryOr (director? environment) fallback.director root
      "messagedirector"
  let network ← entryOr network? fallback.network root "network"
  let metrics ← entryOr metrics? fallback.metrics root "metrics"
  let admin ← entryOr admin? fallback.admin root "admin"
  let logLevel ← entryOr Value.text? fallback.logLevel root "log_level"
  pure { director, network, metrics, admin, logLevel }

/-- A file: where it is, and its bytes if it is there. -/
structure File where
  path : String
  bytes : Option (List UInt8)
deriving DecidableEq, Repr

/-- The settings that a file makes. -/
def ofFile (environment : Environment) (file : File) :
    Except SettingsError Settings :=
  match file.bytes.bind fun bytes => String.fromUTF8? ⟨bytes.toArray⟩ with
  | none => .error (.unreadable file.path)
  | some text =>
    match ofText? environment text with
    | none => .error (.malformed file.path)
    | some settings => .ok settings

/-- The usual places of a configuration file, below the given home directory. -/
def usualPaths (home : String) : List String :=
  ["astrond.toml", "/etc/astron/astrond.toml",
    home ++ "/.config/astron/astrond.toml"]

/-- Load the named file, or else the first usual one that exists. -/
def load (environment : Environment) (named : Option File) (usual : List File) :
    Except SettingsError Settings :=
  match named, usual.find? (·.bytes.isSome) with
  | some file, _ => ofFile environment file
  | none, some file => ofFile environment file
  | none, none => .ok (standard environment)

/-- Let the command line override the settings. -/
def override (settings : Settings) (line : CommandLine) : Settings :=
  { settings with
    director :=
      { settings.director with
        bind := line.bind.getD settings.director.bind
        connect := line.parent.getD settings.director.connect }
    logLevel := line.logLevel.getD settings.logLevel }

/-- Whether a character is white space. -/
def isSpace (c : Char) : Bool :=
  c == ' ' || ('\t' ≤ c && c ≤ '\r') || c == '\x85' || c ==
    '\u00a0' || c == '\u1680' ||
    ('\u2000' ≤ c && c ≤ '\u200a') || c == '\u2028' || c ==
      '\u2029' || c == '\u202f' ||
    c == '\u205f' || c == '\u3000'

/-- A text without the white space around it. -/
def trimmed (text : String) : String :=
  String.ofList
    (((text.toList.dropWhile isSpace).reverse.dropWhile isSpace).reverse)

/-- The address of the parent, if there is one. -/
def parent? (settings : Settings) : Option String :=
  let connect := trimmed settings.director.connect
  if connect.isEmpty then none else some connect

/-- How connections are served. -/
def service (settings : Settings) : ServiceSettings where
  writePatience := settings.network.writeTimeout
  readPatience :=
    if settings.network.readTimeout = 0 then none
    else some settings.network.readTimeout
  maxDatagram := settings.network.maxDatagram

end Settings

end ChannelRouter

/-!
# Which log records are shown

A filter is a list of directives between commas.  A directive is a level, or a
target with a level, or a target alone for all levels; levels are named in any
case or numbered.  Of the directives for a target, the one with the longest name
decides, and the one without a name comes last; a target that no directive is
for is not shown.
-/

namespace ChannelRouter

/-- How important a record is, the most important first. -/
inductive LogLevel where
  | error
  | warn
  | info
  | debug
  | trace
deriving DecidableEq, Repr

namespace LogLevel

/-- The name of a level in a record. -/
def name : LogLevel → String
  | error => "ERROR"
  | warn => "WARN"
  | info => "INFO"
  | debug => "DEBUG"
  | trace => "TRACE"

/-- How far down the levels are shown that this one stands for. -/
def rank : LogLevel → Nat
  | error => 1
  | warn => 2
  | info => 3
  | debug => 4
  | trace => 5

end LogLevel

/-- A directive of a filter. -/
structure LogDirective where
  /-- The target it is for; without one, for every target. -/
  target : Option String
  /-- The greatest rank shown; zero shows nothing. -/
  rank : Nat
deriving DecidableEq, Repr

/-- Directives, each for another target. -/
structure LogFilter where
  directives : List LogDirective
deriving DecidableEq, Repr

namespace LogDirective

/-- The greatest rank that a name or a number of a level shows. -/
def rank? (text : String) : Option Nat :=
  match text.toLower with
  | "off" | "0" => some 0
  | "error" | "1" => some 1
  | "warn" | "2" => some 2
  | "info" | "3" => some 3
  | "debug" | "4" => some 4
  | "trace" | "5" => some 5
  | _ => none

/-- Whether a character can stand in the name of a target. -/
def isTargetChar (c : Char) : Bool :=
  c.isAlphanum || c == '_' || c == ':' || c == '-'

/-- The directive that a text denotes. -/
def parse? (text : String) : Option LogDirective :=
  match rank? text with
  | some rank => some ⟨none, rank⟩
  | none =>
    let target := text.toList.takeWhile (· ≠ '=')
    if target.isEmpty || !target.all isTargetChar then none
    else
      match text.toList.drop target.length with
      | [] | ['='] => some ⟨some (String.ofList target), LogLevel.trace.rank⟩
      | _ :: level =>
        (rank? (String.ofList level)).map (⟨some (String.ofList target), ·⟩)

/-- Whether the directive is for a target. -/
def isFor (directive : LogDirective) (target : String) : Bool :=
  match directive.target with
  | none => true
  | some named => named.toList.isPrefixOf target.toList

/-- The length of the name of a directive's target. -/
def weight (directive : LogDirective) : Nat :=
  match directive.target with
  | none => 0
  | some named => named.length + 1

end LogDirective

namespace LogFilter

/-- The texts between commas, those that are empty left out. -/
def texts (text : String) : List String := (text.splitOn ",").filter (· ≠ "")

/-- Put directives together; a later one replaces one for the same target. -/
def ofDirectives (directives : List LogDirective) : LogFilter :=
  ⟨directives.foldl
    (fun chosen directive =>
      directive :: chosen.filter (·.target ≠ directive.target)) []⟩

/-- The filter that a text denotes if all its directives are good. -/
def parse? (text : String) : Option LogFilter :=
  ((texts text).mapM LogDirective.parse?).map ofDirectives

/--
The filter of the good directives in a text, which shows errors if there are
none.
-/
def parseLenient (text : String) : LogFilter :=
  match (texts text).filterMap LogDirective.parse? with
  | [] => ofDirectives [⟨none, LogLevel.error.rank⟩]
  | directives => ofDirectives directives

/-- The filter that the environment asks for, or else the configured one. -/
def choose (environment : Option String) (configured : String) : LogFilter :=
  (environment.bind parse?).getD (parseLenient configured)

/-- The directive that decides about a target. -/
def decisive? (filter : LogFilter) (target : String) : Option LogDirective :=
  (filter.directives.filter (·.isFor target)).foldl
    (fun best directive =>
      match best with
      | none => some directive
      | some other =>
        if other.weight < directive.weight then some directive else some other)
    none

/-- Whether a record is shown. -/
def shows (filter : LogFilter) (target : String) (level : LogLevel) : Bool :=
  match filter.decisive? target with
  | none => false
  | some directive => level.rank ≤ directive.rank

end LogFilter

end ChannelRouter
